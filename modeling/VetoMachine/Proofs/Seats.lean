import VetoMachine.Proofs.Account

/-!
# Hubs that can come about

On a hub that can come about (`Hub.Reachable`) every machine is made with a new cancel flag, so machines with
different names have different flags, and the flag of a machine that is taken out of its seat is apart from all
others (`Hub.Reachable.apart`).  Deliveries and operations lead from such hubs to such hubs, and leave a machine
that is being driven out of its seat (`Hub.Reachable.publishWithin`, `Hub.persists_perform`, `Hub.Reachable.drive`).
-/

namespace VetoMachine

variable {M L : Type}

namespace Hub

/-- A hub that can come about, also in the middle of a call: machines are made with new flags and take a seat,
are taken out of it and put back after operations; everything else leaves them in their seats. -/
inductive Reachable : Hub M L → Prop where
  | empty (capacity : Nat) (memory : M) : Reachable (empty capacity memory)
  | create {h : Hub M L} (hh : h.Reachable) {m : Machine} (hm : m.Reachable) (hflag : m.flag = h.nextFlag)
      (name : String) : Reachable (h.newFlag.2.seat name m)
  | occupy {h : Hub M L} (hh : h.Reachable) {name : String} {m : Machine}
      (hseat : h.machines[name]? = some (.idle m)) : Reachable (h.occupy name m)
  | vacate {h : Hub M L} (hh : h.Reachable) {name : String} {m : Machine} (hm : m.Reachable)
      (hseat : h.machines[name]? = some (.inUse m.flag)) : Reachable (h.seat name m)
  | elsewhere {h h' : Hub M L} (hh : h.Reachable) (hm : h'.machines = h.machines)
      (hn : h.nextFlag ≤ h'.nextFlag) : Reachable h'

/-- No cancel flag is used twice or not yet issued, and the idle machines can come about. -/
structure Orderly (h : Hub M L) : Prop where
  distinct : ∀ {a b : String} {s t : Seat},
    h.machines[a]? = some s → h.machines[b]? = some t → s.flag = t.flag → a = b
  issued : ∀ {a : String} {s : Seat}, h.machines[a]? = some s → s.flag < h.nextFlag
  idle : ∀ {a : String} {m : Machine}, h.machines[a]? = some (.idle m) → m.Reachable

/-- A seat may be replaced by one whose flag no other seat has. -/
private theorem Orderly.replace {h h' : Hub M L} (hh : h.Orderly) {name : String} {s : Seat}
    (hm : h'.machines = h.machines.insert name s) (hn : h.nextFlag ≤ h'.nextFlag) (hs : s.flag < h'.nextFlag)
    (hother : ∀ {b : String} {t : Seat}, h.machines[b]? = some t → t.flag = s.flag → b = name)
    (hidle : ∀ {m : Machine}, s = .idle m → m.Reachable) : h'.Orderly := by
  -- the seats of the new hub are the new one and the old ones under other names
  have hseats : ∀ {b t}, h'.machines[b]? = some t → (b = name ∧ t = s) ∨ (b ≠ name ∧ h.machines[b]? = some t) := by
    intro b t ht
    rw [hm, Std.ExtTreeMap.getElem?_insert] at ht
    split at ht
    · rename_i hb
      cases ht
      exact .inl ⟨(Std.LawfulEqOrd.eq_of_compare hb).symm, rfl⟩
    · rename_i hb
      exact .inr ⟨fun hbn => hb (by rw [hbn]; exact Std.ReflCmp.compare_self), ht⟩
  refine ⟨?_, ?_, ?_⟩
  · intro a b t u ht hu htu
    rcases hseats ht with ⟨rfl, rfl⟩ | ⟨-, ht⟩ <;> rcases hseats hu with ⟨rfl, rfl⟩ | ⟨-, hu⟩
    · rfl
    · exact (hother hu htu.symm).symm
    · exact hother ht htu
    · exact hh.distinct ht hu htu
  · intro a t ht
    rcases hseats ht with ⟨-, rfl⟩ | ⟨-, ht⟩
    · exact hs
    · exact Nat.lt_of_lt_of_le (hh.issued ht) hn
  · intro a m ht
    rcases hseats ht with ⟨-, hms⟩ | ⟨-, ht⟩
    · exact hidle hms.symm
    · exact hh.idle ht

namespace Reachable

variable {h h' : Hub M L}

theorem orderly (hh : h.Reachable) : h.Orderly := by
  induction hh with
  | empty capacity memory => exact ⟨by simp [Hub.empty], by simp [Hub.empty], by simp [Hub.empty]⟩
  | @create h _ m hm hflag name ih =>
    refine ih.replace rfl (Nat.le_succ _) ?_ ?_ ?_
    · have hissued : m.flag < h.nextFlag + 1 := by rw [hflag]; exact Nat.lt_succ_self _
      exact hissued
    · intro b t ht htm
      -- a new flag is no flag that was issued before
      have hnew : t.flag = h.nextFlag := htm.trans hflag
      exact absurd hnew (Nat.ne_of_lt (ih.issued ht))
    · rintro _ ⟨rfl⟩
      exact hm
  | @occupy h _ name m hseat ih =>
    have hissued : m.flag < h.nextFlag := ih.issued hseat
    refine ih.replace rfl (Nat.le_refl _) hissued ?_ nofun
    intro b t ht htm
    exact ih.distinct ht hseat htm
  | @vacate h _ name m hm hseat ih =>
    have hissued : m.flag < h.nextFlag := ih.issued hseat
    refine ih.replace rfl (Nat.le_refl _) hissued ?_ ?_
    · intro b t ht htm
      exact ih.distinct ht hseat htm
    · rintro _ ⟨rfl⟩
      exact hm
  | elsewhere _ hm hn ih =>
    refine ⟨?_, ?_, ?_⟩ <;> rw [hm]
    · exact ih.distinct
    · intro a s hs
      exact Nat.lt_of_lt_of_le (ih.issued hs) hn
    · exact ih.idle

/-- The flag of a machine that is taken out of its seat is apart. -/
theorem apart (hh : h.Reachable) {name : String} {m : Machine} (hseat : h.machines[name]? = some (.idle m)) :
    (h.occupy name m).Apart m.flag := by
  have hocc : (h.occupy name m).Orderly := (hh.occupy hseat).orderly
  have hself : (h.occupy name m).machines[name]? = some (.inUse m.flag) := by simp [Hub.occupy]
  intro other k hk hflag
  have hname : other = name := hocc.distinct hk hself hflag
  rw [hname, hself] at hk
  cases hk

end Reachable

/-! ### Deliveries and operations lead to hubs that can come about -/

/-- From a hub that can come about to another one, with the same machines out of their seats or more. -/
def Persists (h h' : Hub M L) : Prop :=
  h.Reachable → h'.Reachable ∧
    ∀ {name : String} {flag : FlagId}, h.machines[name]? = some (.inUse flag) → h'.machines[name]? = some (.inUse flag)

namespace Persists

variable {h h' h'' : Hub M L}

theorem of_machines_eq (hm : h'.machines = h.machines) (hn : h.nextFlag ≤ h'.nextFlag) : h.Persists h' := by
  intro hh
  refine ⟨hh.elsewhere hm hn, ?_⟩
  intro name flag hseat
  rw [hm]
  exact hseat

theorem trans (h12 : h.Persists h') (h23 : h'.Persists h'') : h.Persists h'' := by
  intro hh
  obtain ⟨hh', hkept⟩ := h12 hh
  obtain ⟨hh'', hkept'⟩ := h23 hh'
  exact ⟨hh'', fun hseat => hkept' (hkept hseat)⟩

end Persists

theorem Quiet.persists {h h' : Hub M L} (hq : h.Quiet h') : h.Persists h' :=
  .of_machines_eq hq.machines (Nat.le_of_eq hq.nextFlag.symm)

theorem callLaw_persists {publish : Publisher M L} (hpub : publish.Obeys Persists) (flag : FlagId) :
    CallLaw publish flag Persists where
  refl h := (Quiet.refl h).persists
  trans := Persists.trans
  publish := hpub
  lower _ := .of_machines_eq rfl (Nat.le_refl _)
  raise _ := .of_machines_eq rfl (Nat.le_refl _)
  warn h warnings := (Quiet.warn h warnings).persists
  pop h mailbox := (Quiet.pop h mailbox).persists

/-- Driving a machine leads to a hub that can come about if what is done to the machine and the hub in the
meantime does. -/
theorem Persists.drive {h h' : Hub M L} {name : String} {m m' : Machine}
    (hseat : h.machines[name]? = some (.idle m)) (hcall : (h.occupy name m).Persists h')
    (hm : m.Reachable → m'.Reachable) (hflag : m'.flag = m.flag) : h.Persists (h'.seat name m') := by
  intro hh
  obtain ⟨hh', hkept⟩ := hcall (hh.occupy hseat)
  have hout : h'.machines[name]? = some (.inUse m'.flag) := by
    apply hkept
    rw [hflag]
    simp [Hub.occupy]
  refine ⟨hh'.vacate (hm (hh.orderly.idle hseat)) hout, ?_⟩
  intro other flag hother
  have hne : compare name other ≠ .eq := by
    intro hcmp
    rw [← Std.LawfulEqOrd.eq_of_compare hcmp, hseat] at hother
    cases hother
  have hkept' : h'.machines[other]? = some (.inUse flag) := by
    apply hkept
    rw [Hub.occupy, Std.ExtTreeMap.getElem?_insert, if_neg hne]
    exact hother
  rw [Hub.seat, Std.ExtTreeMap.getElem?_insert, if_neg hne]
  exact hkept'

theorem deliveryLaw_persists : DeliveryLaw (Persists (M := M) (L := L)) where
  refl h := (Quiet.refl h).persists
  trans := Persists.trans
  called h id n := ((Quiet.refl h).note rfl).persists
  returned h id := ((Quiet.refl h).note rfl).persists
  receive h mailbox n := (Quiet.receive h mailbox n).persists
  raise h flag := .of_machines_eq rfl (Nat.le_refl _)
  remember h memory := .of_machines_eq rfl (Nat.le_refl _)
  subscribe h name code := (Quiet.subscribe h name (.custom code)).persists
  unsubscribe h id := (Quiet.unsubscribe h id).persists
  push h mailbox q := (Quiet.push h mailbox q).persists
  clearLog h := (Quiet.clearLog h).persists
  release h mailbox := (Quiet.release h mailbox).persists
  deliver {h h' n} hp := by
    have hopen : h.Persists (h.record n) := .of_machines_eq rfl (Nat.le_refl _)
    have hclose : h'.Persists (h'.note (.closed n)) := .of_machines_eq rfl (Nat.le_refl _)
    exact hopen.trans (hp.trans hclose)
  act {publish} hpub {name action payload m m' h h' o} hseat hcall := by
    have hlaw : CallLaw publish m.flag Persists := callLaw_persists hpub m.flag
    have hm' : m.Reachable → m'.Reachable := by
      intro hm
      have hperform : m.perform publish 0 (h.occupy name m) (.handleAction action payload) =
          some (.outcome o, m', h') := by
        rw [Machine.perform, hcall]
        rfl
      exact hm.performed hperform
    have hflag : m'.flag = m.flag := (Machine.isInvariant_flag m.flag).handleAction rfl hcall
    exact (hlaw.handleAction hcall).drive hseat hm' hflag

/-- What an operation does to a machine and a hub lets it be driven. -/
theorem persists_perform {respond : Response M L} {depth fuel : Nat} {m m' : Machine} {h h' : Hub M L}
    {op : Operation} {a : Answer}
    (hcall : m.perform (publishWithin respond depth) fuel h op = some (a, m', h')) :
    h.Persists h' ∧ (m.Reachable → m'.Reachable) ∧ m'.flag = m.flag := by
  have hpub : Publisher.Obeys (Hub.publishWithin respond depth) Persists :=
    deliveryLaw_persists.publishWithin respond depth
  have hlaw : CallLaw (Hub.publishWithin respond depth) m.flag Persists := callLaw_persists hpub m.flag
  have hflag : m'.flag = m.flag := (Machine.isInvariant_flag m.flag).perform rfl hcall
  exact ⟨hlaw.perform hcall, fun hm => hm.performed hcall, hflag⟩

namespace Reachable

variable {h h' : Hub M L}

theorem of_quiet (hh : h.Reachable) (hq : h.Quiet h') : h'.Reachable := (hq.persists hh).1

/-- A delivery leads to a hub that can come about. -/
theorem publishWithin (hh : h.Reachable) {respond : Response M L} {depth : Nat} {n : Notification}
    (hpub : publishWithin respond depth n h = some h') : h'.Reachable :=
  (deliveryLaw_persists.publishWithin respond depth hpub hh).1

/-- Driving a machine leads to a hub that can come about. -/
theorem drive {α : Type} (hh : h.Reachable) {name : String} {f : Machine → Hub M L → Option (α × Machine × Hub M L)}
    (hf : ∀ {m m' k k' a}, f m k = some (a, m', k') →
      k.Persists k' ∧ (m.Reachable → m'.Reachable) ∧ m'.flag = m.flag)
    {u : Usage α} (hdrive : h.drive name f = some (u, h')) : h'.Reachable := by
  obtain ⟨-, -, rfl⟩ | ⟨_, -, -, rfl⟩ | ⟨m, a, m', k, hseat, hcall, -, rfl⟩ := drive_cases hdrive
  · exact hh
  · exact hh
  · obtain ⟨hpersists, hm', hflag⟩ := hf hcall
    exact (hpersists.drive hseat hm' hflag hh).1

end Reachable

end Hub

/-! ### A guarded door -/

/-- A machine in the state `closed`, which declares an exit event, with another state `open`. -/
def Machine.door : Machine :=
  let closed : State := { State.new "closed" with exiting := some "unlock" }
  let opened : State := State.new "open"
  (((Machine.empty 0).register (closed.define "push" "open").2 true).2.register opened false).2

/-- The listener with a cancel flag as its code raises it whenever it is called. -/
def guard : Response Unit FlagId := fun flag _ => .cancel flag .done

/-- A hub with a door and a listener that raises the cancel flag of the door at every `unlock`. -/
def Hub.guardedDoor : Hub Unit FlagId :=
  (((Hub.empty 1 ()).newFlag.2.seat "door" Machine.door).subscribe "unlock" (.custom 0)).2

theorem Machine.reachable_door : Machine.door.Reachable := ((Reachable.new 0).register _ true).register _ false

theorem Hub.reachable_guardedDoor : Hub.guardedDoor.Reachable := by
  have hseated : ((Hub.empty 1 ()).newFlag.2.seat "door" Machine.door : Hub Unit FlagId).Reachable :=
    (Hub.Reachable.empty 1 ()).create Machine.reachable_door rfl "door"
  exact hseated.elsewhere rfl (Nat.le_refl _)

end VetoMachine
