import VetoMachine.Proofs.Delivery

/-!
# The journal accounts for a cancel flag

A machine that is being driven is out of its seat, so its cancel flag is apart from all machines that a listener
could drive (`Hub.Apart`), and nothing that listeners do lowers it.  Whatever happens during a delivery, the flag
is then up at the end if and only if it was up before or the journal tells in between that it was raised
(`Hub.account_of_publishWithin`).
-/

namespace VetoMachine

variable {M L : Type}

namespace Hub

/-- No machine in its seat has this cancel flag. -/
def Apart (h : Hub M L) (flag : FlagId) : Prop :=
  ∀ {name : String} {m : Machine}, h.machines[name]? = some (.idle m) → m.flag ≠ flag

namespace Apart

variable {h : Hub M L} {flag : FlagId}

theorem of_machines_eq {h' : Hub M L} (ha : h.Apart flag) (hm : h'.machines = h.machines) : h'.Apart flag := by
  intro name m hseat
  rw [hm] at hseat
  exact ha hseat

theorem occupy (ha : h.Apart flag) (name : String) (m : Machine) : (h.occupy name m).Apart flag := by
  intro other k hseat
  rw [Hub.occupy, Std.ExtTreeMap.getElem?_insert] at hseat
  split at hseat
  · cases hseat
  · exact ha hseat

theorem seat (ha : h.Apart flag) (name : String) {m : Machine} (hm : m.flag ≠ flag) :
    (h.seat name m).Apart flag := by
  intro other k hseat
  rw [Hub.seat, Std.ExtTreeMap.getElem?_insert] at hseat
  split at hseat
  · cases hseat; exact hm
  · exact ha hseat

end Apart

/-- What the journal has gained since an earlier hub, and what it tells about a flag. -/
structure Account (flag : FlagId) (h : Hub M L) (entries : List Entry) (h' : Hub M L) : Prop where
  journal : h'.journal = entries.reverse ++ h.journal
  balanced : Balanced entries
  apart : h'.Apart flag
  raised : h'.isRaised flag = true ↔ h.isRaised flag = true ∨ .raised flag ∈ entries

namespace Account

variable {h h' h'' : Hub M L} {flag : FlagId} {xs ys : List Entry}

theorem refl (ha : h.Apart flag) : h.Account flag [] h where
  journal := rfl
  balanced := .nil
  apart := ha
  raised := by simp

theorem trans (hx : h.Account flag xs h') (hy : h'.Account flag ys h'') : h.Account flag (xs ++ ys) h'' where
  journal := by rw [hy.journal, hx.journal, List.reverse_append, List.append_assoc]
  balanced := hx.balanced.append hy.balanced
  apart := hy.apart
  raised := by rw [hy.raised, hx.raised, List.mem_append, or_assoc]

theorem raise (ha : h.Apart flag) (raised : FlagId) : h.Account flag [.raised raised] (h.raise raised) where
  journal := rfl
  balanced := .plain rfl .nil
  apart := ha
  raised := by
    rw [isRaised_raise, List.mem_singleton, Entry.raised.injEq, eq_comm, or_comm]

theorem lower (ha : h.Apart flag) {lowered : FlagId} (hl : lowered ≠ flag) :
    h.Account flag [] (h.lower lowered) where
  journal := rfl
  balanced := .nil
  apart := ha
  raised := by simp [hl]

/-- A delivery is told by its brackets and what stands between them. -/
theorem deliver {n : Notification} (hx : (h.record n).Account flag xs h') :
    h.Account flag (Delivery.mk n xs).entries (h'.note (.closed n)) where
  journal := by
    have hj := hx.journal
    simp only [Hub.note, record] at hj
    simp [Hub.note, Delivery.entries, hj]
  balanced := Delivery.balanced_entries hx.balanced
  apart := hx.apart
  raised := by
    rw [isRaised_note, hx.raised, Delivery.raised_mem_entries]
    rfl

end Account

/-- The journal accounts for a flag from one hub to a later one. -/
def Accounted (flag : FlagId) (h h' : Hub M L) : Prop := h.Apart flag → ∃ entries, h.Account flag entries h'

theorem Quiet.accounted {h h' : Hub M L} (hq : h.Quiet h') (flag : FlagId) : h.Accounted flag h' := by
  intro ha
  obtain ⟨entries, hj, hall⟩ := hq.journal
  have hraised : h'.isRaised flag = h.isRaised flag := by rw [isRaised, hq.raisedFlags, isRaised]
  have hnone : .raised flag ∉ entries := by
    intro hmem
    exact Bool.false_ne_true (hall _ hmem)
  have hplain : ∀ e ∈ entries, e.isPlain = true := fun e he => Entry.isPlain_of_isQuiet (hall e he)
  exact ⟨entries, hj, .of_plain hplain, ha.of_machines_eq hq.machines, by simp [hraised, hnone]⟩

theorem callLaw_accounted {publish : Publisher M L} {flag other : FlagId}
    (hpub : publish.Obeys (Accounted flag)) (hother : other ≠ flag) :
    CallLaw publish other (Accounted flag) where
  refl h := fun ha => ⟨[], .refl ha⟩
  trans h12 h23 ha := by
    obtain ⟨xs, hx⟩ := h12 ha
    obtain ⟨ys, hy⟩ := h23 hx.apart
    exact ⟨xs ++ ys, hx.trans hy⟩
  publish := hpub
  lower h ha := ⟨[], .lower ha hother⟩
  raise h ha := ⟨_, .raise ha other⟩
  warn h warnings := (Quiet.warn h warnings).accounted flag
  pop h mailbox := (Quiet.pop h mailbox).accounted flag

/-- The journal accounts for a flag over every delivery. -/
theorem deliveryLaw_accounted (flag : FlagId) : DeliveryLaw (Accounted (M := M) (L := L) flag) where
  refl h := fun ha => ⟨[], .refl ha⟩
  trans h12 h23 ha := by
    obtain ⟨xs, hx⟩ := h12 ha
    obtain ⟨ys, hy⟩ := h23 hx.apart
    exact ⟨xs ++ ys, hx.trans hy⟩
  called h id n := ((Quiet.refl h).note rfl).accounted flag
  returned h id := ((Quiet.refl h).note rfl).accounted flag
  receive h mailbox n := (Quiet.receive h mailbox n).accounted flag
  raise h raised ha := ⟨_, .raise ha raised⟩
  remember h memory := by
    have hq : h.Quiet { h with memory } := .of_journal_eq rfl rfl rfl rfl
    exact hq.accounted flag
  subscribe h name code := (Quiet.subscribe h name (.custom code)).accounted flag
  unsubscribe h id := (Quiet.unsubscribe h id).accounted flag
  push h mailbox q := (Quiet.push h mailbox q).accounted flag
  clearLog h := (Quiet.clearLog h).accounted flag
  release h mailbox := (Quiet.release h mailbox).accounted flag
  deliver hx ha := by
    obtain ⟨xs, hx⟩ := hx (ha.of_machines_eq rfl)
    exact ⟨_, hx.deliver⟩
  act {publish} hpub {name action payload m m' h h' o} hseat hcall ha := by
    have hother : m.flag ≠ flag := ha hseat
    have hlaw : CallLaw publish m.flag (Accounted flag) := callLaw_accounted hpub hother
    obtain ⟨entries, hx⟩ := hlaw.handleAction hcall (ha.occupy name m)
    have hflag : m'.flag = m.flag := (Machine.isInvariant_flag m.flag).handleAction rfl hcall
    have hother' : m'.flag ≠ flag := by rw [hflag]; exact hother
    have ha' : h'.Apart flag := hx.apart
    exact ⟨entries, hx.journal, hx.balanced, ha'.seat name hother', hx.raised⟩

/-- A delivery is told as one, and a flag that is apart is up at its end if it was before or was raised during the
delivery. -/
theorem account_of_publishWithin {respond : Response M L} {depth : Nat} {n : Notification} {h h' : Hub M L}
    {flag : FlagId} (ha : h.Apart flag) (hpub : publishWithin respond depth n h = some h') :
    ∃ d : Delivery, d.note = n ∧ Balanced d.during ∧ h.Account flag d.entries h' := by
  obtain ⟨h₁, hbetween, rfl⟩ := (deliveryLaw_accounted flag).between_brackets hpub
  obtain ⟨during, hx⟩ := hbetween (ha.of_machines_eq rfl)
  exact ⟨⟨n, during⟩, rfl, hx.balanced, hx.deliver⟩

end Hub

end VetoMachine
