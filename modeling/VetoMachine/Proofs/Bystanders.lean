import VetoMachine.Proofs.Buses
import VetoMachine.Proofs.Registry

/-!
# Listeners that only take notes and cancel

A passive listener uses the memory and the cancel flags, and nothing else.  Two hubs on which such listeners find the
same go on alike (`Hub.Abreast`): a delivery returns on both, publishes nothing further, and leaves hubs on which the
listeners find the same again (`Hub.abreast_publishWithin`).  What is subscribed to actions and cancels, what waits in
mailboxes and what has been logged may differ.  A machine none of whose states has an event of such a name does the
same on both (`Machine.agree_handleAction`), whether or not its cancel flag is raised before.
-/

namespace VetoMachine

variable {M L : Type}

/-- A listener that takes notes in the memory and cancels, and does nothing else. -/
def Reaction.Passive : Reaction M L → Prop
  | .done => True
  | .read next => ∀ memory, (next memory).Passive
  | .remember _ next | .cancel _ next => next.Passive
  | .seek _ next => ∀ flag, (next flag).Passive
  | .check _ next => ∀ raised, (next raised).Passive
  | .publish _ _ | .subscribe _ _ _ | .unsubscribe _ _ | .push _ _ _ | .clearLog _ | .release _ _
  | .act _ _ _ _ => False

/-- The names of actions and cancels, which no event of a machine should have. -/
def IsReserved (name : String) : Prop := name = Notification.actionName ∨ name = Notification.cancelName

theorem not_isReserved_changedName : ¬ IsReserved Notification.changedName := by
  unfold IsReserved
  decide

namespace Hub

/-- Passive listeners to events find the same on two hubs, as far as the flags are `watched`. -/
structure Alike (respond : Response M L) (watched : FlagId → Prop) (h₁ h₂ : Hub M L) : Prop where
  flags : ∀ {flag}, watched flag → h₁.isRaised flag = h₂.isRaised flag
  machines : h₁.machines = h₂.machines
  memory : h₁.memory = h₂.memory
  subscribed : ∀ {name}, ¬ IsReserved name → h₁.bus.subscribed name = h₂.bus.subscribed name
  passive : ∀ {name s}, ¬ IsReserved name → s ∈ h₁.bus.subscribed name →
    ∃ code, s.listener = .custom code ∧ ∀ n, (respond code n).Passive

/-- The journal tells that `ns` have been published since. -/
def Tells (ns : List Notification) (h k : Hub M L) : Prop :=
  ∃ es : List Entry, k.journal = es.reverse ++ h.journal ∧ publishedIn es = ns

/-- A hub has been used only to publish `ns`; nobody has subscribed, and nothing has come into mailboxes. -/
structure Publishes (ns : List Notification) (h k : Hub M L) : Prop where
  subscribed : ∀ name, k.bus.subscribed name = h.bus.subscribed name
  mailboxes : k.mailboxes = h.mailboxes
  tells : h.Tells ns k

namespace Tells

variable {h k k' : Hub M L} {ns ns' : List Notification}

theorem of_journal_eq (hj : k.journal = h.journal) : h.Tells [] k := ⟨[], hj, rfl⟩

theorem trans (hk : h.Tells ns k) (hk' : k.Tells ns' k') : h.Tells (ns ++ ns') k' := by
  obtain ⟨xs, hxj, rfl⟩ := hk
  obtain ⟨ys, hyj, rfl⟩ := hk'
  refine ⟨xs ++ ys, ?_, publishedIn_append xs ys⟩
  rw [hyj, hxj, List.reverse_append, List.append_assoc]

theorem publishedIn_eq (hk : h.Tells ns k) : publishedIn (h.entriesSince k) = ns := by
  obtain ⟨es, hj, hes⟩ := hk
  rw [entriesSince_eq hj, hes]

end Tells

namespace Publishes

variable {h k k' : Hub M L} {ns ns' : List Notification}

theorem trans (hk : h.Publishes ns k) (hk' : k.Publishes ns' k') : h.Publishes (ns ++ ns') k' :=
  ⟨fun name => (hk'.subscribed name).trans (hk.subscribed name), hk'.mailboxes.trans hk.mailboxes,
    hk.tells.trans hk'.tells⟩

theorem of_bus_eq (hb : k.bus = h.bus) (hm : k.mailboxes = h.mailboxes) (es : List Entry)
    (hj : k.journal = es.reverse ++ h.journal) (hes : publishedIn es = ns) : h.Publishes ns k :=
  ⟨fun name => by rw [hb], hm, es, hj, hes⟩

theorem refl (h : Hub M L) : h.Publishes [] h := of_bus_eq rfl rfl [] rfl rfl

theorem raise (h : Hub M L) (flag : FlagId) : h.Publishes [] (h.raise flag) := of_bus_eq rfl rfl [.raised flag] rfl rfl

theorem lower (h : Hub M L) (flag : FlagId) : h.Publishes [] (h.lower flag) := of_bus_eq rfl rfl [] rfl rfl

theorem record (h : Hub M L) (n : Notification) : h.Publishes [n] (h.record n) :=
  ⟨fun name => Bus.subscribed_record h.bus n name, rfl, [.opened n], rfl, rfl⟩

theorem warn (h : Hub M L) (warnings : List Warning) : h.Publishes [] (h.warn warnings) := by
  have hnone : publishedIn (warnings.map Entry.warned) = [] := by simp [publishedIn, Entry.opened?]
  rw [warn_eq]
  exact of_bus_eq rfl rfl _ rfl hnone

theorem lowered (hk : h.Publishes ns k) (flag : FlagId) : h.Publishes ns (k.lower flag) := by
  have hboth := hk.trans (.lower k flag)
  rwa [List.append_nil] at hboth

end Publishes

namespace Alike

variable {respond : Response M L} {watched : FlagId → Prop} {h₁ h₂ k₁ k₂ : Hub M L}

/-- Steps that concern neither the subscriptions nor the machines. -/
theorem of_subscribed_eq (ha : Alike respond watched h₁ h₂)
    (hs₁ : ∀ name, k₁.bus.subscribed name = h₁.bus.subscribed name)
    (hs₂ : ∀ name, k₂.bus.subscribed name = h₂.bus.subscribed name)
    (hflags : ∀ {flag}, watched flag → k₁.isRaised flag = k₂.isRaised flag)
    (hmachines : k₁.machines = k₂.machines) (hmemory : k₁.memory = k₂.memory) : Alike respond watched k₁ k₂ where
  flags := hflags
  machines := hmachines
  memory := hmemory
  subscribed {name} hname := by rw [hs₁, hs₂, ha.subscribed hname]
  passive {name s} hname hs := by
    rw [hs₁] at hs
    exact ha.passive hname hs

theorem raise (ha : Alike respond watched h₁ h₂) (flag : FlagId) :
    Alike respond watched (h₁.raise flag) (h₂.raise flag) := by
  refine ha.of_subscribed_eq (fun _ => rfl) (fun _ => rfl) ?_ ha.machines ha.memory
  intro other hother
  rw [Bool.eq_iff_iff, isRaised_raise, isRaised_raise, ha.flags hother]

theorem lower (ha : Alike respond watched h₁ h₂) (flag : FlagId) :
    Alike respond watched (h₁.lower flag) (h₂.lower flag) := by
  refine ha.of_subscribed_eq (fun _ => rfl) (fun _ => rfl) ?_ ha.machines ha.memory
  intro other hother
  rw [Bool.eq_iff_iff, isRaised_lower, isRaised_lower, ha.flags hother]

theorem warn (ha : Alike respond watched h₁ h₂) (ws₁ ws₂ : List Warning) :
    Alike respond watched (h₁.warn ws₁) (h₂.warn ws₂) := by
  refine ha.of_subscribed_eq (Publishes.warn h₁ ws₁).subscribed (Publishes.warn h₂ ws₂).subscribed ?_ ?_ ?_
  · intro flag hflag
    rw [warn_eq, warn_eq]
    exact ha.flags hflag
  · rw [warn_eq, warn_eq]
    exact ha.machines
  · rw [warn_eq, warn_eq]
    exact ha.memory

/-- Once a flag has been lowered on both hubs it may be watched. -/
theorem lower_watched {flag : FlagId} (ha : Alike respond (· ≠ flag) h₁ h₂) :
    Alike respond (fun _ => True) (h₁.lower flag) (h₂.lower flag) := by
  obtain ⟨hflags, hmachines, hmemory, hsubscribed, hpassive⟩ := ha.lower flag
  refine ⟨?_, hmachines, hmemory, hsubscribed, hpassive⟩
  intro other _
  by_cases hother : other = flag
  · rw [hother, isRaised_lower_self, isRaised_lower_self]
  · exact hflags hother

theorem unwatch (ha : Alike respond (fun _ => True) h₁ h₂) (flag : FlagId) : Alike respond (· ≠ flag) h₁ h₂ :=
  ⟨fun _ => ha.flags trivial, ha.machines, ha.memory, ha.subscribed, ha.passive⟩

end Alike

/-! ### Going on alike -/

/-- Two computations from two hubs return, have published `ns` on both, and leave them alike. -/
def Abreast (respond : Response M L) (ns : List Notification) (h₁ h₂ : Hub M L) (x₁ x₂ : Option (Hub M L)) : Prop :=
  ∃ k₁ k₂, x₁ = some k₁ ∧ x₂ = some k₂ ∧ Alike respond (fun _ => True) k₁ k₂ ∧ h₁.Publishes ns k₁ ∧ h₂.Publishes ns k₂

namespace Abreast

variable {respond : Response M L} {h₁ h₂ k₁ k₂ : Hub M L} {ns ns' : List Notification} {x₁ x₂ : Option (Hub M L)}

theorem pure (ha : Alike respond (fun _ => True) h₁ h₂) : Abreast respond [] h₁ h₂ (some h₁) (some h₂) :=
  ⟨h₁, h₂, rfl, rfl, ha, .refl h₁, .refl h₂⟩

/-- First something is published, then the computations begin. -/
theorem after (hk₁ : h₁.Publishes ns k₁) (hk₂ : h₂.Publishes ns k₂) (hx : Abreast respond ns' k₁ k₂ x₁ x₂) :
    Abreast respond (ns ++ ns') h₁ h₂ x₁ x₂ := by
  obtain ⟨l₁, l₂, hx₁, hx₂, ha, hl₁, hl₂⟩ := hx
  exact ⟨l₁, l₂, hx₁, hx₂, ha, hk₁.trans hl₁, hk₂.trans hl₂⟩

theorem bind (hx : Abreast respond ns h₁ h₂ x₁ x₂) {f : Hub M L → Option (Hub M L)}
    (hf : ∀ {k₁ k₂}, Alike respond (fun _ => True) k₁ k₂ → Abreast respond ns' k₁ k₂ (f k₁) (f k₂)) :
    Abreast respond (ns ++ ns') h₁ h₂ (x₁.bind f) (x₂.bind f) := by
  obtain ⟨k₁, k₂, rfl, rfl, ha, hk₁, hk₂⟩ := hx
  exact (hf ha).after hk₁ hk₂

end Abreast

variable {respond : Response M L} {h₁ h₂ : Hub M L}

/-- A passive listener does the same on hubs on which it finds the same. -/
theorem abreast_run {publish : Publisher M L} {r : Reaction M L} (hr : r.Passive)
    (ha : Alike respond (fun _ => True) h₁ h₂) :
    Abreast respond [] h₁ h₂ (r.run publish h₁) (r.run publish h₂) := by
  induction r generalizing h₁ h₂ with
  | done => exact .pure ha
  | read next ih =>
    rw [Reaction.run, Reaction.run, ha.memory]
    exact ih _ (hr _) ha
  | remember memory next ih =>
    have hk : ∀ h : Hub M L, h.Publishes [] { h with memory } := fun h => .of_bus_eq rfl rfl [] rfl rfl
    have hnoted : Alike respond (fun _ => True) { h₁ with memory } { h₂ with memory } :=
      ha.of_subscribed_eq (hk h₁).subscribed (hk h₂).subscribed ha.flags ha.machines rfl
    exact (ih hr hnoted).after (hk h₁) (hk h₂)
  | seek machine next ih =>
    have hflag : h₁.flagOf machine = h₂.flagOf machine := by rw [flagOf, flagOf, ha.machines]
    rw [Reaction.run, Reaction.run, hflag]
    exact ih _ (hr _) ha
  | cancel flag next ih => exact (ih hr (ha.raise flag)).after (.raise h₁ flag) (.raise h₂ flag)
  | check flag next ih =>
    rw [Reaction.run, Reaction.run, ha.flags trivial]
    exact ih _ (hr _) ha
  | publish | subscribe | unsubscribe | push | clearLog | release | act => cases hr

private theorem abreast_note (ha : Alike respond (fun _ => True) h₁ h₂) {e : Entry} (he : e.opened? = none) :
    Alike respond (fun _ => True) (h₁.note e) (h₂.note e) ∧ h₁.Publishes [] (h₁.note e) ∧
      h₂.Publishes [] (h₂.note e) := by
  have hk : ∀ h : Hub M L, h.Publishes [] (h.note e) := by
    intro h
    have hnone : publishedIn [e] = [] := by simp [publishedIn, he]
    exact .of_bus_eq rfl rfl [e] rfl hnone
  exact ⟨ha.of_subscribed_eq (hk h₁).subscribed (hk h₂).subscribed ha.flags ha.machines ha.memory, hk h₁, hk h₂⟩

private theorem abreast_callAll {publish : Publisher M L} {n : Notification} {subscriptions : List (Subscription L)}
    (hpassive : ∀ s ∈ subscriptions, ∃ code, s.listener = .custom code ∧ ∀ n, (respond code n).Passive)
    (ha : Alike respond (fun _ => True) h₁ h₂) :
    Abreast respond [] h₁ h₂ (callAll respond publish n subscriptions h₁)
      (callAll respond publish n subscriptions h₂) := by
  induction subscriptions generalizing h₁ h₂ with
  | nil => exact .pure ha
  | cons s rest ih =>
    obtain ⟨code, hlistener, hcode⟩ := hpassive s (by simp)
    obtain ⟨hcalled, hk₁, hk₂⟩ := abreast_note ha (e := .called s.id n) rfl
    rw [callAll, callAll, hlistener]
    refine ((abreast_run (hcode n) hcalled).after hk₁ hk₂).bind ?_
    intro k₁ k₂ hk
    obtain ⟨hreturned, hl₁, hl₂⟩ := abreast_note hk (e := .returned s.id) rfl
    exact (ih (fun t ht => hpassive t (by simp [ht])) hreturned).after hl₁ hl₂

/-- An event is delivered on both hubs, and nothing else is published. -/
theorem abreast_publishWithin (depth : Nat) {n : Notification} (hn : ¬ IsReserved n.name)
    (ha : Alike respond (fun _ => True) h₁ h₂) :
    Abreast respond [n] h₁ h₂ (publishWithin respond (depth + 1) n h₁) (publishWithin respond (depth + 1) n h₂) := by
  have hopened : Alike respond (fun _ => True) (h₁.record n) (h₂.record n) :=
    ha.of_subscribed_eq (Bus.subscribed_record h₁.bus n) (Bus.subscribed_record h₂.bus n) ha.flags ha.machines
      ha.memory
  have hpassive : ∀ s ∈ h₁.bus.subscribed n.name, ∃ code, s.listener = .custom code ∧ ∀ n, (respond code n).Passive :=
    fun s hs => ha.passive hn hs
  have hcalls : Abreast respond [] (h₁.record n) (h₂.record n)
      (callAll respond (publishWithin respond depth) n (h₁.bus.subscribed n.name) (h₁.record n))
      (callAll respond (publishWithin respond depth) n (h₁.bus.subscribed n.name) (h₂.record n)) :=
    abreast_callAll hpassive hopened
  rw [publishWithin, publishWithin, ← ha.subscribed hn]
  refine (hcalls.after (.record h₁ n) (.record h₂ n)).bind ?_
  intro k₁ k₂ hk
  obtain ⟨hclosed, hl₁, hl₂⟩ := abreast_note hk (e := .closed n) rfl
  exact ⟨_, _, rfl, rfl, hclosed, hl₁, hl₂⟩

end Hub

/-! ### Machines among them -/

/-- No event of a state has the name of actions or cancels. -/
def State.Unreserved (s : State) : Prop :=
  ∀ {event : String}, s.exiting = some event ∨ s.entering = some event ∨ s.changed = some event → ¬ IsReserved event

/-- No event of a registered state, or of the current one if it was removed, has the name of actions or cancels. -/
def Machine.Unreserved (m : Machine) : Prop :=
  ∀ {s : State}, (m.detached = some s ∨ ∃ name, m.state? name = some s) → s.Unreserved

namespace Machine.Unreserved

variable {m : Machine} {s : State}

theorem currentState (hm : m.Unreserved) (hs : m.currentState = some s) : s.Unreserved := by
  unfold Machine.currentState at hs
  split at hs
  · rename_i detached hdetached
    exact hm (.inl (hdetached.trans hs))
  · obtain ⟨name, -, hregistered⟩ := Option.bind_eq_some_iff.1 hs
    exact hm (.inr ⟨name, hregistered⟩)

theorem empty (flag : FlagId) : (Machine.empty flag).Unreserved := by
  rintro s (hdetached | ⟨name, hregistered⟩)
  · cases hdetached
  · simp at hregistered

theorem register (hm : m.Unreserved) (hs : s.Unreserved) (asInitial : Bool) :
    (m.register s asInitial).2.Unreserved := by
  rintro t (hdetached | ⟨name, hregistered⟩)
  · obtain ⟨-, h⟩ | ⟨-, -, -, h⟩ | ⟨-, -, h⟩ := m.register_cases s asInitial <;> rw [h] at hdetached
    · exact hm (.inl hdetached)
    · cases hdetached
    · exact hm (.inl hdetached)
  · rw [state?_register, Option.or_eq_some_iff] at hregistered
    rcases hregistered with hold | ⟨-, hnew⟩
    · exact hm (.inr ⟨name, hold⟩)
    · split at hnew
      · cases hnew
        exact hs
      · cases hnew

theorem commit (hm : m.Unreserved) (name : String) : (m.commit name).Unreserved := by
  rintro s (hdetached | hregistered)
  · cases hdetached
  · exact hm (.inr hregistered)

/-- No event of a passage has the name of actions or cancels. -/
theorem passageTo (hm : m.Unreserved) {target : String} {next : State} (hnext : m.state? target = some next)
    (payload : Json) :
    (∀ n ∈ (m.passageTo next).exitNote payload, ¬ IsReserved n.name) ∧
      (∀ n ∈ (m.passageTo next).enterNote payload, ¬ IsReserved n.name) ∧
      ∀ n ∈ (m.passageTo next).changedNote payload, ¬ IsReserved n.name := by
  have hnexts : next.Unreserved := hm (.inr ⟨target, hnext⟩)
  refine ⟨?_, ?_, ?_⟩
  · intro n hn
    obtain ⟨event, hevent, rfl⟩ := Option.map_eq_some_iff.1 hn
    obtain ⟨s, hs, hexiting⟩ := Option.bind_eq_some_iff.1 hevent
    exact hm.currentState hs (.inl hexiting)
  · intro n hn
    obtain ⟨event, hevent, rfl⟩ := Option.map_eq_some_iff.1 hn
    exact hnexts (.inr (.inl hevent))
  · intro n hn
    obtain ⟨event, hevent, rfl⟩ := Option.map_eq_some_iff.1 hn
    exact hnexts (.inr (.inr hevent))

end Machine.Unreserved

variable {respond : Response M L} {h₁ h₂ : Hub M L}

private theorem Hub.abreast_publishIfAny (depth : Nat) {note : Option Notification}
    (hnote : ∀ n ∈ note, ¬ IsReserved n.name) (ha : h₁.Alike respond (fun _ => True) h₂) :
    Abreast respond note.toList h₁ h₂ (h₁.publishIfAny (publishWithin respond (depth + 1)) note)
      (h₂.publishIfAny (publishWithin respond (depth + 1)) note) := by
  cases note with
  | none => exact .pure ha
  | some n => exact abreast_publishWithin depth (hnote n rfl) ha

/-- An event is published in a window, at whose end the flag is taken. -/
private theorem Hub.abreast_window (depth : Nat) (flag : FlagId) {note : Option Notification}
    (hnote : ∀ n ∈ note, ¬ IsReserved n.name) (ha : h₁.Alike respond (fun _ => True) h₂) :
    ∃ k₁ k₂, h₁.publishIfAny (publishWithin respond (depth + 1)) note = some k₁ ∧
      h₂.publishIfAny (publishWithin respond (depth + 1)) note = some k₂ ∧ k₁.isRaised flag = k₂.isRaised flag ∧
      (k₁.lower flag).Alike respond (fun _ => True) (k₂.lower flag) ∧
      h₁.Publishes note.toList (k₁.lower flag) ∧ h₂.Publishes note.toList (k₂.lower flag) := by
  obtain ⟨k₁, k₂, hk₁, hk₂, hk, hp₁, hp₂⟩ := abreast_publishIfAny depth hnote ha
  exact ⟨k₁, k₂, hk₁, hk₂, hk.flags trivial, hk.lower flag, hp₁.lowered flag, hp₂.lowered flag⟩

/-- A passage takes the same way on two hubs that are alike but for its flag. -/
private theorem Passage.abreast_run (depth : Nat) {p : Passage} {flag : FlagId} {payload : Json}
    (hexit : ∀ n ∈ p.exitNote payload, ¬ IsReserved n.name) (henter : ∀ n ∈ p.enterNote payload, ¬ IsReserved n.name)
    (hchanged : ∀ n ∈ p.changedNote payload, ¬ IsReserved n.name) (ha : h₁.Alike respond (· ≠ flag) h₂) :
    ∃ o k₁ k₂ ns, p.run (Hub.publishWithin respond (depth + 1)) flag payload h₁ = some (o, k₁) ∧
      p.run (Hub.publishWithin respond (depth + 1)) flag payload h₂ = some (o, k₂) ∧
      k₁.Alike respond (· ≠ flag) k₂ ∧ h₁.Publishes ns k₁ ∧ h₂.Publishes ns k₂ ∧ ∀ n ∈ ns, ¬ IsReserved n.name := by
  have hstart : ∀ {h k : Hub M L} {ns : List Notification}, (h.lower flag).Publishes ns k → h.Publishes ns k :=
    fun {h} _ _ hk => (Hub.Publishes.lower h flag).trans hk
  obtain ⟨a₁, a₂, hrun₁, hrun₂, hraised, ha, hpa₁, hpa₂⟩ := Hub.abreast_window depth flag hexit ha.lower_watched
  cases hexited : a₂.isRaised flag with
  | true =>
    refine ⟨.vetoedOnExit (p.source.getD "") p.target.name, a₁.lower flag, a₂.lower flag, (p.exitNote payload).toList,
      ?_, ?_, ha.unwatch flag, hstart hpa₁, hstart hpa₂, by simpa using hexit⟩
    · simp [Passage.run, hrun₁, Hub.take, hraised, hexited]
    · simp [Passage.run, hrun₂, Hub.take, hexited]
  | false =>
    obtain ⟨b₁, b₂, hrunb₁, hrunb₂, hraisedb, hb, hpb₁, hpb₂⟩ := Hub.abreast_window depth flag henter ha
    cases hentered : b₂.isRaised flag with
    | true =>
      refine ⟨.vetoedOnEnter p.source p.target.name, b₁.lower flag, b₂.lower flag,
        (p.exitNote payload).toList ++ (p.enterNote payload).toList, ?_, ?_, hb.unwatch flag, hstart (hpa₁.trans hpb₁),
        hstart (hpa₂.trans hpb₂), ?_⟩
      · simp [Passage.run, hrun₁, hrunb₁, Hub.take, hraised, hexited, hraisedb, hentered]
      · simp [Passage.run, hrun₂, hrunb₂, Hub.take, hexited, hentered]
      · simpa [or_imp, forall_and] using ⟨hexit, henter⟩
    | false =>
      -- no window follows: the last two events go out, and the flag is lowered at the end
      obtain ⟨c₁, c₂, hrunc₁, hrunc₂, hc, hpc₁, hpc₂⟩ := Hub.abreast_publishIfAny depth hchanged hb
      obtain ⟨d₁, d₂, hrund₁, hrund₂, hd, hpd₁, hpd₂⟩ :=
        Hub.abreast_publishWithin (n := p.changeNote) depth not_isReserved_changedName hc
      refine ⟨.committed p.source p.target.name, d₁.lower flag, d₂.lower flag,
        (p.exitNote payload).toList ++ ((p.enterNote payload).toList ++
          ((p.changedNote payload).toList ++ [p.changeNote])),
        ?_, ?_, (hd.lower flag).unwatch flag, hstart (hpa₁.trans (hpb₁.trans (hpc₁.trans (hpd₁.lowered flag)))),
        hstart (hpa₂.trans (hpb₂.trans (hpc₂.trans (hpd₂.lowered flag)))), ?_⟩
      · simp [Passage.run, hrun₁, hrunb₁, hrunc₁, hrund₁, Hub.take, hraised, hexited, hraisedb, hentered]
      · simp [Passage.run, hrun₂, hrunb₂, hrunc₂, hrund₂, Hub.take, hexited, hentered]
      · have hchange : ¬ IsReserved p.changeNote.name := not_isReserved_changedName
        simpa [or_imp, forall_and] using ⟨hexit, henter, hchanged, hchange⟩

/-- Two calls of a machine return with the same outcome and machine, have published the same events, and leave hubs
that are alike but for the cancel flag. -/
def Machine.Agree (respond : Response M L) (flag : FlagId) (h₁ h₂ : Hub M L)
    (x₁ x₂ : Option (Outcome × Machine × Hub M L)) : Prop :=
  ∃ o m' k₁ k₂ ns, x₁ = some (o, m', k₁) ∧ x₂ = some (o, m', k₂) ∧ k₁.Alike respond (· ≠ flag) k₂ ∧
    h₁.Publishes ns k₁ ∧ h₂.Publishes ns k₂ ∧ (∀ n ∈ ns, ¬ IsReserved n.name) ∧ m'.flag = flag ∧ m'.Unreserved

namespace Machine

variable {m : Machine}

theorem Agree.ignored {k₁ k₂ : Hub M L} (hm : m.Unreserved) (ha : k₁.Alike respond (· ≠ m.flag) k₂)
    (hk₁ : h₁.Publishes [] k₁) (hk₂ : h₂.Publishes [] k₂) :
    Agree respond m.flag h₁ h₂ (some (.ignored, m, k₁)) (some (.ignored, m, k₂)) :=
  ⟨.ignored, m, k₁, k₂, [], rfl, rfl, ha, hk₁, hk₂, nofun, rfl, hm⟩

private theorem agree_transition (depth : Nat) (hm : m.Unreserved) (ha : h₁.Alike respond (· ≠ m.flag) h₂)
    (target : String) (payload : Json) :
    Agree respond m.flag h₁ h₂ (m.transition (Hub.publishWithin respond (depth + 1)) target payload h₁)
      (m.transition (Hub.publishWithin respond (depth + 1)) target payload h₂) := by
  rw [transition, transition, passage?]
  cases hnext : m.state? target with
  | none => exact .ignored hm ha (.refl h₁) (.refl h₂)
  | some next =>
    obtain ⟨hleft, hentered, hchanged⟩ := hm.passageTo hnext payload
    obtain ⟨o, k₁, k₂, ns, hrun₁, hrun₂, hk, hp₁, hp₂, hns⟩ :=
      Passage.abreast_run depth hleft hentered hchanged ha
    refine ⟨o, if o.isCommitted then m.commit next.name else m, k₁, k₂, ns, ?_, ?_, hk, hp₁, hp₂, hns, ?_, ?_⟩
    · simp only [Option.map_some, Option.bind_eq_bind, hrun₁, Option.bind_some]
      rfl
    · simp only [Option.map_some, Option.bind_eq_bind, hrun₂, Option.bind_some]
      rfl
    · split <;> rfl
    · split
      · exact hm.commit next.name
      · exact hm

/-- An action has the same effect on hubs that are alike but for the flag of the machine. -/
theorem agree_handleAction (depth : Nat) (hm : m.Unreserved) (ha : h₁.Alike respond (· ≠ m.flag) h₂)
    (action : String) (payload : Json) :
    Agree respond m.flag h₁ h₂ (m.handleAction (Hub.publishWithin respond (depth + 1)) action payload h₁)
      (m.handleAction (Hub.publishWithin respond (depth + 1)) action payload h₂) := by
  rw [handleAction, handleAction]
  cases m.boundTarget? action with
  | none => exact .ignored hm ha (.refl h₁) (.refl h₂)
  | some target =>
    by_cases hregistered : m.isRegistered target = true
    · simp only [hregistered, if_true]
      exact agree_transition depth hm ha target payload
    · simp only [hregistered]
      exact .ignored hm (ha.warn _ _) (.warn h₁ _) (.warn h₂ _)

end Machine

end VetoMachine
