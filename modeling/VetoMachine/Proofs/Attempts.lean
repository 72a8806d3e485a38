import VetoMachine.Proofs.Course
import VetoMachine.Proofs.Life

/-!
# Attempts to move

An operation that drives a machine makes attempts to move, one for every outcome (`Machine.attempts`).  An attempt
publishes the events that the states declare for it, as far as it gets, and beyond them the change if it is committed
and nothing otherwise (`Attempt.Faithful`).  The attempts of an operation follow one another, and its deliveries are
theirs (`Machine.chain_of_perform`, `Attempt.Chain.deliveriesSince_eq`).
-/

namespace VetoMachine

variable {M L : Type}

/-- One attempt to move a machine, and all that came of it. -/
structure Attempt (M L : Type) where
  before : Machine
  /-- The name of the state asked for, if one is. -/
  target? : Option String
  outset : Hub M L
  outcome : Outcome
  after : Machine
  ending : Hub M L

namespace Attempt

/-- The deliveries that the machine makes, those inside them apart. -/
def deliveries (a : Attempt M L) : List Delivery := a.outset.deliveriesSince a.ending

/-- The events that the state left and the state entered declare for the move. -/
def declared (a : Attempt M L) : List String :=
  match a.target?.bind a.before.state? with
  | some next => (a.before.currentState.bind (·.exiting)).toList ++ next.entering.toList ++ next.changed.toList
  | none => []

/-- What the machine publishes beyond the declared events. -/
def changes (a : Attempt M L) : List Notification := (a.deliveries.map (·.note)).drop a.declared.length

end Attempt

namespace Machine

/-- The attempt that a call with the given result is, if it comes to an end. -/
def attempt (m : Machine) (target? : Option String) (h : Hub M L) :
    Option (Outcome × Machine × Hub M L) → List (Attempt M L)
  | some (o, m', h') => [⟨m, target?, h, o, m', h'⟩]
  | none => []

/-- The attempts of a drain. -/
def drainAttempts (publish : Publisher M L) (mailbox : MailboxId) : Nat → Machine → Hub M L → List (Attempt M L)
  | 0, _, _ => []
  | fuel + 1, m, h =>
    match h.pop mailbox with
    | (none, _) => []
    | (some q, h) =>
      match m.handleAction publish q.action q.payload h with
      | some (o, m', h') =>
        ⟨m, m.boundTarget? q.action, h, o, m', h'⟩ :: drainAttempts publish mailbox fuel m' h'
      | none => []

/-- The attempts that an operation makes. -/
def attempts (publish : Publisher M L) (fuel : Nat) (m : Machine) (h : Hub M L) : Operation → List (Attempt M L)
  | .moveTo target payload => m.attempt (some target) h (m.transition publish target payload h)
  | .handleAction action payload => m.attempt (m.boundTarget? action) h (m.handleAction publish action payload h)
  | .handleNotification n =>
    let asked := if n.name = Notification.actionName then n.kind.bind m.boundTarget? else none
    m.attempt asked h (m.handleNotification publish n h)
  | .drain mailbox => m.drainAttempts publish mailbox fuel h
  | .register _ _ | .remove _ | .startAt _ | .edit _ _ | .editCurrent _ | .cancel => []

end Machine

/-! ### A single attempt -/

namespace Hub

/-- On a hub where nobody else uses a cancel flag, nobody comes to do so and the journal gains matching brackets. -/
def Keeps (flag : FlagId) (h h' : Hub M L) : Prop :=
  h.Apart flag → h'.Apart flag ∧ ∃ entries, h'.journal = entries.reverse ++ h.journal ∧ Balanced entries

theorem Quiet.keeps {h h' : Hub M L} (hq : h.Quiet h') (flag : FlagId) : h.Keeps flag h' := by
  intro ha
  obtain ⟨entries, haccount⟩ := hq.accounted flag ha
  exact ⟨haccount.apart, entries, haccount.journal, haccount.balanced⟩

theorem callLaw_keeps (respond : Response M L) (depth : Nat) (flag : FlagId) :
    CallLaw (publishWithin respond depth) flag (Keeps flag) where
  refl h ha := ⟨ha, [], rfl, .nil⟩
  trans h12 h23 ha := by
    obtain ⟨ha', xs, hx, hxs⟩ := h12 ha
    obtain ⟨ha'', ys, hy, hys⟩ := h23 ha'
    exact ⟨ha'', xs ++ ys, by rw [hy, hx, List.reverse_append, List.append_assoc], hxs.append hys⟩
  publish hpub ha := by
    obtain ⟨d, -, -, haccount⟩ := account_of_publishWithin ha hpub
    exact ⟨haccount.apart, d.entries, haccount.journal, haccount.balanced⟩
  lower h ha := ⟨ha.of_machines_eq rfl, [], rfl, .nil⟩
  raise h ha := ⟨ha.of_machines_eq rfl, [.raised flag], rfl, .plain rfl .nil⟩
  warn h warnings := (Quiet.warn h warnings).keeps flag
  pop h mailbox := (Quiet.pop h mailbox).keeps flag

end Hub

/-- A committed attempt publishes one notification beyond the declared events, which tells the state that the machine
is in afterwards; any other attempt publishes none. -/
structure Attempt.Faithful (a : Attempt M L) : Prop where
  journal : ∃ entries, a.ending.journal = entries.reverse ++ a.outset.journal ∧ Balanced entries
  moved : a.after = a.before.moved [a.outcome]
  committed : ∀ {source target}, a.outcome = .committed source target → source = a.before.place ∧
    ∃ s, a.after.currentState = some s ∧ s.name = target ∧
      a.changes = [⟨Notification.changedName, s.toJson, some target⟩]
  uncommitted : a.outcome.arrival? = none → a.changes = []

/-- An ignored attempt during which the machine publishes nothing. -/
private theorem Attempt.Faithful.ignored {m : Machine} {target? : Option String} {h h' : Hub M L}
    (hjournal : ∃ entries, h'.journal = entries.reverse ++ h.journal ∧ Balanced entries)
    (hsince : h.deliveriesSince h' = []) : (Attempt.mk m target? h .ignored m h').Faithful :=
  ⟨hjournal, rfl, nofun, fun _ => by simp [changes, deliveries, hsince]⟩

private theorem Attempt.Faithful.of_quiet {m : Machine} {target? : Option String} {h h' : Hub M L}
    (ha : h.Apart m.flag) (hq : h.Quiet h') : (Attempt.mk m target? h .ignored m h').Faithful :=
  .ignored (hq.keeps m.flag ha).2 hq.deliveriesSince_eq

private theorem Passage.Takes.drop_deliveries {m : Machine} {next : State} {payload : Json} {c : Course} {o : Outcome}
    (htakes : (m.passageTo next).Takes m.flag payload c o) :
    (c.deliveries.map (·.note)).drop ((m.currentState.bind (·.exiting)).toList ++ next.entering.toList
        ++ next.changed.toList).length =
      if o.isCommitted then [(m.passageTo next).changeNote] else [] := by
  have hlength : ∀ {event : Option Delivery} {name : Option String} {f : String → Notification},
      event.map (·.note) = name.map f → event.toList.length = name.toList.length := by
    intro event name f heq
    cases event <;> cases name <;> first | rfl | cases heq
  cases htakes with
  | vetoedOnExit hexit _ =>
    have he := hlength hexit
    refine List.drop_eq_nil_of_le ?_
    simp [Course.deliveries, he, Machine.passageTo]
  | vetoedOnEnter hexit _ henter _ =>
    have he := hlength hexit
    have hn := hlength henter
    refine List.drop_eq_nil_of_le ?_
    simp [Course.deliveries, he, hn, Machine.passageTo]
  | @committed exit enter changed change hexit _ henter _ hchanged hchange =>
    have he := hlength hexit
    have hn := hlength henter
    have hc := hlength hchanged
    have hsplit : Course.deliveries ⟨exit, enter, changed.toList ++ [change]⟩ =
        (exit.toList ++ enter.toList ++ changed.toList) ++ [change] := by
      simp [Course.deliveries]
    rw [hsplit, List.map_append, List.drop_left']
    · simp [hchange, Outcome.isCommitted]
    · simp [he, hn, hc, Machine.passageTo]

namespace Machine

variable {respond : Response M L} {depth : Nat} {m m' : Machine} {h h' : Hub M L} {o : Outcome} {payload : Json}

private theorem faithful_of_transition (hm : m.Sound) (ha : h.Apart m.flag) {target : String}
    (hcall : m.transition (Hub.publishWithin respond depth) target payload h = some (o, m', h')) :
    (Attempt.mk m (some target) h o m' h').Faithful := by
  have hjournal := ((Hub.callLaw_keeps respond depth m.flag).transition hcall ha).2
  have hmoved := moved_of_transition hcall
  obtain ⟨hs, rfl, rfl, rfl⟩ | ⟨next, hs, hrun, hafter⟩ := transition_cases hcall
  · exact .of_quiet ha (.refl h')
  · obtain ⟨c, hsince, htakes⟩ := Passage.run_course ha hrun
    have hname : next.name = target := hm.named hs
    have hnext : m.state? next.name = some next := by rw [hname, hs]
    have hchanges : (Attempt.mk m (some target) h o m' h').changes =
        if o.isCommitted then [(m.passageTo next).changeNote] else [] := by
      simp only [Attempt.changes, Attempt.deliveries, Attempt.declared, Option.bind_some, hs, hsince]
      exact htakes.drop_deliveries
    have hchange : (m.passageTo next).changeNote = ⟨Notification.changedName, next.toJson, some next.name⟩ := by
      rw [← report_commit hnext]
      rfl
    refine ⟨hjournal, hmoved, ?_, ?_⟩
    · rintro source dest ⟨rfl⟩
      obtain ⟨rfl, rfl⟩ : source = (m.passageTo next).source ∧ dest = next.name := by
        cases htakes
        exact ⟨rfl, rfl⟩
      have hcurrent : m'.currentState = some next := by
        rw [hafter]
        exact hnext
      exact ⟨rfl, next, hcurrent, rfl, by rw [hchanges, hchange]; rfl⟩
    · intro hnone
      rw [hchanges, if_neg]
      cases o <;> simp [Outcome.isCommitted, Outcome.arrival?] at hnone ⊢

private theorem faithful_of_handleAction (hm : m.Sound) (ha : h.Apart m.flag) {action : String}
    (hcall : m.handleAction (Hub.publishWithin respond depth) action payload h = some (o, m', h')) :
    (Attempt.mk m (m.boundTarget? action) h o m' h').Faithful := by
  obtain ⟨-, rfl, rfl, warnings, rfl⟩ | ⟨target, next, hbound, -, hcall⟩ := handleAction_cases hcall
  · exact .of_quiet ha (.warn h warnings)
  · rw [hbound]
    exact faithful_of_transition hm ha hcall

private theorem faithful_of_handleNotification (hm : m.Sound) (ha : h.Apart m.flag) {n : Notification}
    (hcall : m.handleNotification (Hub.publishWithin respond depth) n h = some (o, m', h')) :
    (Attempt.mk m (if n.name = Notification.actionName then n.kind.bind m.boundTarget? else none) h o m'
      h').Faithful := by
  obtain ⟨hname, action, hkind, hcall⟩ | ⟨-, rfl, rfl, rfl⟩ | ⟨rfl, rfl, warnings, rfl⟩ :=
    handleNotification_cases hcall
  · rw [if_pos hname, hkind]
    exact faithful_of_handleAction hm ha hcall
  · have hj : (h.raise m'.flag).journal = [Entry.raised m'.flag].reverse ++ h.journal := rfl
    have hsince : h.deliveriesSince (h.raise m'.flag) = [] := by
      rw [Hub.deliveriesSince, Hub.entriesSince_eq hj]
      rfl
    exact .ignored ⟨_, hj, .plain rfl .nil⟩ hsince
  · exact .of_quiet ha (.warn h warnings)

end Machine

theorem Attempt.Faithful.place_after {a : Attempt M L} (ha : a.Faithful) :
    a.after.place = a.outcome.arrival?.or a.before.place := by
  have hmoved := ha.moved
  cases ho : a.outcome with
  | committed source target =>
    obtain ⟨-, s, hcurrent, hname, -⟩ := ha.committed ho
    simp [Machine.place, hcurrent, hname, Outcome.arrival?]
  | vetoedOnExit source target | vetoedOnEnter source target | ignored =>
    have hsame : a.after = a.before := by
      rw [hmoved, ho]
      rfl
    rw [hsame]
    rfl

/-! ### Attempts one after the other -/

/-- Attempts that follow one another, from a machine on a hub to what becomes of both. -/
inductive Attempt.Chain : Machine → Hub M L → List (Attempt M L) → Machine → Hub M L → Prop where
  | nil {m : Machine} {h h' : Hub M L} (entries : List Entry) (hj : h'.journal = entries.reverse ++ h.journal)
      (hplain : ∀ e ∈ entries, e.isPlain = true) : Chain m h [] m h'
  | cons {a : Attempt M L} {as : List (Attempt M L)} {m' : Machine} {h h' : Hub M L}
      (hj : a.outset.journal = h.journal) (ha : a.Faithful) (hrest : Chain a.after a.ending as m' h') :
      Chain a.before h (a :: as) m' h'

theorem Attempt.Faithful.chain {a : Attempt M L} (ha : a.Faithful) :
    Attempt.Chain a.before a.outset [a] a.after a.ending :=
  .cons rfl ha (.nil [] rfl nofun)

namespace Attempt.Chain

variable {m m' : Machine} {h h' : Hub M L} {as : List (Attempt M L)}

theorem faithful (hc : Chain m h as m' h') : ∀ a ∈ as, a.Faithful := by
  induction hc with
  | nil => simp
  | cons _ ha _ ih => exact List.forall_mem_cons.2 ⟨ha, ih⟩

theorem deliveriesSince_eq (hc : Chain m h as m' h') : h.deliveriesSince h' = as.flatMap deliveries := by
  suffices ∃ entries, h'.journal = entries.reverse ++ h.journal ∧
      VetoMachine.deliveries entries = as.flatMap Attempt.deliveries by
    obtain ⟨entries, hj, hdeliveries⟩ := this
    rw [Hub.deliveriesSince, Hub.entriesSince_eq hj, hdeliveries]
  induction hc with
  | nil entries hj hplain => exact ⟨entries, hj, deliveries_eq_nil hplain⟩
  | @cons a as m' h h' hj ha _ ih =>
    obtain ⟨xs, hxs, hbalanced⟩ := ha.journal
    obtain ⟨ys, hys, hdeliveries⟩ := ih
    refine ⟨xs ++ ys, ?_, ?_⟩
    · rw [hys, hxs, hj, List.reverse_append, List.append_assoc]
    · rw [deliveries_append hbalanced, hdeliveries, List.flatMap_cons, Attempt.deliveries, Hub.deliveriesSince,
        Hub.entriesSince_eq hxs]

end Attempt.Chain

namespace Machine

variable {respond : Response M L} {depth fuel : Nat} {m m' : Machine} {h h' : Hub M L}

private theorem chain_of_drain (hm : m.Sound) (ha : h.Apart m.flag) {mailbox : MailboxId} {os : List Outcome}
    (hcall : m.drain (Hub.publishWithin respond depth) mailbox fuel h = some (os, m', h')) :
    Attempt.Chain m h (m.drainAttempts (Hub.publishWithin respond depth) mailbox fuel h) m' h' ∧
      (m.drainAttempts (Hub.publishWithin respond depth) mailbox fuel h).map (·.outcome) = os := by
  induction fuel generalizing m h os with
  | zero => cases hcall
  | succ fuel ih =>
    have hpopped : (h.pop mailbox).2.journal = h.journal := by
      unfold Hub.pop
      split <;> rfl
    have hlaw := Hub.callLaw_keeps respond depth m.flag
    obtain ⟨hpop, rfl, rfl⟩ | ⟨q, h₁, o, m₁, h₂, rest, hpop, haction, hrest, rfl⟩ := drain_cases hcall
    · rw [hpop] at hpopped
      simp only [drainAttempts, hpop]
      exact ⟨.nil [] hpopped nofun, rfl⟩
    · have ha₁ : (h.pop mailbox).2.Apart m.flag := (hlaw.pop h mailbox ha).1
      rw [hpop] at ha₁ hpopped
      -- the machine keeps its flag, so nobody else uses it in the rest of the drain either
      have hflag : m₁.flag = m.flag := (isInvariant_flag m.flag).handleAction rfl haction
      have ha₂ : h₂.Apart m₁.flag := by
        rw [hflag]
        exact (hlaw.handleAction haction ha₁).1
      obtain ⟨hchain, houtcomes⟩ := ih (isInvariant_sound.handleAction hm haction) ha₂ hrest
      simp only [drainAttempts, hpop, haction, List.map_cons, houtcomes, and_true]
      exact .cons hpopped (faithful_of_handleAction hm ha₁ haction) hchain

/-- An operation that drives a machine makes one attempt after the other, one for every outcome. -/
theorem chain_of_perform (hm : m.Sound) (ha : h.Apart m.flag) {op : Operation} (hop : op.isDriving = true)
    {b : Answer} (hcall : m.perform (Hub.publishWithin respond depth) fuel h op = some (b, m', h')) :
    Attempt.Chain m h (m.attempts (Hub.publishWithin respond depth) fuel h op) m' h' ∧
      (m.attempts (Hub.publishWithin respond depth) fuel h op).map (·.outcome) = b.allOutcomes := by
  cases op with
  | cancel =>
    cases hcall
    exact ⟨.nil [.raised m.flag] rfl (by simp [Entry.isPlain]), rfl⟩
  | moveTo target payload =>
    obtain ⟨o, hmove, rfl⟩ := call_of_answer hcall
    simp only [attempts, hmove]
    exact ⟨(faithful_of_transition hm ha hmove).chain, rfl⟩
  | handleAction action payload =>
    obtain ⟨o, hmove, rfl⟩ := call_of_answer hcall
    simp only [attempts, hmove]
    exact ⟨(faithful_of_handleAction hm ha hmove).chain, rfl⟩
  | handleNotification n =>
    obtain ⟨o, hmove, rfl⟩ := call_of_answer hcall
    simp only [attempts, hmove]
    exact ⟨(faithful_of_handleNotification hm ha hmove).chain, rfl⟩
  | drain mailbox =>
    obtain ⟨os, hmove, rfl⟩ := call_of_answer hcall
    exact chain_of_drain hm ha hmove
  | register _ _ | remove _ | startAt _ | edit _ _ | editCurrent _ => cases hop

end Machine

end VetoMachine
