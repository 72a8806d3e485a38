import Mathlib.Logic.Relation
import VetoMachine.Proofs.Invariant

/-!
# What is done to a machine

A deed is an operation or the loading of a description (`Machine.undergo`).  Deeds lead from machines that can come
about to such machines (`Machine.Reachable.undergo`).  The operations that drive a machine change neither its
registry nor its tables: it comes out of them as the outcomes tell, in the state where the last committed move led
(`Machine.moved_of_perform`).
-/

namespace VetoMachine

variable {M L : Type} {publish : Publisher M L}

/-- Something done to a machine: an operation, or a description loaded into it. -/
inductive Deed where
  | operate (op : Operation)
  | populate (l : Loader)

/-- Whether an operation drives a machine, and changes neither its registry nor a table. -/
def Operation.isDriving : Operation → Bool
  | .cancel | .moveTo _ _ | .handleAction _ _ | .handleNotification _ | .drain _ => true
  | .register _ _ | .remove _ | .startAt _ | .edit _ _ | .editCurrent _ => false

/-- The outcomes that an answer tells, in order. -/
def Answer.allOutcomes : Answer → List Outcome
  | .outcome o => [o]
  | .outcomes os => os
  | .done | .accepted _ | .removed _ | .edited _ => []

/-- The name of the state that a committed move led to. -/
def Outcome.arrival? : Outcome → Option String
  | .committed _ target => some target
  | .vetoedOnExit _ _ | .vetoedOnEnter _ _ | .ignored => none

namespace Machine

/-- Does something to a machine on a hub.  A description that is refused leaves the machine as it is. -/
def undergo (publish : Publisher M L) (fuel : Nat) (m : Machine) (h : Hub M L) :
    Deed → Option (Except Rejection Answer × Machine × Hub M L)
  | .operate op => do
    let (answer, m, h) ← m.perform publish fuel h op
    return (.ok answer, m, h)
  | .populate l =>
    let h := h.warn (l.populateWarnings m)
    match (l.populate m).1 with
    | .ok m => some (.ok .done, m, h)
    | .error r => some (.error r, m, h)

/-- What something done to a machine makes of it, on whatever hub and whatever the listeners do. -/
def Leads (m m' : Machine) : Prop :=
  ∃ (M L : Type) (publish : Publisher M L) (fuel : Nat) (h h' : Hub M L) (deed : Deed) (a : Except Rejection Answer),
    m.undergo publish fuel h deed = some (a, m', h')

variable {m m' : Machine} {fuel : Nat} {h h' : Hub M L} {deed : Deed} {a : Except Rejection Answer}

/-- A deed is an operation, a description that is loaded, or one that is refused. -/
theorem undergo_cases (hcall : m.undergo publish fuel h deed = some (a, m', h')) :
    (∃ op b, deed = .operate op ∧ a = .ok b ∧ m.perform publish fuel h op = some (b, m', h')) ∨
      (∃ l, deed = .populate l ∧ a = .ok .done ∧ (l.populate m).1 = .ok m' ∧
        h' = h.warn (l.populateWarnings m)) ∨
      ∃ l r, deed = .populate l ∧ a = .error r ∧ (l.populate m).1 = .error r ∧ m' = m ∧
        h' = h.warn (l.populateWarnings m) := by
  cases deed with
  | operate op =>
    obtain ⟨⟨b, m₁, h₁⟩, hcall, hb⟩ := Option.bind_eq_some_iff.1 hcall
    cases hb
    exact .inl ⟨op, b, rfl, rfl, hcall⟩
  | populate l =>
    right
    unfold undergo at hcall
    cases hl : (l.populate m).1 with
    | ok m₁ =>
      simp only [hl, Option.some.injEq, Prod.mk.injEq] at hcall
      obtain ⟨rfl, rfl, rfl⟩ := hcall
      exact .inl ⟨l, rfl, rfl, hl, rfl⟩
    | error r =>
      simp only [hl, Option.some.injEq, Prod.mk.injEq] at hcall
      obtain ⟨rfl, rfl, rfl⟩ := hcall
      exact .inr ⟨l, r, rfl, rfl, hl, rfl, rfl⟩

theorem IsInvariant.undergo {P : Machine → Prop} (hP : IsInvariant P) (hm : P m)
    (hcall : m.undergo publish fuel h deed = some (a, m', h')) : P m' := by
  obtain ⟨op, b, -, -, hcall⟩ | ⟨l, -, -, hl, -⟩ | ⟨l, r, -, -, -, rfl, -⟩ := undergo_cases hcall
  · exact hP.perform hm hcall
  · exact hP.populate hm hl
  · exact hm

theorem Reachable.undergo (hm : m.Reachable) (hcall : m.undergo publish fuel h deed = some (a, m', h')) :
    m'.Reachable := by
  obtain ⟨op, b, -, -, hcall⟩ | ⟨l, -, -, hl, -⟩ | ⟨l, r, -, -, -, rfl, -⟩ := undergo_cases hcall
  · exact hm.performed hcall
  · exact hm.populated hl
  · exact hm

/-! ### Where moves lead -/

/-- The machine after moves with the given outcomes: the last committed one tells where it is. -/
def moved (m : Machine) (os : List Outcome) : Machine :=
  match (os.filterMap Outcome.arrival?).getLast? with
  | some target => m.commit target
  | none => m

theorem moved_cons (m : Machine) (o : Outcome) (os : List Outcome) :
    m.moved (o :: os) = (m.moved [o]).moved os := by
  unfold moved
  cases ho : o.arrival? with
  | none => simp [ho]
  | some target =>
    cases hos : (os.filterMap Outcome.arrival?).getLast? with
    | none => simp [ho, hos, List.getLast?_cons]
    | some last => simp [ho, hos, List.getLast?_cons, commit]

@[simp] theorem moved_state? (m : Machine) (os : List Outcome) : (m.moved os).state? = m.state? := by
  unfold moved; split <;> rfl

@[simp] theorem moved_initial (m : Machine) (os : List Outcome) : (m.moved os).initial = m.initial := by
  unfold moved; split <;> rfl

theorem moved_current (m : Machine) (os : List Outcome) :
    (m.moved os).current = (os.filterMap Outcome.arrival?).getLast?.or m.current := by
  unfold moved
  cases (os.filterMap Outcome.arrival?).getLast? <;> rfl

variable {o : Outcome} {target action : String} {payload : Json}

theorem moved_of_transition (hcall : m.transition publish target payload h = some (o, m', h')) :
    m' = m.moved [o] := by
  obtain ⟨-, rfl, rfl, -⟩ | ⟨next, -, hrun, rfl⟩ := transition_cases hcall
  · rfl
  · -- the outcome names the state of the passage
    obtain ⟨h₁, -, ⟨-, rfl, -⟩ | ⟨-, h₂, -, ⟨-, rfl, -⟩ | ⟨-, h₃, h₄, -, -, rfl, -⟩⟩⟩ := Passage.run_cases hrun
    · rfl
    · rfl
    · rfl

theorem moved_of_handleAction (hcall : m.handleAction publish action payload h = some (o, m', h')) :
    m' = m.moved [o] := by
  obtain ⟨-, rfl, rfl, -⟩ | ⟨target, next, -, -, hcall⟩ := handleAction_cases hcall
  · rfl
  · exact moved_of_transition hcall

theorem moved_of_handleNotification {n : Notification}
    (hcall : m.handleNotification publish n h = some (o, m', h')) : m' = m.moved [o] := by
  obtain ⟨-, action, -, hcall⟩ | ⟨-, rfl, rfl, -⟩ | ⟨rfl, rfl, -⟩ := handleNotification_cases hcall
  · exact moved_of_handleAction hcall
  · rfl
  · rfl

theorem moved_of_drain {mailbox : MailboxId} {os : List Outcome}
    (hcall : m.drain publish mailbox fuel h = some (os, m', h')) : m' = m.moved os := by
  induction fuel generalizing m h os with
  | zero => cases hcall
  | succ fuel ih =>
    obtain ⟨-, rfl, rfl⟩ | ⟨q, h₁, o, m₁, h₂, rest, -, haction, hrest, rfl⟩ := drain_cases hcall
    · rfl
    · rw [moved_cons, ← moved_of_handleAction haction]
      exact ih hrest

/-- An operation that drives a machine leaves it where the outcomes tell. -/
theorem moved_of_perform {op : Operation} {b : Answer} (hop : op.isDriving = true)
    (hcall : m.perform publish fuel h op = some (b, m', h')) : m' = m.moved b.allOutcomes := by
  cases op with
  | cancel => cases hcall; rfl
  | moveTo target payload =>
    obtain ⟨o, hmove, rfl⟩ := call_of_answer hcall
    exact moved_of_transition hmove
  | handleAction action payload =>
    obtain ⟨o, hmove, rfl⟩ := call_of_answer hcall
    exact moved_of_handleAction hmove
  | handleNotification n =>
    obtain ⟨o, hmove, rfl⟩ := call_of_answer hcall
    exact moved_of_handleNotification hmove
  | drain mailbox =>
    obtain ⟨os, hmove, rfl⟩ := call_of_answer hcall
    exact moved_of_drain hmove
  | register _ _ | remove _ | startAt _ | edit _ _ | editCurrent _ => cases hop

end Machine

end VetoMachine
