import VetoMachine.Proofs.Registry

/-!
# States registered one after the other

When states are registered one after the other, the first of every name is registered (`Machine.state?_registerAll`),
and the first that carries the initial flag and is accepted by a machine without an initial state founds it: it
becomes the initial and the current state (`Machine.registerAll_initial`, `Machine.registerAll_current`).  A machine is
founded at most once (`Machine.filter_isFounding_registrations`).
-/

namespace VetoMachine

/-- A state handed to a machine to be registered. -/
structure Registration where
  machine : Machine
  state : State
  asInitial : Bool

namespace Registration

/-- Whether the state is registered, and the machine afterwards. -/
def result (r : Registration) : Bool × Machine := r.machine.register r.state r.asInitial

/-- Whether the state carries the initial flag and is registered. -/
def isFlagged (r : Registration) : Bool := r.asInitial && r.result.1

/-- Whether the state becomes the initial one: it carries the flag, is registered, and there was none before. -/
def isFounding (r : Registration) : Bool := r.isFlagged && r.machine.initial.isNone

theorem refused_iff (r : Registration) : r.result.1 = false ↔ r.machine.isRegistered r.state.name = true := by
  obtain ⟨m, s, asInitial⟩ := r
  obtain ⟨⟨t, ht⟩, h⟩ | ⟨hs, -, -, h⟩ | ⟨hs, -, h⟩ := m.register_cases s asInitial
  · simp [result, h, Machine.isRegistered, ht]
  · simp [result, h, Machine.isRegistered, hs]
  · simp [result, h, Machine.isRegistered, hs]

theorem result_of_refused {r : Registration} (hr : r.result.1 = false) : r.result.2 = r.machine := by
  have hregistered : r.machine.isRegistered r.state.name = true := r.refused_iff.1 hr
  rw [result, Machine.register, if_pos hregistered]

theorem initial_eq (r : Registration) :
    r.result.2.initial = r.machine.initial.or (if r.isFlagged then some r.state.name else none) := by
  obtain ⟨m, s, asInitial⟩ := r
  unfold isFlagged result
  obtain ⟨-, h⟩ | ⟨-, hflag, hinitial, h⟩ | ⟨-, hlate, h⟩ := m.register_cases s asInitial <;> simp only [h]
  · simp
  · simp [hflag, hinitial]
  · cases hinitial : m.initial with
    | some name => rfl
    | none =>
      have hno : asInitial = false := Bool.eq_false_iff.2 fun hyes => hlate hyes hinitial
      simp [hno]

theorem current_eq (r : Registration) :
    r.result.2.current = if r.isFounding then some r.state.name else r.machine.current := by
  obtain ⟨m, s, asInitial⟩ := r
  unfold isFounding isFlagged result
  obtain ⟨-, h⟩ | ⟨-, hflag, hinitial, h⟩ | ⟨-, hlate, h⟩ := m.register_cases s asInitial <;> simp only [h]
  · simp
  · simp [hflag, hinitial]
  · cases hinitial : m.initial with
    | some name => simp
    | none =>
      have hno : asInitial = false := Bool.eq_false_iff.2 fun hyes => hlate hyes hinitial
      simp [hno]

end Registration

namespace Machine

/-- The registrations that `registerAll` makes. -/
def registrations (isInitial : State → Bool) : List State → Machine → List Registration
  | [], _ => []
  | s :: rest, m => ⟨m, s, isInitial s⟩ :: registrations isInitial rest (m.register s (isInitial s)).2

/-- The first state of every name is registered, unless the name was taken before. -/
theorem state?_registerAll (isInitial : State → Bool) (states : List State) (m : Machine) (name : String) :
    (registerAll isInitial states m).state? name = (m.state? name).or (states.find? (·.name = name)) := by
  induction states generalizing m with
  | nil => simp [registerAll]
  | cons s rest ih =>
    rw [registerAll, ih, state?_register, Option.or_assoc, List.find?_cons]
    by_cases hname : name = s.name
    · simp [hname]
    · simp [hname, Ne.symm hname]

theorem registerAll_initial (isInitial : State → Bool) (states : List State) (m : Machine) :
    (registerAll isInitial states m).initial =
      m.initial.or (((registrations isInitial states m).find? (·.isFlagged)).map (·.state.name)) := by
  induction states generalizing m with
  | nil => simp [registerAll, registrations]
  | cons s rest ih =>
    have hfirst := Registration.initial_eq ⟨m, s, isInitial s⟩
    simp only [Registration.result] at hfirst
    rw [registerAll, ih, hfirst, Option.or_assoc, registrations, List.find?_cons]
    cases (Registration.mk m s (isInitial s)).isFlagged <;> simp

/-- Only the first state that is registered with the flag can found a machine, and does so if it has no initial
state. -/
theorem filter_isFounding_registrations (isInitial : State → Bool) (states : List State) (m : Machine) :
    (registrations isInitial states m).filter (·.isFounding) =
      if m.initial.isNone then ((registrations isInitial states m).find? (·.isFlagged)).toList else [] := by
  induction states generalizing m with
  | nil => simp [registrations]
  | cons s rest ih =>
    have hfirst := Registration.initial_eq ⟨m, s, isInitial s⟩
    simp only [Registration.result] at hfirst
    rw [registrations, List.filter_cons, List.find?_cons, ih, hfirst]
    cases hflag : (Registration.mk m s (isInitial s)).isFlagged <;> cases hinitial : m.initial <;>
      simp [Registration.isFounding, hflag, hinitial]

theorem registerAll_current (isInitial : State → Bool) (states : List State) (m : Machine) :
    (registerAll isInitial states m).current =
      (((registrations isInitial states m).find? (·.isFounding)).map (·.state.name)).or m.current := by
  induction states generalizing m with
  | nil => simp [registerAll, registrations]
  | cons s rest ih =>
    have hfirst := Registration.current_eq ⟨m, s, isInitial s⟩
    simp only [Registration.result] at hfirst
    rw [registerAll, ih, hfirst, registrations, List.find?_cons]
    cases hfounding : (Registration.mk m s (isInitial s)).isFounding with
    | false => simp
    | true =>
      -- a founded machine is not founded again
      have hnone : (registrations isInitial rest (m.register s (isInitial s)).2).filter (·.isFounding) = [] := by
        have hflag : (Registration.mk m s (isInitial s)).isFlagged = true := by
          rw [Registration.isFounding, Bool.and_eq_true] at hfounding
          exact hfounding.1
        have hinitial := Registration.initial_eq ⟨m, s, isInitial s⟩
        simp only [Registration.result, hflag, if_true] at hinitial
        rw [filter_isFounding_registrations, hinitial]
        cases m.initial <;> rfl
      have hfind : (registrations isInitial rest (m.register s (isInitial s)).2).find? (·.isFounding) = none := by
        rw [← List.head?_filter, hnone]
        rfl
      simp [hfind]

end Machine

end VetoMachine
