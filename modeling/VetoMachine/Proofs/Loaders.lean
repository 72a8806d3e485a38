import VetoMachine.Proofs.Registrations

/-!
# What a loader makes of a description

The state of a definition binds every action to the target of its first transition (`Definition.target?_state`).  A
loader gives the states of its description whatever was done with it before (`Loader.Reachable.load_eq`), and a machine
made by it holds the first definition of every name and is in the initial state, if that is defined
(`Loader.Reachable.inject_eq`, `Machine.registerAll_founds`).
-/

namespace VetoMachine

/-! ### States of definitions -/

namespace State

theorem target?_define (s : State) (action target other : String) :
    (s.define action target).2.target? other = (s.target? other).or (if other = action then some target else none) := by
  unfold define
  cases hbound : s.target? action with
  | some bound =>
    by_cases hother : other = action
    · simp [hother, hbound]
    · simp [hother]
  | none =>
    have hinsert : (s.transitions.insert action target)[other]? =
        if other = action then some target else s.target? other := by
      simp [Std.ExtTreeMap.getElem?_insert, eq_comm (a := other), target?]
    rw [target?, hinsert]
    by_cases hother : other = action
    · simp [hother, hbound]
    · simp [hother]

/-- The first binding of an action counts, unless it was bound before. -/
theorem target?_defineAll (s : State) (bindings : List (String × String)) (action : String) :
    (s.defineAll bindings).target? action =
      (s.target? action).or ((bindings.find? (·.1 = action)).map (·.2)) := by
  induction bindings generalizing s with
  | nil => simp [defineAll]
  | cons b rest ih =>
    have hrest : s.defineAll (b :: rest) = (s.define b.1 b.2).2.defineAll rest := rfl
    rw [hrest, ih, target?_define, Option.or_assoc, List.find?_cons]
    by_cases hb : b.1 = action
    · simp [hb]
    · simp [hb, Ne.symm hb]

@[simp] theorem defineAll_name (s : State) (bindings : List (String × String)) :
    (s.defineAll bindings).name = s.name := by
  induction bindings generalizing s with
  | nil => rfl
  | cons b rest ih =>
    have hrest : s.defineAll (b :: rest) = (s.define b.1 b.2).2.defineAll rest := rfl
    rw [hrest, ih, define_name]

end State

namespace Definition

@[simp] theorem state_name (d : Definition) : d.state.name = d.name := by
  rw [state, State.defineAll_name]

/-- An action leads where the first transition listed for it leads. -/
theorem target?_state (d : Definition) (action : String) :
    d.state.target? action = (d.bindings.find? (·.action = action)).map (·.target) := by
  rw [state, State.target?_defineAll, List.find?_map, Option.map_map]
  rfl

end Definition

/-! ### Machines that are founded -/

namespace Machine

variable {m : Machine} {isInitial : State → Bool} {states : List State}

theorem registerAll_keeps (hm : m.initial ≠ none) :
    (registerAll isInitial states m).initial = m.initial ∧ (registerAll isInitial states m).current = m.current ∧
      (registerAll isInitial states m).detached = m.detached := by
  induction states generalizing m with
  | nil => exact ⟨rfl, rfl, rfl⟩
  | cons s rest ih =>
    rw [registerAll]
    obtain ⟨-, h⟩ | ⟨-, -, hinitial, -⟩ | ⟨-, -, h⟩ := m.register_cases s (isInitial s)
    · rw [h]
      exact ih hm
    · exact absurd hinitial hm
    · rw [h]
      exact ih hm

/-- A machine without an initial state is founded by the first state that carries the flag, if its name is free. -/
theorem registerAll_founds {name : String} (hm : m.initial = none) (hfree : m.state? name = none)
    (hdefined : ∃ s ∈ states, s.name = name) :
    (registerAll (fun s => decide (name = s.name)) states m).initial = some name ∧
      (registerAll (fun s => decide (name = s.name)) states m).current = some name ∧
      (registerAll (fun s => decide (name = s.name)) states m).detached = none := by
  induction states generalizing m with
  | nil => simp at hdefined
  | cons s rest ih =>
    rw [registerAll]
    by_cases hname : name = s.name
    · subst hname
      obtain ⟨⟨t, ht⟩, -⟩ | ⟨-, -, -, h⟩ | ⟨-, hlate, -⟩ := m.register_cases s (decide (s.name = s.name))
      · rw [hfree] at ht
        cases ht
      · rw [h]
        exact registerAll_keeps (Option.some_ne_none _)
      · exact absurd hm (hlate (by simp))
    · -- a state of another name carries no flag and leaves the name free
      have hrest : ∃ s ∈ rest, s.name = name := by
        obtain ⟨t, ht, hname'⟩ := hdefined
        rcases List.mem_cons.1 ht with rfl | ht
        · exact absurd hname'.symm hname
        · exact ⟨t, ht, hname'⟩
      have hfree' : (m.register s (decide (name = s.name))).2.state? name = none := by
        rw [state?_register, hfree, if_neg hname]
        rfl
      have hinitial : (m.register s (decide (name = s.name))).2.initial = none := by
        have hfirst := Registration.initial_eq ⟨m, s, decide (name = s.name)⟩
        simp only [Registration.result, Registration.isFlagged, hname, decide_false, Bool.false_and] at hfirst
        simp [hname, hfirst, hm]
      exact ih hinitial hfree' hrest

end Machine

/-! ### Loaders -/

namespace Loader

/-- A loader that can come about for a description: its strategy is changed and its states are built at will. -/
inductive Reachable (d : Description) : Loader → Prop where
  | new : Reachable d (.new d)
  | onViolation {l : Loader} (hl : Reachable d l) (strategy : Strategy) : Reachable d (l.onViolation strategy)
  | loaded {l : Loader} (hl : Reachable d l) : Reachable d l.load.2

variable {d : Description} {l : Loader}

theorem Reachable.built_eq (hl : l.Reachable d) :
    l.description = d ∧ ∀ states, l.built = some states → states = d.states.map Definition.state := by
  induction hl with
  | new => exact ⟨rfl, nofun⟩
  | onViolation _ strategy ih => exact ih
  | @loaded l _ ih =>
    obtain ⟨hd, hbuilt⟩ := ih
    unfold load
    split
    · exact ⟨hd, hbuilt⟩
    · split
      · exact ⟨hd, hbuilt⟩
      · refine ⟨hd, ?_⟩
        rintro states ⟨rfl⟩
        rw [hd]

/-- A loader that does not refuse its description gives the states of the definitions. -/
theorem Reachable.load_eq (hl : l.Reachable d) (hd : l.strategy = .reject → d.violations = []) :
    l.load.1 = .ok (d.states.map Definition.state) ∧ l.load.2.description = d := by
  obtain ⟨hdescription, hbuilt⟩ := hl.built_eq
  subst hdescription
  unfold load
  cases hstates : l.built with
  | some states => exact ⟨congrArg _ (hbuilt states hstates), rfl⟩
  | none =>
    cases hstrategy : l.strategy with
    | ignoreAndWarn => exact ⟨rfl, rfl⟩
    | reject =>
      rw [hd hstrategy]
      exact ⟨rfl, rfl⟩

/-- A loader that does not refuse its description registers its states, the initial one with the flag. -/
theorem Reachable.inject_of_willing (hl : l.Reachable d) (hd : l.strategy = .reject → d.violations = [])
    (flag : FlagId) :
    (l.inject flag).1 = .ok (Machine.registerAll (fun s => decide (d.initial = s.name))
      (d.states.map Definition.state) (.empty flag)) := by
  obtain ⟨hstates, hdescription⟩ := hl.load_eq hd
  simp only [inject, populate, hstates, Except.map, isInitial, hdescription]

/-- No loader refuses a description without violations. -/
theorem Reachable.inject_eq (hl : l.Reachable d) (hd : d.violations = []) (flag : FlagId) :
    (l.inject flag).1 = .ok (Machine.registerAll (fun s => decide (d.initial = s.name))
      (d.states.map Definition.state) (.empty flag)) :=
  hl.inject_of_willing (fun _ => hd) flag

end Loader

end VetoMachine
