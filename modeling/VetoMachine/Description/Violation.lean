import VetoMachine.Description

/-!
# Violations of a description

`Description.violations` lists everything that is wrong with a description: first an undefined initial state, then
every definition that repeats an earlier name, then every declared transition to an undefined state, both in the
order of the description.
-/

namespace VetoMachine

/-- A way in which a description is not sound. -/
inductive Violation where
  | duplicateState (name : String)
  | unknownInitial (initial : String)
  | danglingTarget (state action target : String)
deriving DecidableEq

namespace Violation

def message : Violation → String
  | .duplicateState name =>
    "State '" ++ name ++ "' is defined more than once; only the first definition is kept"
  | .unknownInitial initial => "Initial state '" ++ initial ++ "' is not defined"
  | .danglingTarget state action target =>
    "Action '" ++ action ++ "' of state '" ++ state ++ "' targets undefined state '" ++ target ++ "'"

end Violation

namespace Description

/-- The names that repeat one of `seen` or an earlier one, in order. -/
def repeats (seen : List String) : List String → List String
  | [] => []
  | name :: rest => if name ∈ seen then name :: repeats seen rest else repeats (name :: seen) rest

/-- The violation of the initial state, if it is undefined. -/
def initialViolations (d : Description) : List Violation :=
  if d.defines d.initial then [] else [.unknownInitial d.initial]

/-- One violation for every definition that repeats an earlier name. -/
def duplicateViolations (d : Description) : List Violation :=
  (repeats [] (d.states.map (·.name))).map .duplicateState

/-- One violation for every transition to an undefined state. -/
def targetViolations (d : Description) : List Violation :=
  d.states.flatMap fun s =>
    (s.bindings.filter fun b => !d.defines b.target).map fun b => .danglingTarget s.name b.action b.target

/-- Everything that is wrong with a description. -/
def violations (d : Description) : List Violation :=
  d.initialViolations ++ d.duplicateViolations ++ d.targetViolations

/-- A sound description, or all its violations. -/
def validate (d : Description) : Except (List Violation) Unit :=
  if d.violations.isEmpty then .ok () else .error d.violations

end Description

end VetoMachine
