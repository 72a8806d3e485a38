import VetoMachine.Draft
import VetoMachine.Machine

/-!
# Assemblies

The strict way to make a machine: an assembly lists the states and names the initial one, and a machine is built
only if no name is used twice and the initial state is among them.
-/

namespace VetoMachine

/-- The parts of a machine to be built. -/
structure Assembly where
  initial : Option String
  states : List State

/-- Why no machine can be built. -/
inductive AssemblyError where
  | missingInitial
  | unknownInitial (name : String)
  | duplicateState (name : String)
deriving DecidableEq

namespace AssemblyError

def message : AssemblyError → String
  | .missingInitial => "Initial state not specified. Call .initial(name) before .build()"
  | .unknownInitial name => "Initial state '" ++ name ++ "' was not added. Add it with .state(..)"
  | .duplicateState name => "State '" ++ name ++ "' was added more than once"

end AssemblyError

namespace Assembly

def empty : Assembly := ⟨none, []⟩

def withInitial (a : Assembly) (name : String) : Assembly := { a with initial := some name }

def add (a : Assembly) (states : List State) : Assembly := { a with states := a.states ++ states }

def addDraft (a : Assembly) (d : Draft) : Assembly := a.add [d.state]

/-- The first state whose name repeats one of `seen` or an earlier one. -/
def firstRepeated? (seen : List String) : List State → Option State
  | [] => none
  | s :: rest => if s.name ∈ seen then some s else firstRepeated? (s.name :: seen) rest

/-- Builds the machine, started at its initial state. -/
def build (a : Assembly) (flag : FlagId) : Except AssemblyError Machine :=
  match a.initial with
  | none => .error .missingInitial
  | some initial =>
    match firstRepeated? [] a.states with
    | some s => .error (.duplicateState s.name)
    | none =>
      if a.states.any (·.name = initial) then
        .ok (Machine.registerAll (·.name = initial) a.states (Machine.empty flag))
      else .error (.unknownInitial initial)

end Assembly

end VetoMachine
