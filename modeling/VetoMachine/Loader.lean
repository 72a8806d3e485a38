import VetoMachine.Machine

/-!
# Loaders

A loader turns a description into states, once, and registers them with machines.  What it does about violations
of the description is decided when the states are first asked for: it refuses them all, or warns of each and goes
on with the first definition of every name.
-/

namespace VetoMachine

/-- What a loader does about violations. -/
inductive Strategy where
  | reject
  | ignoreAndWarn
deriving DecidableEq

/-- A description on its way into machines. -/
structure Loader where
  description : Description
  strategy : Strategy
  /-- The states, once they are built. -/
  built : Option (List State)
deriving DecidableEq

/-- A refusal to load, with all violations. -/
structure Rejection where
  violations : List Violation
deriving DecidableEq

namespace Rejection

def message (r : Rejection) : String :=
  "Description rejected with " ++ toString r.violations.length ++ " violation(s)"

end Rejection

namespace Loader

/-- A loader that warns of violations and goes on. -/
def new (d : Description) : Loader := ⟨d, .ignoreAndWarn, none⟩

def onViolation (l : Loader) (strategy : Strategy) : Loader := { l with strategy }

/-- Whether `name` is the name of the initial state. -/
def isInitial (l : Loader) (name : String) : Bool := l.description.initial = name

/-- The states in the order of the description, built if they are not yet. -/
def load (l : Loader) : Except Rejection (List State) × Loader :=
  match l.built with
  | some states => (.ok states, l)
  | none =>
    match l.strategy, l.description.violations with
    | .reject, v :: vs => (.error ⟨v :: vs⟩, l)
    | _, _ =>
      let states := l.description.states.map Definition.state
      (.ok states, { l with built := some states })

def loadWarnings (l : Loader) : List Warning :=
  if l.built.isNone && l.strategy == .ignoreAndWarn then l.description.violations.map .unsound else []

/-- Registers all states with a machine, the initial one with its flag. -/
def populate (l : Loader) (m : Machine) : Except Rejection Machine × Loader :=
  let (loaded, l) := l.load
  (loaded.map fun states => Machine.registerAll (fun s => l.isInitial s.name) states m, l)

def populateWarnings (l : Loader) (m : Machine) : List Warning :=
  let (loaded, l') := l.load
  match loaded with
  | .error _ => []
  | .ok states =>
    let isInitial (s : State) : Bool := l'.isInitial s.name
    let populated := Machine.registerAll isInitial states m
    l.loadWarnings ++ Machine.registerAllWarnings isInitial states m
      ++ (if populated.isStarted then [] else [.notStarted l.description.initial])

def inject (l : Loader) (flag : FlagId) : Except Rejection Machine × Loader := l.populate (Machine.empty flag)

def injectWarnings (l : Loader) (flag : FlagId) : List Warning := l.populateWarnings (Machine.empty flag)

end Loader

end VetoMachine
