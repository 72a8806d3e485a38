import VetoMachine.State
import VetoMachine.Warning

/-!
# Machines

A machine holds states registered under their names, at most one of them current.  The first state registered
with the initial flag becomes initial and current; a machine may also be started at any registered state while it
has no current one.  A current state that is removed from the register stays current, as a detached copy, until
the machine moves on; from then on only `Machine.editCurrent` reaches it.  Registering, removing, starting and
editing publish nothing; moving is the matter of `Machine.transition`.
-/

namespace VetoMachine

abbrev FlagId := Nat

/-- A machine with its registered states. -/
structure Machine where
  /-- The cancel flag that listeners raise to veto the transition in flight. -/
  flag : FlagId
  states : Std.ExtTreeMap String State
  /-- The name of the first state registered with the initial flag. -/
  initial : Option String
  current : Option String
  /-- The current state, if it was removed from the register. -/
  detached : Option State
deriving DecidableEq

namespace Machine

def empty (flag : FlagId) : Machine := ⟨flag, ∅, none, none, none⟩

def state? (m : Machine) (name : String) : Option State := m.states[name]?

def isRegistered (m : Machine) (name : String) : Bool := (m.state? name).isSome

/-- The state the machine is in. -/
def currentState (m : Machine) : Option State :=
  match m.detached with
  | some state => some state
  | none => m.current.bind m.state?

def initialState (m : Machine) : Option State := m.initial.bind m.state?

def isStarted (m : Machine) : Bool := m.current.isSome

/-- Registers a state unless its name is taken, and tells whether it did.  With the initial flag the state becomes
initial and current if the machine has no initial state. -/
def register (m : Machine) (s : State) (asInitial : Bool) : Bool × Machine :=
  if m.isRegistered s.name then (false, m)
  else
    let added := { m with states := m.states.insert s.name s }
    if asInitial && m.initial.isNone then
      (true, { added with initial := some s.name, current := some s.name, detached := none })
    else (true, added)

/-- The warning about an initial flag that comes too late. -/
def registerWarnings (m : Machine) (s : State) (asInitial : Bool) : List Warning :=
  match m.initial with
  | some initial => if asInitial && !m.isRegistered s.name then [.initialAlreadySet s.name initial] else []
  | none => []

/-- Registers states one after the other, those with `isInitial` as initial. -/
def registerAll (isInitial : State → Bool) : List State → Machine → Machine
  | [], m => m
  | s :: rest, m => registerAll isInitial rest (m.register s (isInitial s)).2

def registerAllWarnings (isInitial : State → Bool) : List State → Machine → List Warning
  | [], _ => []
  | s :: rest, m =>
    m.registerWarnings s (isInitial s) ++ registerAllWarnings isInitial rest (m.register s (isInitial s)).2

/-- Removes a state from the register and gives it.  The machine does not move: a current state is kept detached.
-/
def remove (m : Machine) (name : String) : Option State × Machine :=
  match m.state? name with
  | none => (none, m)
  | some s =>
    let detached := if m.detached.isNone && m.current == some name then some s else m.detached
    (some s, { m with states := m.states.erase name, detached })

/-- Starts a machine without a current state at a registered state, and tells whether it did. -/
def startAt (m : Machine) (name : String) : Bool × Machine :=
  if m.current.isNone && m.isRegistered name then (true, { m with current := some name }) else (false, m)

/-- The warning about a machine that cannot be started there. -/
def startWarnings (m : Machine) (name : String) : List Warning :=
  match m.current with
  | some current => [.alreadyStarted current name]
  | none => if m.isRegistered name then [] else [.unregisteredStart name]

def edit (m : Machine) (name : String) (e : State.Edit) : Option State.EditReply × Machine :=
  match m.state? name with
  | none => (none, m)
  | some s => let (reply, s) := s.edit e; (some reply, { m with states := m.states.insert name s })

/-- Edits the current state, registered or detached. -/
def editCurrent (m : Machine) (e : State.Edit) : Option State.EditReply × Machine :=
  match m.detached with
  | some s => let (reply, s) := s.edit e; (some reply, { m with detached := some s })
  | none =>
    match m.current with
    | some name => m.edit name e
    | none => (none, m)

/-- The target of an action in the current state. -/
def boundTarget? (m : Machine) (action : String) : Option String := m.currentState.bind (·.target? action)

/-- The warning about an action whose target is not registered. -/
def actionWarnings (m : Machine) (action : String) : List Warning :=
  match m.currentState with
  | none => []
  | some s =>
    match s.target? action with
    | none => []
    | some target => if m.isRegistered target then [] else [.unregisteredTarget s.name action target]

/-- Moves the machine to the registered state of the given name. -/
def commit (m : Machine) (name : String) : Machine := { m with current := some name, detached := none }

end Machine

end VetoMachine
