import Mathlib.Logic.Function.Basic
import VetoMachine.Hub.Operation

/-!
# Machines of objects

The same machine with states that have an identity.  A state is an object; the registry leads from names to
objects, and the machine points at its current object, which may or may not be registered.  Registering makes a
new object under a free name, removing deletes the entry of the registry and leaves the pointer alone, editing
changes the object in its place, and a commit points at the object registered under the target.  The machine has
no copies and so nothing to keep in step; `Machine.Represents` compares it with `Machine`.

The protocol is written out again step by step (`ObjectMachine.moveTo`), so the two machines share only the hub
and the states.
-/

namespace VetoMachine

/-- Names an object. -/
abbrev ObjectId := Nat

/-- A machine whose states are objects. -/
structure ObjectMachine where
  /-- The cancel flag that listeners raise to veto the transition in flight. -/
  flag : FlagId
  /-- The state an object holds; only the objects below `nextObject` are in use. -/
  objects : ObjectId → State
  nextObject : ObjectId
  /-- The object registered under a name. -/
  registry : String → Option ObjectId
  /-- The first object registered with the initial flag. -/
  initial : Option ObjectId
  /-- The object the machine is in, registered or not. -/
  current : Option ObjectId

namespace ObjectMachine

def empty (flag : FlagId) : ObjectMachine := ⟨flag, fun _ => .new "", 0, fun _ => none, none, none⟩

def state? (r : ObjectMachine) (name : String) : Option State := (r.registry name).map r.objects

def currentState (r : ObjectMachine) : Option State := r.current.map r.objects

def initialName (r : ObjectMachine) : Option String := r.initial.map fun i => (r.objects i).name

/-- Makes a new object for a state and enters it in the registry. -/
def add (r : ObjectMachine) (s : State) : ObjectMachine :=
  { r with
    objects := Function.update r.objects r.nextObject s
    nextObject := r.nextObject + 1
    registry := Function.update r.registry s.name (some r.nextObject) }

/-- Adds a state unless its name is taken.  With the initial flag the new object becomes initial and current if
there is no initial one. -/
def register (r : ObjectMachine) (s : State) (asInitial : Bool) : Bool × ObjectMachine :=
  match r.registry s.name with
  | some _ => (false, r)
  | none =>
    if asInitial && r.initial.isNone then
      (true, { r.add s with initial := some r.nextObject, current := some r.nextObject })
    else (true, r.add s)

/-- The warning about an initial flag that comes too late. -/
def registerWarnings (r : ObjectMachine) (s : State) (asInitial : Bool) : List Warning :=
  match r.initialName with
  | some initial => if asInitial && (r.registry s.name).isNone then [.initialAlreadySet s.name initial] else []
  | none => []

/-- Deletes the entry of a name and gives the state of its object. -/
def remove (r : ObjectMachine) (name : String) : Option State × ObjectMachine :=
  (r.state? name, { r with registry := Function.update r.registry name none })

/-- Points a machine without a current object at a registered one. -/
def startAt (r : ObjectMachine) (name : String) : Bool × ObjectMachine :=
  match r.current, r.registry name with
  | none, some i => (true, { r with current := some i })
  | _, _ => (false, r)

/-- The warning about a machine that cannot be started there. -/
def startWarnings (r : ObjectMachine) (name : String) : List Warning :=
  match r.currentState, r.registry name with
  | some s, _ => [.alreadyStarted s.name name]
  | none, some _ => []
  | none, none => [.unregisteredStart name]

/-- Edits an object, if there is one. -/
def editObject (r : ObjectMachine) (e : State.Edit) : Option ObjectId → Option State.EditReply × ObjectMachine
  | none => (none, r)
  | some i =>
    let (reply, s) := (r.objects i).edit e
    (some reply, { r with objects := Function.update r.objects i s })

def edit (r : ObjectMachine) (name : String) (e : State.Edit) : Option State.EditReply × ObjectMachine :=
  r.editObject e (r.registry name)

def editCurrent (r : ObjectMachine) (e : State.Edit) : Option State.EditReply × ObjectMachine :=
  r.editObject e r.current

variable {M L : Type}

/-- Publishes an event, if there is one. -/
def announce (publish : Publisher M L) (event : Option String) (body : Json) (kind : Option String)
    (h : Hub M L) : Option (Hub M L) :=
  match event with
  | some name => publish ⟨name, body, kind⟩ h
  | none => some h

/-- Moves to the object registered under a name, unless a listener vetoes. -/
def moveTo (publish : Publisher M L) (r : ObjectMachine) (target : String) (payload : Json) (h : Hub M L) :
    Option (Outcome × ObjectMachine × Hub M L) :=
  match r.registry target with
  | none => some (.ignored, r, h)
  | some next => do
    let left := r.currentState
    let entered := r.objects next
    let h ← announce publish (left.bind (·.exiting)) payload (some target) (h.lower r.flag)
    if h.isRaised r.flag then
      return (.vetoedOnExit ((left.map (·.name)).getD "") target, r, h.lower r.flag)
    let h ← announce publish entered.entering payload none h
    if h.isRaised r.flag then return (.vetoedOnEnter (left.map (·.name)) target, r, h.lower r.flag)
    let r := { r with current := some next }
    let h ← announce publish entered.changed payload none h
    let h ← publish ⟨Notification.changedName, entered.toJson, some entered.name⟩ h
    return (.committed (left.map (·.name)) target, r, h.lower r.flag)

/-- Follows the binding of an action in the current object. -/
def handleAction (publish : Publisher M L) (r : ObjectMachine) (action : String) (payload : Json) (h : Hub M L) :
    Option (Outcome × ObjectMachine × Hub M L) :=
  match r.currentState with
  | none => some (.ignored, r, h)
  | some s =>
    match s.target? action with
    | none => some (.ignored, r, h)
    | some target =>
      match r.registry target with
      | none => some (.ignored, r, h.warn [.unregisteredTarget s.name action target])
      | some _ => r.moveTo publish target payload h

def handleNotification (publish : Publisher M L) (r : ObjectMachine) (n : Notification) (h : Hub M L) :
    Option (Outcome × ObjectMachine × Hub M L) :=
  if n.name = Notification.actionName then
    match n.kind with
    | some action => r.handleAction publish action n.body h
    | none => some (.ignored, r, h.warn [.namelessAction])
  else if n.name = Notification.cancelName then some (.ignored, r, h.raise r.flag)
  else some (.ignored, r, h)

/-- Handles the actions in a mailbox until it is empty. -/
def drain (publish : Publisher M L) (mailbox : MailboxId) :
    Nat → ObjectMachine → Hub M L → Option (List Outcome × ObjectMachine × Hub M L)
  | 0, _, _ => none
  | fuel + 1, r, h =>
    match h.pop mailbox with
    | (none, h) => some ([], r, h)
    | (some q, h) => do
      let (outcome, r, h) ← r.handleAction publish q.action q.payload h
      let (outcomes, r, h) ← drain publish mailbox fuel r h
      return (outcome :: outcomes, r, h)

def perform (publish : Publisher M L) (fuel : Nat) (r : ObjectMachine) (h : Hub M L) :
    Operation → Option (Answer × ObjectMachine × Hub M L)
  | .register s asInitial =>
    let (added, r') := r.register s asInitial
    some (.accepted added, r', h.warn (r.registerWarnings s asInitial))
  | .remove name => let (removed, r) := r.remove name; some (.removed removed, r, h)
  | .startAt name =>
    let (started, r') := r.startAt name
    some (.accepted started, r', h.warn (r.startWarnings name))
  | .edit name e => let (reply, r) := r.edit name e; some (.edited reply, r, h)
  | .editCurrent e => let (reply, r) := r.editCurrent e; some (.edited reply, r, h)
  | .cancel => some (.done, r, h.raise r.flag)
  | .moveTo target payload => do
    let (outcome, r, h) ← r.moveTo publish target payload h
    return (.outcome outcome, r, h)
  | .handleAction action payload => do
    let (outcome, r, h) ← r.handleAction publish action payload h
    return (.outcome outcome, r, h)
  | .handleNotification n => do
    let (outcome, r, h) ← r.handleNotification publish n h
    return (.outcome outcome, r, h)
  | .drain mailbox => do
    let (outcomes, r, h) ← r.drain publish mailbox fuel h
    return (.outcomes outcomes, r, h)

def performAll (publish : Publisher M L) (fuel : Nat) :
    List Operation → ObjectMachine → Hub M L → Option (List Answer × ObjectMachine × Hub M L)
  | [], r, h => some ([], r, h)
  | op :: ops, r, h => do
    let (answer, r, h) ← r.perform publish fuel h op
    let (answers, r, h) ← performAll publish fuel ops r h
    return (answer :: answers, r, h)

end ObjectMachine

end VetoMachine
