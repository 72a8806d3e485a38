import VetoMachine.Hub
import VetoMachine.Machine.Outcome

/-!
# Transitions

The protocol by which a machine moves.  A passage is what the protocol needs to know beforehand: the state left
and the state entered.  It publishes the exit event of the one (with the name of the other as kind), the enter
event and the changed event of the other, and last the change itself with the new state as body.  The cancel flag
of the machine is lowered at the start; a listener that raises it while the exit or the enter event is published
vetoes the passage, and the flag is lowered again after each of these windows and at the end.

How a notification is delivered is a parameter (`Publisher`): it gives no hub if the delivery does not come to an
end.  The machine is not on the hub while it moves, so no listener can change it.
-/

namespace VetoMachine

abbrev Publisher (M L : Type) := Notification → Hub M L → Option (Hub M L)

/-- A move from one state, if there is a current one, to another. -/
structure Passage where
  source : Option String
  exiting : Option String
  target : State
  /-- The JSON form of the state that the machine is in once it has moved. -/
  report : Json

variable {M L : Type}

namespace Hub

def publishIfAny (publish : Publisher M L) : Option Notification → Hub M L → Option (Hub M L)
  | none, h => some h
  | some n, h => publish n h

/-- Whether a cancel flag is raised, which lowers it. -/
def take (h : Hub M L) (flag : FlagId) : Bool × Hub M L := (h.isRaised flag, h.lower flag)

end Hub

namespace Passage

/-- The notification that the state is left. -/
def exitNote (p : Passage) (payload : Json) : Option Notification :=
  p.exiting.map fun event => ⟨event, payload, some p.target.name⟩

/-- The notification that the state is entered. -/
def enterNote (p : Passage) (payload : Json) : Option Notification :=
  p.target.entering.map fun event => ⟨event, payload, none⟩

/-- The notification that the state has been entered. -/
def changedNote (p : Passage) (payload : Json) : Option Notification :=
  p.target.changed.map fun event => ⟨event, payload, none⟩

/-- The last notification, which carries the new state. -/
def changeNote (p : Passage) : Notification :=
  ⟨Notification.changedName, p.report, some p.target.name⟩

/-- Runs the protocol with the given cancel flag. -/
def run (publish : Publisher M L) (flag : FlagId) (p : Passage) (payload : Json) (h : Hub M L) :
    Option (Outcome × Hub M L) := do
  let h ← (h.lower flag).publishIfAny publish (p.exitNote payload)
  let (vetoed, h) := h.take flag
  if vetoed then return (.vetoedOnExit (p.source.getD "") p.target.name, h)
  let h ← h.publishIfAny publish (p.enterNote payload)
  let (vetoed, h) := h.take flag
  if vetoed then return (.vetoedOnEnter p.source p.target.name, h)
  let h ← h.publishIfAny publish (p.changedNote payload)
  let h ← publish p.changeNote h
  return (.committed p.source p.target.name, h.lower flag)

end Passage

namespace Machine

/-- The JSON form of the state the machine is in, `null` if it is in none. -/
def report (m : Machine) : Json :=
  match m.currentState with
  | some s => s.toJson
  | none => .null

/-- The passage from the current state to another. -/
def passageTo (m : Machine) (next : State) : Passage where
  source := m.currentState.map (·.name)
  exiting := m.currentState.bind (·.exiting)
  target := next
  report := (m.commit next.name).report

/-- The passage from the current state to the registered state of the given name. -/
def passage? (m : Machine) (target : String) : Option Passage := (m.state? target).map m.passageTo

/-- Moves to the registered state of the given name, if there is one and no listener vetoes. -/
def transition (publish : Publisher M L) (m : Machine) (target : String) (payload : Json) (h : Hub M L) :
    Option (Outcome × Machine × Hub M L) :=
  match m.passage? target with
  | none => some (.ignored, m, h)
  | some p => do
    let (outcome, h) ← p.run publish m.flag payload h
    return (outcome, if outcome.isCommitted then m.commit p.target.name else m, h)

/-- Follows the binding of an action in the current state; an action without a registered target is ignored. -/
def handleAction (publish : Publisher M L) (m : Machine) (action : String) (payload : Json) (h : Hub M L) :
    Option (Outcome × Machine × Hub M L) :=
  match m.boundTarget? action with
  | none => some (.ignored, m, h)
  | some target =>
    if m.isRegistered target then m.transition publish target payload h
    else some (.ignored, m, h.warn (m.actionWarnings action))

/-- The names of the notifications that a machine handles. -/
def interests : List String := [Notification.actionName, Notification.cancelName]

/-- Handles a notification handed to the machine: an action is followed, a cancel raises the cancel flag, and all
else is ignored. -/
def handleNotification (publish : Publisher M L) (m : Machine) (n : Notification) (h : Hub M L) :
    Option (Outcome × Machine × Hub M L) :=
  if n.name = Notification.actionName then
    match n.kind with
    | some action => m.handleAction publish action n.body h
    | none => some (.ignored, m, h.warn [.namelessAction])
  else if n.name = Notification.cancelName then some (.ignored, m, h.raise m.flag)
  else some (.ignored, m, h)

/-- Handles the actions in a mailbox, oldest first, and those queued in the meantime, until the mailbox is empty;
at most `fuel` steps long. -/
def drain (publish : Publisher M L) (mailbox : MailboxId) :
    Nat → Machine → Hub M L → Option (List Outcome × Machine × Hub M L)
  | 0, _, _ => none
  | fuel + 1, m, h =>
    match h.pop mailbox with
    | (none, h) => some ([], m, h)
    | (some q, h) => do
      let (outcome, m, h) ← m.handleAction publish q.action q.payload h
      let (outcomes, m, h) ← drain publish mailbox fuel m h
      return (outcome :: outcomes, m, h)

end Machine

/-- What comes of using a machine by its name. -/
inductive Usage (α : Type) where
  | absent
  /-- The machine is being driven already. -/
  | busy
  | done (result : α)

/-- Takes the machine of the given name out of its seat, to be driven. -/
def Hub.occupy (h : Hub M L) (name : String) (m : Machine) : Hub M L :=
  { h with machines := h.machines.insert name (.inUse m.flag) }

/-- Drives the machine of the given name; while it is driven it is in use. -/
def Hub.drive {α : Type} (name : String) (f : Machine → Hub M L → Option (α × Machine × Hub M L))
    (h : Hub M L) : Option (Usage α × Hub M L) :=
  match h.machines[name]? with
  | none => some (.absent, h)
  | some (.inUse _) => some (.busy, h)
  | some (.idle m) => do
    let (result, m, h) ← f m (h.occupy name m)
    return (.done result, h.seat name m)

end VetoMachine
