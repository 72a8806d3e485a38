import VetoMachine.Hub.Transition

/-!
# Operations

Everything that changes a machine, as data: registering, removing, starting, editing, cancelling, moving, and
handling actions and notifications.  `Machine.perform` carries an operation out on a hub, with its warnings.
-/

namespace VetoMachine

/-- Something to be done to a machine. -/
inductive Operation where
  | register (s : State) (asInitial : Bool)
  | remove (name : String)
  | startAt (name : String)
  | edit (name : String) (e : State.Edit)
  | editCurrent (e : State.Edit)
  | cancel
  | moveTo (target : String) (payload : Json)
  | handleAction (action : String) (payload : Json)
  | handleNotification (n : Notification)
  | drain (mailbox : MailboxId)

/-- What an operation gives back. -/
inductive Answer where
  | done
  /-- Whether a state was registered, or the machine started. -/
  | accepted (b : Bool)
  | removed (s : Option State)
  /-- The result of editing a state, nothing if there is no such state. -/
  | edited (r : Option State.EditReply)
  | outcome (o : Outcome)
  | outcomes (os : List Outcome)

namespace Machine

variable {M L : Type}

/-- Carries out an operation; a mailbox is drained in less than `fuel` actions. -/
def perform (publish : Publisher M L) (fuel : Nat) (m : Machine) (h : Hub M L) :
    Operation → Option (Answer × Machine × Hub M L)
  | .register s asInitial =>
    let (added, m') := m.register s asInitial
    some (.accepted added, m', h.warn (m.registerWarnings s asInitial))
  | .remove name => let (removed, m) := m.remove name; some (.removed removed, m, h)
  | .startAt name =>
    let (started, m') := m.startAt name
    some (.accepted started, m', h.warn (m.startWarnings name))
  | .edit name e => let (r, m) := m.edit name e; some (.edited r, m, h)
  | .editCurrent e => let (r, m) := m.editCurrent e; some (.edited r, m, h)
  | .cancel => some (.done, m, h.raise m.flag)
  | .moveTo target payload => do
    let (outcome, m, h) ← m.transition publish target payload h
    return (.outcome outcome, m, h)
  | .handleAction action payload => do
    let (outcome, m, h) ← m.handleAction publish action payload h
    return (.outcome outcome, m, h)
  | .handleNotification n => do
    let (outcome, m, h) ← m.handleNotification publish n h
    return (.outcome outcome, m, h)
  | .drain mailbox => do
    let (outcomes, m, h) ← m.drain publish mailbox fuel h
    return (.outcomes outcomes, m, h)

def performAll (publish : Publisher M L) (fuel : Nat) :
    List Operation → Machine → Hub M L → Option (List Answer × Machine × Hub M L)
  | [], m, h => some ([], m, h)
  | op :: ops, m, h => do
    let (answer, m, h) ← m.perform publish fuel h op
    let (answers, m, h) ← performAll publish fuel ops m h
    return (answer :: answers, m, h)

end Machine

end VetoMachine
