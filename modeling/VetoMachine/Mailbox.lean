import VetoMachine.Bus

/-!
# Mailboxes

A mailbox queues actions for a machine to handle one at a time.  A connected mailbox has two subscriptions, one
that queues the actions published on the bus and one that forwards cancels.  It lives as long as somebody holds
it.
-/

namespace VetoMachine

/-- An action that waits to be handled. -/
structure QueuedAction where
  action : String
  payload : Json
deriving Inhabited

/-- The two subscriptions of a connected mailbox. -/
structure Connection where
  onAction : SubscriptionId
  onCancel : SubscriptionId
deriving DecidableEq

/-- A queue of actions. -/
structure Mailbox where
  /-- The waiting actions, oldest first. -/
  queue : List QueuedAction
  connection : Option Connection
  /-- How many handles to the mailbox there are. -/
  holders : Nat

namespace Mailbox

/-- A mailbox with one holder that nothing is connected to. -/
def new : Mailbox := ⟨[], none, 1⟩

def isConnected (mb : Mailbox) : Bool := mb.connection.isSome

def push (mb : Mailbox) (q : QueuedAction) : Mailbox := { mb with queue := mb.queue ++ [q] }

def pop (mb : Mailbox) : Option QueuedAction × Mailbox := (mb.queue.head?, { mb with queue := mb.queue.tail })

def summary (mb : Mailbox) : String :=
  "Mailbox \x7b queued: " ++ toString mb.queue.length ++ ", connected: "
    ++ (if mb.isConnected then "true" else "false") ++ " \x7d"

end Mailbox

end VetoMachine
