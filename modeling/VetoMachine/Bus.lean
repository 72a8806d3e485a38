import Std.Data.ExtTreeMap
import VetoMachine.Machine
import VetoMachine.Notification

/-!
# The bus

A bus knows who listens to which notification name, in the order of subscription, and keeps a log of the last
notifications published, oldest first, at most `capacity` of them.  A subscription has an identifier of its own; no
name keeps an empty list of subscriptions.  Delivery is the matter of `Hub.publish`.

The times at which notifications are published are left out of the log, and so is what becomes of a listener, and of
all that it owns, once its subscription is gone.
-/

namespace VetoMachine

abbrev SubscriptionId := Nat

abbrev MailboxId := Nat

/-- Who is called when a notification is delivered. -/
inductive Listener (L : Type) where
  /-- Queues actions in a mailbox, as long as it exists. -/
  | inbox (mailbox : MailboxId)
  | canceller (flag : FlagId)
  | custom (code : L)

/-- A listener under its identifier. -/
structure Subscription (L : Type) where
  id : SubscriptionId
  listener : Listener L

/-- Subscriptions by name and a log of notifications. -/
structure Bus (L : Type) where
  /-- How many notifications the log holds at most. -/
  capacity : Nat
  /-- The last notifications published, oldest first. -/
  log : List Notification
  /-- The subscriptions of every name that has any, in the order they were made. -/
  table : Std.ExtTreeMap String (List (Subscription L))
  nextId : SubscriptionId

namespace Bus

variable {L : Type}

/-- The capacity of the log unless another is asked for. -/
def defaultCapacity : Nat := 1000

def empty (capacity : Nat) : Bus L := ⟨capacity, [], ∅, 0⟩

/-- Logs a notification; a full log forgets its oldest one, and a log of capacity zero stays empty. -/
def record (b : Bus L) (n : Notification) : Bus L :=
  if b.capacity = 0 then b
  else { b with log := (if b.log.length = b.capacity then b.log.drop 1 else b.log) ++ [n] }

def clearLog (b : Bus L) : Bus L := { b with log := [] }

/-- The subscriptions of a name, in the order they were made. -/
def subscribed (b : Bus L) (name : String) : List (Subscription L) := b.table[name]?.getD []

def subscriberCount (b : Bus L) (name : String) : Nat := (b.subscribed name).length

/-- Adds a subscription behind all others of its name. -/
def subscribe (b : Bus L) (name : String) (listener : Listener L) : SubscriptionId × Bus L :=
  (b.nextId,
    { b with
      table := b.table.insert name (b.subscribed name ++ [⟨b.nextId, listener⟩])
      nextId := b.nextId + 1 })

def isLive (b : Bus L) (id : SubscriptionId) : Bool :=
  b.table.toList.any fun entry => entry.2.any (·.id == id)

/-- The subscriptions other than `id`, if there are any. -/
def without? (id : SubscriptionId) (subscriptions : List (Subscription L)) : Option (List (Subscription L)) :=
  match subscriptions.filter (·.id != id) with
  | [] => none
  | s :: rest => some (s :: rest)

def unsubscribe (b : Bus L) (id : SubscriptionId) : Bool × Bus L :=
  (b.isLive id, { b with table := b.table.filterMap fun _ subscriptions => without? id subscriptions })

end Bus

end VetoMachine
