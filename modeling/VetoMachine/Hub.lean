import Std.Data.ExtTreeSet
import VetoMachine.Mailbox

/-!
# Hubs

A hub is a bus with all that is attached to it: the raised cancel flags, the mailboxes, the machines under their
names and the memory that the custom listeners share.  A machine that is being driven is out of its seat, so that
a listener called in the meantime finds it in use.  The journal tells what happened, newest first.

This module holds the operations that call no listener.

What a listener owns besides its code is left out.  Unsubscribing takes the listener out of the table of its bus and no
more: nothing is dropped with it, so a mailbox loses a holder only if one gives it up (`Hub.release`).
-/

namespace VetoMachine

/-- Something that happened on a hub. -/
inductive Entry where
  | opened (n : Notification)
  /-- All listeners of a notification have been called. -/
  | closed (n : Notification)
  | called (id : SubscriptionId) (n : Notification)
  | returned (id : SubscriptionId)
  | raised (flag : FlagId)
  /-- A mailbox queued an action through its own subscription. -/
  | received (mailbox : MailboxId) (q : QueuedAction)
  | pushed (mailbox : MailboxId) (q : QueuedAction)
  | cleared
  | warned (w : Warning)

/-- The place of a machine on a hub. -/
inductive Seat where
  | idle (m : Machine)
  /-- The machine with this cancel flag is being driven. -/
  | inUse (flag : FlagId)

/-- The cancel flag of the machine that belongs to a seat. -/
def Seat.flag : Seat → FlagId
  | .idle m => m.flag
  | .inUse flag => flag

/-- A bus with all that is attached to it; `M` is the memory of the custom listeners, `L` their code. -/
structure Hub (M L : Type) where
  bus : Bus L
  raisedFlags : Std.ExtTreeSet FlagId
  mailboxes : Std.ExtTreeMap MailboxId Mailbox
  machines : Std.ExtTreeMap String Seat
  memory : M
  /-- What happened, newest first. -/
  journal : List Entry
  nextFlag : FlagId
  nextMailbox : MailboxId

namespace Hub

variable {M L : Type}

def empty (capacity : Nat) (memory : M) : Hub M L := ⟨Bus.empty capacity, ∅, ∅, ∅, memory, [], 0, 0⟩

def note (h : Hub M L) (e : Entry) : Hub M L := { h with journal := e :: h.journal }

def warn (h : Hub M L) (warnings : List Warning) : Hub M L := warnings.foldl (fun h w => h.note (.warned w)) h

/-- A new cancel flag, not raised. -/
def newFlag (h : Hub M L) : FlagId × Hub M L := (h.nextFlag, { h with nextFlag := h.nextFlag + 1 })

def isRaised (h : Hub M L) (flag : FlagId) : Bool := h.raisedFlags.contains flag

def raise (h : Hub M L) (flag : FlagId) : Hub M L :=
  { h with raisedFlags := h.raisedFlags.insert flag }.note (.raised flag)

def lower (h : Hub M L) (flag : FlagId) : Hub M L := { h with raisedFlags := h.raisedFlags.erase flag }

/-- Makes an idle machine the one of the given name. -/
def seat (h : Hub M L) (name : String) (m : Machine) : Hub M L :=
  { h with machines := h.machines.insert name (.idle m) }

/-- The cancel flag of the machine of the given name. -/
def flagOf (h : Hub M L) (name : String) : Option FlagId := h.machines[name]?.map Seat.flag

def subscribe (h : Hub M L) (name : String) (listener : Listener L) : SubscriptionId × Hub M L :=
  let (id, bus) := h.bus.subscribe name listener
  (id, { h with bus })

def unsubscribe (h : Hub M L) (id : SubscriptionId) : Bool × Hub M L :=
  let (removed, bus) := h.bus.unsubscribe id
  (removed, { h with bus })

def clearLog (h : Hub M L) : Hub M L := { h with bus := h.bus.clearLog }.note .cleared

def addMailbox (h : Hub M L) (mb : Mailbox) : MailboxId × Hub M L :=
  (h.nextMailbox,
    { h with mailboxes := h.mailboxes.insert h.nextMailbox mb, nextMailbox := h.nextMailbox + 1 })

/-- A new mailbox that is not connected, with one holder. -/
def newMailbox (h : Hub M L) : MailboxId × Hub M L := h.addMailbox .new

/-- A new mailbox with one holder that queues the actions published from now on and raises `flag` for every
cancel. -/
def connect (h : Hub M L) (flag : FlagId) : MailboxId × Hub M L :=
  let (onAction, h) := h.subscribe Notification.actionName (.inbox h.nextMailbox)
  let (onCancel, h) := h.subscribe Notification.cancelName (.canceller flag)
  h.addMailbox { Mailbox.new with connection := some ⟨onAction, onCancel⟩ }

/-- Changes a mailbox, if it exists. -/
def updateMailbox (h : Hub M L) (id : MailboxId) (f : Mailbox → Mailbox) : Hub M L :=
  match h.mailboxes[id]? with
  | some mb => { h with mailboxes := h.mailboxes.insert id (f mb) }
  | none => h

/-- Puts an action into a mailbox, if it exists. -/
def push (h : Hub M L) (id : MailboxId) (q : QueuedAction) : Hub M L :=
  if h.mailboxes.contains id then (h.updateMailbox id (·.push q)).note (.pushed id q) else h

/-- Queues the action that a notification asks for in a mailbox that is subscribed to it, if the mailbox exists;
one without a kind asks for none. -/
def receive (h : Hub M L) (id : MailboxId) (n : Notification) : Hub M L :=
  if h.mailboxes.contains id then
    match n.kind with
    | some action => (h.updateMailbox id (·.push ⟨action, n.body⟩)).note (.received id ⟨action, n.body⟩)
    | none => h.warn [.namelessActionDropped]
  else h

def pop (h : Hub M L) (id : MailboxId) : Option QueuedAction × Hub M L :=
  match h.mailboxes[id]? with
  | some mb => let (q, mb) := mb.pop; (q, { h with mailboxes := h.mailboxes.insert id mb })
  | none => (none, h)

def hold (h : Hub M L) (id : MailboxId) : Hub M L :=
  h.updateMailbox id fun mb => { mb with holders := mb.holders + 1 }

def dropMailbox (h : Hub M L) (id : MailboxId) (mb : Mailbox) : Hub M L :=
  let h := { h with mailboxes := h.mailboxes.erase id }
  match mb.connection with
  | some c => ((h.unsubscribe c.onAction).2.unsubscribe c.onCancel).2
  | none => h

/-- Gives up one hold of a mailbox; the last holder drops it. -/
def release (h : Hub M L) (id : MailboxId) : Hub M L :=
  match h.mailboxes[id]? with
  | some mb =>
    if mb.holders ≤ 1 then h.dropMailbox id mb
    else { h with mailboxes := h.mailboxes.insert id { mb with holders := mb.holders - 1 } }
  | none => h

end Hub

end VetoMachine
