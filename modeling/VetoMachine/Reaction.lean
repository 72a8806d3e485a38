import VetoMachine.Hub.Transition

/-!
# Reactions

What a custom listener does when it is called, as a program: it may use the memory that the listeners share,
cancel through the cancel flag of a machine, publish, subscribe and unsubscribe, queue actions, give up a
mailbox, clear the log and act on machines.  Each step says how to go on with its answer.

Some of what a listener might do is left out: a program neither makes nor connects a mailbox, takes nothing out of one
and gets no further hold of one, and the one thing it does with a machine, apart from raising its cancel flag, is to
have it handle an action.  It does not move a machine to a state by the name of the state, start, register or remove
one, or edit a table.
-/

namespace VetoMachine

/-- A program of a listener; `M` is the memory that listeners share, `L` their code. -/
inductive Reaction (M L : Type) where
  | done
  | read (next : M → Reaction M L)
  | remember (memory : M) (next : Reaction M L)
  | seek (machine : String) (next : Option FlagId → Reaction M L)
  | cancel (flag : FlagId) (next : Reaction M L)
  | check (flag : FlagId) (next : Bool → Reaction M L)
  /-- Publishes a notification and waits until it is delivered. -/
  | publish (n : Notification) (next : Reaction M L)
  | subscribe (name : String) (code : L) (next : SubscriptionId → Reaction M L)
  | unsubscribe (id : SubscriptionId) (next : Bool → Reaction M L)
  | push (mailbox : MailboxId) (q : QueuedAction) (next : Reaction M L)
  | clearLog (next : Reaction M L)
  | release (mailbox : MailboxId) (next : Reaction M L)
  /-- Has a machine handle an action, unless it is in use. -/
  | act (machine action : String) (payload : Json) (next : Usage Outcome → Reaction M L)

def Reaction.run {M L : Type} (publish : Publisher M L) : Reaction M L → Hub M L → Option (Hub M L)
  | .done, h => some h
  | .read next, h => (next h.memory).run publish h
  | .remember memory next, h => next.run publish { h with memory }
  | .seek machine next, h => (next (h.flagOf machine)).run publish h
  | .cancel flag next, h => next.run publish (h.raise flag)
  | .check flag next, h => (next (h.isRaised flag)).run publish h
  | .publish n next, h => do
    let h ← publish n h
    next.run publish h
  | .subscribe name code next, h =>
    let (id, h) := h.subscribe name (.custom code)
    (next id).run publish h
  | .unsubscribe id next, h =>
    let (removed, h) := h.unsubscribe id
    (next removed).run publish h
  | .push mailbox q next, h => next.run publish (h.push mailbox q)
  | .clearLog next, h => next.run publish h.clearLog
  | .release mailbox next, h => next.run publish (h.release mailbox)
  | .act machine action payload next, h => do
    let (usage, h) ← h.drive machine fun m h => m.handleAction publish action payload h
    (next usage).run publish h

end VetoMachine
