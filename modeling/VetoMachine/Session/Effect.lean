import VetoMachine.Hub.Delivery

/-!
# Scripted listeners

In a session a listener is a labelled list of effects, run in order whenever it is called.  Most effects have a
budget: each subscription may run them so many times, and afterwards passes over them.  The listeners of a session
share a memory with the latest subscription of every label, the handles of the mailboxes, the budgets left and what
the listeners have told.
-/

namespace VetoMachine.Session

/-- What a scripted listener can do when it is called. -/
inductive Effect where
  | record
  | cancel (machine : String)
  /-- Tells whether the cancel flag of a machine is raised. -/
  | checkFlag (machine : String)
  /-- Publishes a notification, on request with the body received. -/
  | publish (n : Notification) (echo : Bool)
  /-- Subscribes a listener with effects and their budgets. -/
  | subscribe (name label : String) (effects : List (Nat × Effect))
  /-- Removes the latest subscription of a label, and tells whether it was live. -/
  | unsubscribe (label : String)
  | push (mailbox action : String) (payload : Json)
  | clearLog
  | release (mailbox : String)
  /-- Has a machine handle an action, and tells the outcome. -/
  | act (machine action : String) (payload : Json)
deriving Inhabited

/-- What a listener tells. -/
inductive Telling where
  | received (label : String) (n : Notification)
  /-- Whether the flag of a machine is raised; nothing if there is no such machine. -/
  | flag (label : String) (raised : Option Bool)
  /-- Whether a subscription was live; nothing if the label was never used. -/
  | unsubscribed (label : String) (live : Option Bool)
  /-- The outcome of an action; nothing if the machine was in use. -/
  | acted (label : String) (outcome : Option Outcome)

/-- The code of a scripted listener. -/
structure Script where
  label : String
  /-- The effects, each with the number of its budget. -/
  effects : List (Nat × Effect)

/-- The memory that the scripted listeners of a session share. -/
structure Memory where
  labels : Std.ExtTreeMap String SubscriptionId
  mailboxes : Std.ExtTreeMap String MailboxId
  /-- How many times a budgeted effect may still run. -/
  budgets : Std.ExtTreeMap Nat Nat
  nextBudget : Nat
  /-- What the listeners have told, newest first. -/
  told : List Telling

abbrev ScriptHub := Hub Memory Script

abbrev ScriptReaction := Reaction Memory Script

namespace Memory

def empty : Memory := ⟨∅, ∅, ∅, 0, []⟩

def tell (m : Memory) (t : Telling) : Memory := { m with told := t :: m.told }

/-- Opens a budget for every effect of a new subscription, and gives the code of its listener. -/
def script (m : Memory) (label : String) (effects : List (Nat × Effect)) : Script × Memory :=
  let numbered := effects.zipIdx m.nextBudget
  (⟨label, numbered.map fun e => (e.2, e.1.2)⟩,
    { m with
      budgets := numbered.foldl (fun budgets e => budgets.insert e.2 e.1.1) m.budgets
      nextBudget := m.nextBudget + effects.length })

def setLabel (m : Memory) (label : String) (id : SubscriptionId) : Memory :=
  { m with labels := m.labels.insert label id }

def setMailbox (m : Memory) (handle : String) (id : MailboxId) : Memory :=
  { m with mailboxes := m.mailboxes.insert handle id }

def dropHandle (m : Memory) (handle : String) : Memory := { m with mailboxes := m.mailboxes.erase handle }

end Memory

/-- Tells something and goes on. -/
def tell (t : Telling) (next : ScriptReaction) : ScriptReaction := .read fun m => .remember (m.tell t) next

namespace Effect

/-- Whether an effect runs only within a budget. -/
def isBudgeted : Effect → Bool
  | .record | .cancel _ | .checkFlag _ => false
  | _ => true

/-- Runs an effect of the listener `label` that received `n`, and goes on. -/
def reaction (label : String) (n : Notification) (next : ScriptReaction) : Effect → ScriptReaction
  | .record => tell (.received label n) next
  | .cancel machine => .seek machine fun
    | some flag => .cancel flag next
    | none => next
  | .checkFlag machine => .seek machine fun
    | some flag => .check flag fun raised => tell (.flag label (some raised)) next
    | none => tell (.flag label none) next
  | .publish note echo => .publish (if echo then { note with body := n.body } else note) next
  | .subscribe name label effects => .read fun m =>
    let (code, m) := m.script label effects
    .remember m (.subscribe name code fun id => .read fun m => .remember (m.setLabel label id) next)
  | .unsubscribe label' => .read fun m =>
    match m.labels[label']? with
    | some id => .unsubscribe id fun live => tell (.unsubscribed label (some live)) next
    | none => tell (.unsubscribed label none) next
  | .push mailbox action payload => .read fun m =>
    match m.mailboxes[mailbox]? with
    | some id => .push id ⟨action, payload⟩ next
    | none => next
  | .clearLog => .clearLog next
  | .release mailbox => .read fun m =>
    match m.mailboxes[mailbox]? with
    | some id => .remember (m.dropHandle mailbox) (.release id next)
    | none => next
  | .act machine action payload => .act machine action payload fun
    | .absent => next
    | .busy => tell (.acted label none) next
    | .done outcome => tell (.acted label (some outcome)) next

/-- Runs an effect if its budget allows, which it then draws on, and goes on. -/
def budgeted (label : String) (n : Notification) (budget : Nat) (e : Effect) (next : ScriptReaction) :
    ScriptReaction :=
  if e.isBudgeted then
    .read fun m =>
      match m.budgets[budget]? with
      | some (left + 1) =>
        .remember { m with budgets := m.budgets.insert budget left } (e.reaction label n next)
      | _ => next
  else e.reaction label n next

end Effect

/-- What a scripted listener does with a notification: its effects, one after the other. -/
def respond : Response Memory Script := fun script n =>
  script.effects.foldr (fun e next => e.2.budgeted script.label n e.1 next) .done

end VetoMachine.Session
