import VetoMachine.Hub.Operation
import VetoMachine.Session.Effect
import VetoMachine.Assembly
import VetoMachine.Loader

/-!
# Steps of a session

A session is a list of instructions.  An instruction names a machine, which most steps are about and whose
standing is reported afterwards, and a step.
-/

namespace VetoMachine.Session

/-- Where a state comes from. -/
inductive StateSource where
  | text (json : String)
  /-- A name, events and bindings, of which the first for an action counts. -/
  | plain (name : String) (entering exiting changed : Option String) (bindings : List (String × String))

def StateSource.state : StateSource → Except Json.Fault State
  | .text json => State.ofText json
  | .plain name entering exiting changed bindings =>
    .ok (Draft.mk name entering exiting changed bindings).state

/-- Where a description comes from. -/
inductive DescriptionSource where
  | text (json : String)
  | plain (d : Description)

def DescriptionSource.description : DescriptionSource → Except Json.Fault Description
  | .text json => Description.ofText json
  | .plain d => .ok d

/-- A part of an assembly. -/
inductive Part where
  | initial (name : String)
  | states (sources : List StateSource)

/-- A step of a session; what it does not name concerns the machine of its instruction. -/
inductive Step where
  | machine
  | build (parts : List Part)
  | loader (loader : String) (source : DescriptionSource) (strategy : Option Strategy)
  | onViolation (loader : String) (strategy : Strategy)
  | load (loader : String)
  | isInitial (loader name : String)
  | populate (loader : String)
  | inject (loader : String)
  | publish (n : Notification) (times : Nat)
  | subscribe (name label : String) (effects : List (Nat × Effect))
  | unsubscribe (label : String)
  | subscribers (name : String)
  | published
  | publishedNames
  | publishedEnds
  | clearLog
  | mailbox (mailbox : String)
  /-- A new mailbox connected with the cancel flag of the machine, or with one of its own. -/
  | connect (mailbox : String) (own : Bool)
  | push (mailbox action : String) (payload : Json)
  | pop (mailbox : String)
  | mailboxInfo (mailbox : String)
  | mailboxClone (mailbox copy : String)
  | mailboxDrop (mailbox : String)
  | register (source : StateSource) (asInitial : Bool)
  | operate (op : Operation)
  | drain (mailbox : String)
  | current
  | initial
  | started
  | state (name : String)
  | states
  | isRegistered (name : String)
  | unknown

/-- A step with the machine it concerns. -/
structure Instruction where
  machine : String
  step : Step

/-- What a step cannot be done without. -/
inductive Problem where
  | unknownLabel
  | unknownLoader
  | unknownMachine
  | unknownMailbox
  | unknownStep
  | endless
deriving DecidableEq

def Problem.message : Problem → String
  | .unknownLabel => "unknown label"
  | .unknownLoader => "unknown loader"
  | .unknownMachine => "unknown machine"
  | .unknownMailbox => "unknown mailbox"
  | .unknownStep => "unknown step"
  | .endless => "notifications nested too deep"

/-- The answer to a step. -/
inductive Reply where
  | nothing
  /-- The step is done, and something is stored for it. -/
  | stored
  | bool (b : Bool)
  | count (n : Nat)
  | answer (a : Answer)
  | state (s : Option State)
  | states (s : List State)
  | description (d : Description)
  | notifications (ns : List Notification)
  | names (names : List String)
  /-- The length of the log and the names of its first and last notification. -/
  | ends (length : Nat) (first last : Option String)
  | queued (q : Option QueuedAction)
  | mailbox (mb : Mailbox)
  | badState (fault : Json.Fault)
  | badDescription (fault : Json.Fault)
  | notBuilt (e : AssemblyError)
  | rejected (r : Rejection)
  | problem (p : Problem)

/-- What is reported after a step. -/
structure Report where
  reply : Reply
  /-- The name of the current state of the machine concerned, and whether its cancel flag is raised. -/
  standing : Option (Option String × Bool)
  /-- What the listeners told during the step, in order. -/
  told : List Telling
  warnings : List Warning

end VetoMachine.Session
