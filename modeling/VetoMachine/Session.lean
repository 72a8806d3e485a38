import VetoMachine.Session.Step

/-!
# Sessions

A session carries out instructions on one hub with scripted listeners, loaders beside it, and reports after every
step.  Machines, mailboxes and loaders are known by names; a name that is given anew loses what it named before.
-/

namespace VetoMachine

/-- A hub with scripted listeners, and loaders. -/
structure Session where
  hub : Session.ScriptHub
  loaders : Std.ExtTreeMap String Loader

namespace Session

/-- What a step leads to: an answer and the session after it, or nothing if the step comes to no end. -/
abbrev Result := Option (Reply × Session)

def publish : Publisher Memory Script := Hub.publish respond

/-- The name of the machine that is there from the start. -/
def defaultMachine : String := "m"

def newMachine (s : Session) (name : String) : Session :=
  let (flag, hub) := s.hub.newFlag
  { s with hub := hub.seat name (Machine.empty flag) }

/-- A session with one empty machine. -/
def start (capacity : Nat) : Session := newMachine ⟨Hub.empty capacity Memory.empty, ∅⟩ defaultMachine

def withMemory (s : Session) (f : Memory → Memory) : Session := { s with hub.memory := f s.hub.memory }

def warn (s : Session) (warnings : List Warning) : Session := { s with hub := s.hub.warn warnings }

/-- Gives a mailbox a name; what the name stood for before loses a holder. -/
def nameMailbox (s : Session) (name : String) (id : MailboxId) : Session :=
  let previous := s.hub.memory.mailboxes[name]?
  let s := s.withMemory (·.setMailbox name id)
  match previous with
  | some old => { s with hub := s.hub.release old }
  | none => s

/-- Drives a machine; between two steps none is in use. -/
def drive (s : Session) (name : String)
    (f : Machine → ScriptHub → Option (Reply × Machine × ScriptHub)) : Result := do
  let (usage, hub) ← s.hub.drive name f
  let reply := match usage with
    | .done reply => reply
    | .absent | .busy => .problem .unknownMachine
  return (reply, { s with hub })

def look (s : Session) (name : String) (f : Machine → Reply) : Result := s.drive name fun m h => some (f m, m, h)

def operate (s : Session) (name : String) (op : Operation) : Result :=
  s.drive name fun m h => (m.perform publish Hub.maxDepth h op).map fun r => (.answer r.1, r.2)

def withMailbox (s : Session) (name : String) (f : MailboxId → Result) : Result :=
  match s.hub.memory.mailboxes[name]? with
  | some id => f id
  | none => some (.problem .unknownMailbox, s)

def withLoader (s : Session) (name : String) (f : Loader → Result) : Result :=
  match s.loaders[name]? with
  | some l => f l
  | none => some (.problem .unknownLoader, s)

def setLoader (s : Session) (name : String) (l : Loader) : Session :=
  { s with loaders := s.loaders.insert name l }

def publishTimes (n : Notification) : Nat → ScriptHub → Option ScriptHub
  | 0, h => some h
  | times + 1, h => do publishTimes n times (← publish n h)

/-- Reads all states of a part, or stops at the first that cannot be read. -/
def readStates : List StateSource → Except Json.Fault (List State)
  | [] => .ok []
  | source :: rest => do
    let state ← source.state
    let states ← readStates rest
    return state :: states

def assemble : List Part → Assembly → Except Json.Fault Assembly
  | [], a => .ok a
  | .initial name :: parts, a => assemble parts (a.withInitial name)
  | .states sources :: parts, a => do
    let states ← readStates sources
    assemble parts (a.add states)

/-- Builds a machine from parts and stores it under a name. -/
def build (s : Session) (name : String) (parts : List Part) : Reply × Session :=
  match assemble parts .empty with
  | .error fault => (.badState fault, s)
  | .ok assembly =>
    let (flag, hub) := s.hub.newFlag
    match assembly.build flag with
    | .error e => (.notBuilt e, s)
    | .ok m => (.stored, { s with hub := hub.seat name m })

def populate (s : Session) (name loader : String) (l : Loader) : Result :=
  let (_, l') := l.load
  (s.setLoader loader l').drive name fun m h =>
    let (populated, _) := l.populate m
    let h := h.warn (l.populateWarnings m)
    match populated with
    | .error r => some (.rejected r, m, h)
    | .ok populated => some (.stored, populated, h)

/-- Makes a machine from a loader and stores it under a name. -/
def inject (s : Session) (name loader : String) (l : Loader) : Reply × Session :=
  let (flag, hub) := s.hub.newFlag
  let (made, l') := l.inject flag
  let s := ({ s with hub }.setLoader loader l').warn (l.injectWarnings flag)
  match made with
  | .error r => (.rejected r, s)
  | .ok m => (.stored, { s with hub := s.hub.seat name m })

/-- Drains a mailbox into a machine; the mailbox is held in the meantime. -/
def drain (s : Session) (name : String) (mailbox : MailboxId) : Result := do
  let (reply, s) ← { s with hub := s.hub.hold mailbox }.operate name (.drain mailbox)
  return (reply, { s with hub := s.hub.release mailbox })

def hasMachine (s : Session) (name : String) : Bool := s.hub.machines.contains name

/-- Carries out a step that concerns the machine `name`. -/
def step (s : Session) (name : String) : Step → Result
  | .machine => some (.nothing, s.newMachine name)
  | .build parts => some (s.build name parts)
  | .loader loader source strategy =>
    match source.description with
    | .error fault => some (.badDescription fault, s)
    | .ok d =>
      let l := match strategy with
        | some strategy => (Loader.new d).onViolation strategy
        | none => Loader.new d
      some (.description d, s.setLoader loader l)
  | .onViolation loader strategy => s.withLoader loader fun l =>
    some (.nothing, s.setLoader loader (l.onViolation strategy))
  | .load loader => s.withLoader loader fun l =>
    let (loaded, l') := l.load
    let reply := match loaded with
      | .error r => .rejected r
      | .ok states => .states states
    some (reply, (s.setLoader loader l').warn l.loadWarnings)
  | .isInitial loader state => s.withLoader loader fun l => some (.bool (l.isInitial state), s)
  | .populate loader => s.withLoader loader fun l =>
    if s.hasMachine name then s.populate name loader l else some (.problem .unknownMachine, s)
  | .inject loader => s.withLoader loader fun l => some (s.inject name loader l)
  | .publish n times => do
    let hub ← publishTimes n times s.hub
    return (.nothing, { s with hub })
  | .subscribe event label effects =>
    let (code, memory) := s.hub.memory.script label effects
    let (id, hub) := { s.hub with memory }.subscribe event (.custom code)
    some (.nothing, { s with hub }.withMemory (·.setLabel label id))
  | .unsubscribe label =>
    match s.hub.memory.labels[label]? with
    | some id => let (live, hub) := s.hub.unsubscribe id; some (.bool live, { s with hub })
    | none => some (.problem .unknownLabel, s)
  | .subscribers event => some (.count (s.hub.bus.subscriberCount event), s)
  | .published => some (.notifications s.hub.bus.log, s)
  | .publishedNames => some (.names (s.hub.bus.log.map (·.name)), s)
  | .publishedEnds =>
    let names := s.hub.bus.log.map (·.name)
    some (.ends names.length names.head? names.getLast?, s)
  | .clearLog => some (.nothing, { s with hub := s.hub.clearLog })
  | .mailbox mailbox =>
    let (id, hub) := s.hub.newMailbox
    some (.nothing, { s with hub }.nameMailbox mailbox id)
  | .connect mailbox own =>
    let (flag, hub) := match if own then none else s.hub.flagOf name with
      | some flag => (flag, s.hub)
      | none => s.hub.newFlag
    let (id, hub) := hub.connect flag
    some (.nothing, { s with hub }.nameMailbox mailbox id)
  | .push mailbox action payload => s.withMailbox mailbox fun id =>
    let hub := s.hub.push id ⟨action, payload⟩
    some (.count ((hub.mailboxes[id]?.map (·.queue.length)).getD 0), { s with hub })
  | .pop mailbox => s.withMailbox mailbox fun id =>
    let (q, hub) := s.hub.pop id
    some (.queued q, { s with hub })
  | .mailboxInfo mailbox => s.withMailbox mailbox fun id =>
    some (.mailbox (s.hub.mailboxes[id]?.getD .new), s)
  | .mailboxClone mailbox copy => s.withMailbox mailbox fun id =>
    some (.nothing, { s with hub := s.hub.hold id }.nameMailbox copy id)
  | .mailboxDrop mailbox => s.withMailbox mailbox fun id =>
    let s := s.withMemory (·.dropHandle mailbox)
    some (.nothing, { s with hub := s.hub.release id })
  | .register source asInitial =>
    if s.hasMachine name then
      match source.state with
      | .error fault => some (.badState fault, s)
      | .ok state => s.operate name (.register state asInitial)
    else some (.problem .unknownMachine, s)
  | .operate op => s.operate name op
  | .drain mailbox =>
    if s.hasMachine name then s.withMailbox mailbox fun id => s.drain name id
    else some (.problem .unknownMachine, s)
  | .current => s.look name fun m => .state m.currentState
  | .initial => s.look name fun m => .state m.initialState
  | .started => s.look name fun m => .bool m.isStarted
  | .state state => s.look name fun m => .state (m.state? state)
  | .states => s.look name fun m => .states m.states.values
  | .isRegistered state => s.look name fun m => .bool (m.isRegistered state)
  | .unknown => some (.problem .unknownStep, s)

/-- How the machine of a given name stands. -/
def standing (s : Session) (name : String) : Option (Option String × Bool) :=
  s.hub.machines[name]?.map fun
    | .idle m => (m.currentState.map (·.name), s.hub.isRaised m.flag)
    | .inUse flag => (none, s.hub.isRaised flag)

/-- The warnings in a journal, oldest first. -/
def warningsOf (journal : List Entry) : List Warning :=
  journal.reverse.filterMap fun
    | .warned w => some w
    | _ => none

def perform (s : Session) (i : Instruction) : Report × Session :=
  let clean : Session := { s with hub := { s.hub with journal := [], memory := { s.hub.memory with told := [] } } }
  let (reply, after) := (clean.step i.machine i.step).getD (.problem .endless, clean)
  (⟨reply, after.standing i.machine, after.hub.memory.told.reverse, warningsOf after.hub.journal⟩, after)

def performAll : List Instruction → Session → List Report
  | [], _ => []
  | i :: rest, s => let (report, s) := s.perform i; report :: performAll rest s

def reports (capacity : Nat) (instructions : List Instruction) : List Report :=
  performAll instructions (start capacity)

end Session

end VetoMachine
