import Std.Data.ExtTreeMap
import VetoMachine.Json.Printer
import VetoMachine.Json.Reader

/-!
# States

A state has a name, up to three event names and a table of transitions.  The events are published when a machine
leaves the state (`exiting`), enters it (`entering`) and has entered it (`changed`); an absent event is not
published.  The table binds actions to the names of target states, which need not exist.  The first binding of an
action wins until it is removed (`State.define`, `State.undefine`).
-/

namespace VetoMachine

/-- A table of transitions: the name of the target state for every bound action. -/
abbrev Transitions := Std.ExtTreeMap String String

/-- A named state of a machine. -/
structure State where
  name : String
  entering : Option String
  exiting : Option String
  changed : Option String
  transitions : Transitions
deriving DecidableEq

namespace State

def new (name : String) : State := ⟨name, none, none, none, ∅⟩

instance : Inhabited State := ⟨new ""⟩

def target? (s : State) (action : String) : Option String := s.transitions[action]?

/-- Binds an action to a target unless it is bound already, and tells whether it did. -/
def define (s : State) (action target : String) : Bool × State :=
  match s.target? action with
  | some _ => (false, s)
  | none => (true, { s with transitions := s.transitions.insert action target })

/-- Removes the binding of an action, and gives the target it had. -/
def undefine (s : State) (action : String) : Option String × State :=
  (s.target? action, { s with transitions := s.transitions.erase action })

def defineAll (s : State) (bindings : List (String × String)) : State :=
  bindings.foldl (fun s b => (s.define b.1 b.2).2) s

/-- A change of a table of transitions. -/
inductive Edit where
  | define (action target : String)
  | undefine (action : String)
deriving DecidableEq

/-- What a change of a table gives back. -/
inductive EditReply where
  | defined (added : Bool)
  | undefined (target : Option String)
deriving DecidableEq

def edit (s : State) : Edit → EditReply × State
  | .define action target => let (added, s) := s.define action target; (.defined added, s)
  | .undefine action => let (target, s) := s.undefine action; (.undefined target, s)

def count (s : State) : Nat := s.transitions.size

/-- The JSON form of a table, an object from actions to targets. -/
def transitionsJson (t : Transitions) : Json := Json.ofMembers (t.toList.map fun b => (b.1, .string b.2))

def eventMember (key : String) (event : Option String) : List (String × Json) :=
  match event with
  | some name => [(key, .string name)]
  | none => []

/-- The JSON form of a state: absent events are left out, the table is always there. -/
def toJson (s : State) : Json :=
  Json.ofMembers
    (("name", .string s.name) :: eventMember "entering" s.entering ++ eventMember "exiting" s.exiting
      ++ eventMember "changed" s.changed ++ [("transitions", transitionsJson s.transitions)])

/-- How a state is written in JSON: only the name is required, and an event may be `null`. -/
def record : Json.Record State where
  name := "State"
  blank := new ""
  fields :=
    [ .required "name" .string fun name s => { s with name },
      .optional "entering" (.nullable .string) fun entering s => { s with entering },
      .optional "exiting" (.nullable .string) fun exiting s => { s with exiting },
      .optional "changed" (.nullable .string) fun changed s => { s with changed },
      .optional "transitions" (.dictionary .string) fun table s =>
        { s with transitions := table.foldl (fun t b => t.insert b.1 b.2) ∅ } ]

def ofText (text : String) : Except Json.Fault State := record.reader.text Json.maxOpen text

/-- Whether reading the JSON text of a state gives the state again. -/
def readsBack (s : State) : Bool :=
  match ofText s.toJson.render with
  | .ok t => t = s
  | .error _ => false

end State

end VetoMachine
