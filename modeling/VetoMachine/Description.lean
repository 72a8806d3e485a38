import VetoMachine.State

/-!
# Descriptions

A description declares a whole machine: the name of its initial state and the definitions of its states, each
with a list of transitions that may be absent.  `Definition.state` builds the state of a definition; of several
transitions for one action the first counts.
-/

namespace VetoMachine

/-- A declared transition. -/
structure Binding where
  action : String
  target : String
deriving DecidableEq, Inhabited

/-- The declaration of a state. -/
structure Definition where
  name : String
  entering : Option String
  exiting : Option String
  changed : Option String
  /-- The list of transitions; an absent list differs from an empty one. -/
  transitions : Option (List Binding)
deriving DecidableEq, Inhabited

/-- The declaration of a machine. -/
structure Description where
  initial : String
  states : List Definition
deriving DecidableEq, Inhabited

namespace Binding

def toJson (b : Binding) : Json := Json.ofMembers [("action", .string b.action), ("target", .string b.target)]

def record : Json.Record Binding where
  name := "TransitionDef"
  blank := ⟨"", ""⟩
  fields :=
    [ .required "action" .string fun action b => { b with action },
      .required "target" .string fun target b => { b with target } ]

end Binding

namespace Definition

/-- The transitions in the order of the list, none if there is no list. -/
def bindings (d : Definition) : List Binding := d.transitions.getD []

/-- The state that a definition declares. -/
def state (d : Definition) : State :=
  State.defineAll ⟨d.name, d.entering, d.exiting, d.changed, ∅⟩ (d.bindings.map fun b => (b.action, b.target))

/-- The JSON form of a definition: absent events and an absent list are left out. -/
def toJson (d : Definition) : Json :=
  let transitions := match d.transitions with
    | some bindings => [("transitions", .array (bindings.map Binding.toJson))]
    | none => []
  Json.ofMembers
    (("name", .string d.name) :: State.eventMember "entering" d.entering ++ State.eventMember "exiting" d.exiting
      ++ State.eventMember "changed" d.changed ++ transitions)

/-- How a definition is written in JSON: only the name is required, and all else may be `null`. -/
def record : Json.Record Definition where
  name := "StateDef"
  blank := ⟨"", none, none, none, none⟩
  fields :=
    [ .required "name" .string fun name d => { d with name },
      .optional "entering" (.nullable .string) fun entering d => { d with entering },
      .optional "exiting" (.nullable .string) fun exiting d => { d with exiting },
      .optional "changed" (.nullable .string) fun changed d => { d with changed },
      .optional "transitions" (.nullable (.list Binding.record.reader)) fun transitions d =>
        { d with transitions } ]

end Definition

namespace Description

def defines (d : Description) (name : String) : Bool := d.states.any (·.name = name)

def toJson (d : Description) : Json :=
  Json.ofMembers [("initial", .string d.initial), ("states", .array (d.states.map Definition.toJson))]

def record : Json.Record Description where
  name := "FsmDescription"
  blank := ⟨"", []⟩
  fields :=
    [ .required "initial" .string fun initial d => { d with initial },
      .required "states" (.list Definition.record.reader) fun states d => { d with states } ]

def ofText (text : String) : Except Json.Fault Description := record.reader.text Json.maxOpen text

/-- Whether reading the JSON text of a description gives the description again. -/
def readsBack (d : Description) : Bool :=
  match ofText d.toJson.render with
  | .ok e => e = d
  | .error _ => false

def faultMessage (fault : Json.Fault) : String := "Description could not be parsed: " ++ fault.message

end Description

end VetoMachine
