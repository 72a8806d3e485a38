import VetoMachine.Json.Reader

/-!
# Notifications

A notification is a named message with an arbitrary JSON body and an optional kind.  Three names have a meaning of
their own: an action asks a machine to act, a change tells that a machine has moved, and a cancel vetoes the
transition in flight.
-/

namespace VetoMachine

/-- A named message. -/
structure Notification where
  name : String
  body : Json
  kind : Option String
deriving Inhabited

namespace Notification

/-- The name of notifications that ask for an action: its name is the kind, its payload the body. -/
def actionName : String := "/notes/action"

/-- The name of the notification after every committed transition. -/
def changedName : String := "/notes/changed"

/-- The name of notifications that veto the transition in flight. -/
def cancelName : String := "/notes/cancel"

instance : BEq Notification := ⟨fun a b => a.name == b.name && a.body == b.body && a.kind == b.kind⟩

def action (action : String) (payload : Json) : Notification := ⟨actionName, payload, some action⟩

def cancel : Notification := ⟨cancelName, .null, none⟩

/-- The JSON form of a notification: an absent kind is left out, the body is always there. -/
def toJson (n : Notification) : Json :=
  let kind := match n.kind with
    | some kind => [("kind", .string kind)]
    | none => []
  Json.ofMembers (("name", .string n.name) :: ("body", n.body) :: kind)

/-- How a notification is written in JSON: only the name is required, an absent body is `null`. -/
def record : Json.Record Notification where
  name := "Notification"
  blank := ⟨"", .null, none⟩
  fields :=
    [ .required "name" .string fun name n => { n with name },
      .optional "body" .json fun body n => { n with body },
      .optional "kind" (.nullable .string) fun kind n => { n with kind } ]

def ofText (text : String) : Except Json.Fault Notification := record.reader.text Json.maxOpen text

end Notification

end VetoMachine
