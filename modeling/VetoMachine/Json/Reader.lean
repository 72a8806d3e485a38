import VetoMachine.Json.Outline

/-!
# Reading values of a given shape

A `Reader` takes the outline of a value to a value of some type, or to the first fault met from left to right.  A
record (`Record`) is read from an object, whose members may stand in any order and among unknown ones, or from an
array of its fields in their declared order.  A known member may stand only once; a field that is not required
may be absent, and in the array form so may every such element at the end.
-/

namespace VetoMachine.Json

/-- Reads a value from its outline, with room for so many arrays and objects inside one another. -/
abbrev Reader (α : Type) := Nat → Outline → Except Fault α

/-- The number of arrays and objects that may be open at once in a text. -/
def maxOpen : Nat := 127

namespace Reader

variable {α : Type}

/-- The fault of a well-formed scalar where something else is wanted, or the fault of the scalar itself. -/
def unwanted (wanted : String) (lexeme : Lexeme) : Except Fault α := do
  let value ← lexeme.value
  .error (.invalidType (Found.ofJson value) wanted)

def json : Reader Json := fun room outline => outline.json room

def string : Reader String
  | _, .scalar (.string text) => text.value
  | _, .scalar lexeme => unwanted "a string" lexeme
  | _, .list _ => .error (.invalidType .sequence "a string")
  | _, .object _ => .error (.invalidType .map "a string")
  | _, .absent => .error .endInValue
  | _, .stray => .error .expectedValue

/-- Reads `null` as nothing and all else as `read` does. -/
def nullable (read : Reader α) : Reader (Option α)
  | _, .scalar .null => .ok none
  | room, outline => some <$> read room outline

/-- Reads the elements of an array one by one. -/
def items (read : Reader α) (room : Nat) : Items → Except Fault (List α)
  | .closed => .ok []
  | .cut => .error .endInList
  | .stray => .error .expectedCommaOrBracket
  | .commaClosed => .error .trailingComma
  | .commaCut => .error .endInValue
  | .item value rest => do
    let value ← read room value
    let rest ← items read room rest
    return value :: rest

def list (read : Reader α) : Reader (List α)
  | _, .scalar lexeme => unwanted "a sequence" lexeme
  | room, .list body => if room = 0 then .error .tooDeep else items read (room - 1) body
  | _, .object _ => .error (.invalidType .map "a sequence")
  | _, .absent => .error .endInValue
  | _, .stray => .error .expectedValue

/-- Reads the members of an object one by one, in the order of the text. -/
def members (read : Reader α) (room : Nat) : Members → Except Fault (List (String × α))
  | .closed => .ok []
  | .cut => .error .endInObject
  | .stray => .error .expectedCommaOrBrace
  | .keyless => .error .keyNotString
  | .commaClosed => .error .trailingComma
  | .commaCut => .error .endInValue
  | .keyCut key => do
    let _ ← key.value
    .error .endInObject
  | .keyStray key => do
    let _ ← key.value
    .error .expectedColon
  | .member key value rest => do
    let key ← key.value
    let value ← read room value
    let rest ← members read room rest
    return (key, value) :: rest

def dictionary (read : Reader α) : Reader (List (String × α))
  | _, .scalar lexeme => unwanted "a map" lexeme
  | _, .list _ => .error (.invalidType .sequence "a map")
  | room, .object body => if room = 0 then .error .tooDeep else members read (room - 1) body
  | _, .absent => .error .endInValue
  | _, .stray => .error .expectedValue

end Reader

/-- A field of a record under construction. -/
structure Field (α : Type) where
  name : String
  isRequired : Bool
  /-- Reads the field's value into the record. -/
  read : Nat → Outline → α → Except Fault α

namespace Field

variable {α β : Type}

/-- A field read by `read` and stored by `store`. -/
def of (name : String) (isRequired : Bool) (read : Reader β) (store : β → α → α) : Field α where
  name := name
  isRequired := isRequired
  read room outline record := (store · record) <$> read room outline

def required (name : String) (read : Reader β) (store : β → α → α) : Field α := of name true read store

def optional (name : String) (read : Reader β) (store : β → α → α) : Field α := of name false read store

end Field

/-- How a record is written in JSON. -/
structure Record (α : Type) where
  name : String
  /-- The fields in their declared order. -/
  fields : List (Field α)
  /-- The record before any field is read. -/
  blank : α

namespace Record

variable {α : Type}

/-- Reads the fields from the elements of an array; `count` elements stand before them. -/
def readItems (r : Record α) (room : Nat) : List (Field α) → Nat → Items → α → Except Fault α
  | [], _, .closed, record => .ok record
  | [], _, .cut, _ => .error .endInList
  | [], _, .commaClosed, _ => .error .trailingComma
  | [], _, _, _ => .error .trailingCharacters
  | f :: fields, count, .item value rest, record => do
    let record ← f.read room value record
    readItems r room fields (count + 1) rest record
  | f :: fields, count, .closed, record =>
    if f.isRequired then .error (.invalidLength count r.name r.fields.length)
    else readItems r room fields count .closed record
  | _ :: _, _, .cut, _ => .error .endInList
  | _ :: _, _, .stray, _ => .error .expectedCommaOrBracket
  | _ :: _, _, .commaClosed, _ => .error .trailingComma
  | _ :: _, _, .commaCut, _ => .error .endInValue

/-- The first required field that is not among the names read. -/
def firstMissing? (r : Record α) (seen : List String) : Option (Field α) :=
  r.fields.find? fun f => f.isRequired && !seen.contains f.name

/-- Reads the fields from the members of an object; `seen` are the names of those already read. -/
def readMembers (r : Record α) (room : Nat) : Members → List String → α → Except Fault α
  | .closed, seen, record =>
    match r.firstMissing? seen with
    | some f => .error (.missingField f.name)
    | none => .ok record
  | .cut, _, _ => .error .endInObject
  | .stray, _, _ => .error .expectedCommaOrBrace
  | .keyless, _, _ => .error .keyNotString
  | .commaClosed, _, _ => .error .trailingComma
  | .commaCut, _, _ => .error .endInValue
  | .keyCut key, seen, _ => do
    let key ← key.value
    if r.fields.any (·.name = key) && seen.contains key then .error (.duplicateField key)
    else .error .endInObject
  | .keyStray key, seen, _ => do
    let key ← key.value
    if r.fields.any (·.name = key) && seen.contains key then .error (.duplicateField key)
    else .error .expectedColon
  | .member key value rest, seen, record => do
    let key ← key.value
    match r.fields.find? (·.name = key) with
    | some f =>
      if seen.contains key then .error (.duplicateField key)
      else do
        let record ← f.read room value record
        readMembers r room rest (key :: seen) record
    | none => do
      value.skip
      readMembers r room rest seen record

/-- Reads a record in either form. -/
def reader (r : Record α) : Json.Reader α
  | _, .scalar lexeme => Reader.unwanted ("struct " ++ r.name) lexeme
  | room, .list body => if room = 0 then .error .tooDeep else r.readItems (room - 1) r.fields 0 body r.blank
  | room, .object body => if room = 0 then .error .tooDeep else r.readMembers (room - 1) body [] r.blank
  | _, .absent => .error .endInValue
  | _, .stray => .error .expectedValue

end Record

/-- The outline of the value a text starts with, and the tokens behind it. -/
def outline (text : String) : Outline × List Token :=
  let tokens := Token.scan text
  Outline.ofTokens (2 * tokens.length + 2) tokens

/-- Reads a whole text: one value with nothing but blanks around it, at most `room` arrays and objects deep. -/
def Reader.text {α : Type} (read : Reader α) (room : Nat) (text : String) : Except Fault α := do
  let (value, rest) := outline text
  let result ← read room value
  if rest.isEmpty then return result else .error .trailingCharacters

end VetoMachine.Json
