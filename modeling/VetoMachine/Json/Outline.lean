import VetoMachine.Json.Token

/-!
# Outlines of JSON texts

An outline is what the brackets, commas and colons of a text make of its tokens, without any judgement: wherever
the text stops being JSON, the outline says what stands there.  Readers then walk the outline from left to right
and report the first thing that does not suit them; what is a fault, and which one, differs between a reader that
wants the value (`Outline.json` and the record readers) and one that only passes over it (`Outline.skip`).
-/

namespace VetoMachine.Json

mutual

/-- What stands where a value is wanted. -/
inductive Outline where
  | scalar (lexeme : Lexeme)
  | list (body : Items)
  | object (body : Members)
  /-- The text ends. -/
  | absent
  /-- Something that starts no value. -/
  | stray

/-- What follows an opening bracket, or an element of an array. -/
inductive Items where
  /-- The closing bracket. -/
  | closed
  /-- The text ends. -/
  | cut
  /-- Something else than a comma or the closing bracket, after an element. -/
  | stray
  /-- A comma and the closing bracket. -/
  | commaClosed
  /-- A comma and the end of the text. -/
  | commaCut
  /-- An element, after a comma unless it is the first. -/
  | item (value : Outline) (rest : Items)

/-- What follows an opening brace, or a member of an object. -/
inductive Members where
  /-- The closing brace. -/
  | closed
  /-- The text ends. -/
  | cut
  /-- Something else than a comma or the closing brace, after a member. -/
  | stray
  /-- Something else than a string where a key has to stand. -/
  | keyless
  /-- A comma and the closing brace. -/
  | commaClosed
  /-- A comma and the end of the text. -/
  | commaCut
  /-- A key and the end of the text. -/
  | keyCut (key : StringText)
  /-- A key and something else than a colon. -/
  | keyStray (key : StringText)
  /-- A key, a colon and what stands for the value. -/
  | member (key : StringText) (value : Outline) (rest : Members)

end

mutual

/-- Outlines the value at the start of a token list, and gives the tokens behind it. -/
def Outline.ofTokens : Nat → List Token → Outline × List Token
  | 0, _ => (.absent, [])
  | _ + 1, [] => (.absent, [])
  | _ + 1, .scalar lexeme :: ts => (.scalar lexeme, ts)
  | fuel + 1, .openList :: ts =>
    match ts with
    | [] => (.list .cut, [])
    | .closeList :: ts => (.list .closed, ts)
    | ts => let (body, ts) := Items.ofTokens fuel ts; (.list body, ts)
  | fuel + 1, .openObject :: ts =>
    match ts with
    | [] => (.object .cut, [])
    | .closeObject :: ts => (.object .closed, ts)
    | ts => let (body, ts) := Members.ofTokens fuel ts; (.object body, ts)
  | _ + 1, _ => (.stray, [])

def Items.ofTokens : Nat → List Token → Items × List Token
  | 0, _ => (.cut, [])
  | fuel + 1, ts =>
    let (value, ts) := Outline.ofTokens fuel ts
    match ts with
    | [] => (.item value .cut, [])
    | .closeList :: ts => (.item value .closed, ts)
    | [.comma] => (.item value .commaCut, [])
    | .comma :: .closeList :: ts => (.item value .commaClosed, ts)
    | .comma :: ts => let (rest, ts) := Items.ofTokens fuel ts; (.item value rest, ts)
    | _ => (.item value .stray, [])

def Members.ofTokens : Nat → List Token → Members × List Token
  | 0, _ => (.cut, [])
  | fuel + 1, ts =>
    match ts with
    | [.scalar (.string key)] => (.keyCut key, [])
    | .scalar (.string key) :: .colon :: ts =>
      let (value, ts) := Outline.ofTokens fuel ts
      match ts with
      | [] => (.member key value .cut, [])
      | .closeObject :: ts => (.member key value .closed, ts)
      | [.comma] => (.member key value .commaCut, [])
      | .comma :: .closeObject :: ts => (.member key value .commaClosed, ts)
      | .comma :: ts => let (rest, ts) := Members.ofTokens fuel ts; (.member key value rest, ts)
      | _ => (.member key value .stray, [])
    | .scalar (.string key) :: _ => (.keyStray key, [])
    | _ => (.keyless, [])

end

mutual

/-- Passes over a value, of any depth. -/
def Outline.skip : Outline → Except Fault Unit
  | .scalar lexeme => lexeme.check
  | .list body => body.skip
  | .object body => body.skip
  | .absent => .error .endInValue
  | .stray => .error .expectedValue

def Items.skip : Items → Except Fault Unit
  | .closed => .ok ()
  | .cut => .error .endInList
  | .stray => .error .expectedCommaOrBracket
  | .commaClosed => .error .expectedValue
  | .commaCut => .error .endInValue
  | .item value rest => do
    value.skip
    rest.skip

def Members.skip : Members → Except Fault Unit
  | .closed => .ok ()
  | .cut | .commaCut => .error .endInObject
  | .stray => .error .expectedCommaOrBrace
  | .keyless | .commaClosed => .error .keyNotString
  | .keyCut key => do
    key.check
    .error .endInObject
  | .keyStray key => do
    key.check
    .error .expectedColon
  | .member key value rest => do
    key.check
    value.skip
    rest.skip

end

mutual

/-- The value of an outline, with room for `room` arrays and objects inside one another. -/
def Outline.json (room : Nat) : Outline → Except Fault Json
  | .scalar lexeme => lexeme.value
  | .list body => if room = 0 then .error .tooDeep else .array <$> body.json (room - 1)
  | .object body => if room = 0 then .error .tooDeep else Json.ofMembers <$> body.json (room - 1)
  | .absent => .error .endInValue
  | .stray => .error .expectedValue

def Items.json (room : Nat) : Items → Except Fault (List Json)
  | .closed => .ok []
  | .cut => .error .endInList
  | .stray => .error .expectedCommaOrBracket
  | .commaClosed => .error .trailingComma
  | .commaCut => .error .endInValue
  | .item value rest => do
    let value ← value.json room
    let rest ← rest.json room
    return value :: rest

/-- The keys and values of the members of an object, in the order of the text. -/
def Members.json (room : Nat) : Members → Except Fault (List (String × Json))
  | .closed => .ok []
  | .cut => .error .endInObject
  | .stray => .error .expectedCommaOrBrace
  | .keyless => .error .keyNotString
  | .commaClosed => .error .trailingComma
  | .commaCut => .error .endInValue
  | .keyCut key => do
    let _ ← key.value
    .error .endInObject
  | .keyStray key => do
    let _ ← key.value
    .error .expectedColon
  | .member key value rest => do
    let key ← key.value
    let value ← value.json room
    let rest ← rest.json room
    return (key, value) :: rest

end

end VetoMachine.Json
