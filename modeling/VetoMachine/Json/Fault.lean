import VetoMachine.Json.Basic
import VetoMachine.Text.Quoted

/-!
# Faults in JSON texts

What can be wrong with a JSON text that is read as a value of a given shape.  A fault has a category, which tells a
malformed text from one that ends too early and from a well-formed one of the wrong shape, and a message.
-/

namespace VetoMachine.Json

/-- The three kinds of fault. -/
inductive Category where
  | malformed
  /-- The text is JSON up to this point, but not of the wanted shape. -/
  | data
  /-- The text ends too early. -/
  | truncated
deriving DecidableEq, Repr

/-- What stands where something else is wanted. -/
inductive Found where
  | null
  | bool (b : Bool)
  | number (n : Number)
  | string (s : String)
  | sequence
  | map

/-- What is wrong with a JSON text. -/
inductive Fault where
  /-- A required member of a record is absent. -/
  | missingField (field : String)
  /-- A known member of a record is named a second time. -/
  | duplicateField (field : String)
  /-- A value of one kind stands where another is wanted. -/
  | invalidType (found : Found) (wanted : String)
  /-- A record written as an array lacks a required element. -/
  | invalidLength (length : Nat) (record : String) (arity : Nat)
  | expectedValue
  /-- A misspelt `null`, `true` or `false`. -/
  | expectedIdent
  | expectedColon
  | expectedCommaOrBrace
  | expectedCommaOrBracket
  | keyNotString
  | trailingComma
  | trailingCharacters
  | invalidNumber
  | numberOutOfRange
  | invalidEscape
  /-- An escaped low surrogate without a high one before it, or a high one before another escape. -/
  | loneSurrogate
  /-- An escaped high surrogate with no escape after it. -/
  | unfinishedPair
  | controlCharacter
  /-- More arrays and objects are open than the reader allows. -/
  | tooDeep
  | endInValue
  | endInString
  | endInList
  | endInObject

def Found.text : Found → String
  | .null => "null"
  | .bool b => "boolean `" ++ (if b then "true" else "false") ++ "`"
  | .number (.int n) => "integer `" ++ toString n ++ "`"
  | .number (.float x) => "floating point `" ++ String.ofList (Number.floatChars x) ++ "`"
  | .string s => "string " ++ Text.quoted s
  | .sequence => "sequence"
  | .map => "map"

/-- What a value is when another kind is wanted in its place. -/
def Found.ofJson : Json → Found
  | .null => .null
  | .bool b => .bool b
  | .number n => .number n
  | .string s => .string s
  | .array _ => .sequence
  | .object _ => .map

namespace Fault

def category : Fault → Category
  | .missingField _ | .duplicateField _ | .invalidType _ _ | .invalidLength _ _ _ => .data
  | .endInValue | .endInString | .endInList | .endInObject => .truncated
  | _ => .malformed

def message : Fault → String
  | .missingField field => "missing field `" ++ field ++ "`"
  | .duplicateField field => "duplicate field `" ++ field ++ "`"
  | .invalidType found wanted => "invalid type: " ++ found.text ++ ", expected " ++ wanted
  | .invalidLength length record arity =>
    "invalid length " ++ toString length ++ ", expected struct " ++ record ++ " with " ++ toString arity
      ++ " elements"
  | .expectedValue => "expected value"
  | .expectedIdent => "expected ident"
  | .expectedColon => "expected `:`"
  | .expectedCommaOrBrace => "expected `,` or `\x7d`"
  | .expectedCommaOrBracket => "expected `,` or `]`"
  | .keyNotString => "key must be a string"
  | .trailingComma => "trailing comma"
  | .trailingCharacters => "trailing characters"
  | .invalidNumber => "invalid number"
  | .numberOutOfRange => "number out of range"
  | .invalidEscape => "invalid escape"
  | .loneSurrogate => "lone leading surrogate in hex escape"
  | .unfinishedPair => "unexpected end of hex escape"
  | .controlCharacter => "control character (\\u0000-\\u001F) found while parsing a string"
  | .tooDeep => "recursion limit exceeded"
  | .endInValue => "EOF while parsing a value"
  | .endInString => "EOF while parsing a string"
  | .endInList => "EOF while parsing a list"
  | .endInObject => "EOF while parsing an object"

end Fault

end VetoMachine.Json
