import VetoMachine.Json.StringText
import VetoMachine.Json.NumberText

/-!
# Tokens of JSON texts

A text is cut into tokens before anything is known about the values wanted from it (`Token.scan`).  A scalar keeps
what is at fault in it, to be judged only if a reader comes to it: its value may be wanted (`Lexeme.value`) or not
(`Lexeme.check`).  Behind a fault that no reader can pass the token list ends.
-/

namespace VetoMachine.Json

/-- A scalar as written. -/
inductive Lexeme where
  | null
  | bool (b : Bool)
  /-- A beginning of `null`, `true` or `false` at the end of the text. -/
  | cutWord
  /-- A misspelt `null`, `true` or `false`. -/
  | badWord
  | number (text : NumberText)
  | string (text : StringText)
deriving DecidableEq, Repr

/-- A token of a JSON text. -/
inductive Token where
  | openList
  | closeList
  | openObject
  | closeObject
  | comma
  | colon
  | scalar (lexeme : Lexeme)
  /-- A character that starts no token. -/
  | stray
deriving DecidableEq, Repr

namespace Lexeme

def value : Lexeme → Except Fault Json
  | .null => .ok .null
  | .bool b => .ok (.bool b)
  | .cutWord => .error .endInValue
  | .badWord => .error .expectedIdent
  | .number text => .number <$> text.value
  | .string text => .string <$> text.value

/-- Whether a scalar is well formed, its value left aside. -/
def check : Lexeme → Except Fault Unit
  | .null | .bool _ => .ok ()
  | .cutWord => .error .endInValue
  | .badWord => .error .expectedIdent
  | .number text => text.check
  | .string text => text.check

end Lexeme

/-- Whether a character is insignificant between tokens. -/
def isBlank (c : Char) : Bool := c = ' ' || c = '\t' || c = '\n' || c = '\r'

/-- Cuts the rest `word` of a name off a text: the scalar is `lexeme` if the whole rest is there. -/
def scanWord (lexeme : Lexeme) : List Char → List Char → Lexeme × List Char
  | [], cs => (lexeme, cs)
  | _ :: _, [] => (.cutWord, [])
  | w :: word, c :: cs => if c = w then scanWord lexeme word cs else (.badWord, [])

namespace Token

/-- Cuts the first token off a text that does not start with a blank. -/
def next (c : Char) (rest : List Char) : Token × List Char :=
  let scalar (found : Lexeme × List Char) : Token × List Char := (.scalar found.1, found.2)
  match c with
  | '[' => (.openList, rest)
  | ']' => (.closeList, rest)
  | '\x7b' => (.openObject, rest)
  | '\x7d' => (.closeObject, rest)
  | ',' => (.comma, rest)
  | ':' => (.colon, rest)
  | '"' => let (text, rest) := StringText.scan rest; (.scalar (.string text), rest)
  | 'n' => scalar (scanWord .null "ull".toList rest)
  | 't' => scalar (scanWord (.bool true) "rue".toList rest)
  | 'f' => scalar (scanWord (.bool false) "alse".toList rest)
  | _ =>
    if c = '-' ∨ c.isDigit then let (text, rest) := NumberText.scan (c :: rest); (.scalar (.number text), rest)
    else (.stray, [])

/-- Cuts a text into tokens, at most `fuel` characters and tokens long. -/
def scanWithin : Nat → List Char → List Token
  | 0, _ => []
  | _ + 1, [] => []
  | fuel + 1, c :: cs =>
    if isBlank c then scanWithin fuel cs
    else
      let (token, rest) := next c cs
      token :: scanWithin fuel rest

/-- The tokens of a text; each is at least one character long, so the length of the text bounds their number. -/
def scan (text : String) : List Token :=
  let cs := text.toList
  scanWithin cs.length cs

end Token

end VetoMachine.Json
