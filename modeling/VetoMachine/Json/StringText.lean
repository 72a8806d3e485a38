import VetoMachine.Json.Fault

/-!
# Strings in JSON texts

The text of a string is first cut into pieces, a character or an escaped UTF-16 unit each (`StringText.scan`),
and the pieces are then assembled (`StringText.value`).  Cutting finds where the string ends and what is wrong
with its escapes; assembling pairs the surrogates.  A string whose value nobody wants is only cut
(`StringText.check`), so its surrogates need not be paired.
-/

namespace VetoMachine.Json

/-- A piece of a string's text. -/
inductive Piece where
  /-- A character, written as itself or with a short escape. -/
  | char (c : Char)
  /-- A UTF-16 unit, written with four hexadecimal digits. -/
  | unit (u : Nat)
deriving DecidableEq, Repr

/-- How the text of a string stops. -/
inductive StringEnd where
  /-- At its closing quote. -/
  | closed
  /-- With the end of the whole text. -/
  | cut
  /-- At a control character. -/
  | control
  /-- At a backslash before a character that makes no escape. -/
  | badEscape
  /-- At a unit that is not four hexadecimal digits. -/
  | badUnit
deriving DecidableEq, Repr

/-- The fault of a string that stops there, if it is one. -/
def StringEnd.fault? : StringEnd → Option Fault
  | .closed => none
  | .cut => some .endInString
  | .control => some .controlCharacter
  | .badEscape | .badUnit => some .invalidEscape

/-- The fault of a string that stops there just after a high surrogate: an escaped unit has to follow. -/
def StringEnd.faultAfterHigh : StringEnd → Fault
  | .closed | .control | .badEscape => .unfinishedPair
  | .cut => .endInString
  | .badUnit => .invalidEscape

/-- The text of a string after its opening quote. -/
structure StringText where
  pieces : List Piece
  ending : StringEnd
deriving DecidableEq, Repr

def hexDigit? (c : Char) : Option Nat :=
  if '0' ≤ c ∧ c ≤ '9' then some (c.toNat - '0'.toNat)
  else if 'a' ≤ c ∧ c ≤ 'f' then some (c.toNat - 'a'.toNat + 10)
  else if 'A' ≤ c ∧ c ≤ 'F' then some (c.toNat - 'A'.toNat + 10)
  else none

/-- The number written by four hexadecimal digits. -/
def hexUnit? (a b c d : Char) : Option Nat := do
  return ((← hexDigit? a) * 16 + (← hexDigit? b)) * 256 + (← hexDigit? c) * 16 + (← hexDigit? d)

/-- The character that a backslash and `c` stand for. -/
def shortEscape? (c : Char) : Option Char :=
  match c with
  | '"' => some '"'
  | '\\' => some '\\'
  | '/' => some '/'
  | 'b' => some '\x08'
  | 'f' => some '\x0c'
  | 'n' => some '\n'
  | 'r' => some '\r'
  | 't' => some '\t'
  | _ => none

def byteCount (cs : List Char) : Nat := cs.foldl (fun n c => n + c.utf8Size) 0

/-- How a string stops whose text `cs` is too short for four hexadecimal digits: fewer than four bytes are an early
end. -/
def unitEnd (cs : List Char) : StringEnd := if byteCount (cs.take 4) < 4 then .cut else .badUnit

namespace StringText

def cons (p : Piece) (t : StringText × List Char) : StringText × List Char :=
  (⟨p :: t.1.pieces, t.1.ending⟩, t.2)

/-- Cuts a text into the pieces of a string, up to its closing quote, and the rest of the text.  Where the string
is at fault the rest is empty. -/
def scan : List Char → StringText × List Char
  | [] => (⟨[], .cut⟩, [])
  | '"' :: rest => (⟨[], .closed⟩, rest)
  | '\\' :: 'u' :: a :: b :: c :: d :: rest =>
    match hexUnit? a b c d with
    | some u => cons (.unit u) (scan rest)
    | none => (⟨[], .badUnit⟩, [])
  | '\\' :: 'u' :: few => (⟨[], unitEnd few⟩, [])
  | '\\' :: e :: rest =>
    match shortEscape? e with
    | some c => cons (.char c) (scan rest)
    | none => (⟨[], .badEscape⟩, [])
  | ['\\'] => (⟨[], .cut⟩, [])
  | c :: rest => if c.toNat < 0x20 then (⟨[], .control⟩, []) else cons (.char c) (scan rest)

/-- Whether a UTF-16 unit is the first of a pair. -/
def isHighSurrogate (u : Nat) : Bool := 0xD800 ≤ u && u ≤ 0xDBFF

/-- Whether a UTF-16 unit is the second of a pair. -/
def isLowSurrogate (u : Nat) : Bool := 0xDC00 ≤ u && u ≤ 0xDFFF

/-- The character of a surrogate pair. -/
def pairChar (high low : Nat) : Char := Char.ofNat ((high - 0xD800) * 0x400 + (low - 0xDC00) + 0x10000)

/-- Assembles pieces into characters, the surrogates in pairs. -/
def assemble : List Piece → StringEnd → Except Fault (List Char)
  | [], ending =>
    match ending.fault? with
    | some fault => .error fault
    | none => .ok []
  | .char c :: rest, ending => (c :: ·) <$> assemble rest ending
  | .unit u :: rest, ending =>
    if isLowSurrogate u then .error .loneSurrogate
    else if isHighSurrogate u then
      match rest with
      | [] => .error ending.faultAfterHigh
      | .char _ :: _ => .error .unfinishedPair
      | .unit v :: rest =>
        if isLowSurrogate v then (pairChar u v :: ·) <$> assemble rest ending else .error .loneSurrogate
    else (Char.ofNat u :: ·) <$> assemble rest ending

def value (t : StringText) : Except Fault String := String.ofList <$> assemble t.pieces t.ending

/-- Whether a text is well formed, its surrogates left aside. -/
def check (t : StringText) : Except Fault Unit :=
  match t.ending.fault? with
  | some fault => .error fault
  | none => .ok ()

end StringText

end VetoMachine.Json
