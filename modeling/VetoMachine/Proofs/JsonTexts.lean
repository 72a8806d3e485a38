import VetoMachine.Json.Basic

/-!
# The texts of JSON

The grammar of JSON over lists of characters.  A tree (`Tree`) is what a text writes: the members of an object stand
in the order of the text and their keys may repeat, and a number is kept as its literal.  One tree has many texts
(`Tree.IsText`).  Blanks may stand around every value and every key, and each character of a string may be written as
itself, with a short escape, as a UTF-16 unit or as a surrogate pair, in hexadecimal digits of either case.
-/

namespace VetoMachine.Json

/-! ### Numbers -/

/-- One decimal digit or more. -/
def IsDigits (cs : List Char) : Prop := cs ≠ [] ∧ ∀ c ∈ cs, c.isDigit = true

/-- The whole part of a number: digits of which a leading zero stands alone. -/
def IsWhole (cs : List Char) : Prop := IsDigits cs ∧ (cs.head? = some '0' → cs = ['0'])

/-- The fraction of a number, which may be left out. -/
def IsFraction (cs : List Char) : Prop := cs = [] ∨ ∃ digits, IsDigits digits ∧ cs = '.' :: digits

/-- The exponent of a number, which may be left out. -/
def IsExponent (cs : List Char) : Prop :=
  cs = [] ∨ ∃ e ∈ ['e', 'E'], ∃ sign ∈ [[], ['+'], ['-']], ∃ digits, IsDigits digits ∧
    cs = e :: (sign ++ digits)

/-- The text of a number. -/
def IsNumber (cs : List Char) : Prop :=
  ∃ sign ∈ [[], ['-']], ∃ whole fraction exponent, IsWhole whole ∧ IsFraction fraction ∧ IsExponent exponent ∧
    cs = sign ++ (whole ++ (fraction ++ exponent))

/-- A number as written. -/
structure NumberLiteral where
  chars : List Char
  isNumber : IsNumber chars

/-! ### Trees -/

/-- What a text writes. -/
inductive Tree where
  | null
  | bool (b : Bool)
  | number (literal : NumberLiteral)
  | string (s : String)
  | array (items : List Tree)
  /-- The members in the order of the text; a key may stand more than once. -/
  | object (members : List (String × Tree))

/-! ### Strings -/

/-- The characters with a short escape, each after the character that stands for it behind a backslash. -/
def shortEscapes : List (Char × Char) :=
  [('"', '"'), ('\\', '\\'), ('/', '/'), ('b', '\x08'), ('f', '\x0c'), ('n', '\n'), ('r', '\r'), ('t', '\t')]

/-- `c` is the hexadecimal digit for `n`, in either case. -/
def IsHexDigit (c : Char) (n : Nat) : Prop := n < 16 ∧ (c = n.digitChar ∨ c = n.digitChar.toUpper)

/-- Four hexadecimal digits write the number `u`. -/
def IsUnit (cs : List Char) (u : Nat) : Prop :=
  ∃ a b c d i j k l, IsHexDigit a i ∧ IsHexDigit b j ∧ IsHexDigit c k ∧ IsHexDigit d l ∧ cs = [a, b, c, d] ∧
    u = ((i * 16 + j) * 16 + k) * 16 + l

/-- The ways to write a character inside a string. -/
inductive WritesChar (c : Char) : List Char → Prop where
  | plain (hcontrol : 0x20 ≤ c.toNat) (hquote : c ≠ '"') (hslash : c ≠ '\\') : WritesChar c [c]
  | short {e : Char} (h : (e, c) ∈ shortEscapes) : WritesChar c ['\\', e]
  | unit {cs : List Char} (h : IsUnit cs c.toNat) : WritesChar c ('\\' :: 'u' :: cs)
  /-- A character beyond the UTF-16 units, as a high and a low surrogate. -/
  | pair {cs ds : List Char} {i j : Nat} (hi : i < 0x400) (hj : j < 0x400) (hcs : IsUnit cs (0xD800 + i))
      (hds : IsUnit ds (0xDC00 + j)) (hc : c.toNat = 0x10000 + i * 0x400 + j) :
      WritesChar c ('\\' :: 'u' :: (cs ++ '\\' :: 'u' :: ds))

/-- The ways to write characters inside a string, one after the other. -/
inductive WritesChars : List Char → List Char → Prop where
  | nil : WritesChars [] []
  | cons {c : Char} {cs text more : List Char} (hc : WritesChar c text) (hcs : WritesChars cs more) :
      WritesChars (c :: cs) (text ++ more)

/-- The ways to write a string, in its quotes. -/
def WritesString (s : String) (cs : List Char) : Prop :=
  ∃ text, WritesChars s.toList text ∧ cs = '"' :: (text ++ ['"'])

/-! ### Texts -/

/-- Characters that are insignificant between the marks of a text. -/
def Blanks (cs : List Char) : Prop := ∀ c ∈ cs, c ∈ [' ', '\t', '\n', '\r']

/-- A text that satisfies `P`, between blanks. -/
def Padded (P : List Char → Prop) (cs : List Char) : Prop :=
  ∃ before text after, Blanks before ∧ P text ∧ Blanks after ∧ cs = before ++ (text ++ after)

mutual

/-- The ways to write a tree, from its first character to its last. -/
def Tree.Written : Tree → List Char → Prop
  | .null, cs => cs = ['n', 'u', 'l', 'l']
  | .bool true, cs => cs = ['t', 'r', 'u', 'e']
  | .bool false, cs => cs = ['f', 'a', 'l', 's', 'e']
  | .number n, cs => cs = n.chars
  | .string s, cs => WritesString s cs
  | .array items, cs => ∃ body, ItemsWritten items body ∧ cs = '[' :: (body ++ [']'])
  | .object members, cs => ∃ body, MembersWritten members body ∧ cs = '{' :: (body ++ ['}'])

/-- The ways to write the elements of an array, between its brackets. -/
def ItemsWritten : List Tree → List Char → Prop
  | [], cs => Blanks cs
  | [x], cs => Padded x.Written cs
  | x :: y :: rest, cs => ∃ first more, Padded x.Written first ∧ ItemsWritten (y :: rest) more ∧
      cs = first ++ ',' :: more

/-- The ways to write the members of an object, between its braces. -/
def MembersWritten : List (String × Tree) → List Char → Prop
  | [], cs => Blanks cs
  | [(k, x)], cs => ∃ key value, Padded (WritesString k) key ∧ Padded x.Written value ∧ cs = key ++ ':' :: value
  | (k, x) :: m :: rest, cs => ∃ key value more, Padded (WritesString k) key ∧ Padded x.Written value ∧
      MembersWritten (m :: rest) more ∧ cs = key ++ ':' :: (value ++ ',' :: more)

end

/-- The texts of a tree. -/
def Tree.IsText (t : Tree) (text : String) : Prop := Padded t.Written text.toList

/-- The values of the members named `key`, in their order. -/
def valuesOf {α : Type} (key : String) (members : List (String × α)) : List α :=
  members.filterMap fun m => if m.1 = key then some m.2 else none

end VetoMachine.Json
