import VetoMachine.Json.Basic

/-!
# Writing JSON

`Json.render` writes a value without blanks.  Inside a string only the quote, the backslash and the control
characters are escaped; a control character without a short escape is written as four hexadecimal digits.
-/

namespace VetoMachine.Json

/-- The last `width` hexadecimal digits of `n`. -/
def hexDigits (width n : Nat) : List Char :=
  let digits := Nat.toDigits 16 n
  List.replicate (width - digits.length) '0' ++ digits

/-- A character as it stands inside a JSON string. -/
def escapeChar (c : Char) : List Char :=
  if c = '"' then ['\\', '"']
  else if c = '\\' then ['\\', '\\']
  else if c = '\n' then ['\\', 'n']
  else if c = '\r' then ['\\', 'r']
  else if c = '\t' then ['\\', 't']
  else if c.toNat < 0x20 then '\\' :: 'u' :: hexDigits 4 c.toNat
  else [c]

def quoteChars (s : String) : List Char := '"' :: s.toList.flatMap escapeChar ++ ['"']

mutual

def chars : Json → List Char
  | .null => "null".toList
  | .bool true => "true".toList
  | .bool false => "false".toList
  | .number n => n.chars
  | .string s => quoteChars s
  | .array items => '[' :: itemsChars items ++ [']']
  | .object members => '{' :: membersChars members ++ ['}']

def itemsChars : List Json → List Char
  | [] => []
  | [x] => chars x
  | x :: y :: rest => chars x ++ ',' :: itemsChars (y :: rest)

def membersChars : List (String × Json) → List Char
  | [] => []
  | [(k, x)] => quoteChars k ++ ':' :: chars x
  | (k, x) :: m :: rest => quoteChars k ++ ':' :: chars x ++ ',' :: membersChars (m :: rest)

end

def render (j : Json) : String := String.ofList j.chars

end VetoMachine.Json
