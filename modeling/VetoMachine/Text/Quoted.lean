import VetoMachine.Text.Unprintable

/-!
# Quoted text

How a message quotes a string: between double quotes, the quote and the backslash behind a backslash, the usual
short escapes for NUL, tab, line feed and carriage return, and every other unprintable character as its code
point in lower-case hexadecimal between braces.
-/

namespace VetoMachine.Text

/-- A character as it stands inside a quoted string. -/
def quotedChar (c : Char) : List Char :=
  if c = '"' then ['\\', '"']
  else if c = '\\' then ['\\', '\\']
  else if c = '\x00' then ['\\', '0']
  else if c = '\t' then ['\\', 't']
  else if c = '\n' then ['\\', 'n']
  else if c = '\r' then ['\\', 'r']
  else if isUnprintable c then '\\' :: 'u' :: '\x7b' :: Nat.toDigits 16 c.toNat ++ ['\x7d']
  else [c]

/-- A string between double quotes, with escapes. -/
def quoted (s : String) : String := String.ofList ('"' :: s.toList.flatMap quotedChar ++ ['"'])

end VetoMachine.Text
