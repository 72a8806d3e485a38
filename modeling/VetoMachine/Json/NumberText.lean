import VetoMachine.Json.Fault

/-!
# Numbers in JSON texts

A number is cut from the text by the JSON grammar (`NumberText.scan`), and its value is computed from the parts
(`NumberParts.value`).  A number without fraction and exponent is an integer when it fits: `-0` and what is below
`-2^63` or above `2^64 - 1` are doubles.  A double is made from the longest leading run of digits below `2^64`
and a power of ten: digits of the whole part beyond the run only count into the power, digits of the fraction
beyond it are ignored.
-/

namespace VetoMachine.Json

/-- The parts of a well-formed number. -/
structure NumberParts where
  negative : Bool
  /-- The digits before the point. -/
  whole : List Nat
  /-- The digits after the point; none if there is no point. -/
  fraction : List Nat
  exponent : Option Int
deriving DecidableEq, Repr

/-- The text of a number, from its sign or first digit on. -/
inductive NumberText where
  | complete (parts : NumberParts)
  /-- The text ends where a digit has to follow. -/
  | cut
  /-- Something else stands where a digit has to follow, or a digit follows a leading zero. -/
  | broken
deriving DecidableEq, Repr

/-- The digits at the start of a text, and the rest. -/
def spanDigits (cs : List Char) : List Nat × List Char :=
  ((cs.takeWhile Char.isDigit).map fun c => c.toNat - '0'.toNat, cs.dropWhile Char.isDigit)

/-- The digits that have to stand at the start of a text, and the rest; or how their absence is to be judged. -/
def someDigits (cs : List Char) : Except NumberText (List Nat × List Char) :=
  match spanDigits cs with
  | ([], []) => .error .cut
  | ([], _ :: _) => .error .broken
  | found => .ok found

def ofDigits (digits : List Nat) : Nat := digits.foldl (fun n d => n * 10 + d) 0

/-- A sign before an exponent: whether it is a minus, and the rest. -/
def exponentSign : List Char → Bool × List Char
  | '+' :: rest => (false, rest)
  | '-' :: rest => (true, rest)
  | cs => (false, cs)

/-- The exponent at the start of a text, if there is one, and the rest. -/
def scanExponent (cs : List Char) : Except NumberText (Option Int × List Char) :=
  match cs with
  | [] => .ok (none, [])
  | e :: rest =>
    if e = 'e' ∨ e = 'E' then do
      let (negative, rest) := exponentSign rest
      let (digits, rest) ← someDigits rest
      return (some (if negative then -Int.ofNat (ofDigits digits) else Int.ofNat (ofDigits digits)), rest)
    else .ok (none, cs)

/-- The fraction at the start of a text, if there is one, and the rest. -/
def scanFraction (cs : List Char) : Except NumberText (List Nat × List Char) :=
  match cs with
  | '.' :: rest => someDigits rest
  | _ => .ok ([], cs)

/-- The whole part of a number and the rest: a leading zero stands alone. -/
def scanWhole (cs : List Char) : Except NumberText (List Nat × List Char) := do
  let (digits, rest) ← someDigits cs
  match digits with
  | 0 :: _ :: _ => throw .broken
  | _ => return (digits, rest)

/-- Cuts an unsigned number from the start of a text. -/
def scanUnsigned (negative : Bool) (cs : List Char) : Except NumberText (NumberParts × List Char) := do
  let (whole, rest) ← scanWhole cs
  let (fraction, rest) ← scanFraction rest
  let (exponent, rest) ← scanExponent rest
  return (⟨negative, whole, fraction, exponent⟩, rest)

namespace NumberText

/-- Cuts a number from the start of a text that begins with a minus or a digit.  Where the number is at fault the
rest is empty. -/
def scan (cs : List Char) : NumberText × List Char :=
  let parts := match cs with
    | '-' :: rest => scanUnsigned true rest
    | _ => scanUnsigned false cs
  match parts with
  | .ok (parts, rest) => (.complete parts, rest)
  | .error text => (text, [])

end NumberText

/-- The integers kept exactly lie below this bound, `2^64`. -/
def integerBound : Nat := 0x10000000000000000

/-- The magnitude of the least integer kept exactly, `-2^63`. -/
def maxNegative : Nat := 0x8000000000000000

/-- Reads digits on from `n` while the number stays below `2^64`, and gives the digits left over. -/
def significand (n : Nat) : List Nat → Nat × List Nat
  | [] => (n, [])
  | d :: rest => if n * 10 + d < integerBound then significand (n * 10 + d) rest else (n, d :: rest)

/-- The double next to `10^k`. -/
def powerOfTen (k : Nat) : Float := Float.ofScientific 1 false k

/-- The double `n · 10^exponent`, rounded after the conversion of `n` and after each factor.  A number beyond all
doubles has none; one quotient by `10^308` brings every `n < 2^64` so low that a second gives zero. -/
def scaled? (n : Nat) (exponent : Int) : Option Float :=
  let x := n.toUInt64.toFloat
  if 0 ≤ exponent then
    if exponent ≤ 308 then
      let y := x * powerOfTen exponent.toNat
      if y.isInf then none else some y
    else if n = 0 then some x
    else none
  else if -308 ≤ exponent then some (x / powerOfTen (-exponent).toNat)
  else if n = 0 then some x
  else if -616 ≤ exponent then some (x / powerOfTen 308 / powerOfTen (-exponent - 308).toNat)
  else some 0.0

namespace NumberParts

def float? (p : NumberParts) : Option Float := do
  let (n, excess) := significand 0 p.whole
  let (m, ignored) := significand n p.fraction
  let point := Int.ofNat excess.length - Int.ofNat (p.fraction.length - ignored.length)
  let x ← scaled? m (point + p.exponent.getD 0)
  return if p.negative then -x else x

/-- The integer a number stands for, if it is one that is kept exactly. -/
def int? (p : NumberParts) : Option Int :=
  if p.fraction ≠ [] ∨ p.exponent.isSome then none
  else
    let n := ofDigits p.whole
    if p.negative then if n = 0 ∨ maxNegative < n then none else some (-Int.ofNat n)
    else if n < integerBound then some (Int.ofNat n)
    else none

def value (p : NumberParts) : Except Fault Number :=
  match p.int? with
  | some n => .ok (.int n)
  | none =>
    match p.float? with
    | some x => .ok (.float x)
    | none => .error .numberOutOfRange

end NumberParts

namespace NumberText

def value : NumberText → Except Fault Number
  | .complete parts => parts.value
  | .cut => .error .endInValue
  | .broken => .error .invalidNumber

/-- Whether a text is a number, however large. -/
def check : NumberText → Except Fault Unit
  | .complete _ => .ok ()
  | .cut | .broken => .error .invalidNumber

end NumberText

end VetoMachine.Json
