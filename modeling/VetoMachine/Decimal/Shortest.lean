/-!
# Shortest decimals

The shortest decimal that reads back as a given finite double, and among the shortest the nearest one.  A positive
double is `m · 2^q`; the reals that round to it form an interval around it (`Binary.low`, `Binary.high`, counted in
quarters of the last place), whose ends belong to it exactly when `m` is even.  For 1, 2, … 17 digits the two
neighbours of the value on that decimal grid are tested exactly, in natural numbers; if a grid has a point in the
interval, one of these two neighbours lies in it.
-/

namespace VetoMachine

/-- A decimal `digits · 10^exponent`. -/
structure Decimal where
  digits : Nat
  exponent : Int
deriving Repr, DecidableEq

namespace Decimal

/-- A positive binary floating point value `mantissa · 2^exponent`. -/
structure Binary where
  mantissa : Nat
  exponent : Int
  /-- Whether the next smaller double is half as far away as the next larger one. -/
  narrowBelow : Bool
deriving Repr, DecidableEq

/-- The bit of a mantissa that a double does not store, `2^52`. -/
def hiddenBit : Nat := 0x10000000000000

/-- The weight of the sign in the bit pattern of a double, `2^63`. -/
def signBit : Nat := 0x8000000000000000

/-- The magnitude of the double with the bit pattern `bits`. -/
def Binary.ofBits (bits : Nat) : Binary :=
  let biased := bits / hiddenBit % 2048
  let fraction := bits % hiddenBit
  if biased = 0 then ⟨fraction, -1074, false⟩
  else ⟨hiddenBit + fraction, Int.ofNat biased - 1075, fraction == 0 && biased != 1⟩

/-- The lower end of the rounding interval, in quarters of the last binary place. -/
def Binary.low (b : Binary) : Nat := if b.narrowBelow then 4 * b.mantissa - 1 else 4 * b.mantissa - 2

/-- The upper end of the rounding interval, in quarters of the last binary place. -/
def Binary.high (b : Binary) : Nat := 4 * b.mantissa + 2

/-- A decimal grid of step `10^place` laid beside a binary value: `c` grid steps are compared with `x` quarters of
the last binary place as `c * step` with `x * quarter`. -/
structure Grid where
  step : Nat
  quarter : Nat

/-- The grid of step `10^place` beside `b`. -/
def Binary.grid (b : Binary) (place : Int) : Grid :=
  let quarterExponent := b.exponent - 2
  { step := Nat.pow 10 place.toNat * Nat.pow 2 (-quarterExponent).toNat
    quarter := Nat.pow 2 quarterExponent.toNat * Nat.pow 10 (-place).toNat }

/-- Whether `c` grid steps round to the binary value. -/
def Binary.accepts (b : Binary) (g : Grid) (c : Nat) : Bool :=
  if b.mantissa % 2 = 0 then b.low * g.quarter ≤ c * g.step && c * g.step ≤ b.high * g.quarter
  else b.low * g.quarter < c * g.step && c * g.step < b.high * g.quarter

/-- The accepted neighbour on the grid of step `10^place`: the nearer of the two, the even one on a tie. -/
def Binary.neighbour? (b : Binary) (place : Int) : Option Decimal :=
  let g := b.grid place
  let value := 4 * b.mantissa * g.quarter
  let below := value / g.step
  let toBelow := value - below * g.step
  let toAbove := (below + 1) * g.step - value
  let belowFirst := toBelow < toAbove || (toBelow == toAbove && below % 2 == 0)
  match b.accepts g below, b.accepts g (below + 1) with
  | true, true => some ⟨if belowFirst then below else below + 1, place⟩
  | true, false => some ⟨below, place⟩
  | false, true => some ⟨below + 1, place⟩
  | false, false => none

/-- The least `j ≤ fuel` with `den ≤ num * 10^j`, or `fuel`. -/
def scaleUp (num den : Nat) : Nat → Nat → Nat
  | 0, j => j
  | fuel + 1, j => if den ≤ num * Nat.pow 10 j then j else scaleUp num den fuel (j + 1)

/-- The exponent of the leading decimal digit of `num / den`. -/
def leadingPlace (num den : Nat) : Int :=
  if den ≤ num then (Nat.toDigits 10 (num / den)).length - 1
  else -(scaleUp num den 400 1 : Int)

/-- The exponent of the leading decimal digit of a binary value. -/
def Binary.leadingPlace (b : Binary) : Int :=
  Decimal.leadingPlace (b.mantissa * Nat.pow 2 b.exponent.toNat) (Nat.pow 2 (-b.exponent).toNat)

/-- Moves trailing zeros of the digits into the exponent. -/
def stripZeros : Nat → Decimal → Decimal
  | 0, d => d
  | fuel + 1, d =>
    if d.digits ≠ 0 ∧ d.digits % 10 = 0 then stripZeros fuel ⟨d.digits / 10, d.exponent + 1⟩ else d

/-- The shortest decimal that rounds to `b`, without trailing zeros; zero for a zero mantissa. -/
def Binary.shortest (b : Binary) : Decimal :=
  if b.mantissa = 0 then ⟨0, 0⟩
  else
    let top := b.leadingPlace
    let found := (List.range 17).findSome? fun n => b.neighbour? (top - Int.ofNat n)
    stripZeros 17 (found.getD ⟨0, 0⟩)

/-- The shortest decimal that reads back as the magnitude of `x`. -/
def shortest (x : Float) : Decimal := (Binary.ofBits (x.toBits.toNat % signBit)).shortest

end Decimal

end VetoMachine
