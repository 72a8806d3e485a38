import VetoMachine.Decimal.Shortest

/-!
# JSON values

A JSON value with exact integers between `-2^63` and `2^64 - 1` and doubles for all other numbers.  The members
of an object are kept sorted by key, each key once (`Json.ofMembers` builds them so, the last of several equal
keys wins), so two objects are equal exactly when they hold the same value under every key.  An integer never
equals a double.
-/

namespace VetoMachine

/-- A number of a JSON value. -/
inductive Number where
  /-- An integer, kept exactly. -/
  | int (n : Int)
  /-- Any other number, as the nearest double. -/
  | float (x : Float)
deriving Inhabited

/-- A JSON value. -/
inductive Json where
  | null
  | bool (b : Bool)
  | number (n : Number)
  | string (s : String)
  | array (items : List Json)
  | object (members : List (String × Json))
deriving Inhabited

namespace Number

/-- Integers by value, doubles by the floating point comparison, an integer never equal to a double. -/
def beq : Number → Number → Bool
  | .int a, .int b => a == b
  | .float a, .float b => a == b
  | _, _ => false

instance : BEq Number := ⟨beq⟩

/-- The digits of a decimal with its point: positional when the leading digit stands between the fifth place after
the point and the sixteenth before it, otherwise in exponent form with a signed exponent. -/
def layout (digits : List Char) (exponent : Int) : List Char :=
  let point := digits.length + exponent
  if 0 ≤ exponent ∧ point ≤ 16 then digits ++ List.replicate exponent.toNat '0' ++ ['.', '0']
  else if 0 < point ∧ point ≤ 16 then digits.take point.toNat ++ '.' :: digits.drop point.toNat
  else if -5 < point ∧ point ≤ 0 then '0' :: '.' :: List.replicate (-point).toNat '0' ++ digits
  else
    let power := (if 0 < point then "+" else "").toList ++ (toString (point - 1)).toList
    match digits with
    | [] => []
    | [d] => d :: 'e' :: power
    | d :: rest => d :: '.' :: rest ++ 'e' :: power

/-- The text of a finite double: the fewest digits that read back, always with a point or an exponent. -/
def floatChars (x : Float) : List Char :=
  let sign := if x.toBits.toNat / Decimal.signBit = 1 then ['-'] else []
  let d := Decimal.shortest x
  sign ++ layout (Nat.toDigits 10 d.digits) d.exponent

def chars : Number → List Char
  | .int n => (toString n).toList
  | .float x => floatChars x

end Number

namespace Json

mutual

/-- Equality of values, doubles compared as doubles. -/
def beq : Json → Json → Bool
  | .null, .null => true
  | .bool a, .bool b => a == b
  | .number a, .number b => a == b
  | .string a, .string b => a == b
  | .array xs, .array ys => beqItems xs ys
  | .object xs, .object ys => beqMembers xs ys
  | _, _ => false

def beqItems : List Json → List Json → Bool
  | [], [] => true
  | x :: xs, y :: ys => beq x y && beqItems xs ys
  | _, _ => false

def beqMembers : List (String × Json) → List (String × Json) → Bool
  | [], [] => true
  | (k, x) :: xs, (l, y) :: ys => k == l && beq x y && beqMembers xs ys
  | _, _ => false

end

instance : BEq Json := ⟨beq⟩

/-- Puts a member into a list sorted by key, in place of one with the same key. -/
def insertMember (key : String) (value : Json) : List (String × Json) → List (String × Json)
  | [] => [(key, value)]
  | (k, v) :: rest =>
    match compare key k with
    | .lt => (key, value) :: (k, v) :: rest
    | .eq => (key, value) :: rest
    | .gt => (k, v) :: insertMember key value rest

/-- The object with the given members; of several with one key the last counts. -/
def ofMembers (members : List (String × Json)) : Json :=
  .object (members.foldl (fun sorted m => insertMember m.1 m.2 sorted) [])

/-- The value of the member named `key`, if this is an object that has one. -/
def get? (key : String) : Json → Option Json
  | .object members => members.lookup key
  | _ => none

end Json

end VetoMachine
