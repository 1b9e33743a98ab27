import SetupLint.Number.Double

/-! Decimal numerals as they are written, and the numbers they stand for. -/
namespace SetupLint

/-- A written number: digits before the point, digits after it (none without a
point) and the exponent, if one is written. -/
structure Numeral where
  negative : Bool
  whole : List Char
  fraction : List Char
  exponent : Option Int
deriving DecidableEq

/-- A number that was read. Whole numbers are exact between `-2 ^ 63` and
`2 ^ 64 - 1`. -/
inductive Number where
  | int (value : Int)
  | double (value : Double)
deriving DecidableEq

namespace Numeral

def ofInt (n : Int) : Numeral := ⟨n < 0, Nat.toDigits 10 n.natAbs, [], none⟩

def digitValue (c : Char) : Nat := c.toNat - '0'.toNat

/-- The largest significand that is collected. -/
def maxSignificand : Nat := UInt64.size - 1

/-- Collect digits behind a significand while it does not grow too large. The
second component counts the digits that were not taken. -/
def collect : (significand : Nat) → List Char → Nat × Nat
  | significand, [] => (significand, 0)
  | significand, c :: cs =>
    let next := significand * 10 + digitValue c
    if next ≤ maxSignificand then collect next cs else (significand, cs.length + 1)

/-- The largest exponent that is told from an infinite one. -/
def maxExponent : Nat := 0x7FFFFFFF

/-- The double for a significand and the digits around it. An exponent too
large to matter decides alone. -/
def toDouble? (negative : Bool) (significand : Nat) (shift : Int) (exponent : Int) :
    Option Double :=
  if exponent.natAbs ≤ maxExponent then
    Double.ofScientific? negative significand (shift + exponent)
  else if 0 < exponent ∧ significand ≠ 0 then none
  else Double.ofCode? negative 0

/-- The number of a numeral, or nothing when it is too large for a double. A
numeral without point and exponent is a whole number if it is in range, except
that `-0` is a double. Of a longer numeral the digits that fit 64 bits count. -/
def value? (n : Numeral) : Option Number :=
  let (significand, dropped) := collect 0 n.whole
  match n.fraction, n.exponent with
  | [], none =>
    if dropped = 0 ∧ !n.negative then some (.int significand)
    else if dropped = 0 ∧ significand ≠ 0 ∧ significand ≤ twoPower 63 then
      some (.int (-significand))
    else (toDouble? n.negative significand dropped 0).map .double
  | fraction, exponent =>
    let (full, left) := collect significand fraction
    let shift : Int := dropped - (fraction.length - left : Nat)
    (toDouble? n.negative full shift (exponent.getD 0)).map .double

def render (n : Numeral) : List Char :=
  (if n.negative then ['-'] else []) ++ n.whole ++
    (if n.fraction.isEmpty then [] else '.' :: n.fraction) ++
    (match n.exponent with
      | none => []
      | some e => 'e' :: (if e < 0 then '-' else '+') :: Nat.toDigits 10 e.natAbs)

end Numeral
end SetupLint
