/-! Finite binary64 numbers. A magnitude is kept as its code, the bit pattern
without the sign: codes count the magnitudes from zero up, so the order of
codes is the order of magnitudes. Arithmetic works on exact fractions and
rounds once, to the nearest code and on a tie to the even one. -/
namespace SetupLint

abbrev twoPower (n : Nat) : Nat := Nat.pow 2 n

abbrev tenPower (n : Nat) : Nat := Nat.pow 10 n

/-- The code of the first magnitude that is too large. -/
def Double.limit : Nat := 0x7FF * twoPower 52

/-- A finite binary64 number. -/
structure Double where
  negative : Bool
  code : Nat
  code_lt : code < Double.limit
deriving DecidableEq

namespace Double

/-- The quotient rounded to the nearest whole number, a half to the even one. -/
def roundDiv (num den : Nat) : Nat :=
  let whole := num / den
  let twice := 2 * (num % den)
  if den < twice ∨ (twice = den ∧ whole % 2 = 1) then whole + 1 else whole

/-- The significand and the power of two of a code. -/
def parts (code : Nat) : Nat × Int :=
  let exponent : Nat := code / twoPower 52
  let fraction : Nat := code % twoPower 52
  if exponent = 0 then (fraction, -1074) else (twoPower 52 + fraction, (exponent : Int) - 1075)

/-- The magnitude of a code as a fraction. -/
def ratio (code : Nat) : Nat × Nat :=
  let (significand, power) := parts code
  (significand * twoPower power.toNat, twoPower (-power).toNat)

/-- The code nearest to the positive fraction `num / den`. It may lie past the
limit. -/
def nearestCode (num den : Nat) : Nat :=
  let log : Int := (Nat.log2 num : Int) - Nat.log2 den
  let low := log - 53
  let wide := den * twoPower 53 * twoPower low.toNat ≤ num * twoPower (-low).toNat
  let power := max (if wide then low + 1 else low) (-1074)
  (power + 1074).toNat * twoPower 52 +
    roundDiv (num * twoPower (-power).toNat) (den * twoPower power.toNat)

/-- The code nearest to `num / den`, zero included. -/
def codeOf (num den : Nat) : Nat := if num = 0 then 0 else nearestCode num den

def mulCode (a b : Nat) : Nat :=
  let (an, ad) := ratio a
  let (bn, bd) := ratio b
  codeOf (an * bn) (ad * bd)

def divCode (a b : Nat) : Nat :=
  let (an, ad) := ratio a
  let (bn, bd) := ratio b
  codeOf (an * bd) (ad * bn)

/-- The number with a given code, unless it is too large. -/
def ofCode? (negative : Bool) (code : Nat) : Option Double :=
  if h : code < limit then some ⟨negative, code, h⟩ else none

/-- The largest power of ten that is a magnitude. -/
def maxTenPower : Nat := 308

/-- Divide by `10 ^ exponent`, by at most `maxTenPower` places at a time. After
`steps` rounds nothing is left of any magnitude below `2 ^ 64`. -/
def divideByTens : (steps : Nat) → (code exponent : Nat) → Nat
  | 0, _, _ => 0
  | steps + 1, code, exponent =>
    if exponent ≤ maxTenPower then divCode code (codeOf (tenPower exponent) 1)
    else if code = 0 then 0
    else
      let quotient := divCode code (codeOf (tenPower maxTenPower) 1)
      divideByTens steps quotient (exponent - maxTenPower)

/-- The number `significand * 10 ^ exponent`, with the significand rounded
first and then the product or the quotient. There is none when it is too large,
nor when the power of ten alone is. -/
def ofScientific? (negative : Bool) (significand : Nat) (exponent : Int) : Option Double :=
  let code := codeOf significand 1
  if 0 ≤ exponent then
    if exponent ≤ maxTenPower then
      ofCode? negative (mulCode code (codeOf (tenPower exponent.toNat) 1))
    else if code = 0 then ofCode? negative 0 else none
  else ofCode? negative (divideByTens 4 code (-exponent).toNat)

/-- A whole number below `2 ^ 64` as a double. -/
def ofInt? (n : Int) : Option Double := ofCode? (n < 0) (codeOf n.natAbs 1)

/-- Zero is not signed by default. -/
instance : Inhabited Double := ⟨⟨false, 0, by decide⟩⟩

end Double
end SetupLint
