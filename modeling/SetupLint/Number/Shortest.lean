import SetupLint.Number.Numeral

/-! The shortest decimal that reads back as a given double. For one, two and
more digits, the two neighbours of the magnitude on the decimal grid of that
many digits are tried; the first grid with a neighbour that rounds to the
magnitude wins, the nearer one of two, and on a tie the even one. -/
namespace SetupLint.Double

/-- A fraction between two neighbours of a double, over a common denominator,
with the ends included or not. -/
structure Interval where
  low : Nat
  value : Nat
  high : Nat
  den : Nat
  closed : Bool

/-- The fractions that round to the magnitude of a code. -/
def interval (code : Nat) : Interval :=
  let (significand, power) := parts code
  let scale := twoPower (power - 2).toNat
  let below := if significand = twoPower 52 ∧ -1074 < power then 1 else 2
  { low := (4 * significand - below) * scale
    value := 4 * significand * scale
    high := (4 * significand + 2) * scale
    den := twoPower (2 - power).toNat
    closed := significand % 2 = 0 }

def Interval.holds (i : Interval) (count : Nat) (place : Int) : Bool :=
  let point := count * tenPower place.toNat * i.den
  let unit := tenPower (-place).toNat
  if i.closed then i.low * unit ≤ point && point ≤ i.high * unit
  else i.low * unit < point && point < i.high * unit

/-- The place of the first digit of the value: the power of ten below it. -/
def Interval.firstPlace (i : Interval) : Int :=
  (Nat.toDigits 10 (i.value * tenPower 400 / i.den)).length - 401

/-- The best multiple of `10 ^ place` in an interval, if there is one. -/
def Interval.onGrid? (i : Interval) (place : Int) : Option Nat :=
  let unit := tenPower place.toNat * i.den
  let scaled := i.value * tenPower (-place).toNat
  let down := scaled / unit
  let rest := scaled % unit
  match i.holds down place, i.holds (down + 1) place with
  | false, false => none
  | true, false => some down
  | false, true => some (down + 1)
  | true, true =>
    if 2 * rest < unit ∨ (2 * rest = unit ∧ down % 2 = 0) then some down else some (down + 1)

/-- The digits and the place of the last digit, on the first grid that has a
point in the interval. -/
def Interval.digits (i : Interval) : List Char × Int :=
  let first := i.firstPlace
  let found := (List.range 17).findSome? fun (k : Nat) =>
    (i.onGrid? (first - k)).map fun count => (Nat.toDigits 10 count, first - k)
  let (digits, place) := found.getD (['0'], 0)
  let kept := (digits.reverse.dropWhile (· == '0')).reverse
  (kept, place + (digits.length - kept.length : Nat))

/-- The numeral of a double with at least one digit on each side of the point and
without exponent. -/
def positional (x : Double) : Numeral :=
  if x.code = 0 then ⟨x.negative, ['0'], ['0'], none⟩
  else
    let (digits, place) := (interval x.code).digits
    let point : Int := digits.length + place
    if 0 ≤ place then ⟨x.negative, digits ++ List.replicate place.toNat '0', ['0'], none⟩
    else if 0 < point then
      ⟨x.negative, digits.take point.toNat, digits.drop point.toNat, none⟩
    else ⟨x.negative, ['0'], List.replicate (-point).toNat '0' ++ digits, none⟩

/-- The numeral of a double. Magnitudes from `10 ^ -5` up to `10 ^ 16` are
written out, others with one digit before the point, no point when it would end
the number, and an exponent. -/
def numeral (x : Double) : Numeral :=
  let (digits, place) := (interval x.code).digits
  let point : Int := digits.length + place
  if x.code = 0 ∨ (-5 < point ∧ point ≤ 16) then x.positional
  else ⟨x.negative, digits.take 1, digits.drop 1, some (point - 1)⟩

end SetupLint.Double
