import TraceContainer.Numeric.Binary64

/-! The shortest decimal that reads back as a given binary64: on the coarsest decimal grid that
meets the interval of reals nearest to the number, the point closest to it. -/
namespace TraceContainer

/-- The reals that round to a number, with the number itself, as fractions over one scale. -/
structure Rounding where
  low : Nat
  value : Nat
  high : Nat
  scale : Nat
  /-- Whether the two ends round to the number as well. -/
  closed : Bool

/-- The significant digits of a decimal, first digit not zero, and the power of ten of the first. -/
structure Decimal where
  digits : List Char
  leading : Int

namespace Rounding

/-- The interval ends halfway to the neighbours; below a power of two the neighbour is half as
far. A tie goes to the even significand. -/
def ofBinary64 (number : Binary64) : Rounding :=
  let quarter := 2 ^ (number.exponent - 2).toNat
  let below := if number.significand = 2 ^ 52 ∧ number.exponent ≠ -1074 then 1 else 2
  { low := (4 * number.significand - below) * quarter
    value := 4 * number.significand * quarter
    high := (4 * number.significand + 2) * quarter
    scale := 2 ^ (2 - number.exponent).toNat
    closed := number.significand % 2 == 0 }

def contains (rounding : Rounding) (coefficient : Nat) (power : Int) : Bool :=
  let point := coefficient * 10 ^ power.toNat * rounding.scale
  let low := rounding.low * 10 ^ (-power).toNat
  let high := rounding.high * 10 ^ (-power).toNat
  if rounding.closed then low ≤ point && point ≤ high else low < point && point < high

/-- The coefficient of the point of a decimal grid that lies in the interval and closest to the
number; an even coefficient settles a tie. -/
def onGrid? (rounding : Rounding) (power : Int) : Option Nat :=
  let step := rounding.scale * 10 ^ power.toNat
  let value := rounding.value * 10 ^ (-power).toNat
  let below := value / step
  let nearest := Binary64.nearestEven value step
  let other := if nearest = below then below + 1 else below
  if rounding.contains nearest power then some nearest
  else if rounding.contains other power then some other
  else none

def leading (rounding : Rounding) : Int :=
  if rounding.scale ≤ rounding.value then
    ((Nat.toDigits 10 (rounding.value / rounding.scale)).length : Int) - 1
  else
    -((Nat.toDigits 10 ((rounding.scale - 1) / rounding.value)).length : Int)

/-- The coarsest grid with a point in the interval, and that point. Seventeen digits tell any two
numbers apart, so no finer grid is ever needed. -/
def coarsest (rounding : Rounding) : Nat × Int :=
  let finest := rounding.leading - 16
  ((List.range 17).findSome? fun (place : Nat) =>
      let power := rounding.leading - place
      (rounding.onGrid? power).map (·, power)).getD
    (rounding.value * 10 ^ (-finest).toNat / (rounding.scale * 10 ^ finest.toNat), finest)

end Rounding

namespace Decimal

def ofMultiple (coefficient : Nat) (power : Int) : Decimal :=
  let digits := Nat.toDigits 10 coefficient
  { digits := (digits.reverse.dropWhile (· == '0')).reverse
    leading := power + digits.length - 1 }

/-- The decimal with the fewest digits that reads back as the magnitude of a nonzero number. -/
def shortest (number : Binary64) : Decimal :=
  let (coefficient, power) := (Rounding.ofBinary64 number).coarsest
  ofMultiple coefficient power

def positional (decimal : Decimal) : List Char :=
  match decimal.leading with
  | .ofNat place =>
    let whole := decimal.digits.take (place + 1)
    let fraction := decimal.digits.drop (place + 1)
    whole ++ List.replicate (place + 1 - whole.length) '0' ++
      '.' :: (if fraction.isEmpty then ['0'] else fraction)
  | .negSucc zeros => '0' :: '.' :: List.replicate zeros '0' ++ decimal.digits

def scientific (decimal : Decimal) : List Char :=
  let rest := decimal.digits.drop 1
  decimal.digits.take 1 ++ (if rest.isEmpty then [] else '.' :: rest) ++
    'e' :: (if decimal.leading < 0 then '-' else '+') :: Nat.toDigits 10 decimal.leading.natAbs

end Decimal

/-- Which decimals are written positionally: those whose first digit stands in these places. -/
structure DecimalStyle where
  lowest : Int
  highest : Int

/-- A binary64 in a style, zero always as `0.0`, with a minus sign where the number has one. -/
def DecimalStyle.write (style : DecimalStyle) (number : Binary64) : List Char :=
  let magnitude :=
    if number.isZero then ['0', '.', '0']
    else
      let decimal := Decimal.shortest number
      if style.lowest ≤ decimal.leading ∧ decimal.leading ≤ style.highest then decimal.positional
      else decimal.scientific
  if number.negative then '-' :: magnitude else magnitude

end TraceContainer
