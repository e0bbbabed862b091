import TraceContainer.Binary

/-! Finite binary64 numbers with exact arithmetic: a product or a quotient is formed over the
natural numbers and then rounded once, to nearest and to even between two equally near. -/
namespace TraceContainer

/-- A sign, a significand of at most 53 bits and a power of two; each number has one such form. -/
structure Binary64 where
  negative : Bool
  significand : Nat
  exponent : Int
  bounded : significand < 2 ^ 53 ∧ -1074 ≤ exponent ∧ exponent ≤ 971
  normal : exponent = -1074 ∨ 2 ^ 52 ≤ significand
  deriving DecidableEq

namespace Binary64

def of? (negative : Bool) (significand : Nat) (exponent : Int) : Option Binary64 :=
  if bounded : significand < 2 ^ 53 ∧ -1074 ≤ exponent ∧ exponent ≤ 971 then
    if normal : exponent = -1074 ∨ 2 ^ 52 ≤ significand then
      some ⟨negative, significand, exponent, bounded, normal⟩
    else none
  else none

def zero (negative : Bool) : Binary64 :=
  ⟨negative, 0, -1074, by decide, .inl rfl⟩

def isZero (number : Binary64) : Bool :=
  number.significand == 0

def withSign (number : Binary64) (negative : Bool) : Binary64 :=
  { number with negative }

/-- The interchange format: sign, biased exponent, then the significand without its leading bit. -/
def toBits (number : Binary64) : Nat :=
  (if number.negative then 2 ^ 63 else 0) + (number.exponent + 1074).toNat * 2 ^ 52 +
    number.significand

def numerator (number : Binary64) : Nat :=
  number.significand * 2 ^ number.exponent.toNat

def denominator (number : Binary64) : Nat :=
  2 ^ (-number.exponent).toNat

/-- The integer nearest to a quotient, the even one of two equally near. -/
def nearestEven (numerator denominator : Nat) : Nat :=
  let whole := numerator / denominator
  let rest := 2 * (numerator % denominator)
  if rest < denominator ∨ rest = denominator ∧ whole % 2 = 0 then whole else whole + 1

/-- The power of two that leaves 53 bits before the point of a quotient, but never a power below
that of the least positive number. -/
def unitExponent (numerator denominator : Nat) : Int :=
  let estimate : Int := (numerator.log2 : Int) - denominator.log2 - 52
  let short := numerator * 2 ^ (-estimate).toNat < 2 ^ 52 * (denominator * 2 ^ estimate.toNat)
  max (-1074) (if short then estimate - 1 else estimate)

/-- The number nearest to a quotient; none if that lies past the largest one. -/
def ofQuotient? (negative : Bool) (numerator denominator : Nat) : Option Binary64 :=
  if numerator = 0 then some (zero negative)
  else
    let unit := unitExponent numerator denominator
    let significand :=
      nearestEven (numerator * 2 ^ (-unit).toNat) (denominator * 2 ^ unit.toNat)
    if significand = 2 ^ 53 then of? negative (2 ^ 52) (unit + 1)
    else of? negative significand unit

def ofNat? (number : Nat) : Option Binary64 :=
  ofQuotient? false number 1

def mul? (left right : Binary64) : Option Binary64 :=
  ofQuotient? (left.negative != right.negative) (left.numerator * right.numerator)
    (left.denominator * right.denominator)

def div? (left right : Binary64) : Option Binary64 :=
  ofQuotient? (left.negative != right.negative) (left.numerator * right.denominator)
    (left.denominator * right.numerator)

end Binary64

end TraceContainer
