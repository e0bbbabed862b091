import TraceContainer.Json.Basic
import TraceContainer.Numeric.Shortest

/-! How JSON text spells numbers. Integers of 64 bits are kept exactly. Any other number is read
in binary64 from the leading digits that fit a word, scaled by one rounded power of ten; it is
written with the fewest digits that determine it. -/
namespace TraceContainer

/-- The parts of a number's spelling: its sign, the digits before and after the point, and the
power of ten behind `e`. -/
structure Numeral where
  negative : Bool
  whole : List Char
  fraction : Option (List Char)
  exponent : Option Int

namespace Numeral

def readFraction? : List Char → Option (Option (List Char) × List Char)
  | '.' :: rest =>
    let digits := rest.takeWhile Char.isDigit
    if digits.isEmpty then none else some (some digits, rest.dropWhile Char.isDigit)
  | text => some (none, text)

def readSign : List Char → Bool × List Char
  | '-' :: rest => (true, rest)
  | '+' :: rest => (false, rest)
  | text => (false, text)

def readExponent? : List Char → Option (Option Int)
  | [] => some none
  | mark :: rest =>
    let (negative, digits) := readSign rest
    if (mark = 'e' ∨ mark = 'E') ∧ digits ≠ [] ∧ digits.all Char.isDigit then
      let size : Int := Nat.ofDigitChars 10 digits 0
      some (some (if negative then -size else size))
    else none

/-- The parts of a spelling: no plus sign and no needless zero in front, and a digit on each side
of a point and behind `e`. -/
def ofChars? (text : List Char) : Option Numeral := do
  let (negative, text) := match text with
    | '-' :: rest => (true, rest)
    | _ => (false, text)
  let whole := text.takeWhile Char.isDigit
  if whole.isEmpty ∨ whole.head? = some '0' ∧ whole.length ≠ 1 then none
  let (fraction, text) ← readFraction? (text.dropWhile Char.isDigit)
  let exponent ← readExponent? text
  return { negative, whole, fraction, exponent }

/-- Takes digits into a significand while it fits a word. The first digit that does not fit is
left out with all behind it; the second part counts these. -/
def absorb (significand : Nat) : List Char → Nat × Nat
  | [] => (significand, 0)
  | digit :: rest =>
    let next := 10 * significand + (digit.toNat - '0'.toNat)
    if next < 2 ^ 64 then absorb next rest else (significand, rest.length + 1)

/-- A significand times a power of ten, in binary64. The significand is rounded first; then it is
multiplied or divided by the rounded power, below `10 ^ -308` in two divisions. -/
def scale? (significand : Nat) (power : Int) : Option Binary64 := do
  let start ← Binary64.ofNat? significand
  if start.isZero then return start
  if 308 < power then none
  if 0 ≤ power then start.mul? (← Binary64.ofNat? (10 ^ power.toNat))
  else if -308 ≤ power then start.div? (← Binary64.ofNat? (10 ^ (-power).toNat))
  else if -616 ≤ power then
    let smaller ← start.div? (← Binary64.ofNat? (10 ^ 308))
    smaller.div? (← Binary64.ofNat? (10 ^ (-power - 308).toNat))
  else return Binary64.zero false

def real? (numeral : Numeral) : Option Binary64 :=
  let (whole, left) := absorb 0 numeral.whole
  let fraction := numeral.fraction.getD []
  let (significand, ignored) := absorb whole fraction
  let taken : Int := (fraction.length - ignored : Nat)
  (scale? significand (left - taken + numeral.exponent.getD 0)).map
    (·.withSign numeral.negative)

/-- A spelling without point and exponent is an integer if it fits a word. Minus zero is none. -/
def integer? (numeral : Numeral) : Option Int :=
  if numeral.fraction.isSome ∨ numeral.exponent.isSome then none
  else match numeral.negative, Nat.ofDigitChars 10 numeral.whole 0 with
    | false, size => some size
    | true, 0 => none
    | true, size + 1 => some (-(size + 1))

def number? (numeral : Numeral) : Option Number :=
  match numeral.integer? with
  | none => numeral.real?.map .real
  | some value =>
    if fits : -2 ^ 63 ≤ value ∧ value < 2 ^ 64 then some (.integer value fits)
    else numeral.real?.map .real

end Numeral

namespace Number

/-- Positional from `0.00001` up to sixteen digits before the point. -/
def style : DecimalStyle :=
  { lowest := -5, highest := 15 }

def ofChars? (text : List Char) : Option Number := do
  (← Numeral.ofChars? text).number?

def spelling : Number → List Char
  | .integer value _ =>
    if value < 0 then '-' :: Nat.toDigits 10 value.natAbs else Nat.toDigits 10 value.natAbs
  | .real value => style.write value

end Number

end TraceContainer
