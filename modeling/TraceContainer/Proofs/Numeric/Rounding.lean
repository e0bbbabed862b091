import Mathlib.Algebra.Order.Field.Power
import Mathlib.Tactic.FieldSimp
import Mathlib.Tactic.Linarith
import Mathlib.Tactic.Positivity
import Mathlib.Tactic.Ring
import TraceContainer.Numeric.Shortest

/-! Rounding to binary64, over the rationals: every quotient in the interval of a number is rounded
to that number. -/
namespace TraceContainer

theorem zpow_eq_pow_div_pow (base : ℚ) (exponent : ℤ) :
    base ^ exponent = base ^ exponent.toNat / base ^ (-exponent).toNat := by
  rcases le_total 0 exponent with nonnegative | nonpositive
  · obtain ⟨size, rfl⟩ := Int.eq_ofNat_of_zero_le nonnegative
    simp
  · obtain ⟨size, same⟩ := Int.eq_ofNat_of_zero_le (Int.neg_nonneg_of_nonpos nonpositive)
    obtain rfl : exponent = -(size : ℤ) := by omega
    simp

theorem cast_mul_pow_le {factor base exponent otherFactor otherBase otherExponent : ℕ}
    (less : factor * base ^ exponent ≤ otherFactor * otherBase ^ otherExponent) :
    (factor : ℚ) * (base : ℚ) ^ exponent ≤ otherFactor * (otherBase : ℚ) ^ otherExponent := by
  exact_mod_cast less

/-- A quotient in units of a power of the base, as it is computed over the natural numbers. -/
theorem cast_div_scaled (numerator denominator base : ℕ) (exponent : ℤ) :
    ((numerator * base ^ (-exponent).toNat : ℕ) : ℚ) / (denominator * base ^ exponent.toNat : ℕ) =
      numerator / denominator / base ^ exponent := by
  rw [zpow_eq_pow_div_pow, div_div_eq_mul_div, div_mul_eq_mul_div, div_div]
  push_cast
  rfl

/-- The rationals of an interval: those between its ends, and the ends where it is closed. -/
def Rounding.Holds (rounding : Rounding) (value : ℚ) : Prop :=
  if rounding.closed then
    rounding.low / rounding.scale ≤ value ∧ value ≤ rounding.high / rounding.scale
  else rounding.low / rounding.scale < value ∧ value < rounding.high / rounding.scale

/-- A rational from one bound up to another: with both of these for an even integer, and with
neither for an odd one. -/
def ClosedIfEven (integer : ℕ) (low high value : ℚ) : Prop :=
  if integer % 2 = 0 then low ≤ value ∧ value ≤ high else low < value ∧ value < high

namespace ClosedIfEven

variable {integer : ℕ} {low lower high value : ℚ}

theorem weak (within : ClosedIfEven integer low high value) : low ≤ value ∧ value ≤ high := by
  rw [ClosedIfEven] at within
  split at within
  · exact within
  · exact ⟨within.1.le, within.2.le⟩

theorem of_strict (strict : low < value ∧ value < high) : ClosedIfEven integer low high value := by
  rw [ClosedIfEven]
  split
  · exact ⟨strict.1.le, strict.2.le⟩
  · exact strict

theorem mono (within : ClosedIfEven integer low high value) (less : lower ≤ low) :
    ClosedIfEven integer lower high value := by
  rw [ClosedIfEven] at within ⊢
  split <;> rename_i parity
  · rw [if_pos parity] at within
    exact ⟨less.trans within.1, within.2⟩
  · rw [if_neg parity] at within
    exact ⟨less.trans_lt within.1, within.2⟩

end ClosedIfEven

namespace Binary64

def magnitude (number : Binary64) : ℚ :=
  number.significand * 2 ^ number.exponent

theorem magnitude_eq (number : Binary64) :
    number.magnitude = number.numerator / number.denominator := by
  rw [magnitude, numerator, denominator, zpow_eq_pow_div_pow]
  push_cast
  ring

/-- The distance to the lower end of a number's interval, in units of its last place. -/
def below (number : Binary64) : ℚ :=
  if number.significand = 2 ^ 52 ∧ number.exponent ≠ -1074 then 1 / 4 else 1 / 2

theorem below_pos (number : Binary64) : 0 < number.below := by
  rw [below]
  split <;> norm_num

theorem below_le (number : Binary64) : number.below ≤ 1 / 2 := by
  rw [below]
  split <;> norm_num

private theorem quarter_div_scale (number : Binary64) :
    (2 : ℚ) ^ (number.exponent - 2).toNat / 2 ^ (2 - number.exponent).toNat =
      2 ^ number.exponent / 4 := by
  have powers := zpow_eq_pow_div_pow 2 (number.exponent - 2)
  rw [neg_sub] at powers
  rw [← powers, zpow_sub₀ two_ne_zero]
  norm_num

theorem scale_pos (number : Binary64) : 0 < (Rounding.ofBinary64 number).scale :=
  Nat.two_pow_pos _

theorem value_div_scale (number : Binary64) :
    ((Rounding.ofBinary64 number).value : ℚ) / (Rounding.ofBinary64 number).scale =
      number.magnitude := by
  simp only [Rounding.ofBinary64]
  push_cast
  rw [mul_div_assoc, quarter_div_scale, magnitude]
  ring

/-- The ends of a number's interval, in units of its last place. -/
theorem holds_ofBinary64_iff {number : Binary64} (nonzero : number.significand ≠ 0) {value : ℚ} :
    (Rounding.ofBinary64 number).Holds value ↔
      ClosedIfEven number.significand (number.significand - number.below)
        (number.significand + 1 / 2) (value / 2 ^ number.exponent) := by
  have unit : (0 : ℚ) < 2 ^ number.exponent := by positivity
  have low : ((Rounding.ofBinary64 number).low : ℚ) / (Rounding.ofBinary64 number).scale =
      (number.significand - number.below) * 2 ^ number.exponent := by
    simp only [Rounding.ofBinary64, below]
    split <;>
    · rw [Nat.cast_mul, Nat.cast_sub (by omega)]
      push_cast
      rw [mul_div_assoc, quarter_div_scale]
      ring
  have high : ((Rounding.ofBinary64 number).high : ℚ) / (Rounding.ofBinary64 number).scale =
      (number.significand + 1 / 2) * 2 ^ number.exponent := by
    simp only [Rounding.ofBinary64]
    push_cast
    rw [mul_div_assoc, quarter_div_scale]
    ring
  rw [Rounding.Holds, low, high, ClosedIfEven, le_div_iff₀ unit, div_le_iff₀ unit,
    lt_div_iff₀ unit, div_lt_iff₀ unit]
  simp only [Rounding.ofBinary64, beq_iff_eq]

theorem holds_magnitude {number : Binary64} (nonzero : number.significand ≠ 0) :
    (Rounding.ofBinary64 number).Holds number.magnitude := by
  have unit : (2 : ℚ) ^ number.exponent ≠ 0 := by positivity
  have above := number.below_pos
  rw [holds_ofBinary64_iff nonzero, magnitude, mul_div_cancel_right₀ _ unit]
  exact .of_strict ⟨by linarith, by linarith⟩

theorem nearestEven_near {numerator denominator : ℕ} (positive : 0 < denominator) :
    (nearestEven numerator denominator : ℚ) - 1 / 2 ≤ numerator / denominator ∧
      (numerator : ℚ) / denominator ≤ nearestEven numerator denominator + 1 / 2 := by
  have parts := Nat.div_add_mod' numerator denominator
  have small := Nat.mod_lt numerator positive
  have near : 2 * (nearestEven numerator denominator * denominator) ≤
        2 * numerator + denominator ∧
      2 * numerator ≤ 2 * (nearestEven numerator denominator * denominator) + denominator := by
    rw [nearestEven]
    split
    · omega
    · rw [Nat.add_one_mul (numerator / denominator)]
      omega
  have scale : (0 : ℚ) < denominator := Nat.cast_pos.mpr positive
  have low : (2 * (nearestEven numerator denominator * denominator) : ℚ) ≤
      2 * numerator + denominator := by exact_mod_cast near.1
  have high : (2 * numerator : ℚ) ≤
      2 * (nearestEven numerator denominator * denominator) + denominator := by
    exact_mod_cast near.2
  rw [le_div_iff₀ scale, div_le_iff₀ scale]
  constructor <;> linarith

/-- An integer no further from a quotient than one half is the nearest, if it is even where it is
exactly so far. -/
theorem nearestEven_eq {numerator denominator nearest : ℕ} (positive : 0 < denominator)
    (low : 2 * (nearest * denominator) ≤ 2 * numerator + denominator)
    (high : 2 * numerator ≤ 2 * (nearest * denominator) + denominator)
    (tie : nearest % 2 = 1 → 2 * (nearest * denominator) < 2 * numerator + denominator ∧
      2 * numerator < 2 * (nearest * denominator) + denominator) :
    nearestEven numerator denominator = nearest := by
  have parts := Nat.div_add_mod' numerator denominator
  have small := Nat.mod_lt numerator positive
  have notLess : numerator / denominator ≤ nearest := by
    by_contra less
    have step := Nat.mul_le_mul_right denominator (Nat.lt_of_not_le less)
    rw [Nat.succ_mul] at step
    omega
  have notMore : nearest ≤ numerator / denominator + 1 := by
    by_contra more
    have step := Nat.mul_le_mul_right denominator (Nat.lt_of_not_le more)
    rw [Nat.succ_mul, Nat.succ_mul] at step
    omega
  rw [nearestEven]
  rcases Nat.le_or_eq_of_le_succ notMore with least | greatest
  · obtain rfl : nearest = numerator / denominator := Nat.le_antisymm least notLess
    rw [if_pos (by omega)]
  · subst greatest
    rw [Nat.succ_eq_add_one, Nat.add_one_mul (numerator / denominator)] at low high tie
    rw [if_neg (by omega)]

theorem nearestEven_eq_of_div {numerator denominator nearest : ℕ} (positive : 0 < denominator)
    (within : ClosedIfEven nearest (nearest - 1 / 2) (nearest + 1 / 2) (numerator / denominator)) :
    nearestEven numerator denominator = nearest := by
  have scale : (0 : ℚ) < denominator := Nat.cast_pos.mpr positive
  obtain ⟨low, high⟩ := within.weak
  rw [le_div_iff₀ scale] at low
  rw [div_le_iff₀ scale] at high
  have lowCleared : (2 * (nearest * denominator) : ℚ) ≤ 2 * numerator + denominator := by linarith
  have highCleared : (2 * numerator : ℚ) ≤ 2 * (nearest * denominator) + denominator := by linarith
  refine nearestEven_eq positive (by exact_mod_cast lowCleared) (by exact_mod_cast highCleared)
    fun odd => ?_
  rw [ClosedIfEven, if_neg (by omega), lt_div_iff₀ scale, div_lt_iff₀ scale] at within
  obtain ⟨less, more⟩ := within
  have below : (2 * (nearest * denominator) : ℚ) < 2 * numerator + denominator := by linarith
  have above : (2 * numerator : ℚ) < 2 * (nearest * denominator) + denominator := by linarith
  exact ⟨by exact_mod_cast below, by exact_mod_cast above⟩

private theorem log2_div {numerator denominator : ℕ} (numeratorPos : 0 < numerator)
    (denominatorPos : 0 < denominator) :
    (2 : ℚ) ^ ((numerator.log2 : ℤ) - denominator.log2 - 1) < numerator / denominator ∧
      (numerator : ℚ) / denominator < 2 ^ ((numerator.log2 : ℤ) - denominator.log2 + 1) := by
  have bounds {number : ℕ} (positive : 0 < number) :
      (2 : ℚ) ^ (number.log2 : ℤ) ≤ number ∧ (number : ℚ) < 2 ^ ((number.log2 : ℤ) + 1) := by
    have least := Nat.log2_self_le (Nat.ne_of_gt positive)
    have most := @Nat.lt_log2_self number
    exact ⟨by exact_mod_cast least, by exact_mod_cast most⟩
  obtain ⟨numeratorLow, numeratorHigh⟩ := bounds numeratorPos
  obtain ⟨denominatorLow, denominatorHigh⟩ := bounds denominatorPos
  have scale : (0 : ℚ) < denominator := Nat.cast_pos.mpr denominatorPos
  constructor
  · rw [lt_div_iff₀ scale]
    calc (2 : ℚ) ^ ((numerator.log2 : ℤ) - denominator.log2 - 1) * denominator
        < 2 ^ ((numerator.log2 : ℤ) - denominator.log2 - 1) * 2 ^ ((denominator.log2 : ℤ) + 1) := by
          gcongr
      _ = 2 ^ (numerator.log2 : ℤ) := by
          rw [← zpow_add₀ two_ne_zero]
          congr 1
          ring
      _ ≤ numerator := numeratorLow
  · rw [div_lt_iff₀ scale]
    calc (numerator : ℚ) < 2 ^ ((numerator.log2 : ℤ) + 1) := numeratorHigh
      _ = 2 ^ ((numerator.log2 : ℤ) - denominator.log2 + 1) * 2 ^ (denominator.log2 : ℤ) := by
          rw [← zpow_add₀ two_ne_zero]
          congr 1
          ring
      _ ≤ 2 ^ ((numerator.log2 : ℤ) - denominator.log2 + 1) * denominator := by gcongr

private theorem exists_exactUnit {numerator denominator : ℕ} (numeratorPos : 0 < numerator)
    (denominatorPos : 0 < denominator) :
    ∃ exact, unitExponent numerator denominator = max (-1074) exact ∧
      (2 : ℚ) ^ 52 * 2 ^ exact ≤ numerator / denominator ∧
      (numerator : ℚ) / denominator < 2 ^ 53 * 2 ^ exact := by
  obtain ⟨low, high⟩ := log2_div numeratorPos denominatorPos
  have scaled (bits : ℕ) (place : ℤ) : (2 : ℚ) ^ (bits + place) = 2 ^ bits * 2 ^ place := by
    rw [zpow_add₀ two_ne_zero, zpow_natCast]
  have short_iff (estimate : ℤ) :
      numerator * 2 ^ (-estimate).toNat < 2 ^ 52 * (denominator * 2 ^ estimate.toNat) ↔
        (numerator : ℚ) / denominator < 2 ^ 52 * 2 ^ estimate := by
    have quotient := cast_div_scaled numerator denominator 2 estimate
    rw [Nat.cast_ofNat] at quotient
    rw [← div_lt_iff₀ (by positivity), ← quotient, div_lt_iff₀ (by positivity)]
    norm_cast
  refine ⟨_, rfl, ?_⟩
  split
  · rename_i short
    rw [short_iff] at short
    rw [← scaled 52, show ((52 : ℕ) : ℤ) + ((numerator.log2 : ℤ) - denominator.log2 - 52 - 1) =
      (numerator.log2 : ℤ) - denominator.log2 - 1 by omega]
    refine ⟨low.le, short.trans_eq ?_⟩
    rw [← scaled, ← scaled]
    congr 1
    omega
  · rename_i long
    rw [short_iff, not_lt] at long
    rw [← scaled 53, show ((53 : ℕ) : ℤ) + ((numerator.log2 : ℤ) - denominator.log2 - 52) =
      (numerator.log2 : ℤ) - denominator.log2 + 1 by omega]
    exact ⟨long, high⟩

/-- The unit leaves less than `2 ^ 53` of a quotient, and no less than `2 ^ 52` unless it is the
least unit. -/
theorem unitExponent_spec {numerator denominator : ℕ} (numeratorPos : 0 < numerator)
    (denominatorPos : 0 < denominator) :
    (numerator : ℚ) / denominator < 2 ^ 53 * 2 ^ unitExponent numerator denominator ∧
      -1074 ≤ unitExponent numerator denominator ∧
      (unitExponent numerator denominator = -1074 ∨
        2 ^ 52 * 2 ^ unitExponent numerator denominator ≤ (numerator : ℚ) / denominator) := by
  obtain ⟨exact, unit, low, high⟩ := exists_exactUnit numeratorPos denominatorPos
  rw [unit]
  rcases le_total exact (-1074) with least | more
  · rw [max_eq_left least]
    refine ⟨high.trans_le ?_, le_rfl, .inl rfl⟩
    gcongr
    norm_num
  · rw [max_eq_right more]
    exact ⟨high, more, .inr low⟩

theorem of?_parts (number : Binary64) (negative : Bool) :
    of? negative number.significand number.exponent = some (number.withSign negative) := by
  rw [of?, dif_pos number.bounded, dif_pos number.normal]
  rfl

private theorem zpow_shift (exponent places : ℤ) :
    (2 : ℚ) ^ (exponent + places) = 2 ^ places * 2 ^ exponent := by
  rw [zpow_add₀ two_ne_zero, mul_comm]

/-- No number in the interval of a number needs a greater unit. -/
private theorem unit_le {number : Binary64} {value : ℚ} {unit : ℤ}
    (high : value ≤ (number.significand + 1 / 2) * 2 ^ number.exponent)
    (many : unit = -1074 ∨ 2 ^ 52 * 2 ^ unit ≤ value) : unit ≤ number.exponent := by
  obtain ⟨small, exponentLow, _⟩ := number.bounded
  by_contra more
  have enough := many.resolve_left (by omega)
  have fine : (2 : ℚ) ^ (number.exponent + 1) ≤ 2 ^ unit :=
    zpow_le_zpow_right₀ one_le_two (by omega)
  rw [zpow_shift, zpow_one] at fine
  have scale : (0 : ℚ) < 2 ^ number.exponent := by positivity
  have whole : (number.significand : ℚ) + 1 ≤ 2 ^ 53 := by exact_mod_cast small
  have most : ((number.significand : ℚ) + 1 / 2) * 2 ^ number.exponent <
      2 ^ 53 * 2 ^ number.exponent := mul_lt_mul_of_pos_right (by linarith) scale
  linarith

/-- One that needs a smaller unit lies below a power of two, and the unit is the next smaller. -/
private theorem power_of_unit_lt {number : Binary64} {value : ℚ} {unit : ℤ}
    (low : (number.significand - number.below) * 2 ^ number.exponent ≤ value)
    (few : value < 2 ^ 53 * 2 ^ unit) (least : -1074 ≤ unit) (less : unit < number.exponent) :
    number.significand = 2 ^ 52 ∧ unit = number.exponent - 1 ∧ number.below = 1 / 4 := by
  have scale : (0 : ℚ) < 2 ^ number.exponent := by positivity
  have significant := number.normal.resolve_left (by omega)
  have coarse : (2 : ℚ) ^ unit ≤ 2 ^ (number.exponent + -1) :=
    zpow_le_zpow_right₀ one_le_two (by omega)
  rw [zpow_shift] at coarse
  have bound : (number.significand : ℚ) - number.below < 2 ^ 52 := by
    refine lt_of_mul_lt_mul_right ?_ scale.le
    calc ((number.significand : ℚ) - number.below) * 2 ^ number.exponent ≤ value := low
      _ < 2 ^ 53 * 2 ^ unit := few
      _ ≤ 2 ^ 53 * (2 ^ (-1 : ℤ) * 2 ^ number.exponent) := by gcongr
      _ = 2 ^ 52 * 2 ^ number.exponent := by ring
  have power : number.significand = 2 ^ 52 := by
    have half := number.below_le
    have next : (number.significand : ℚ) < (2 ^ 52 + 1 : ℕ) := by
      push_cast
      linarith
    exact Nat.le_antisymm (Nat.le_of_lt_succ (Nat.cast_lt.mp next)) significant
  have quarter : number.below = 1 / 4 := if_pos ⟨power, by omega⟩
  refine ⟨power, ?_, quarter⟩
  by_contra other
  have coarser : (2 : ℚ) ^ unit ≤ 2 ^ (number.exponent + -2) :=
    zpow_le_zpow_right₀ one_le_two (by omega)
  rw [zpow_shift] at coarser
  rw [power, quarter] at low
  norm_num at coarser low few
  linarith

theorem within_of_holds {number : Binary64} (nonzero : number.significand ≠ 0) {value : ℚ}
    (holds : (Rounding.ofBinary64 number).Holds value) :
    number.significand - number.below ≤ value / 2 ^ number.exponent ∧
      value / 2 ^ number.exponent ≤ number.significand + 1 / 2 :=
  ((holds_ofBinary64_iff nonzero).mp holds).weak

theorem pos_of_holds {number : Binary64} (nonzero : number.significand ≠ 0) {value : ℚ}
    (holds : (Rounding.ofBinary64 number).Holds value) : 0 < value := by
  have scale : (0 : ℚ) < 2 ^ number.exponent := by positivity
  have one : (1 : ℚ) ≤ number.significand := by exact_mod_cast Nat.one_le_iff_ne_zero.mpr nonzero
  have half := number.below_le
  obtain ⟨low, _⟩ := within_of_holds nonzero holds
  have positive : 0 < value / 2 ^ number.exponent := by linarith
  exact (div_pos_iff_of_pos_right scale).mp positive

/-- Nothing in the interval of a number is more than twice the number. -/
theorem le_of_holds {number : Binary64} (nonzero : number.significand ≠ 0) {value : ℚ}
    (holds : (Rounding.ofBinary64 number).Holds value) : value ≤ 2 * number.magnitude := by
  have scale : (0 : ℚ) < 2 ^ number.exponent := by positivity
  have one : (1 : ℚ) ≤ number.significand := by exact_mod_cast Nat.one_le_iff_ne_zero.mpr nonzero
  obtain ⟨_, high⟩ := within_of_holds nonzero holds
  rw [div_le_iff₀ scale] at high
  calc value ≤ (number.significand + 1 / 2) * 2 ^ number.exponent := high
    _ ≤ 2 * number.significand * 2 ^ number.exponent := by gcongr; linarith
    _ = 2 * number.magnitude := by rw [magnitude, mul_assoc]

private theorem nearestEven_scaled {numerator denominator nearest : ℕ} {unit : ℤ}
    (positive : 0 < denominator) (within : ClosedIfEven nearest (nearest - 1 / 2) (nearest + 1 / 2)
      ((numerator : ℚ) / denominator / 2 ^ unit)) :
    nearestEven (numerator * 2 ^ (-unit).toNat) (denominator * 2 ^ unit.toNat) = nearest := by
  have quotient := cast_div_scaled numerator denominator 2 unit
  rw [Nat.cast_ofNat] at quotient
  refine nearestEven_eq_of_div (by positivity) ?_
  rwa [quotient]

/-- Every quotient in the interval of a number is rounded to it. -/
theorem ofQuotient?_of_holds {number : Binary64} (nonzero : number.significand ≠ 0)
    {numerator denominator : ℕ} (positive : 0 < denominator)
    (holds : (Rounding.ofBinary64 number).Holds (numerator / denominator)) (negative : Bool) :
    ofQuotient? negative numerator denominator = some (number.withSign negative) := by
  have scale : (0 : ℚ) < denominator := Nat.cast_pos.mpr positive
  have numeratorPos : 0 < numerator :=
    Nat.cast_pos.mp ((div_pos_iff_of_pos_right scale).mp (pos_of_holds nonzero holds))
  obtain ⟨few, least, many⟩ := unitExponent_spec numeratorPos positive
  obtain ⟨low, high⟩ := within_of_holds nonzero holds
  have unitPos : (0 : ℚ) < 2 ^ number.exponent := by positivity
  have below := number.below_le
  rw [ofQuotient?, if_neg (Nat.ne_of_gt numeratorPos)]
  rcases (unit_le ((div_le_iff₀ unitPos).mp high) many).eq_or_lt with same | less
  · have rounded := nearestEven_scaled positive
      (((holds_ofBinary64_iff nonzero).mp holds).mono (by linarith))
    simp only [same, rounded]
    rw [if_neg (Nat.ne_of_lt number.bounded.1), of?_parts]
  · -- Half a unit below a power of two, which the carry brings up to it.
    obtain ⟨power, next, quarter⟩ :=
      power_of_unit_lt ((le_div_iff₀ unitPos).mp low) few least less
    have doubled : (numerator : ℚ) / denominator / 2 ^ (number.exponent - 1) =
        2 * (numerator / denominator / 2 ^ number.exponent) := by
      rw [zpow_sub₀ two_ne_zero, zpow_one]
      ring
    have rounded : nearestEven (numerator * 2 ^ (-(number.exponent - 1)).toNat)
        (denominator * 2 ^ (number.exponent - 1).toNat) = 2 ^ 53 := by
      refine nearestEven_scaled positive ?_
      rw [ClosedIfEven, if_pos (by decide), doubled]
      rw [next] at few
      rw [power, quarter] at low
      have carried := (div_lt_iff₀ (by positivity)).mpr few
      rw [doubled] at carried
      push_cast at low ⊢
      constructor <;> linarith
    simp only [next, rounded, if_true]
    rw [sub_add_cancel, ← power, of?_parts]

/-- A quotient that a number is equal to is not changed by rounding. -/
theorem ofQuotient?_of_magnitude {number : Binary64} (nonzero : number.significand ≠ 0)
    {numerator denominator : ℕ} (positive : 0 < denominator)
    (exact : (numerator : ℚ) / denominator = number.magnitude) (negative : Bool) :
    ofQuotient? negative numerator denominator = some (number.withSign negative) :=
  ofQuotient?_of_holds nonzero positive (exact ▸ holds_magnitude nonzero) negative

/-- Few binary digits with zeros behind them are a number. -/
theorem exists_magnitude {digits zeros : ℕ} (positive : 0 < digits) (few : digits < 2 ^ 53)
    (small : zeros ≤ 971) : ∃ number : Binary64, number.negative = false ∧
      number.significand ≠ 0 ∧ number.magnitude = digits * 2 ^ zeros := by
  have least := Nat.log2_self_le (Nat.ne_of_gt positive)
  have most := @Nat.lt_log2_self digits
  have length : digits.log2 < 53 := (Nat.log2_lt (Nat.ne_of_gt positive)).mpr few
  have low : 2 ^ 52 ≤ digits * 2 ^ (52 - digits.log2) := by
    calc 2 ^ 52 = 2 ^ digits.log2 * 2 ^ (52 - digits.log2) := by
          rw [← Nat.pow_add]
          congr 1
          omega
      _ ≤ digits * 2 ^ (52 - digits.log2) := Nat.mul_le_mul_right _ least
  have high : digits * 2 ^ (52 - digits.log2) < 2 ^ 53 := by
    calc digits * 2 ^ (52 - digits.log2) < 2 ^ (digits.log2 + 1) * 2 ^ (52 - digits.log2) :=
          Nat.mul_lt_mul_of_pos_right most (Nat.two_pow_pos _)
      _ = 2 ^ 53 := by
          rw [← Nat.pow_add]
          congr 1
          omega
  refine ⟨⟨false, digits * 2 ^ (52 - digits.log2), zeros - (52 - digits.log2 : ℕ),
    ⟨high, by omega, by omega⟩, .inr low⟩, rfl,
    Nat.ne_of_gt (Nat.lt_of_lt_of_le (by decide) low), ?_⟩
  rw [magnitude, zpow_sub₀ two_ne_zero, zpow_natCast, zpow_natCast]
  push_cast
  field_simp

theorem ofNat?_of_magnitude {number : Binary64} (nonnegative : number.negative = false)
    (nonzero : number.significand ≠ 0) {integer : ℕ} (exact : number.magnitude = integer) :
    ofNat? integer = some number := by
  rw [ofNat?, ofQuotient?_of_magnitude nonzero Nat.one_pos (by rw [exact, Nat.cast_one, div_one]),
    withSign, ← nonnegative]

theorem numerator_pos {number : Binary64} (nonzero : number.significand ≠ 0) :
    0 < number.numerator :=
  Nat.mul_pos (Nat.pos_of_ne_zero nonzero) (Nat.two_pow_pos _)

theorem denominator_pos (number : Binary64) : 0 < number.denominator :=
  Nat.two_pow_pos _

theorem mul?_of_holds {left right number : Binary64} (nonzero : number.significand ≠ 0)
    (holds : (Rounding.ofBinary64 number).Holds (left.magnitude * right.magnitude)) :
    left.mul? right = some (number.withSign (left.negative != right.negative)) := by
  refine ofQuotient?_of_holds nonzero
    (Nat.mul_pos left.denominator_pos right.denominator_pos) ?_ _
  rw [magnitude_eq, magnitude_eq, div_mul_div_comm] at holds
  push_cast
  exact holds

theorem div?_of_holds {left right number : Binary64} (nonzero : number.significand ≠ 0)
    (divisor : right.significand ≠ 0)
    (holds : (Rounding.ofBinary64 number).Holds (left.magnitude / right.magnitude)) :
    left.div? right = some (number.withSign (left.negative != right.negative)) := by
  refine ofQuotient?_of_holds nonzero
    (Nat.mul_pos left.denominator_pos (numerator_pos divisor)) ?_ _
  rw [magnitude_eq, magnitude_eq, div_div_div_eq] at holds
  push_cast
  exact holds

end Binary64

end TraceContainer
