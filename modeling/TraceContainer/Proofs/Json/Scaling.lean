import TraceContainer.Proofs.Numeric.RoundingError
import TraceContainer.Json.Numeral

/-! Integers that are scaled by powers of ten: exactly with a single rounding if both are numbers,
and always with little error. -/
namespace TraceContainer

namespace Numeral

private theorem exists_ten {count : ℕ} (small : count ≤ 22) : ∃ ten : Binary64,
    ten.negative = false ∧ ten.significand ≠ 0 ∧ ten.magnitude = 10 ^ count ∧
      Binary64.ofNat? (10 ^ count) = some ten := by
  have few : 5 ^ count < 2 ^ 53 :=
    Nat.lt_of_le_of_lt (Nat.pow_le_pow_right (by decide) small) (by decide)
  obtain ⟨ten, nonnegative, nonzero, same⟩ :=
    Binary64.exists_magnitude (Nat.pow_pos (by decide)) few (by omega : count ≤ 971)
  have exact : ten.magnitude = (10 ^ count : ℕ) := by
    rw [same]
    push_cast
    rw [← mul_pow]
    norm_num
  refine ⟨ten, nonnegative, nonzero, by exact_mod_cast exact, ?_⟩
  exact Binary64.ofNat?_of_magnitude nonnegative nonzero exact

/-- A coefficient that is a number is scaled by a power of ten that is one with one rounding. -/
theorem scale?_of_holds {size : ℕ} {power : ℤ} {start number : Binary64}
    (nonnegative : start.negative = false) (startNonzero : start.significand ≠ 0)
    (exact : start.magnitude = size) (near : -22 ≤ power ∧ power ≤ 22)
    (nonzero : number.significand ≠ 0)
    (holds : (Rounding.ofBinary64 number).Holds (size * 10 ^ power)) :
    scale? size power = some (number.withSign false) := by
  have read := Binary64.ofNat?_of_magnitude nonnegative startNonzero exact
  have notZero : start.isZero = false := beq_eq_false_iff_ne.mpr startNonzero
  rw [← exact] at holds
  rw [scale?, read, Option.bind_eq_bind, Option.bind_some]
  simp only [notZero, Bool.false_eq_true, if_false, if_neg (show ¬ 308 < power by omega)]
  rcases le_or_gt 0 power with up | down
  · obtain ⟨count, rfl⟩ := Int.eq_ofNat_of_zero_le up
    obtain ⟨ten, tenNonnegative, _, same, power⟩ := exists_ten (show count ≤ 22 by omega)
    rw [zpow_natCast, ← same] at holds
    have product := Binary64.mul?_of_holds nonzero holds
    rw [nonnegative, tenNonnegative] at product
    rw [if_pos up, Int.toNat_natCast, power, Option.bind_some, product]
    rfl
  · obtain ⟨count, rfl⟩ := Int.exists_eq_neg_ofNat down.le
    obtain ⟨ten, tenNonnegative, tenNonzero, same, power⟩ := exists_ten (show count ≤ 22 by omega)
    rw [zpow_neg, zpow_natCast, ← same, ← div_eq_mul_inv] at holds
    have quotient := Binary64.div?_of_holds nonzero tenNonzero holds
    rw [nonnegative, tenNonnegative] at quotient
    rw [if_neg (by omega), if_pos (by omega), neg_neg, Int.toNat_natCast, power, Option.bind_some,
      quotient]
    rfl

private theorem pow_lt_limit : (10 : ℚ) ^ 308 < Binary64.limit := by
  have sizes := @cast_mul_pow_le 1 10 308 (2 ^ 53 - 1) 2 971 (by decide +kernel)
  have less : ((2 ^ 53 - 1 : ℕ) : ℚ) < 2 ^ 53 - 1 / 2 := by norm_num
  rw [Nat.cast_one, one_mul, Nat.cast_ofNat, Nat.cast_ofNat] at sizes
  rw [Binary64.limit, show (971 : ℤ) = (971 : ℕ) from rfl, zpow_natCast]
  exact sizes.trans_lt (mul_lt_mul_of_pos_right less (by positivity))

private theorem word_lt_limit {value : ℚ} (word : value ≤ 2 ^ 65) : value * 2 < Binary64.limit := by
  have power : (10 : ℚ) ^ 20 ≤ 10 ^ 308 := pow_le_pow_right₀ (by norm_num) (by norm_num)
  refine lt_of_le_of_lt ?_ pow_lt_limit
  generalize (10 : ℚ) ^ 308 = last at power ⊢
  linarith

private theorem exists_integer {integer : ℕ} (positive : 0 < integer)
    (small : (integer : ℚ) < Binary64.limit) : ∃ number, Binary64.ofNat? integer = some number ∧
      number.significand ≠ 0 ∧ Close (1 / 2 ^ 53) integer number.magnitude := by
  have one : (1 : ℚ) ≤ integer := by exact_mod_cast positive
  have least : (2 : ℚ) ^ (-1075 : ℤ) ≤ 1 / 2 ^ 53 := by
    rw [zpow_neg, one_div, ← zpow_natCast]
    exact inv_anti₀ (by positivity) (zpow_le_zpow_right₀ one_le_two (by norm_num))
  obtain ⟨number, found, rounded⟩ := Binary64.exists_ofNat? positive small
  have close := rounded.close (by linarith) le_rfl
    (least.trans (le_mul_of_one_le_left (by norm_num) one))
  exact ⟨number, found,
    Binary64.significand_ne_zero_of_pos (close.pos (by linarith) (by norm_num)), close⟩

private theorem exists_power {count : ℕ} (small : count ≤ 308) :
    ∃ ten, Binary64.ofNat? (10 ^ count) = some ten ∧ ten.significand ≠ 0 ∧
      Close (1 / 2 ^ 53) (10 ^ count) ten.magnitude := by
  have size : ((10 ^ count : ℕ) : ℚ) = 10 ^ count := by rw [Nat.cast_pow, Nat.cast_ofNat]
  have less : (10 : ℚ) ^ count ≤ 10 ^ 308 := pow_le_pow_right₀ (by norm_num) small
  obtain ⟨ten, found, nonzero, close⟩ := exists_integer (Nat.pow_pos (by decide))
    (size.trans_lt (less.trans_lt pow_lt_limit))
  exact ⟨ten, found, nonzero, size ▸ close⟩

/-- How far reading goes from what a coefficient and a power of ten are worth. -/
def Reads (value : ℚ) (number : Binary64) : Prop :=
  |number.magnitude - value| ≤ value / 2 ^ 50 + 2 ^ (-1075 : ℤ)

private theorem reads_of_close {error value approximation : ℚ} {number : Binary64}
    (close : Close error value approximation) (rounded : number.Rounded approximation)
    (positive : 0 < value) (small : error ≤ 6 / 2 ^ 53) : Reads value number := by
  have near := rounded.near (close.pos positive (by linarith))
  obtain ⟨low, high⟩ := close
  have part : value * error ≤ value * (6 / 2 ^ 53) := by gcongr
  rw [abs_le] at near
  rw [Reads, abs_le]
  constructor <;> linarith

/-- A product of two rounded factors: their errors add up, with a quarter to spare. -/
private theorem exists_product {left right : Binary64} {leftValue rightValue : ℚ}
    (leftNonzero : left.significand ≠ 0) (rightNonzero : right.significand ≠ 0)
    (leftClose : Close (1 / 2 ^ 53) leftValue left.magnitude)
    (rightClose : Close (1 / 2 ^ 53) rightValue right.magnitude)
    (leftPos : 0 < leftValue) (rightPos : 0 < rightValue)
    (small : leftValue * rightValue * (1 + 9 / 4 / 2 ^ 53) < Binary64.limit) :
    ∃ number, left.mul? right = some number ∧ Reads (leftValue * rightValue) number := by
  have close : Close (9 / 4 / 2 ^ 53) (leftValue * rightValue) (left.magnitude * right.magnitude) :=
    leftClose.mul rightClose leftPos rightPos (by norm_num) (by norm_num) (by norm_num)
      (by norm_num)
  obtain ⟨number, found, rounded⟩ :=
    Binary64.exists_mul? leftNonzero rightNonzero (close.high.trans_lt small)
  exact ⟨number, found, reads_of_close close rounded (mul_pos leftPos rightPos) (by norm_num)⟩

/-- A quotient adds the error of its divisor, here with a quarter to spare too. -/
private theorem exists_quotient {left right : Binary64} {error value divisor : ℚ}
    (leftNonzero : left.significand ≠ 0) (rightNonzero : right.significand ≠ 0)
    (leftClose : Close error value left.magnitude)
    (rightClose : Close (1 / 2 ^ 53) divisor right.magnitude)
    (valuePos : 0 < value) (divisorPos : 0 < divisor)
    (part : 0 ≤ error ∧ error ≤ 19 / 4 / 2 ^ 53)
    (small : value / divisor * 2 < Binary64.limit) :
    ∃ number, left.div? right = some number ∧
      number.Rounded (left.magnitude / right.magnitude) ∧
      Close (error + 5 / 4 / 2 ^ 53) (value / divisor) (left.magnitude / right.magnitude) := by
  have inverse : Close (9 / 8 / 2 ^ 53) divisor⁻¹ right.magnitude⁻¹ :=
    rightClose.inv divisorPos (by norm_num) (by norm_num) (by norm_num) (by norm_num)
  have close : Close (error + 5 / 4 / 2 ^ 53) (value * divisor⁻¹)
      (left.magnitude * right.magnitude⁻¹) :=
    leftClose.mul inverse valuePos (inv_pos.mpr divisorPos) (by linarith) (by norm_num)
      (by linarith) (by linarith)
  rw [← div_eq_mul_inv, ← div_eq_mul_inv] at close
  have bound : left.magnitude / right.magnitude < Binary64.limit := by
    refine close.high.trans_lt (lt_of_le_of_lt ?_ small)
    gcongr
    linarith
  obtain ⟨number, found, rounded⟩ := Binary64.exists_div? leftNonzero rightNonzero bound
  exact ⟨number, found, rounded, close⟩

private theorem quotient_lt_limit {value divisor : ℚ} (word : value ≤ 2 ^ 65) (one : 1 ≤ divisor)
    (positive : 0 < value) : value / divisor * 2 < Binary64.limit :=
  word_lt_limit ((div_le_self positive.le one).trans word)

private theorem least_le {value : ℚ} (one : 1 ≤ value) :
    2 ^ (-1075 : ℤ) ≤ value / 10 ^ 308 * (1 - 9 / 4 / 2 ^ 53) * (9 / 4 / 2 ^ 53) := by
  have sizes := @cast_mul_pow_le 100 10 308 224 2 1022 (by decide +kernel)
  rw [Nat.cast_ofNat, Nat.cast_ofNat, Nat.cast_ofNat, Nat.cast_ofNat] at sizes
  have unit : (2 : ℚ) ^ (-1075 : ℤ) = 1 / 2 ^ 1022 / 2 ^ 53 := by
    rw [div_div, ← pow_add, one_div, ← zpow_natCast, ← zpow_neg]
    rfl
  have unitPos : (0 : ℚ) < 2 ^ 1022 := by positivity
  have powerPos : (0 : ℚ) < 10 ^ 308 := by positivity
  rw [unit]
  generalize (2 : ℚ) ^ 1022 = unit at sizes unitPos ⊢
  generalize (10 : ℚ) ^ 308 = power at sizes powerPos ⊢
  have inverse : 1 / unit ≤ 224 / 100 / power := by
    rw [div_le_div_iff₀ unitPos powerPos]
    linarith
  have more : 1 / power ≤ value / power := by gcongr
  have scaled : 224 / 100 / power = 224 / 100 * (1 / power) := by ring
  generalize 1 / unit = left at inverse ⊢
  generalize value / power = right at more ⊢
  have positive : 0 < 1 / power := by positivity
  generalize 1 / power = middle at more scaled positive
  linarith

/-- The first of two divisions stays close, although it may come near the least numbers: what a
rounding loses there is no more than the error so far. -/
private theorem exists_smaller {start last : Binary64} {value : ℚ}
    (startNonzero : start.significand ≠ 0) (lastNonzero : last.significand ≠ 0)
    (startClose : Close (1 / 2 ^ 53) value start.magnitude)
    (lastClose : Close (1 / 2 ^ 53) (10 ^ 308) last.magnitude)
    (one : 1 ≤ value) (word : value ≤ 2 ^ 65) :
    ∃ smaller, start.div? last = some smaller ∧ smaller.significand ≠ 0 ∧
      Close (19 / 4 / 2 ^ 53) (value / 10 ^ 308) smaller.magnitude := by
  have valuePos : 0 < value := by linarith
  have quotientPos : 0 < value / 10 ^ 308 := by positivity
  have least := least_le one
  obtain ⟨smaller, found, rounded, close⟩ := exists_quotient startNonzero lastNonzero startClose
    lastClose valuePos (by positivity) (by norm_num)
    (quotient_lt_limit word (one_le_pow₀ (by norm_num)) valuePos)
  generalize (10 : ℚ) ^ 308 = power at least close quotientPos ⊢
  have first : Close (9 / 4 / 2 ^ 53) (value / power) (start.magnitude / last.magnitude) := by
    norm_num at close ⊢
    exact close
  have enough : 2 ^ (-1075 : ℤ) ≤ start.magnitude / last.magnitude * (9 / 4 / 2 ^ 53) :=
    least.trans (mul_le_mul_of_nonneg_right first.low (by norm_num))
  have second := rounded.close (first.pos quotientPos (by norm_num)) (by norm_num) enough
  have both : Close (19 / 4 / 2 ^ 53) (value / power) smaller.magnitude :=
    first.trans second quotientPos (by norm_num) (by norm_num) (by norm_num)
  exact ⟨smaller, found,
    Binary64.significand_ne_zero_of_pos (both.pos quotientPos (by norm_num)), both⟩

/-- Whatever fits a word is scaled to a number, up to the limit of numbers, and in the end there is
little between that and what was written. -/
theorem exists_scale? {size : ℕ} {power : ℤ} (positive : 0 < size) (fits : size < 2 ^ 64)
    (most : power ≤ 308) (least : -616 ≤ power)
    (small : (size : ℚ) * 10 ^ power * (1 + 9 / 4 / 2 ^ 53) < Binary64.limit) :
    ∃ number, scale? size power = some number ∧ Reads (size * 10 ^ power) number := by
  have word : (size : ℚ) ≤ 2 ^ 65 := by
    have bound : size ≤ 2 ^ 65 := by omega
    exact_mod_cast bound
  have less := word_lt_limit word
  obtain ⟨start, read, startNonzero, startClose⟩ := exists_integer positive (by linarith)
  have notZero : start.isZero = false := beq_eq_false_iff_ne.mpr startNonzero
  have sizePos : (0 : ℚ) < size := Nat.cast_pos.mpr positive
  have one : (1 : ℚ) ≤ size := by exact_mod_cast positive
  rw [scale?, read, Option.bind_eq_bind, Option.bind_some]
  simp only [notZero, Bool.false_eq_true, if_false, if_neg (show ¬ 308 < power by omega)]
  rcases le_or_gt 0 power with up | down
  · obtain ⟨count, rfl⟩ := Int.eq_ofNat_of_zero_le up
    obtain ⟨ten, found, tenNonzero, tenClose⟩ := exists_power (show count ≤ 308 by omega)
    rw [zpow_natCast] at small ⊢
    obtain ⟨number, product, reads⟩ := exists_product startNonzero tenNonzero startClose tenClose
      sizePos (by positivity) small
    exact ⟨number, by rw [if_pos up, Int.toNat_natCast, found, Option.bind_some, product], reads⟩
  obtain ⟨count, rfl⟩ := Int.exists_eq_neg_ofNat down.le
  rw [zpow_neg, zpow_natCast, ← div_eq_mul_inv, if_neg (by omega)]
  rcases Nat.lt_or_ge 308 count with deep | shallow
  · -- Two divisions: by the greatest power that is a number, and by what is left of it.
    obtain ⟨last, lastFound, lastNonzero, lastClose⟩ := exists_power (Nat.le_refl 308)
    obtain ⟨ten, found, tenNonzero, tenClose⟩ := exists_power (show count - 308 ≤ 308 by omega)
    obtain ⟨smaller, first, smallerNonzero, smallerClose⟩ :=
      exists_smaller startNonzero lastNonzero startClose lastClose one word
    have less : (size : ℚ) / 10 ^ 308 ≤ 2 ^ 65 :=
      (div_le_self sizePos.le (one_le_pow₀ (by norm_num))).trans word
    obtain ⟨number, second, rounded, close⟩ := exists_quotient smallerNonzero tenNonzero
      smallerClose tenClose (by positivity) (by positivity) (by norm_num)
      (quotient_lt_limit less (one_le_pow₀ (by norm_num)) (by positivity))
    have reads := reads_of_close close rounded (by positivity) (by norm_num)
    rw [div_div, ← pow_add, Nat.add_sub_cancel' deep.le] at reads
    refine ⟨number, ?_, reads⟩
    have rest : (-(-(count : ℤ)) - 308).toNat = count - 308 := by omega
    rw [if_neg (by omega), if_pos (by omega), lastFound, Option.bind_some, first, Option.bind_some,
      rest, found, Option.bind_some, second]
  · obtain ⟨ten, found, tenNonzero, tenClose⟩ := exists_power shallow
    obtain ⟨number, quotient, rounded, close⟩ := exists_quotient startNonzero tenNonzero startClose
      tenClose sizePos (by positivity) (by norm_num)
      (quotient_lt_limit word (one_le_pow₀ (by norm_num)) sizePos)
    refine ⟨number, ?_, reads_of_close close rounded (by positivity) (by norm_num)⟩
    rw [if_pos (by omega), neg_neg, Int.toNat_natCast, found, Option.bind_some, quotient]

end Numeral

end TraceContainer
