import TraceContainer.Proofs.Numeric.Rounding

namespace TraceContainer

/-- A rational is no further from another than a part of that. -/
structure Close (error value approximation : ℚ) : Prop where
  low : value * (1 - error) ≤ approximation
  high : approximation ≤ value * (1 + error)

namespace Close

variable {first second error left right leftApproximation rightApproximation : ℚ}

theorem pos (close : Close error left leftApproximation) (positive : 0 < left) (small : error < 1) :
    0 < leftApproximation :=
  (mul_pos positive (by linarith)).trans_le close.low

theorem trans (one : Close first left leftApproximation)
    (other : Close second leftApproximation rightApproximation) (positive : 0 < left)
    (small : 0 ≤ second ∧ second < 1) (low : 1 - error ≤ (1 - first) * (1 - second))
    (high : (1 + first) * (1 + second) ≤ 1 + error) : Close error left rightApproximation where
  low := by
    calc left * (1 - error) ≤ left * ((1 - first) * (1 - second)) := by gcongr
      _ = left * (1 - first) * (1 - second) := by ring
      _ ≤ leftApproximation * (1 - second) :=
          mul_le_mul_of_nonneg_right one.low (by linarith)
      _ ≤ rightApproximation := other.low
  high := by
    calc rightApproximation ≤ leftApproximation * (1 + second) := other.high
      _ ≤ left * (1 + first) * (1 + second) := mul_le_mul_of_nonneg_right one.high (by linarith)
      _ = left * ((1 + first) * (1 + second)) := by ring
      _ ≤ left * (1 + error) := by gcongr

theorem mul (one : Close first left leftApproximation)
    (other : Close second right rightApproximation) (leftPos : 0 < left) (rightPos : 0 < right)
    (firstSmall : first < 1) (secondSmall : 0 ≤ second ∧ second < 1)
    (low : 1 - error ≤ (1 - first) * (1 - second))
    (high : (1 + first) * (1 + second) ≤ 1 + error) :
    Close error (left * right) (leftApproximation * rightApproximation) := by
  have onePos := one.pos leftPos firstSmall
  have scaled : Close first (left * right) (leftApproximation * right) := by
    constructor
    · rw [mul_right_comm]
      exact mul_le_mul_of_nonneg_right one.low rightPos.le
    · rw [mul_right_comm]
      exact mul_le_mul_of_nonneg_right one.high rightPos.le
  have replaced : Close second (leftApproximation * right)
      (leftApproximation * rightApproximation) := by
    constructor
    · rw [mul_assoc]
      exact mul_le_mul_of_nonneg_left other.low onePos.le
    · rw [mul_assoc]
      exact mul_le_mul_of_nonneg_left other.high onePos.le
  exact scaled.trans replaced (mul_pos leftPos rightPos) secondSmall low high

theorem inv (close : Close first left leftApproximation) (positive : 0 < left) (small : first < 1)
    (errorSmall : 0 ≤ error ∧ error < 1) (low : (1 - error) * (1 + first) ≤ 1)
    (high : 1 ≤ (1 + error) * (1 - first)) : Close error (left⁻¹) (leftApproximation⁻¹) := by
  have approximationPos := close.pos positive small
  constructor
  · rw [inv_mul_eq_div, ← one_div, div_le_div_iff₀ positive approximationPos, one_mul]
    calc (1 - error) * leftApproximation ≤ (1 - error) * (left * (1 + first)) :=
          mul_le_mul_of_nonneg_left close.high (by linarith)
      _ = (1 - error) * (1 + first) * left := by ring
      _ ≤ 1 * left := by gcongr
      _ = left := one_mul left
  · rw [inv_mul_eq_div, ← one_div, div_le_div_iff₀ approximationPos positive, one_mul]
    calc left = 1 * left := (one_mul left).symm
      _ ≤ (1 + error) * (1 - first) * left := by gcongr
      _ = (1 + error) * (left * (1 - first)) := by ring
      _ ≤ (1 + error) * leftApproximation :=
          mul_le_mul_of_nonneg_left close.low (by linarith)

end Close

namespace Binary64

/-- Halfway from the largest number to where the next would be. -/
def limit : ℚ :=
  (2 ^ 53 - 1 / 2) * 2 ^ (971 : ℤ)

/-- A number is no further from a rational than rounding goes: half the last place of the rational,
which is one part in `2 ^ 53` of it unless the last place is the least there is. -/
structure Rounded (number : Binary64) (value : ℚ) : Prop where
  low : value - max (value / 2 ^ 53) (2 ^ (-1075 : ℤ)) ≤ number.magnitude
  high : number.magnitude ≤ value + max (value / 2 ^ 53) (2 ^ (-1075 : ℤ))

private theorem of?_of_bounds {significand : ℕ} {unit : ℤ} (few : significand < 2 ^ 53)
    (least : -1074 ≤ unit) (most : unit ≤ 971) (normal : unit = -1074 ∨ 2 ^ 52 ≤ significand)
    (negative : Bool) : ∃ number,
      of? negative significand unit = some number ∧ number.magnitude = significand * 2 ^ unit := by
  rw [of?, dif_pos ⟨few, least, most⟩, dif_pos normal]
  exact ⟨_, rfl, rfl⟩

private theorem half_unit_le {unit : ℤ} {value : ℚ}
    (many : unit = -1074 ∨ 2 ^ 52 * 2 ^ unit ≤ value) :
    (2 : ℚ) ^ unit / 2 ≤ max (value / 2 ^ 53) (2 ^ (-1075 : ℤ)) := by
  rcases many with rfl | enough
  · refine le_max_of_le_right (le_of_eq ?_)
    rw [show (-1075 : ℤ) = -1074 - 1 by norm_num, zpow_sub₀ two_ne_zero, zpow_one]
  · refine le_max_of_le_left ?_
    rw [le_div_iff₀ (by positivity)]
    linarith

/-- Below the limit, the unit is that of a number. -/
private theorem unit_le_of_lt_limit {unit : ℤ} {value : ℚ}
    (many : unit = -1074 ∨ 2 ^ 52 * 2 ^ unit ≤ value) (small : value < limit) : unit ≤ 971 := by
  by_contra more
  have enough := many.resolve_left (by omega)
  have coarse : (2 : ℚ) ^ (971 + 1 : ℤ) ≤ 2 ^ unit := zpow_le_zpow_right₀ one_le_two (by omega)
  have last : (0 : ℚ) < 2 ^ (971 : ℤ) := by positivity
  rw [zpow_add₀ two_ne_zero, zpow_one] at coarse
  rw [limit] at small
  generalize (2 : ℚ) ^ (971 : ℤ) = unit971 at coarse last small
  linarith

/-- The integer nearest to a quotient by its unit makes a number with it, the carry included. -/
private theorem exists_of_nearest {significand : ℕ} {unit : ℤ} {value : ℚ}
    (low : significand - 1 / 2 ≤ value / 2 ^ unit) (high : value / 2 ^ unit ≤ significand + 1 / 2)
    (few : value < 2 ^ 53 * 2 ^ unit) (least : -1074 ≤ unit)
    (many : unit = -1074 ∨ 2 ^ 52 * 2 ^ unit ≤ value) (small : value < limit) (negative : Bool) :
    ∃ number, (if significand = 2 ^ 53 then of? negative (2 ^ 52) (unit + 1)
        else of? negative significand unit) = some number ∧
      number.magnitude = significand * 2 ^ unit := by
  have scale : (0 : ℚ) < 2 ^ unit := by positivity
  have most := unit_le_of_lt_limit many small
  have carry : significand ≤ 2 ^ 53 := by
    have quotient : value / 2 ^ unit < 2 ^ 53 := (div_lt_iff₀ scale).mpr few
    have next : (significand : ℚ) < (2 ^ 53 + 1 : ℕ) := by
      push_cast
      linarith
    exact Nat.le_of_lt_succ (Nat.cast_lt.mp next)
  split
  · rename_i carried
    have room : unit ≠ 971 := by
      intro same
      have quotient : value / 2 ^ unit < 2 ^ 53 - 1 / 2 :=
        (div_lt_iff₀ scale).mpr (same ▸ small)
      rw [carried] at low
      push_cast at low
      linarith
    obtain ⟨number, found, same⟩ := @of?_of_bounds (2 ^ 52) (unit + 1) (by decide) (by omega)
      (by omega) (.inr le_rfl) negative
    refine ⟨number, found, same.trans ?_⟩
    rw [carried, zpow_add₀ two_ne_zero]
    push_cast
    ring
  · rename_i fits
    refine of?_of_bounds (by omega) least most (many.imp_right fun enough => ?_) negative
    have quotient : 2 ^ 52 ≤ value / 2 ^ unit := (le_div_iff₀ scale).mpr enough
    have next : ((2 ^ 52 : ℕ) : ℚ) < (significand + 1 : ℕ) := by
      push_cast
      linarith
    exact Nat.le_of_lt_succ (Nat.cast_lt.mp next)

/-- Every quotient below the limit is rounded to a number. -/
theorem exists_ofQuotient? {numerator denominator : ℕ} (numeratorPos : 0 < numerator)
    (denominatorPos : 0 < denominator) (small : (numerator : ℚ) / denominator < limit)
    (negative : Bool) : ∃ number, ofQuotient? negative numerator denominator = some number ∧
      number.Rounded (numerator / denominator) := by
  obtain ⟨few, least, many⟩ := unitExponent_spec numeratorPos denominatorPos
  have quotient := cast_div_scaled numerator denominator 2 (unitExponent numerator denominator)
  obtain ⟨low, high⟩ := @nearestEven_near
    (numerator * 2 ^ (-unitExponent numerator denominator).toNat)
    (denominator * 2 ^ (unitExponent numerator denominator).toNat) (by positivity)
  rw [Nat.cast_ofNat] at quotient
  rw [quotient] at low high
  obtain ⟨number, found, same⟩ := exists_of_nearest low high few least many small negative
  rw [ofQuotient?, if_neg (Nat.ne_of_gt numeratorPos)]
  have half := half_unit_le many
  rw [le_div_iff₀ (by positivity)] at low
  rw [div_le_iff₀ (by positivity)] at high
  refine ⟨number, found, ?_, ?_⟩ <;> rw [same] <;> linarith

/-- Away from the least numbers, the error is a part of the rational. -/
theorem Rounded.close {number : Binary64} {value error : ℚ} (rounded : number.Rounded value)
    (positive : 0 < value) (part : 1 / 2 ^ 53 ≤ error)
    (least : 2 ^ (-1075 : ℤ) ≤ value * error) : Close error value number.magnitude := by
  have whole : max (value / 2 ^ 53) (2 ^ (-1075 : ℤ)) ≤ value * error := by
    refine max_le ?_ least
    calc value / 2 ^ 53 = value * (1 / 2 ^ 53) := by ring
      _ ≤ value * error := by gcongr
  obtain ⟨low, high⟩ := rounded
  constructor <;> linarith

theorem Rounded.near {number : Binary64} {value : ℚ} (rounded : number.Rounded value)
    (positive : 0 < value) :
    |number.magnitude - value| ≤ value / 2 ^ 53 + 2 ^ (-1075 : ℤ) := by
  have whole := max_le_add_of_nonneg (show 0 ≤ value / 2 ^ 53 by positivity)
    (show (0 : ℚ) ≤ 2 ^ (-1075 : ℤ) by positivity)
  obtain ⟨low, high⟩ := rounded
  rw [abs_le]
  constructor <;> linarith

theorem magnitude_pos {number : Binary64} (nonzero : number.significand ≠ 0) :
    0 < number.magnitude :=
  mul_pos (Nat.cast_pos.mpr (Nat.pos_of_ne_zero nonzero)) (by positivity)

theorem near_of_holds {number : Binary64} (nonzero : number.significand ≠ 0) {value : ℚ}
    (holds : (Rounding.ofBinary64 number).Holds value) :
    |value - number.magnitude| ≤ number.magnitude / 2 ^ 53 + 2 ^ (-1075 : ℤ) := by
  have scale : (0 : ℚ) < 2 ^ number.exponent := by positivity
  have many : number.exponent = -1074 ∨ 2 ^ 52 * 2 ^ number.exponent ≤ number.magnitude := by
    refine number.normal.imp_right fun significant => mul_le_mul_of_nonneg_right ?_ scale.le
    exact_mod_cast significant
  have half := (half_unit_le many).trans <| max_le_add_of_nonneg
    (div_pos (magnitude_pos nonzero) (by positivity)).le (by positivity)
  obtain ⟨low, high⟩ := within_of_holds nonzero holds
  have short := number.below_le
  rw [le_div_iff₀ scale] at low
  rw [div_le_iff₀ scale] at high
  have wide : (number.significand - 1 / 2) * (2 : ℚ) ^ number.exponent ≤
      (number.significand - number.below) * 2 ^ number.exponent := by gcongr
  rw [magnitude] at half ⊢
  rw [abs_le]
  constructor <;> linarith

theorem significand_ne_zero_of_pos {number : Binary64} (positive : 0 < number.magnitude) :
    number.significand ≠ 0 := by
  intro zero
  rw [magnitude, zero, Nat.cast_zero, zero_mul] at positive
  exact lt_irrefl _ positive

theorem exists_ofNat? {integer : ℕ} (positive : 0 < integer) (small : (integer : ℚ) < limit) :
    ∃ number, ofNat? integer = some number ∧ number.Rounded integer := by
  obtain ⟨number, found, rounded⟩ :=
    exists_ofQuotient? positive Nat.one_pos (by rwa [Nat.cast_one, div_one]) false
  rw [Nat.cast_one, div_one] at rounded
  exact ⟨number, found, rounded⟩

theorem exists_mul? {left right : Binary64} (leftNonzero : left.significand ≠ 0)
    (rightNonzero : right.significand ≠ 0) (small : left.magnitude * right.magnitude < limit) :
    ∃ number, left.mul? right = some number ∧
      number.Rounded (left.magnitude * right.magnitude) := by
  rw [magnitude_eq, magnitude_eq, div_mul_div_comm, ← Nat.cast_mul, ← Nat.cast_mul] at small ⊢
  exact exists_ofQuotient? (Nat.mul_pos (numerator_pos leftNonzero) (numerator_pos rightNonzero))
    (Nat.mul_pos left.denominator_pos right.denominator_pos) small _

theorem exists_div? {left right : Binary64} (leftNonzero : left.significand ≠ 0)
    (rightNonzero : right.significand ≠ 0) (small : left.magnitude / right.magnitude < limit) :
    ∃ number, left.div? right = some number ∧
      number.Rounded (left.magnitude / right.magnitude) := by
  rw [magnitude_eq, magnitude_eq, div_div_div_eq, ← Nat.cast_mul, ← Nat.cast_mul] at small ⊢
  exact exists_ofQuotient? (Nat.mul_pos (numerator_pos leftNonzero) right.denominator_pos)
    (Nat.mul_pos left.denominator_pos (numerator_pos rightNonzero)) small _

end Binary64

end TraceContainer
