import TraceContainer.Proofs.Numeric.Decimal
import TraceContainer.Proofs.Numeric.Rounding

namespace TraceContainer

namespace Rounding

/-- A multiple of a power of ten is compared with the ends of an interval over one scale. -/
theorem contains_iff {rounding : Rounding} (positive : 0 < rounding.scale) {coefficient : ℕ}
    {power : ℤ} :
    rounding.contains coefficient power = true ↔ rounding.Holds (coefficient * 10 ^ power) := by
  have scale : (0 : ℚ) < rounding.scale := Nat.cast_pos.mpr positive
  have shift : (0 : ℚ) < 10 ^ (-power).toNat := by positivity
  have cleared (bound : ℕ) :
      ((bound : ℚ) / rounding.scale ≤ coefficient * 10 ^ power ↔
        bound * 10 ^ (-power).toNat ≤ coefficient * 10 ^ power.toNat * rounding.scale) ∧
      ((coefficient : ℚ) * 10 ^ power ≤ bound / rounding.scale ↔
        coefficient * 10 ^ power.toNat * rounding.scale ≤ bound * 10 ^ (-power).toNat) := by
    rw [zpow_eq_pow_div_pow, ← mul_div_assoc, div_le_div_iff₀ scale shift,
      div_le_div_iff₀ shift scale]
    exact ⟨by exact_mod_cast Iff.rfl, by exact_mod_cast Iff.rfl⟩
  rw [contains, Holds]
  split
  · rw [Bool.and_eq_true, decide_eq_true_iff, decide_eq_true_iff, (cleared _).1, (cleared _).2]
  · rw [Bool.and_eq_true, decide_eq_true_iff, decide_eq_true_iff, ← not_le, ← not_le, ← not_le,
      ← not_le, (cleared _).1, (cleared _).2]

def nearestOnGrid (rounding : Rounding) (power : ℤ) : ℕ :=
  Binary64.nearestEven (rounding.value * 10 ^ (-power).toNat)
    (rounding.scale * 10 ^ power.toNat)

private theorem onGrid?_eq (rounding : Rounding) (power : ℤ) : ∃ other,
    rounding.onGrid? power =
      if rounding.contains (rounding.nearestOnGrid power) power then
        some (rounding.nearestOnGrid power)
      else if rounding.contains other power then some other else none :=
  ⟨_, rfl⟩

theorem contains_of_onGrid? {rounding : Rounding} {power : ℤ} {coefficient : ℕ}
    (found : rounding.onGrid? power = some coefficient) :
    rounding.contains coefficient power = true := by
  obtain ⟨other, same⟩ := rounding.onGrid?_eq power
  rw [same] at found
  split at found
  · rename_i inside
    cases found
    exact inside
  split at found
  · rename_i inside
    cases found
    exact inside
  · cases found

theorem onGrid?_of_contains {rounding : Rounding} {power : ℤ}
    (inside : rounding.contains (rounding.nearestOnGrid power) power = true) :
    rounding.onGrid? power = some (rounding.nearestOnGrid power) := by
  obtain ⟨other, same⟩ := rounding.onGrid?_eq power
  rw [same, if_pos inside]

/-- It is no further from the number than half the width of the grid. -/
theorem nearestOnGrid_near {rounding : Rounding} (positive : 0 < rounding.scale) (power : ℤ) :
    ((rounding.nearestOnGrid power : ℚ) - 1 / 2) * 10 ^ power ≤ rounding.value / rounding.scale ∧
      (rounding.value : ℚ) / rounding.scale ≤
        (rounding.nearestOnGrid power + 1 / 2) * 10 ^ power := by
  have width : (0 : ℚ) < 10 ^ power := by positivity
  have quotient := cast_div_scaled rounding.value rounding.scale 10 power
  rw [Nat.cast_ofNat] at quotient
  rw [← le_div_iff₀ width, ← div_le_iff₀ width, ← quotient]
  exact Binary64.nearestEven_near (by positivity)

private theorem pow_length_toDigits_le {number : ℕ} (positive : 0 < number) :
    10 ^ ((Nat.toDigits 10 number).length - 1) ≤ number := by
  by_contra less
  rcases Nat.eq_zero_or_pos ((Nat.toDigits 10 number).length - 1) with single | several
  · rw [single] at less
    omega
  · have fewer := (Nat.length_toDigits_le_iff (by decide) several).mpr (Nat.lt_of_not_le less)
    omega

theorem leading_le {rounding : Rounding} (scalePos : 0 < rounding.scale)
    (valuePos : 0 < rounding.value) :
    (10 : ℚ) ^ rounding.leading ≤ rounding.value / rounding.scale := by
  have scale : (0 : ℚ) < rounding.scale := Nat.cast_pos.mpr scalePos
  rw [leading]
  split
  · rename_i large
    have whole : 0 < rounding.value / rounding.scale := Nat.div_pos large scalePos
    have length := @Nat.length_toDigits_pos 10 (rounding.value / rounding.scale)
    rw [← Nat.cast_one, ← Nat.cast_sub length, zpow_natCast, le_div_iff₀ scale]
    have least : 10 ^ ((Nat.toDigits 10 (rounding.value / rounding.scale)).length - 1) *
        rounding.scale ≤ rounding.value :=
      (Nat.mul_le_mul_right _ (pow_length_toDigits_le whole)).trans (Nat.div_mul_le_self _ _)
    exact_mod_cast least
  · rename_i small
    have few := (Nat.length_toDigits_le_iff (by decide) Nat.length_toDigits_pos).mp
      (Nat.le_refl (Nat.toDigits 10 ((rounding.scale - 1) / rounding.value)).length)
    have least := (Nat.div_lt_iff_lt_mul valuePos).mp few
    have enough : rounding.scale ≤ rounding.value *
        10 ^ (Nat.toDigits 10 ((rounding.scale - 1) / rounding.value)).length := by
      rw [Nat.mul_comm]
      omega
    rw [zpow_neg, zpow_natCast, le_div_iff₀ scale, inv_mul_le_iff₀ (by positivity), mul_comm]
    exact_mod_cast enough

theorem lt_leading {rounding : Rounding} (scalePos : 0 < rounding.scale)
    (valuePos : 0 < rounding.value) :
    (rounding.value : ℚ) / rounding.scale < 10 ^ (rounding.leading + 1) := by
  have scale : (0 : ℚ) < rounding.scale := Nat.cast_pos.mpr scalePos
  rw [leading, div_lt_iff₀ scale]
  split
  · have few := (Nat.length_toDigits_le_iff (by decide) Nat.length_toDigits_pos).mp
      (Nat.le_refl (Nat.toDigits 10 (rounding.value / rounding.scale)).length)
    have most := (Nat.div_lt_iff_lt_mul scalePos).mp few
    rw [sub_add_cancel, zpow_natCast]
    exact_mod_cast most
  · rename_i small
    have whole : 0 < (rounding.scale - 1) / rounding.value := Nat.div_pos (by omega) valuePos
    have length := @Nat.length_toDigits_pos 10 ((rounding.scale - 1) / rounding.value)
    have least : 10 ^ ((Nat.toDigits 10 ((rounding.scale - 1) / rounding.value)).length - 1) *
        rounding.value ≤ rounding.scale - 1 :=
      (Nat.mul_le_mul_right _ (pow_length_toDigits_le whole)).trans (Nat.div_mul_le_self _ _)
    have less : rounding.value *
        10 ^ ((Nat.toDigits 10 ((rounding.scale - 1) / rounding.value)).length - 1) <
          rounding.scale := by
      rw [Nat.mul_comm]
      omega
    rw [← Nat.cast_one (R := ℤ), neg_add_eq_sub, ← neg_sub, ← Nat.cast_sub length, zpow_neg,
      zpow_natCast, inv_mul_eq_div, lt_div_iff₀ (by positivity)]
    exact_mod_cast less

end Rounding

namespace Binary64

variable {number : Binary64}

/-- Seventeen digits tell a number from every other: the finest grid has a point in its interval. -/
private theorem contains_finest (nonzero : number.significand ≠ 0) :
    (Rounding.ofBinary64 number).contains
      ((Rounding.ofBinary64 number).nearestOnGrid ((Rounding.ofBinary64 number).leading - 16))
      ((Rounding.ofBinary64 number).leading - 16) = true := by
  have unit : (0 : ℚ) < 2 ^ number.exponent := by positivity
  have valuePos : 0 < (Rounding.ofBinary64 number).value :=
    Nat.mul_pos (Nat.mul_pos (by decide) (Nat.pos_of_ne_zero nonzero)) (Nat.two_pow_pos _)
  have first := Rounding.leading_le number.scale_pos valuePos
  obtain ⟨low, high⟩ := Rounding.nearestOnGrid_near number.scale_pos
    ((Rounding.ofBinary64 number).leading - 16)
  rw [value_div_scale] at first low high
  rw [Rounding.contains_iff number.scale_pos]
  generalize (Rounding.ofBinary64 number).leading = place at first low high ⊢
  generalize (Rounding.ofBinary64 number).nearestOnGrid (place - 16) = nearest at low high ⊢
  have width : (10 : ℚ) ^ (place - 16) * 10 ^ 16 ≤ number.magnitude := by
    rwa [← zpow_natCast, ← zpow_add₀ (by norm_num), Nat.cast_ofNat, sub_add_cancel]
  rw [magnitude, ← div_le_iff₀ unit] at width
  rw [magnitude, ← div_le_iff₀ unit] at low
  rw [magnitude, ← le_div_iff₀ unit] at high
  rw [mul_div_right_comm] at width
  rw [mul_div_assoc] at low high
  rw [holds_ofBinary64_iff nonzero, mul_div_assoc]
  refine .of_strict ?_
  generalize (10 : ℚ) ^ (place - 16) / 2 ^ number.exponent = step at width low high ⊢
  have small : (number.significand : ℚ) < 2 ^ 53 := by exact_mod_cast number.bounded.1
  have half : step < 2 * number.below := by
    rw [below]
    split
    · rename_i power
      rw [power.1] at width
      norm_num at width
      linarith
    · linarith
  have quarter := number.below_le
  constructor <;> linarith

/-- The coarsest point is in the interval of its number, and has seventeen digits at most. -/
theorem coarsest_contained (nonzero : number.significand ≠ 0) :
    (Rounding.ofBinary64 number).contains (Rounding.ofBinary64 number).coarsest.1
      (Rounding.ofBinary64 number).coarsest.2 = true ∧
      (Rounding.ofBinary64 number).leading - 16 ≤ (Rounding.ofBinary64 number).coarsest.2 := by
  have finest := Rounding.onGrid?_of_contains (contains_finest nonzero)
  generalize Rounding.ofBinary64 number = rounding at finest ⊢
  have some : ((List.range 17).findSome? fun (place : ℕ) =>
      (rounding.onGrid? (rounding.leading - place)).map (·, rounding.leading - place)).isSome := by
    rw [List.isSome_findSome?]
    refine List.any_eq_true.mpr ⟨16, by decide, ?_⟩
    rw [Option.isSome_map]
    exact Option.isSome_iff_exists.mpr ⟨_, finest⟩
  obtain ⟨point, found⟩ := Option.isSome_iff_exists.mp some
  obtain ⟨place, among, onGrid⟩ := List.exists_of_findSome?_eq_some found
  obtain ⟨coefficient, inside, rfl⟩ := Option.map_eq_some_iff.mp onGrid
  rw [Rounding.coarsest]
  simp only [found, Option.getD_some]
  have few := List.mem_range.mp among
  exact ⟨Rounding.contains_of_onGrid? inside, by omega⟩

theorem shortest_holds (nonzero : number.significand ≠ 0) :
    (Rounding.ofBinary64 number).Holds (Decimal.shortest number).value := by
  rw [Decimal.shortest, Decimal.value_ofMultiple, ← Rounding.contains_iff number.scale_pos]
  exact (coarsest_contained nonzero).1

theorem significant_shortest (nonzero : number.significand ≠ 0) :
    (Decimal.shortest number).Significant := by
  have positive := pos_of_holds nonzero (shortest_holds nonzero)
  rw [Decimal.shortest, Decimal.value_ofMultiple] at positive
  have coefficientPos := Nat.cast_pos.mp (pos_of_mul_pos_left positive (by positivity))
  exact Decimal.significant_ofMultiple coefficientPos _

theorem coefficient_shortest_lt (nonzero : number.significand ≠ 0) :
    (Decimal.shortest number).coefficient < 2 * 10 ^ 17 := by
  obtain ⟨_, finest⟩ := coarsest_contained nonzero
  obtain ⟨zeros, _, last⟩ := Decimal.exists_zeros (Rounding.ofBinary64 number).coarsest.1
    (Rounding.ofBinary64 number).coarsest.2
  have valuePos : 0 < (Rounding.ofBinary64 number).value :=
    Nat.mul_pos (Nat.mul_pos (by decide) (Nat.pos_of_ne_zero nonzero)) (Nat.two_pow_pos _)
  have most := Rounding.lt_leading number.scale_pos valuePos
  have twice := le_of_holds nonzero (shortest_holds nonzero)
  rw [value_div_scale] at most
  have place : (Rounding.ofBinary64 number).leading + 1 ≤ 17 + (Decimal.shortest number).last := by
    rw [Decimal.shortest, last]
    omega
  have scale : (0 : ℚ) < 10 ^ (Decimal.shortest number).last := by positivity
  have bound : ((Decimal.shortest number).coefficient : ℚ) < (2 * 10 ^ 17 : ℕ) := by
    refine lt_of_mul_lt_mul_right ?_ scale.le
    calc ((Decimal.shortest number).coefficient : ℚ) * 10 ^ (Decimal.shortest number).last
        ≤ 2 * number.magnitude := twice
      _ < 2 * 10 ^ ((Rounding.ofBinary64 number).leading + 1) := by linarith
      _ ≤ 2 * 10 ^ (17 + (Decimal.shortest number).last) := by gcongr; norm_num
      _ = (2 * 10 ^ 17 : ℕ) * 10 ^ (Decimal.shortest number).last := by
          rw [zpow_add₀ (by norm_num)]
          push_cast
          ring
  exact Nat.cast_lt.mp bound

end Binary64

end TraceContainer
