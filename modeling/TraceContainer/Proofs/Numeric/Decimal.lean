import Mathlib.Algebra.Order.Field.Power
import Mathlib.Data.List.DropRight
import Mathlib.Tactic.Ring
import TraceContainer.Numeric.Shortest

namespace TraceContainer

theorem head?_toDigits {number : Nat} (positive : 0 < number) :
    (Nat.toDigits 10 number).head? ≠ some '0' := by
  induction number using Nat.strongRecOn with
  | ind number ih =>
    rw [Nat.toDigits_eq_if (by decide)]
    split
    · rename_i small
      intro zero
      have value : (Nat.digitChar number).toNat = '0'.toNat := by rw [Option.some.inj zero]
      rw [Nat.toNat_digitChar_of_lt_ten small] at value
      have code : '0'.toNat = 48 := rfl
      omega
    · rename_i large
      have rest := ih (number / 10) (by omega) (by omega)
      rw [List.head?_append]
      cases first : (Nat.toDigits 10 (number / 10)).head? with
      | none => exact absurd (List.head?_eq_none_iff.mp first) Nat.toDigits_ne_nil
      | some digit =>
        rw [first] at rest
        exact rest

theorem le_ofDigitChars (digits : List Char) (size : Nat) :
    size ≤ Nat.ofDigitChars 10 digits size := by
  rw [Nat.ofDigitChars_eq_ofDigitChars_zero]
  exact (Nat.le_mul_of_pos_left _ (Nat.pow_pos (by decide))).trans (Nat.le_add_right _ _)

/-- Digits are worth less than the least number with one digit more. -/
theorem ofDigitChars_lt {digits : List Char} (all : ∀ digit ∈ digits, digit.isDigit = true) :
    Nat.ofDigitChars 10 digits 0 < 10 ^ digits.length := by
  induction digits with
  | nil => exact Nat.one_pos
  | cons digit rest ih =>
    obtain ⟨first, others⟩ := List.forall_mem_cons.mp all
    have small : 10 * 0 + (digit.toNat - '0'.toNat) ≤ 9 := by
      have nine : '9'.toNat = '0'.toNat + 9 := rfl
      rw [Char.isDigit_iff_toNat] at first
      omega
    rw [Nat.ofDigitChars_cons, Nat.ofDigitChars_eq_ofDigitChars_zero, List.length_cons, pow_succ]
    have bound := ih others
    have scaled := Nat.mul_le_mul_left (10 ^ rest.length) small
    omega

namespace Decimal

def last (decimal : Decimal) : ℤ :=
  decimal.leading + 1 - decimal.digits.length

def coefficient (decimal : Decimal) : ℕ :=
  Nat.ofDigitChars 10 decimal.digits 0

def value (decimal : Decimal) : ℚ :=
  decimal.coefficient * 10 ^ decimal.last

/-- Digits as a number begins with them: at least one, and the first is not zero. -/
structure Significant (decimal : Decimal) : Prop where
  nonempty : decimal.digits ≠ []
  all : ∀ digit ∈ decimal.digits, digit.isDigit = true
  noZero : decimal.digits.head? ≠ some '0'

/-- Digits with zeros behind them are less than the least number with one digit more. -/
theorem Significant.coefficient_lt {decimal : Decimal} (significant : decimal.Significant)
    {zeros places : ℕ} (few : decimal.digits.length + zeros ≤ places) :
    decimal.coefficient * 10 ^ zeros < 10 ^ places := by
  calc decimal.coefficient * 10 ^ zeros
      < 10 ^ decimal.digits.length * 10 ^ zeros :=
        Nat.mul_lt_mul_of_pos_right (ofDigitChars_lt significant.all) (Nat.pow_pos (by decide))
    _ = 10 ^ (decimal.digits.length + zeros) := (pow_add _ _ _).symm
    _ ≤ 10 ^ places := Nat.pow_le_pow_right (by decide) few

/-- The zeros at the end of a multiple are left out, and nothing else. -/
theorem exists_zeros (coefficient : ℕ) (power : ℤ) : ∃ zeros,
    Nat.toDigits 10 coefficient =
      (ofMultiple coefficient power).digits ++ List.replicate zeros '0' ∧
    (ofMultiple coefficient power).last = power + zeros := by
  have zeros : (Nat.toDigits 10 coefficient).rtakeWhile (· == '0') = List.replicate _ '0' :=
    List.eq_replicate_of_mem fun digit inside => by
      have zero := List.mem_rtakeWhile_imp inside
      exact eq_of_beq zero
  have parts := @List.rdropWhile_append_rtakeWhile _ (· == '0') (Nat.toDigits 10 coefficient)
  rw [zeros] at parts
  have lengths := congrArg List.length parts
  rw [List.length_append, List.length_replicate] at lengths
  refine ⟨_, parts.symm, ?_⟩
  change power + (Nat.toDigits 10 coefficient).length - 1 + 1 -
    ((Nat.toDigits 10 coefficient).rdropWhile (· == '0')).length = _
  omega

theorem value_ofMultiple (coefficient : ℕ) (power : ℤ) :
    (ofMultiple coefficient power).value = coefficient * 10 ^ power := by
  obtain ⟨zeros, digits, last⟩ := exists_zeros coefficient power
  have whole : coefficient = 10 ^ zeros * (ofMultiple coefficient power).coefficient := by
    rw [Decimal.coefficient, ← Nat.ofDigitChars_replicate_zero, ← Nat.ofDigitChars_append, ← digits,
      Nat.ofDigitChars_ten_toDigits]
  rw [value, last, zpow_add₀ (by norm_num), zpow_natCast]
  conv_rhs => rw [whole]
  push_cast
  ring

theorem significant_ofMultiple {coefficient : ℕ} (positive : 0 < coefficient) (power : ℤ) :
    (ofMultiple coefficient power).Significant := by
  obtain ⟨zeros, digits, _⟩ := exists_zeros coefficient power
  have first := head?_toDigits positive
  have nonempty : (ofMultiple coefficient power).digits ≠ [] := by
    intro empty
    rw [digits, empty, List.nil_append] at first
    cases zeros with
    | zero => exact Nat.toDigits_ne_nil (digits.trans (by rw [empty]; rfl))
    | succ zeros => exact first rfl
  refine ⟨nonempty, fun digit inside => ?_, fun zero => first ?_⟩
  · exact Nat.isDigit_of_mem_toDigits (by decide) (by decide)
      (digits ▸ List.mem_append_left _ inside)
  · rw [digits, List.head?_append, zero]
    rfl

end Decimal

end TraceContainer
