import TraceContainer.Proofs.Json.Real
import TraceContainer.Proofs.Json.Scaling

/-! What a spelled binary64 is read as: always a number, nearly the same one, and exactly the same
one if it is plain. -/
namespace TraceContainer

/-- Few digits, all of them near the point. Sixteen places before the point are left out, where the
zeros up to the point and the one behind it are digits too. -/
structure Decimal.Plain (decimal : Decimal) : Prop where
  few : decimal.digits.length ≤ 15
  near : -22 ≤ decimal.last ∧ decimal.last ≤ 22
  narrow : decimal.leading ≠ 15

namespace Decimal

/-- With the zeros that are written behind them, the digits of a plain decimal are few. -/
theorem Plain.lt {decimal : Decimal} (plain : decimal.Plain) (significant : decimal.Significant)
    {zeros : ℕ} (written : zeros = 0 ∨ (zeros : ℤ) = decimal.last + 1 ∧ decimal.leading ≤ 15) :
    decimal.coefficient * 10 ^ zeros < 10 ^ 15 ∨
      ∃ fewer, zeros = fewer + 1 ∧ decimal.coefficient * 10 ^ fewer < 10 ^ 15 := by
  have few := plain.few
  have narrow := plain.narrow
  cases zeros with
  | zero => exact .inl (significant.coefficient_lt few)
  | succ fewer =>
    refine .inr ⟨fewer, rfl, significant.coefficient_lt ?_⟩
    rw [last] at written
    omega

theorem Plain.exists_start {decimal : Decimal} (plain : decimal.Plain)
    (significant : decimal.Significant) (positive : 0 < decimal.coefficient) {zeros : ℕ}
    (written : zeros = 0 ∨ (zeros : ℤ) = decimal.last + 1 ∧ decimal.leading ≤ 15) :
    decimal.coefficient * 10 ^ zeros < 2 ^ 64 ∧ ∃ start : Binary64, start.negative = false ∧
      start.significand ≠ 0 ∧ start.magnitude = (decimal.coefficient * 10 ^ zeros : ℕ) := by
  rcases plain.lt significant written with small | ⟨fewer, rfl, small⟩
  · refine ⟨by omega, ?_⟩
    obtain ⟨start, nonnegative, nonzero, same⟩ :=
      @Binary64.exists_magnitude (decimal.coefficient * 10 ^ zeros) 0 (by positivity) (by omega)
        (by omega)
    exact ⟨start, nonnegative, nonzero, by rw [same, pow_zero, mul_one]⟩
  · rw [pow_succ, ← mul_assoc]
    refine ⟨by omega, ?_⟩
    obtain ⟨start, nonnegative, nonzero, same⟩ :=
      @Binary64.exists_magnitude (decimal.coefficient * 10 ^ fewer * 5) 1
        (by positivity) (by omega) (by omega)
    refine ⟨start, nonnegative, nonzero, same.trans ?_⟩
    push_cast
    ring

end Decimal

namespace Binary64

/-- A number of the same sign, and no more than a few last places away. -/
structure Near (value again : Binary64) : Prop where
  sign : again.negative = value.negative
  distance : |again.magnitude - value.magnitude| ≤
    value.magnitude / 2 ^ 49 + 2 ^ (-1073 : ℤ)

theorem Near.rfl {value : Binary64} : value.Near value where
  sign := Eq.refl _
  distance := by
    rw [sub_self, abs_zero, magnitude]
    positivity

theorem near_of_reads {value again : Binary64} {read : ℚ} (nonzero : value.significand ≠ 0)
    (holds : (Rounding.ofBinary64 value).Holds read) (reads : Numeral.Reads read again) :
    |again.magnitude - value.magnitude| ≤ value.magnitude / 2 ^ 49 + 2 ^ (-1073 : ℤ) := by
  have written := near_of_holds nonzero holds
  have positive := magnitude_pos nonzero
  have least : (2 : ℚ) ^ (-1073 : ℤ) = 4 * 2 ^ (-1075 : ℤ) := by
    rw [show (-1073 : ℤ) = 2 + -1075 by norm_num, zpow_add₀ two_ne_zero]
    norm_num
  have leastPos : (0 : ℚ) < 2 ^ (-1075 : ℤ) := by positivity
  rw [Numeral.Reads] at reads
  rw [least]
  generalize (2 : ℚ) ^ (-1075 : ℤ) = unit at written reads leastPos ⊢
  rw [abs_le] at written reads ⊢
  constructor <;> linarith

theorem magnitude_lt (value : Binary64) : value.magnitude < 2 ^ (1024 : ℤ) := by
  have few : (value.significand : ℚ) < 2 ^ 53 := by exact_mod_cast value.bounded.1
  have power : (2 : ℚ) ^ value.exponent ≤ 2 ^ (971 : ℤ) :=
    zpow_le_zpow_right₀ one_le_two value.bounded.2.2
  rw [magnitude, show (1024 : ℤ) = (53 : ℕ) + 971 by norm_num, zpow_add₀ two_ne_zero, zpow_natCast]
  have scale : (0 : ℚ) < 2 ^ value.exponent := by positivity
  generalize (2 : ℚ) ^ (971 : ℤ) = unit at power ⊢
  exact mul_lt_mul few power scale (by positivity)

private theorem cast_le_sub {size more : ℕ} (few : size + more ≤ 2 ^ 53) :
    (size : ℚ) ≤ 2 ^ 53 - more := by
  have cast : ((size + more : ℕ) : ℚ) ≤ (2 ^ 53 : ℕ) := Nat.cast_le.mpr few
  push_cast at cast
  linarith

/-- All but the three largest numbers are so far from the limit that no error leads past it. -/
theorem shortest_lt_limit {value : Binary64} (nonzero : value.significand ≠ 0)
    (less : value.exponent = 971 → value.significand + 4 ≤ 2 ^ 53) {read : ℚ}
    (holds : (Rounding.ofBinary64 value).Holds read) : read * (1 + 9 / 4 / 2 ^ 53) < limit := by
  have scale : (0 : ℚ) < 2 ^ value.exponent := by positivity
  obtain ⟨_, high⟩ := within_of_holds nonzero holds
  rw [div_le_iff₀ scale] at high
  rw [limit]
  rcases eq_or_ne value.exponent 971 with last | notLast
  · -- The last place is that of the limit, and the number is some of these places below it.
    have few := cast_le_sub (less last)
    rw [last] at high scale
    generalize (2 : ℚ) ^ (971 : ℤ) = unit at high scale ⊢
    have bound : read ≤ (2 ^ 53 - 7 / 2) * unit := by
      refine high.trans (mul_le_mul_of_nonneg_right ?_ scale.le)
      push_cast at few
      linarith
    linarith
  · have few := @cast_le_sub value.significand 1 value.bounded.1
    have twice : (2 : ℚ) ^ value.exponent * 2 ≤ 2 ^ (971 : ℤ) := by
      rw [← zpow_add_one₀ two_ne_zero]
      exact zpow_le_zpow_right₀ one_le_two (by have most := value.bounded.2.2; omega)
    generalize (2 : ℚ) ^ (971 : ℤ) = unit at twice ⊢
    generalize (2 : ℚ) ^ value.exponent = step at high scale twice
    have bound : read ≤ (2 ^ 53 - 1 / 2) * step := by
      refine high.trans (mul_le_mul_of_nonneg_right ?_ scale.le)
      push_cast at few
      linarith
    linarith

private theorem le_last {size : ℕ} {last : ℤ} (few : size < 2 ^ 58)
    (least : 2 ^ (-1075 : ℤ) ≤ (size : ℚ) * 10 ^ last) : -616 ≤ last := by
  by_contra deep
  have sizes := @cast_mul_pow_le 1 2 1133 1 10 617 (by decide +kernel)
  rw [Nat.cast_one, one_mul, one_mul, Nat.cast_ofNat, Nat.cast_ofNat, ← zpow_natCast,
    ← zpow_natCast] at sizes
  have power : (10 : ℚ) ^ last ≤ 2 ^ (-1133 : ℤ) := by
    calc (10 : ℚ) ^ last ≤ 10 ^ (-617 : ℤ) := zpow_le_zpow_right₀ (by norm_num) (by omega)
      _ ≤ 2 ^ (-1133 : ℤ) := by
          rw [zpow_neg, zpow_neg]
          exact inv_anti₀ (by positivity) sizes
  have sizeLt : (size : ℚ) < 2 ^ 58 := by exact_mod_cast few
  have above : (size : ℚ) * 10 ^ last < 2 ^ 58 * 2 ^ (-1133 : ℤ) :=
    mul_lt_mul sizeLt power (by positivity) (by positivity)
  rw [← zpow_natCast, ← zpow_add₀ two_ne_zero] at above
  exact lt_irrefl _ (least.trans_lt above)

private theorem last_le {size : ℕ} {last : ℤ} (positive : 0 < size)
    (most : (size : ℚ) * 10 ^ last < 2 ^ (1025 : ℤ)) : last ≤ 308 := by
  by_contra high
  have sizes := @cast_mul_pow_le 1 2 1025 1 10 309 (by decide +kernel)
  rw [Nat.cast_one, one_mul, one_mul, Nat.cast_ofNat, Nat.cast_ofNat, ← zpow_natCast,
    ← zpow_natCast] at sizes
  have power : (10 : ℚ) ^ ((309 : ℕ) : ℤ) ≤ 10 ^ last :=
    zpow_le_zpow_right₀ (by norm_num) (by omega)
  have one : (1 : ℚ) ≤ size := by exact_mod_cast positive
  have more : (10 : ℚ) ^ last ≤ size * 10 ^ last := le_mul_of_one_le_left (by positivity) one
  exact lt_irrefl _ (most.trans_le (sizes.trans (power.trans more)))

/-- The last digit of a shortest decimal is in reach of the powers that are read. -/
theorem last_shortest {value : Binary64} (nonzero : value.significand ≠ 0) :
    -616 ≤ (Decimal.shortest value).last ∧ (Decimal.shortest value).last ≤ 308 := by
  have holds := shortest_holds nonzero
  have worth := pos_of_holds nonzero holds
  have bound := coefficient_shortest_lt nonzero
  have scale : (0 : ℚ) < 2 ^ value.exponent := by positivity
  constructor
  · refine le_last (bound.trans (by decide)) ?_
    obtain ⟨low, _⟩ := within_of_holds nonzero holds
    have one : (1 : ℚ) ≤ value.significand := by exact_mod_cast Nat.pos_of_ne_zero nonzero
    have half := value.below_le
    have unit : (2 : ℚ) ^ (-1074 : ℤ) ≤ 2 ^ value.exponent :=
      zpow_le_zpow_right₀ one_le_two value.bounded.2.1
    rw [le_div_iff₀ scale] at low
    rw [show (-1075 : ℤ) = -1074 - 1 by norm_num, zpow_sub₀ two_ne_zero, zpow_one]
    calc (2 : ℚ) ^ (-1074 : ℤ) / 2 ≤ 1 / 2 * 2 ^ value.exponent := by linarith
      _ ≤ (value.significand - value.below) * 2 ^ value.exponent :=
          mul_le_mul_of_nonneg_right (by linarith) scale.le
      _ ≤ (Decimal.shortest value).value := low
  · refine last_le (Nat.cast_pos.mp (pos_of_mul_pos_left worth (by positivity))) ?_
    have twice := le_of_holds nonzero holds
    have most := value.magnitude_lt
    rw [show (1025 : ℤ) = 1 + 1024 by norm_num, zpow_one_add₀ two_ne_zero]
    generalize (2 : ℚ) ^ (1024 : ℤ) = unit at most ⊢
    exact twice.trans_lt (by linarith)

end Binary64

namespace Number

/-- The largest numbers are close to the limit: what is read of them is found by reading. -/
private theorem ofChars?_largest (negative : Bool) (below : Fin 3) :
    ∃ fits normal bounded regular,
      ofChars? (spelling (.real ⟨negative, 2 ^ 53 - 1 - below, 971, fits, normal⟩)) =
        some (.real ⟨negative, if below = 2 then 2 ^ 53 - 3 else 2 ^ 53 - 1, 971, bounded,
          regular⟩) := by
  refine ⟨by omega, .inr (by omega), by split <;> omega, .inr (by split <;> omega), ?_⟩
  revert negative below
  decide +kernel

private theorem exists_read_largest {value : Binary64} (last : value.exponent = 971)
    (most : 2 ^ 53 ≤ value.significand + 3) : ∃ again,
      ofChars? (spelling (.real value)) = some (.real again) ∧ value.Near again := by
  obtain ⟨negative, significand, exponent, bounded, normal⟩ := value
  obtain rfl : exponent = 971 := last
  simp only at most
  obtain ⟨below, rfl⟩ : ∃ below : Fin 3, significand = 2 ^ 53 - 1 - below :=
    ⟨⟨2 ^ 53 - 1 - significand, by omega⟩, by simp only; omega⟩
  obtain ⟨_, _, _, _, read⟩ := ofChars?_largest negative below
  refine ⟨_, read, rfl, ?_⟩
  have scale : (0 : ℚ) < 2 ^ (971 : ℤ) := by positivity
  have least : (0 : ℚ) < 2 ^ (-1073 : ℤ) := by positivity
  have bounds {size : ℕ} (low : 2 ^ 53 ≤ size + 3) (high : size ≤ 2 ^ 53) :
      (2 : ℚ) ^ 53 - 3 ≤ size ∧ (size : ℚ) ≤ 2 ^ 53 := by
    have cast : ((2 ^ 53 : ℕ) : ℚ) ≤ (size + 3 : ℕ) ∧ (size : ℚ) ≤ (2 ^ 53 : ℕ) :=
      ⟨Nat.cast_le.mpr low, Nat.cast_le.mpr high⟩
    push_cast at cast
    exact ⟨by linarith, cast.2⟩
  obtain ⟨valueLow, valueHigh⟩ := bounds most bounded.1.le
  simp only [Binary64.magnitude]
  generalize final : (if below = 2 then 2 ^ 53 - 3 else 2 ^ 53 - 1) = size
  obtain ⟨againLow, againHigh⟩ := @bounds size (by split at final <;> omega)
    (by split at final <;> omega)
  generalize (2 : ℚ) ^ (971 : ℤ) = unit at scale ⊢
  generalize (2 : ℚ) ^ (-1073 : ℤ) = small at least ⊢
  generalize ((2 ^ 53 - 1 - below : ℕ) : ℚ) = known at valueLow valueHigh ⊢
  generalize (size : ℚ) = found at againLow againHigh ⊢
  have apart : |found - known| ≤ known / 2 ^ 49 := by
    rw [abs_le]
    constructor <;> linarith
  rw [← sub_mul, abs_mul, abs_of_pos scale, mul_div_right_comm]
  linarith [mul_le_mul_of_nonneg_right apart scale.le]

private theorem coefficient_lt {value : Binary64} (nonzero : value.significand ≠ 0)
    {negative : Bool} {text : List Char} {numeral : Numeral} {zeros : ℕ}
    (written : (Decimal.shortest value).WrittenAs negative text numeral zeros) :
    numeral.coefficient < 2 ^ 64 := by
  rw [written.coefficient]
  rcases written.few with rfl | ⟨last, narrow⟩
  · have bound := Binary64.coefficient_shortest_lt nonzero
    omega
  · rw [Decimal.last] at last
    calc (Decimal.shortest value).coefficient * 10 ^ zeros < 10 ^ 17 :=
          (Binary64.significant_shortest nonzero).coefficient_lt (by omega)
      _ < 2 ^ 64 := by decide

theorem ofChars?_zero {value : Binary64} (zero : value.significand = 0) :
    ofChars? (spelling (.real value)) = some (.real value) := by
  obtain ⟨negative, significand, exponent, bounded, normal⟩ := value
  obtain rfl : significand = 0 := zero
  obtain rfl : exponent = -1074 := normal.resolve_right (by decide)
  cases negative <;> rfl

/-- Every binary64 is read back from its spelling as a number near it. -/
theorem exists_read (value : Binary64) : ∃ again,
    ofChars? (spelling (.real value)) = some (.real again) ∧ value.Near again := by
  by_cases zero : value.significand = 0
  · exact ⟨value, ofChars?_zero zero, .rfl⟩
  by_cases less : value.exponent = 971 → value.significand + 4 ≤ 2 ^ 53
  · have holds := Binary64.shortest_holds zero
    have reach := Binary64.last_shortest zero
    obtain ⟨numeral, zeros, written⟩ := exists_writtenAs zero
    have few := written.few
    have power := written.power
    have fits := coefficient_lt zero written
    rw [← written.value] at holds
    have positive : 0 < numeral.coefficient := by
      have worth := Binary64.pos_of_holds zero holds
      exact Nat.cast_pos.mp (pos_of_mul_pos_left worth (by positivity))
    obtain ⟨number, scaled, reads⟩ := Numeral.exists_scale? positive fits (by omega) (by omega)
      (Binary64.shortest_lt_limit zero less holds)
    refine ⟨number.withSign value.negative, ?_, rfl, Binary64.near_of_reads zero holds reads⟩
    rw [ofChars?_real written.spelled written.real, Numeral.real?_of_lt fits, scaled, written.sign]
    rfl
  · obtain ⟨last, most⟩ := Classical.not_imp.mp less
    exact exists_read_largest last (Nat.le_of_lt_succ (Nat.lt_of_not_le most))

/-- A plain number is read back from its spelling, sign and all. -/
theorem ofChars?_plain {value : Binary64} (nonzero : value.significand ≠ 0)
    (plain : (Decimal.shortest value).Plain) :
    ofChars? (spelling (.real value)) = some (.real value) := by
  have significant := Binary64.significant_shortest nonzero
  have holds := Binary64.shortest_holds nonzero
  have positive : 0 < (Decimal.shortest value).coefficient := by
    have worth := Binary64.pos_of_holds nonzero holds
    exact Nat.cast_pos.mp (pos_of_mul_pos_left worth (by positivity))
  obtain ⟨numeral, zeros, written⟩ := exists_writtenAs nonzero
  obtain ⟨fits, start, nonnegative, startNonzero, exact⟩ :=
    plain.exists_start significant positive written.few
  have near : -22 ≤ numeral.power ∧ numeral.power ≤ 22 := by
    have bounds := plain.near
    have power := written.power
    have few := written.few
    omega
  rw [← written.value] at holds
  rw [← written.coefficient] at exact fits
  have scaled := Numeral.scale?_of_holds nonnegative startNonzero exact near nonzero holds
  rw [ofChars?_real written.spelled written.real, Numeral.real?_of_lt fits, scaled, written.sign]
  rfl

end Number

namespace Binary64

theorem toBits_injective : Function.Injective toBits := by
  rintro ⟨sign, significand, exponent, bounded, normal⟩
    ⟨otherSign, otherSignificand, otherExponent, otherBounded, otherNormal⟩ same
  simp only [toBits] at same
  obtain rfl : sign = otherSign := by
    cases sign <;> cases otherSign <;>
      simp only [if_true, Bool.false_eq_true, if_false] at same <;> first | rfl | omega
  -- A significand without its leading bit stands only in the lowest place.
  obtain ⟨rfl, rfl⟩ : significand = otherSignificand ∧ exponent = otherExponent := by
    constructor <;> omega
  rfl

def reread (value : Binary64) : Binary64 :=
  match Number.ofChars? (Number.spelling (.real value)) with
  | some (.real again) => again
  | _ => value

private theorem reread_eq {value again : Binary64}
    (read : Number.ofChars? (Number.spelling (.real value)) = some (.real again)) :
    value.reread = again := by
  rw [reread, read]

theorem ofChars?_spelling_real (value : Binary64) :
    Number.ofChars? (Number.spelling (.real value)) = some (.real value.reread) := by
  obtain ⟨again, read, _⟩ := Number.exists_read value
  rw [reread_eq read, read]

theorem near_reread (value : Binary64) : value.Near value.reread := by
  obtain ⟨again, read, near⟩ := Number.exists_read value
  rwa [reread_eq read]

theorem reread_zero {value : Binary64} (zero : value.significand = 0) : value.reread = value :=
  reread_eq (Number.ofChars?_zero zero)

theorem reread_plain {value : Binary64} (plain : (Decimal.shortest value).Plain) :
    value.reread = value := by
  by_cases zero : value.significand = 0
  · exact reread_zero zero
  · exact reread_eq (Number.ofChars?_plain zero plain)

end Binary64

namespace Number

theorem exists_spelled (number : Number) :
    ∃ numeral : Numeral, numeral.Spelled number.spelling := by
  cases number with
  | integer value fits =>
    have size := Numeral.spelled_toDigits value.natAbs
    rw [spelling]
    split
    · exact ⟨_, size.minus rfl⟩
    · exact ⟨_, size⟩
  | real value =>
    by_cases zero : value.significand = 0
    · have whole : Numeral.Spelled ⟨false, ['0'], some ['0'], none⟩ ['0', '.', '0'] :=
        .unsigned (Numeral.whole_toDigits 0)
          (.present (List.cons_ne_nil _ _) (List.forall_mem_singleton.mpr rfl)) .absent
      have isZero : value.isZero = true := beq_iff_eq.mpr zero
      simp only [spelling, DecimalStyle.write, isZero, if_true]
      split
      · exact ⟨_, whole.minus rfl⟩
      · exact ⟨_, whole⟩
    · obtain ⟨numeral, zeros, written⟩ := exists_writtenAs zero
      exact ⟨numeral, written.spelled⟩

def reread : Number → Number
  | integer value fits => integer value fits
  | real value => real value.reread

theorem ofChars?_reread (number : Number) : ofChars? number.spelling = some number.reread := by
  cases number with
  | integer value fits => exact ofChars?_spelling value fits
  | real value => exact Binary64.ofChars?_spelling_real value

end Number

end TraceContainer
