import TraceContainer.Proofs.Json.Numeral
import TraceContainer.Proofs.Numeric.Shortest

namespace TraceContainer

namespace Numeral

def coefficient (numeral : Numeral) : ℕ :=
  Nat.ofDigitChars 10 (numeral.whole ++ numeral.fraction.getD []) 0

def power (numeral : Numeral) : ℤ :=
  numeral.exponent.getD 0 - (numeral.fraction.getD []).length

theorem absorb_of_lt {digits : List Char} {start : ℕ}
    (fits : Nat.ofDigitChars 10 digits start < 2 ^ 64) :
    absorb start digits = (Nat.ofDigitChars 10 digits start, 0) := by
  induction digits generalizing start with
  | nil => rfl
  | cons digit rest ih =>
    rw [Nat.ofDigitChars_cons] at fits ⊢
    have grows : 10 * start + (digit.toNat - '0'.toNat) ≤
        Nat.ofDigitChars 10 rest (10 * start + (digit.toNat - '0'.toNat)) :=
      le_ofDigitChars rest _
    rw [absorb, if_pos (grows.trans_lt fits), ih fits]

theorem real?_of_lt {numeral : Numeral} (fits : numeral.coefficient < 2 ^ 64) :
    numeral.real? =
      (scale? numeral.coefficient numeral.power).map (·.withSign numeral.negative) := by
  rw [coefficient, Nat.ofDigitChars_append] at fits
  have front : Nat.ofDigitChars 10 numeral.whole 0 < 2 ^ 64 :=
    Nat.lt_of_le_of_lt (le_ofDigitChars _ _) fits
  rw [real?, absorb_of_lt front]
  simp only [absorb_of_lt fits, coefficient, power, Nat.ofDigitChars_append]
  congr 2
  omega

/-- What is spelled with a point or a power is no integer. -/
theorem number?_of_real {numeral : Numeral}
    (real : numeral.fraction.isSome ∨ numeral.exponent.isSome) :
    numeral.number? = numeral.real?.map .real := by
  rw [number?, integer?, if_pos real]

end Numeral

namespace Decimal

/-- A numeral spells a decimal under a sign, with zeros behind its digits. These lead up to the
point and one place behind it, and stand only where the whole is written positionally. -/
structure WrittenAs (decimal : Decimal) (negative : Bool) (text : List Char) (numeral : Numeral)
    (zeros : ℕ) : Prop where
  spelled : numeral.Spelled text
  sign : numeral.negative = negative
  real : numeral.fraction.isSome ∨ numeral.exponent.isSome
  coefficient : numeral.coefficient = decimal.coefficient * 10 ^ zeros
  power : numeral.power = decimal.last - zeros
  few : zeros = 0 ∨ (zeros : ℤ) = decimal.last + 1 ∧ decimal.leading ≤ 15

theorem WrittenAs.minus {decimal : Decimal} {text : List Char} {numeral : Numeral} {zeros : ℕ}
    (written : decimal.WrittenAs false text numeral zeros) :
    decimal.WrittenAs true ('-' :: text) { numeral with negative := true } zeros where
  spelled := written.spelled.minus written.sign
  sign := rfl
  real := written.real
  coefficient := written.coefficient
  power := written.power
  few := written.few

/-- The zeros change nothing about what the digits are worth. -/
theorem WrittenAs.value {decimal : Decimal} {negative : Bool} {text : List Char}
    {numeral : Numeral} {zeros : ℕ} (written : decimal.WrittenAs negative text numeral zeros) :
    (numeral.coefficient : ℚ) * 10 ^ numeral.power = decimal.value := by
  rw [written.coefficient, written.power, Decimal.value, zpow_sub₀ (by norm_num), zpow_natCast]
  push_cast
  field_simp

variable {decimal : Decimal}

private theorem zero_isDigit (count : ℕ) :
    ∀ digit ∈ List.replicate count '0', digit.isDigit = true := by
  intro digit inside
  rw [(List.mem_replicate.mp inside).2]
  rfl

private theorem written_integer (significant : decimal.Significant) {place : ℕ}
    (leading : decimal.leading = place) (short : decimal.digits.length ≤ place + 1)
    (narrow : decimal.leading ≤ 15) :
    decimal.WrittenAs false decimal.positional
      ⟨false, decimal.digits ++ List.replicate (place + 1 - decimal.digits.length) '0', some ['0'],
        none⟩ (place + 2 - decimal.digits.length) where
  spelled := by
    have whole : Numeral.Whole
        (decimal.digits ++ List.replicate (place + 1 - decimal.digits.length) '0') := by
      refine ⟨List.append_ne_nil_of_left_ne_nil significant.nonempty _,
        List.forall_mem_append.mpr ⟨significant.all, zero_isDigit _⟩, fun zero => ?_⟩
      rw [List.head?_append_of_ne_nil _ significant.nonempty] at zero
      exact absurd zero significant.noZero
    have spelled := Numeral.Spelled.unsigned whole
      (.present (List.cons_ne_nil '0' []) (zero_isDigit 1)) .absent
    simp only [positional, leading, List.take_of_length_le short, List.drop_of_length_le short]
    exact spelled
  sign := rfl
  real := .inl rfl
  coefficient := by
    have zeros : place + 2 - decimal.digits.length =
        place + 1 - decimal.digits.length + 1 := by omega
    have digits :
        decimal.digits ++ List.replicate (place + 1 - decimal.digits.length) '0' ++ ['0'] =
          decimal.digits ++ List.replicate (place + 2 - decimal.digits.length) '0' := by
      rw [zeros, List.replicate_succ', List.append_assoc]
    simp only [Numeral.coefficient, Option.getD_some]
    rw [digits, Nat.ofDigitChars_append, Nat.ofDigitChars_replicate_zero, Nat.mul_comm,
      Decimal.coefficient]
  power := by
    rw [last, leading]
    simp only [Numeral.power, Option.getD_none, Option.getD_some, List.length_singleton]
    omega
  few := by
    refine .inr ⟨?_, narrow⟩
    rw [last, leading]
    omega

private theorem written_mixed (significant : decimal.Significant) {place : ℕ}
    (leading : decimal.leading = place) (long : place + 1 < decimal.digits.length) :
    decimal.WrittenAs false decimal.positional ⟨false, decimal.digits.take (place + 1),
      some (decimal.digits.drop (place + 1)), none⟩ 0 where
  spelled := by
    have taken : (decimal.digits.take (place + 1)).length = place + 1 :=
      List.length_take_of_le long.le
    have dropped : decimal.digits.drop (place + 1) ≠ [] := by
      rw [ne_eq, List.drop_eq_nil_iff]
      omega
    have whole : Numeral.Whole (decimal.digits.take (place + 1)) := by
      refine ⟨List.ne_nil_of_length_pos (by omega),
        fun digit inside => significant.all digit (List.mem_of_mem_take inside), fun zero => ?_⟩
      rw [List.head?_take, if_neg (Nat.succ_ne_zero place)] at zero
      exact absurd zero significant.noZero
    have spelled := Numeral.Spelled.unsigned whole
      (.present dropped fun digit inside => significant.all digit (List.mem_of_mem_drop inside))
      .absent
    simp only [positional, leading, taken, Nat.sub_self, List.replicate_zero, List.append_nil,
      if_neg fun empty => dropped (List.isEmpty_iff.mp empty)]
    rwa [List.append_nil] at spelled
  sign := rfl
  real := .inl rfl
  coefficient := by
    simp only [Numeral.coefficient, Option.getD_some, List.take_append_drop, pow_zero, mul_one]
    rfl
  power := by
    rw [last, leading]
    simp only [Numeral.power, Option.getD_none, Option.getD_some, List.length_drop]
    omega
  few := .inl rfl

private theorem written_fraction (significant : decimal.Significant) {before : ℕ}
    (leading : decimal.leading = Int.negSucc before) :
    decimal.WrittenAs false decimal.positional
      ⟨false, ['0'], some (List.replicate before '0' ++ decimal.digits), none⟩ 0 where
  spelled := by
    have spelled := Numeral.Spelled.unsigned (Numeral.whole_toDigits 0)
      (.present (List.append_ne_nil_of_right_ne_nil _ significant.nonempty)
        (List.forall_mem_append.mpr ⟨zero_isDigit before, significant.all⟩)) .absent
    simp only [positional, leading]
    rwa [List.append_nil] at spelled
  sign := rfl
  real := .inl rfl
  coefficient := by
    have digits : ['0'] ++ (List.replicate before '0' ++ decimal.digits) =
        List.replicate (before + 1) '0' ++ decimal.digits := by
      rw [List.replicate_succ]
      rfl
    simp only [Numeral.coefficient, Option.getD_some]
    rw [digits, Nat.ofDigitChars_append, Nat.ofDigitChars_replicate_zero, mul_zero, pow_zero,
      mul_one, Decimal.coefficient]
  power := by
    rw [last, leading, Int.negSucc_eq]
    simp only [Numeral.power, Option.getD_none, Option.getD_some, List.length_append,
      List.length_replicate]
    omega
  few := .inl rfl

theorem exists_positional (significant : decimal.Significant) (narrow : decimal.leading ≤ 15) :
    ∃ numeral zeros, decimal.WrittenAs false decimal.positional numeral zeros := by
  cases leading : decimal.leading with
  | ofNat place =>
    rcases Nat.lt_or_ge (place + 1) decimal.digits.length with long | short
    · exact ⟨_, _, written_mixed significant leading long⟩
    · exact ⟨_, _, written_integer significant leading short narrow⟩
  | negSucc before => exact ⟨_, _, written_fraction significant leading⟩

/-- With a power of ten, the point stands behind the first digit if others follow. -/
private theorem written_scientific (significant : decimal.Significant) {first : Char}
    {rest : List Char} (digits : decimal.digits = first :: rest) :
    decimal.WrittenAs false decimal.scientific
      ⟨false, [first], if rest.isEmpty then none else some rest, some decimal.leading⟩ 0 where
  spelled := by
    have all := significant.all
    rw [digits, List.forall_mem_cons] at all
    have whole : Numeral.Whole [first] :=
      ⟨List.cons_ne_nil _ _, List.forall_mem_singleton.mpr all.1, fun _ => rfl⟩
    have second : Numeral.SpelledFraction (if rest.isEmpty then none else some rest)
        (if rest.isEmpty then [] else '.' :: rest) := by
      split
      · exact .absent
      · rename_i more
        exact .present (fun empty => more (List.isEmpty_iff.mpr empty)) all.2
    have third : Numeral.SpelledPower (some decimal.leading)
        ('e' :: (if decimal.leading < 0 then '-' else '+') ::
          Nat.toDigits 10 decimal.leading.natAbs) := by
      split
      · rename_i negative
        have power := Numeral.SpelledPower.negative decimal.leading.natAbs
        rwa [Int.ofNat_natAbs_of_nonpos negative.le, neg_neg] at power
      · rename_i nonnegative
        have power := Numeral.SpelledPower.positive decimal.leading.natAbs
        rwa [Int.natAbs_of_nonneg (not_lt.mp nonnegative)] at power
    have spelled := Numeral.Spelled.unsigned whole second third
    rw [scientific, digits, List.append_assoc]
    exact spelled
  sign := rfl
  real := .inr rfl
  coefficient := by
    have fraction : (if rest.isEmpty then none else some rest).getD [] = rest := by
      cases rest <;> rfl
    simp only [Numeral.coefficient, fraction]
    rw [List.singleton_append, ← digits, pow_zero, mul_one, Decimal.coefficient]
  power := by
    have fraction : (if rest.isEmpty then none else some rest).getD [] = rest := by
      cases rest <;> rfl
    simp only [Numeral.power, fraction, Option.getD_some]
    rw [last, digits, List.length_cons]
    omega
  few := .inl rfl

theorem exists_scientific (significant : decimal.Significant) :
    ∃ numeral, decimal.WrittenAs false decimal.scientific numeral 0 := by
  obtain ⟨first, rest, digits⟩ := List.exists_cons_of_ne_nil significant.nonempty
  exact ⟨_, written_scientific significant digits⟩

end Decimal

namespace Number

theorem ofChars?_real {numeral : Numeral} {text : List Char} (spelled : numeral.Spelled text)
    (real : numeral.fraction.isSome ∨ numeral.exponent.isSome) :
    ofChars? text = numeral.real?.map .real := by
  rw [ofChars?, Numeral.ofChars?_spelled spelled, Option.bind_eq_bind, Option.bind_some,
    Numeral.number?_of_real real]

/-- A number that is not zero is spelled by the digits of its shortest decimal. -/
theorem exists_writtenAs {value : Binary64} (nonzero : value.significand ≠ 0) :
    ∃ numeral zeros, (Decimal.shortest value).WrittenAs value.negative (spelling (.real value))
      numeral zeros := by
  have significant := Binary64.significant_shortest nonzero
  have notZero : value.isZero = false := beq_eq_false_iff_ne.mpr nonzero
  obtain ⟨text, same, numeral, zeros, written⟩ : ∃ text,
      spelling (.real value) = (if value.negative then '-' :: text else text) ∧
        ∃ numeral zeros, (Decimal.shortest value).WrittenAs false text numeral zeros := by
    rw [spelling, DecimalStyle.write]
    simp only [notZero, Bool.false_eq_true, if_false]
    refine ⟨_, rfl, ?_⟩
    split
    · rename_i inside
      exact Decimal.exists_positional significant inside.2
    · obtain ⟨numeral, written⟩ := Decimal.exists_scientific significant
      exact ⟨numeral, 0, written⟩
  rw [same]
  cases value.negative with
  | false => exact ⟨numeral, zeros, written⟩
  | true => exact ⟨_, zeros, written.minus⟩

end Number

end TraceContainer
