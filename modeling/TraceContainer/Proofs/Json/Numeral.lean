import Mathlib.Data.List.TakeWhile
import TraceContainer.Json.Numeral
import TraceContainer.Proofs.Numeric.Decimal

namespace TraceContainer

namespace Numeral

/-- Digits as they begin a number: at least one, and no needless zero in front. -/
structure Whole (digits : List Char) : Prop where
  nonempty : digits ≠ []
  all : ∀ digit ∈ digits, digit.isDigit = true
  noZero : digits.head? = some '0' → digits.length = 1

inductive SpelledFraction : Option (List Char) → List Char → Prop where
  | absent : SpelledFraction none []
  | present {digits : List Char} (nonempty : digits ≠ [])
      (all : ∀ digit ∈ digits, digit.isDigit = true) : SpelledFraction (some digits) ('.' :: digits)

inductive SpelledPower : Option Int → List Char → Prop where
  | absent : SpelledPower none []
  | positive (size : Nat) : SpelledPower (some (size : Int)) ('e' :: '+' :: Nat.toDigits 10 size)
  | negative (size : Nat) : SpelledPower (some (-(size : Int))) ('e' :: '-' :: Nat.toDigits 10 size)

/-- A numeral and the text that spells it. -/
inductive Spelled : Numeral → List Char → Prop where
  | unsigned {whole point power : List Char} {fraction : Option (List Char)}
      {exponent : Option Int} (first : Whole whole) (second : SpelledFraction fraction point)
      (third : SpelledPower exponent power) :
      Spelled ⟨false, whole, fraction, exponent⟩ (whole ++ (point ++ power))
  | minus {numeral : Numeral} {text : List Char} (spelled : Spelled numeral text)
      (nonnegative : numeral.negative = false) :
      Spelled { numeral with negative := true } ('-' :: text)

theorem whole_toDigits (number : Nat) : Whole (Nat.toDigits 10 number) where
  nonempty := Nat.toDigits_ne_nil
  all := fun _ member => Nat.isDigit_of_mem_toDigits (by decide) (by decide) member
  noZero := by
    intro zero
    by_cases positive : 0 < number
    · exact absurd zero (head?_toDigits positive)
    · rw [Nat.eq_zero_of_not_pos positive, Nat.toDigits_zero]
      rfl

private theorem Whole.valid {digits : List Char} (whole : Whole digits) :
    ¬ (digits.isEmpty = true ∨ digits.head? = some '0' ∧ digits.length ≠ 1) := by
  rintro (empty | ⟨zero, long⟩)
  · exact whole.nonempty (List.isEmpty_iff.mp empty)
  · exact long (whole.noZero zero)

/-- Neither a point nor the mark of a power goes on with the digits in front of it. -/
private theorem takeWhile_power {exponent : Option Int} {power : List Char}
    (third : SpelledPower exponent power) : power.takeWhile Char.isDigit = [] := by
  cases third <;> rfl

private theorem takeWhile_point {fraction : Option (List Char)} {exponent : Option Int}
    {point power : List Char} (second : SpelledFraction fraction point)
    (third : SpelledPower exponent power) : (point ++ power).takeWhile Char.isDigit = [] := by
  cases second with
  | absent => exact takeWhile_power third
  | present => rfl

private theorem span_digits {digits rest : List Char} (all : ∀ digit ∈ digits, digit.isDigit = true)
    (ends : rest.takeWhile Char.isDigit = []) :
    (digits ++ rest).takeWhile Char.isDigit = digits ∧
      (digits ++ rest).dropWhile Char.isDigit = rest := by
  have taken : (digits ++ rest).takeWhile Char.isDigit = digits := by
    rw [List.takeWhile_append_of_pos all, ends, List.append_nil]
  have parts := List.takeWhile_append_dropWhile (p := Char.isDigit) (l := digits ++ rest)
  rw [taken] at parts
  exact ⟨taken, List.append_cancel_left parts⟩

private theorem readFraction?_spelled {fraction : Option (List Char)} {exponent : Option Int}
    {point power : List Char} (second : SpelledFraction fraction point)
    (third : SpelledPower exponent power) :
    readFraction? (point ++ power) = some (fraction, power) := by
  cases second with
  | absent => cases third <;> rfl
  | present nonempty all =>
    obtain ⟨taken, left⟩ := span_digits all (takeWhile_power third)
    rw [List.cons_append, readFraction?, taken, left]
    exact if_neg fun empty => nonempty (List.isEmpty_iff.mp empty)

private theorem readExponent?_spelled {exponent : Option Int} {power : List Char}
    (third : SpelledPower exponent power) : readExponent? power = some exponent := by
  have digits (size : Nat) : Nat.toDigits 10 size ≠ [] ∧
      (Nat.toDigits 10 size).all Char.isDigit = true :=
    ⟨Nat.toDigits_ne_nil, List.all_eq_true.mpr (whole_toDigits size).all⟩
  cases third with
  | absent => rfl
  | positive size =>
    simp only [readExponent?, readSign]
    rw [if_pos ⟨.inl trivial, digits size⟩, Nat.ofDigitChars_ten_toDigits]
    rfl
  | negative size =>
    simp only [readExponent?, readSign]
    rw [if_pos ⟨.inl trivial, digits size⟩, Nat.ofDigitChars_ten_toDigits]
    rfl

private theorem ofChars?_digits {whole point power : List Char} {fraction : Option (List Char)}
    {exponent : Option Int} (first : Whole whole) (second : SpelledFraction fraction point)
    (third : SpelledPower exponent power) :
    ofChars? (whole ++ (point ++ power)) = some ⟨false, whole, fraction, exponent⟩ ∧
      ofChars? ('-' :: (whole ++ (point ++ power))) = some ⟨true, whole, fraction, exponent⟩ := by
  obtain ⟨taken, left⟩ := span_digits first.all (takeWhile_point second third)
  constructor
  · unfold ofChars?
    split
    rename_i negative text same
    split at same
    · rename_i rest minus
      obtain ⟨digit, others, rfl⟩ := List.exists_cons_of_ne_nil first.nonempty
      cases minus
      exact absurd (first.all '-' List.mem_cons_self) (by decide)
    · cases same
      simp only [taken, left, if_neg first.valid, readFraction?_spelled second third,
        readExponent?_spelled third, Option.bind_eq_bind, Option.bind_some]
      rfl
  · simp only [ofChars?, taken, left, if_neg first.valid, readFraction?_spelled second third,
      readExponent?_spelled third, Option.bind_eq_bind, Option.bind_some]
    rfl

theorem spelled_toDigits (number : Nat) :
    Spelled ⟨false, Nat.toDigits 10 number, none, none⟩ (Nat.toDigits 10 number) := by
  have plain := Spelled.unsigned (whole_toDigits number) .absent .absent
  rwa [List.append_nil, List.append_nil] at plain

/-- A numeral is read back from the text that spells it. -/
theorem ofChars?_spelled {numeral : Numeral} {text : List Char} (spelled : Spelled numeral text) :
    ofChars? text = some numeral := by
  cases spelled with
  | unsigned first second third => exact (ofChars?_digits first second third).1
  | minus spelled nonnegative =>
    cases spelled with
    | unsigned first second third => exact (ofChars?_digits first second third).2
    | minus => cases nonnegative

def isPart (char : Char) : Bool :=
  char.isDigit || ['-', '+', '.', 'e'].contains char

private theorem isPart_of_isDigit {digits : List Char}
    (all : ∀ digit ∈ digits, digit.isDigit = true) : ∀ digit ∈ digits, isPart digit = true :=
  fun digit inside => Bool.or_eq_true_iff.mpr (.inl (all digit inside))

theorem isPart_of_spelled {numeral : Numeral} {text : List Char} (spelled : Spelled numeral text) :
    ∀ char ∈ text, isPart char = true := by
  induction spelled with
  | unsigned first second third =>
    simp only [List.forall_mem_append]
    refine ⟨isPart_of_isDigit first.all, ?_, ?_⟩
    · cases second with
      | absent => exact nofun
      | present nonempty all => exact List.forall_mem_cons.mpr ⟨rfl, isPart_of_isDigit all⟩
    · cases third with
      | absent => exact nofun
      | positive size | negative size =>
        simp only [List.forall_mem_cons]
        exact ⟨rfl, rfl, isPart_of_isDigit (whole_toDigits size).all⟩
  | minus spelled nonnegative ih => exact List.forall_mem_cons.mpr ⟨rfl, ih⟩

theorem ne_nil_of_spelled {numeral : Numeral} {text : List Char} (spelled : Spelled numeral text) :
    text ≠ [] := by
  cases spelled with
  | unsigned first second third => exact List.append_ne_nil_of_left_ne_nil first.nonempty _
  | minus => exact List.cons_ne_nil _ _

theorem integer?_toDigits (number : Nat) :
    integer? ⟨false, Nat.toDigits 10 number, none, none⟩ = some (number : Int) := by
  simp only [integer?, Nat.ofDigitChars_ten_toDigits, Option.isSome_none, Bool.false_eq_true,
    or_self, if_false]

theorem integer?_negative {number : Nat} (positive : 0 < number) :
    integer? ⟨true, Nat.toDigits 10 number, none, none⟩ = some (-(number : Int)) := by
  cases number with
  | zero => exact absurd positive (Nat.lt_irrefl 0)
  | succ rest =>
    simp only [integer?, Nat.ofDigitChars_ten_toDigits, Option.isSome_none, Bool.false_eq_true,
      or_self, if_false]
    rfl

end Numeral

namespace Number

/-- An integer of 64 bits is read back from its digits. -/
theorem ofChars?_spelling (value : Int) (fits : -2 ^ 63 ≤ value ∧ value < 2 ^ 64) :
    ofChars? (spelling (.integer value fits)) = some (.integer value fits) := by
  have spelled := Numeral.spelled_toDigits value.natAbs
  have kept {numeral : Numeral} (integer : numeral.integer? = some value) :
      numeral.number? = some (.integer value fits) := by
    rw [Numeral.number?, integer]
    exact dif_pos fits
  rw [ofChars?, spelling]
  split
  · rename_i negative
    have integer := Numeral.integer?_negative (show 0 < value.natAbs by omega)
    rw [show -(value.natAbs : Int) = value by omega] at integer
    rw [Numeral.ofChars?_spelled (spelled.minus rfl), Option.bind_eq_bind, Option.bind_some]
    exact kept integer
  · rename_i nonnegative
    have integer := Numeral.integer?_toDigits value.natAbs
    rw [show (value.natAbs : Int) = value by omega] at integer
    rw [Numeral.ofChars?_spelled spelled, Option.bind_eq_bind, Option.bind_some]
    exact kept integer

end Number

end TraceContainer
