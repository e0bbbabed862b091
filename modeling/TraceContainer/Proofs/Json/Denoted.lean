import TraceContainer.Json.Integer
import TraceContainer.Proofs.Numeric.Decimal

/-! Which integers values denote, said without a reader. Reading digits one by one in a word of 128
bits finds every integer that the word holds, and nothing else, however many digits there are. -/
namespace TraceContainer

namespace Text

/-- A text that spells an integer: ASCII digits behind at most one sign. -/
inductive Spells : List Char → Int → Prop where
  | plain {digits : List Char} (nonempty : digits ≠ [])
      (ascii : ∀ digit ∈ digits, digit.isDigit = true) :
      Spells digits (Nat.ofDigitChars 10 digits 0)
  | plus {digits : List Char} (nonempty : digits ≠ [])
      (ascii : ∀ digit ∈ digits, digit.isDigit = true) :
      Spells ('+' :: digits) (Nat.ofDigitChars 10 digits 0)
  | minus {digits : List Char} (nonempty : digits ≠ [])
      (ascii : ∀ digit ∈ digits, digit.isDigit = true) :
      Spells ('-' :: digits) (-(Nat.ofDigitChars 10 digits 0 : Nat))

def Wide (number : Int) : Prop :=
  -2 ^ 127 ≤ number ∧ number < 2 ^ 127

private def onSide (negative : Bool) (size : Nat) : Int :=
  if negative then -size else size

private theorem Wide.of_le {negative : Bool} {size larger : Nat}
    (wide : Wide (onSide negative larger)) (smaller : size ≤ larger) :
    Wide (onSide negative size) := by
  cases negative <;> simp only [Wide, onSide, Bool.false_eq_true, if_true, if_false] at wide ⊢ <;>
    omega

theorem wide?_eq_some_iff {number result : Int} :
    wide? number = some result ↔ result = number ∧ Wide number := by
  rw [wide?, Option.ite_none_right_eq_some, Option.some.injEq, and_comm, eq_comm, Wide]

theorem readOnto_eq_some_iff {negative : Bool} {size : Nat} {digits : List Char} {result : Int}
    (wide : Wide (onSide negative size)) :
    readOnto negative (onSide negative size) digits = some result ↔
      (∀ digit ∈ digits, digit.isDigit = true) ∧
        result = onSide negative (Nat.ofDigitChars 10 digits size) ∧ Wide result := by
  induction digits generalizing size with
  | nil =>
    rw [readOnto, Nat.ofDigitChars_nil, Option.some.injEq]
    constructor
    · rintro rfl
      exact ⟨nofun, rfl, wide⟩
    · rintro ⟨_, same, _⟩
      exact same.symm
  | cons digit rest ih =>
    rw [readOnto, Nat.ofDigitChars_cons, List.forall_mem_cons]
    by_cases ascii : digit.isDigit = true
    · rw [if_pos ascii]
      generalize digit.toNat - '0'.toNat = value
      have shifted : 10 * onSide negative size = onSide negative (10 * size) := by
        cases negative <;> simp only [onSide, Bool.false_eq_true, if_true, if_false] <;> omega
      have next : (if negative = true then onSide negative (10 * size) - (value : Int)
          else onSide negative (10 * size) + (value : Int)) =
            onSide negative (10 * size + value) := by
        cases negative <;> simp only [onSide, Bool.false_eq_true, if_true, if_false] <;> omega
      rw [shifted]
      constructor
      · intro read
        obtain ⟨_, first, later⟩ := Option.bind_eq_some_iff.mp read
        obtain ⟨rfl, _⟩ := wide?_eq_some_iff.mp first
        obtain ⟨_, second, last⟩ := Option.bind_eq_some_iff.mp later
        obtain ⟨rfl, fits⟩ := wide?_eq_some_iff.mp second
        rw [next] at fits last
        obtain ⟨others, same, whole⟩ := (ih fits).mp last
        exact ⟨⟨ascii, others⟩, same, whole⟩
      · -- The digits lead away from zero, so what fits in the end has fitted on the way.
        rintro ⟨⟨_, others⟩, same, whole⟩
        have fits : Wide (onSide negative (10 * size + value)) :=
          (same ▸ whole).of_le (le_ofDigitChars rest _)
        have before : Wide (onSide negative (10 * size)) := fits.of_le (Nat.le_add_right _ _)
        refine Option.bind_eq_some_iff.mpr ⟨_, wide?_eq_some_iff.mpr ⟨rfl, before⟩, ?_⟩
        refine Option.bind_eq_some_iff.mpr ⟨_, wide?_eq_some_iff.mpr ⟨next.symm, ?_⟩, ?_⟩
        · rw [next]
          exact fits
        · exact (ih fits).mpr ⟨others, same, whole⟩
    · rw [if_neg ascii]
      exact ⟨nofun, fun digits => absurd digits.1.1 ascii⟩

private theorem readDigits?_eq_some_iff {negative : Bool} {digits : List Char} {result : Int} :
    readDigits? negative digits = some result ↔
      (digits ≠ [] ∧ ∀ digit ∈ digits, digit.isDigit = true) ∧
        result = onSide negative (Nat.ofDigitChars 10 digits 0) ∧ Wide result := by
  have zero : onSide negative 0 = 0 := by cases negative <;> rfl
  have wide : Wide (onSide negative 0) := by rw [zero]; exact ⟨by decide, by decide⟩
  rw [readDigits?]
  by_cases empty : digits = []
  · simp [empty]
  · rw [if_neg (mt List.isEmpty_iff.mp empty), ← zero, readOnto_eq_some_iff wide, and_assoc]
    exact (and_iff_right empty).symm

theorem signed?_eq_some_iff {text : List Char} {number : Int} :
    signed? text = some number ↔ Spells text number ∧ Wide number := by
  unfold signed?
  split
  · rw [readDigits?_eq_some_iff]
    constructor
    · rintro ⟨⟨nonempty, ascii⟩, rfl, wide⟩
      exact ⟨.minus nonempty ascii, wide⟩
    · rintro ⟨spells, wide⟩
      cases spells with
      | plain _ ascii => exact absurd (List.forall_mem_cons.mp ascii).1 (by decide)
      | minus nonempty ascii => exact ⟨⟨nonempty, ascii⟩, rfl, wide⟩
  · rw [readDigits?_eq_some_iff]
    constructor
    · rintro ⟨⟨nonempty, ascii⟩, rfl, wide⟩
      exact ⟨.plus nonempty ascii, wide⟩
    · rintro ⟨spells, wide⟩
      cases spells with
      | plain _ ascii => exact absurd (List.forall_mem_cons.mp ascii).1 (by decide)
      | plus nonempty ascii => exact ⟨⟨nonempty, ascii⟩, rfl, wide⟩
  · rename_i noMinus noPlus
    rw [readDigits?_eq_some_iff]
    constructor
    · rintro ⟨⟨nonempty, ascii⟩, rfl, wide⟩
      exact ⟨.plain nonempty ascii, wide⟩
    · rintro ⟨spells, wide⟩
      cases spells with
      | plain nonempty ascii => exact ⟨⟨nonempty, ascii⟩, rfl, wide⟩
      | plus => exact absurd rfl (noPlus _)
      | minus => exact absurd rfl (noMinus _)

private theorem isBlank_of_isDigit {char : Char} (digit : char.isDigit = true) :
    isBlank char = false := by
  have zero : '0'.toNat = 48 := rfl
  have nine : '9'.toNat = 57 := rfl
  rw [Char.isDigit_iff_toNat, zero, nine] at digit
  simp only [isBlank, blankRanges, List.any_cons, List.any_nil, Bool.or_eq_false_iff,
    Bool.and_eq_false_iff, decide_eq_false_iff_not, and_true]
  omega

/-- No white space stands in a text that spells an integer. -/
theorem Spells.isBlank {text : List Char} {number : Int} (spells : Spells text number) :
    text ≠ [] ∧ ∀ char ∈ text, Text.isBlank char = false := by
  cases spells with
  | plain nonempty ascii =>
    exact ⟨nonempty, fun char inside => isBlank_of_isDigit (ascii char inside)⟩
  | plus _ ascii | minus _ ascii =>
    refine ⟨List.cons_ne_nil _ _, List.forall_mem_cons.mpr ⟨by decide, ?_⟩⟩
    exact fun char inside => isBlank_of_isDigit (ascii char inside)

private theorem dropWhile_isBlank {before core after : List Char}
    (blank : ∀ char ∈ before, isBlank char = true)
    (visible : core ≠ [] ∧ ∀ char ∈ core, isBlank char = false) :
    (before ++ (core ++ after)).dropWhile isBlank = core ++ after := by
  obtain ⟨nonempty, visible⟩ := visible
  obtain ⟨first, rest, rfl⟩ := List.exists_cons_of_ne_nil nonempty
  have notBlank : ¬ isBlank first = true := by
    rw [visible first List.mem_cons_self]
    exact Bool.false_ne_true
  rw [List.dropWhile_append_of_pos blank, List.cons_append, List.dropWhile_cons_of_neg notBlank]

theorem trim_eq {before core after : List Char}
    (blankBefore : ∀ char ∈ before, isBlank char = true)
    (blankAfter : ∀ char ∈ after, isBlank char = true)
    (visible : core ≠ [] ∧ ∀ char ∈ core, isBlank char = false) :
    trim (before ++ core ++ after) = core := by
  have reversed : (core ++ after).reverse = after.reverse ++ (core.reverse ++ []) := by
    rw [List.reverse_append, List.append_nil]
  have visibleReversed : core.reverse ≠ [] ∧ ∀ char ∈ core.reverse, isBlank char = false :=
    ⟨mt List.reverse_eq_nil_iff.mp visible.1,
      fun char inside => visible.2 char (List.mem_reverse.mp inside)⟩
  rw [trim, List.append_assoc, dropWhile_isBlank blankBefore visible, reversed,
    dropWhile_isBlank (fun char inside => blankAfter char (List.mem_reverse.mp inside))
      visibleReversed, List.append_nil, List.reverse_reverse]

theorem exists_trim (text : List Char) :
    ∃ before after, text = before ++ trim text ++ after ∧
      (∀ char ∈ before, isBlank char = true) ∧ ∀ char ∈ after, isBlank char = true := by
  refine ⟨text.takeWhile isBlank, (text.dropWhile isBlank).rtakeWhile isBlank, ?_,
    fun char inside => List.mem_takeWhile_imp inside,
    fun char inside => List.mem_rtakeWhile_imp inside⟩
  have front : text.takeWhile isBlank ++ text.dropWhile isBlank = text :=
    List.takeWhile_append_dropWhile
  have back : trim text ++ (text.dropWhile isBlank).rtakeWhile isBlank = text.dropWhile isBlank :=
    List.rdropWhile_append_rtakeWhile
  rw [List.append_assoc, back, front]

end Text

namespace Json

/-- A value denotes an integer of any size: it is a number kept as that integer, or a string that
spells it between white space. -/
inductive Denotes : Json → Int → Prop where
  | number (value : Int) (fits : -2 ^ 63 ≤ value ∧ value < 2 ^ 64) :
      Denotes (.number (.integer value fits)) value
  | string {text : String} {before core after : List Char} {value : Int}
      (whole : text.toList = before ++ core ++ after)
      (blankBefore : ∀ char ∈ before, Text.isBlank char = true)
      (blankAfter : ∀ char ∈ after, Text.isBlank char = true)
      (spells : Text.Spells core value) : Denotes (.string text) value

private theorem denotes_string_iff {text : String} {number : Int} :
    Denotes (.string text) number ↔ Text.Spells (Text.trim text.toList) number := by
  constructor
  · intro denotes
    cases denotes with
    | string whole blankBefore blankAfter spells =>
      rwa [whole, Text.trim_eq blankBefore blankAfter spells.isBlank]
  · intro spells
    obtain ⟨before, after, whole, blankBefore, blankAfter⟩ := Text.exists_trim text.toList
    exact .string whole blankBefore blankAfter spells

/-- What is read is what is denoted, as far as 128 bits go. -/
theorem denoted?_eq_some_iff {value : Json} {number : Int} :
    value.denoted? = some number ↔ value.Denotes number ∧ Text.Wide number := by
  cases value with
  | string text => rw [denoted?, Text.signed?_eq_some_iff, denotes_string_iff]
  | number kept =>
    cases kept with
    | integer value fits =>
      constructor
      · rintro ⟨⟩
        exact ⟨.number _ fits, by omega, by omega⟩
      · rintro ⟨⟨⟩, _⟩
        rfl
    | real value => exact ⟨nofun, fun denoted => nomatch denoted.1⟩
  | null | bool value | array items | object members =>
    exact ⟨nofun, fun denoted => nomatch denoted.1⟩

end Json

end TraceContainer
