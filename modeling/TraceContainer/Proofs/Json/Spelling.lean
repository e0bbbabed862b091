import TraceContainer.Json.Assembly
import TraceContainer.Proofs.Json.Numbers
import TraceContainer.Proofs.Json.Token

namespace TraceContainer

private theorem Number.isPart_spelling (number : Number) :
    ∀ char ∈ number.spelling, Numeral.isPart char = true := by
  obtain ⟨_, spelled⟩ := number.exists_spelled
  exact Numeral.isPart_of_spelled spelled

private theorem Number.spelling_ne_nil (number : Number) : number.spelling ≠ [] := by
  obtain ⟨_, spelled⟩ := number.exists_spelled
  exact Numeral.ne_nil_of_spelled spelled

namespace Json

open Token (Legible startsWithWord isWordChar)

private theorem isWordChar_spelling (number : Number) :
    ∀ char ∈ number.spelling, isWordChar char = true := by
  intro char inside
  have part := number.isPart_spelling char inside
  simp only [Numeral.isPart, Bool.or_eq_true, List.contains_iff_mem, List.mem_cons,
    List.not_mem_nil, or_false] at part
  rcases part with digit | rfl | rfl | rfl | rfl
  · simp [isWordChar, Char.isAlphanum, digit]
  all_goals decide

/-- A number's word is read as a number and not as one of the three names. -/
theorem ofWord?_number (number : Number) :
    ofWord? number.spelling = some (.number number.reread) := by
  have other {name : List Char} (letter : Char) (inside : letter ∈ name)
      (noPart : Numeral.isPart letter = false) : number.spelling ≠ name := by
    rintro same
    have part := number.isPart_spelling letter (same ▸ inside)
    rw [noPart] at part
    cases part
  rw [ofWord?, if_neg (other 'n' (by decide) (by decide)),
    if_neg (other 't' (by decide) (by decide)), if_neg (other 'f' (by decide) (by decide)),
    Number.ofChars?_reread]
  rfl

theorem ofWord?_bool (value : Bool) : ofWord? (wordOfBool value) = some (.bool value) := by
  cases value <;> decide

theorem isWordChar_wordOfBool (value : Bool) :
    ∀ char ∈ wordOfBool value, isWordChar char = true := by
  apply List.all_eq_true.mp
  cases value <;> rfl

theorem startsWithWord_moreItemTokens (items : List Json) (rest : List Token) :
    startsWithWord (moreItemTokens items ++ rest) = false := by
  cases items <;> rfl

theorem startsWithWord_moreMemberTokens (members : Members) (rest : List Token) :
    startsWithWord (moreMemberTokens members ++ rest) = false := by
  cases members <;> rfl

private theorem legible_moreItemTokens {items : List Json} {rest : List Token}
    (each : ∀ item ∈ items, ∀ rest, Legible rest → startsWithWord rest = false →
      Legible (item.tokens ++ rest)) (legible : Legible rest) :
    Legible (moreItemTokens items ++ rest) := by
  induction items with
  | nil => exact legible
  | cons next later ih =>
    obtain ⟨first, others⟩ := List.forall_mem_cons.mp each
    have behind := first _ (ih others) (startsWithWord_moreItemTokens later rest)
    rw [moreItemTokens, List.cons_append, List.cons_append, List.append_assoc]
    exact behind

private theorem legible_moreMemberTokens {members : Members} {rest : List Token}
    (each : ∀ member ∈ members, ∀ rest, Legible rest → startsWithWord rest = false →
      Legible (member.2.tokens ++ rest)) (legible : Legible rest) :
    Legible (moreMemberTokens members ++ rest) := by
  induction members with
  | nil => exact legible
  | cons next later ih =>
    obtain ⟨first, others⟩ := List.forall_mem_cons.mp each
    have behind := first _ (ih others) (startsWithWord_moreMemberTokens later rest)
    obtain ⟨key, value⟩ := next
    simp only [moreMemberTokens, List.cons_append, List.append_assoc]
    exact behind

/-- The tokens of a value can be told apart, and from what follows unless that is a word. -/
theorem legible_tokens {value : Json} {rest : List Token} (legible : Legible rest)
    (apart : startsWithWord rest = false) :
    Legible (value.tokens ++ rest) := by
  induction value using induct generalizing rest with
  | null => exact ⟨List.cons_ne_nil _ _, List.all_eq_true.mp rfl, apart, legible⟩
  | bool value =>
    exact ⟨by cases value <;> decide, isWordChar_wordOfBool value, apart, legible⟩
  | number value =>
    exact ⟨Number.spelling_ne_nil value, isWordChar_spelling value, apart, legible⟩
  | string value => exact legible
  | array items ih =>
    cases items with
    | nil => exact legible
    | cons first later =>
      have each (item) (present) (rest) := @ih item present rest
      obtain ⟨front, others⟩ := List.forall_mem_cons.mp each
      have behind := front _ (legible_moreItemTokens others legible)
        (startsWithWord_moreItemTokens later rest)
      simp only [tokens, itemTokens, List.cons_append, List.append_assoc]
      exact behind
  | object members ih =>
    cases members with
    | nil => exact legible
    | cons first later =>
      have each (member) (present) (rest) := @ih member present rest
      obtain ⟨front, others⟩ := List.forall_mem_cons.mp each
      have behind := front _ (legible_moreMemberTokens others legible)
        (startsWithWord_moreMemberTokens later rest)
      obtain ⟨key, value⟩ := first
      simp only [tokens, memberTokens, List.cons_append, List.append_assoc]
      exact behind

end Json

end TraceContainer
