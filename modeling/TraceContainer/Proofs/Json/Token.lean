import TraceContainer.Json.Token
import TraceContainer.Proofs.Json.Literal

namespace TraceContainer.Token

def startsWithWord : List Token → Bool
  | .word _ :: _ => true
  | _ => false

/-- Tokens that can be told apart in their spellings: a word has at least one character and only
such as words have, and no other word stands directly behind it. -/
def Legible : List Token → Prop
  | [] => True
  | .word spelling :: rest =>
    spelling ≠ [] ∧ (∀ char ∈ spelling, isWordChar char = true) ∧ startsWithWord rest = false ∧
      Legible rest
  | _ :: rest => Legible rest

theorem isBlank_of_isWordChar {char : Char} (wordChar : isWordChar char = true) :
    isBlank char = false := by
  cases blank : isBlank char with
  | false => rfl
  | true =>
    simp only [isBlank, Bool.or_eq_true, beq_iff_eq] at blank
    rcases blank with ((same | same) | same) | same <;> subst same <;>
      exact absurd wordChar (by decide)

namespace Scanner

def inWord (scanner : Scanner) : Bool :=
  match scanner.pending with
  | .word _ => true
  | _ => false

theorem enter_word {char : Char} (wordChar : isWordChar char = true) (complete : List Token) :
    enter complete char = some ⟨complete, .word [char]⟩ := by
  have notBlank := isBlank_of_isWordChar wordChar
  have notQuote : char ≠ '"' := by
    rintro rfl
    exact absurd wordChar (by decide)
  rw [enter, if_neg (by rw [notBlank]; decide), if_neg notQuote, if_pos wordChar]

/-- A character that continues no word ends the token before it. -/
theorem step_of_finish? {scanner : Scanner} {tokens : List Token}
    (finished : scanner.finish? = some tokens) {char : Char}
    (apart : scanner.inWord = true → isWordChar char = false) :
    scanner.step char = enter tokens.reverse char := by
  obtain ⟨complete, pending⟩ := scanner
  cases pending with
  | nothing =>
    cases finished
    rw [step, List.reverse_reverse]
  | word reversed =>
    cases finished
    simp only [step, apart rfl, Bool.false_eq_true, if_false, List.reverse_reverse]
  | literal reversed escaped => cases finished

private theorem foldlM_word {spelling : List Char}
    (wordChars : ∀ char ∈ spelling, isWordChar char = true) (complete : List Token)
    (reversed : List Char) :
    spelling.foldlM step ⟨complete, .word reversed⟩ =
      some ⟨complete, .word (spelling.reverse ++ reversed)⟩ := by
  induction spelling generalizing reversed with
  | nil => rfl
  | cons char rest ih =>
    have first := wordChars char List.mem_cons_self
    have others := fun other member => wordChars other (List.mem_cons_of_mem char member)
    rw [List.foldlM_cons, step]
    simp only [first, if_true, Option.bind_eq_bind, Option.bind_some, ih others,
      List.reverse_cons, List.append_assoc, List.singleton_append]

/-- Inside a literal a character that is neither quote nor backslash is taken as it is. -/
private theorem step_plain {char : Char} (notQuote : char ≠ '"') (notBackslash : char ≠ '\\')
    (complete : List Token) (reversed : List Char) :
    step ⟨complete, .literal reversed false⟩ char =
      some ⟨complete, .literal (char :: reversed) false⟩ := by
  simp [step, notQuote, notBackslash]

private theorem digitChar_plain {digit : Nat} (small : digit < 16) :
    Nat.digitChar digit ≠ '"' ∧ Nat.digitChar digit ≠ '\\' := by
  revert digit
  decide

private theorem foldlM_escape (char : Char) (complete : List Token) (reversed : List Char) :
    (Literal.escape char).foldlM step ⟨complete, .literal reversed false⟩ =
      some ⟨complete, .literal ((Literal.escape char).reverse ++ reversed) false⟩ := by
  rcases Literal.escape_cases char with ⟨letter, _, _, same⟩ | ⟨control, same⟩ | ⟨plain, same⟩
  · rw [same]
    rfl
  · have high := digitChar_plain (show char.toNat / 16 < 16 by omega)
    have low := digitChar_plain (show char.toNat % 16 < 16 by omega)
    have front : ['\\', 'u', '0', '0'].foldlM step ⟨complete, .literal reversed false⟩ =
        some ⟨complete, .literal ('0' :: '0' :: 'u' :: '\\' :: reversed) false⟩ := rfl
    rw [same, show ∀ first second, ['\\', 'u', '0', '0', first, second] =
      ['\\', 'u', '0', '0'] ++ [first, second] from fun _ _ => rfl, List.foldlM_append, front]
    simp only [Option.bind_eq_bind, Option.bind_some, List.foldlM_cons, List.foldlM_nil,
      step_plain high.1 high.2, step_plain low.1 low.2]
    rfl
  · obtain ⟨_, notQuote, notBackslash⟩ : _ ∧ _ ∧ _ := by simpa only [not_or] using plain
    rw [same, List.foldlM_cons, step_plain notQuote notBackslash]
    rfl

private theorem foldlM_encode (text : List Char) (complete : List Token) (reversed : List Char) :
    (Literal.encode text).foldlM step ⟨complete, .literal reversed false⟩ =
      some ⟨complete, .literal ((Literal.encode text).reverse ++ reversed) false⟩ := by
  induction text generalizing reversed with
  | nil => rfl
  | cons char rest ih =>
    rw [Literal.encode, List.flatMap_cons, List.foldlM_append, foldlM_escape, ← Literal.encode,
      Option.bind_eq_bind, Option.bind_some, ih, List.reverse_append, List.append_assoc]

private theorem foldlM_mark {char : Char} {mark : Token} (means : mark? char = some mark)
    (other : isWordChar char = false ∧ isBlank char = false ∧ char ≠ '"') {scanner : Scanner}
    {tokens : List Token} (finished : scanner.finish? = some tokens) :
    [char].foldlM step scanner = some ⟨mark :: tokens.reverse, .nothing⟩ := by
  obtain ⟨noWord, noBlank, noQuote⟩ := other
  rw [List.foldlM_cons, step_of_finish? finished fun _ => noWord, enter,
    if_neg (by rw [noBlank]; decide), if_neg noQuote, if_neg (by rw [noWord]; decide), means]
  rfl

private theorem foldlM_text (value : String) {scanner : Scanner} {tokens : List Token}
    (finished : scanner.finish? = some tokens) :
    (Token.text value).spelling.foldlM step scanner =
      some ⟨.text value :: tokens.reverse, .nothing⟩ := by
  have opened : scanner.step '"' = some ⟨tokens.reverse, .literal [] false⟩ := by
    rw [step_of_finish? finished fun _ => by decide]
    rfl
  have closed : step ⟨tokens.reverse, .literal (Literal.encode value.toList).reverse false⟩ '"' =
      some ⟨.text value :: tokens.reverse, .nothing⟩ := by
    simp [step, Literal.decode_encode, String.ofList_toList]
  rw [spelling, List.cons_append, List.foldlM_cons, opened, Option.bind_eq_bind, Option.bind_some,
    List.foldlM_append, foldlM_encode, Option.bind_eq_bind, Option.bind_some, List.append_nil,
    List.foldlM_cons, closed]
  rfl

/-- A word is left open, and every other token is complete behind its last character. -/
private theorem foldlM_token {token : Token} {rest tokens : List Token}
    (legible : Legible (token :: rest)) {scanner : Scanner}
    (finished : scanner.finish? = some tokens)
    (apart : scanner.inWord = true → startsWithWord (token :: rest) = false) :
    ∃ after, token.spelling.foldlM step scanner = some after ∧
      after.finish? = some (tokens ++ [token]) ∧
      (after.inWord = true → startsWithWord rest = false) ∧ Legible rest := by
  have complete : finish? ⟨token :: tokens.reverse, .nothing⟩ = some (tokens ++ [token]) := by
    simp [finish?]
  cases token with
  | word spelling =>
    obtain ⟨nonempty, wordChars, alone, others⟩ := legible
    obtain ⟨first, later, rfl⟩ := List.exists_cons_of_ne_nil nonempty
    have outside : scanner.inWord = false := by
      cases inside : scanner.inWord with
      | false => rfl
      | true => cases apart inside
    have begun : scanner.step first = enter tokens.reverse first :=
      step_of_finish? finished fun inside => absurd inside (by rw [outside]; decide)
    refine ⟨⟨tokens.reverse, .word (later.reverse ++ [first])⟩, ?_, ?_, fun _ => alone, others⟩
    · rw [Token.spelling, List.foldlM_cons, begun, enter_word (wordChars first List.mem_cons_self),
        Option.bind_eq_bind, Option.bind_some,
        foldlM_word fun char member => wordChars char (List.mem_cons_of_mem first member)]
    · simp [finish?]
  | text value => exact ⟨_, foldlM_text value finished, complete, nofun, legible⟩
  | openArray => exact ⟨_, foldlM_mark rfl (by decide) finished, complete, nofun, legible⟩
  | closeArray => exact ⟨_, foldlM_mark rfl (by decide) finished, complete, nofun, legible⟩
  | openObject => exact ⟨_, foldlM_mark rfl (by decide) finished, complete, nofun, legible⟩
  | closeObject => exact ⟨_, foldlM_mark rfl (by decide) finished, complete, nofun, legible⟩
  | comma => exact ⟨_, foldlM_mark rfl (by decide) finished, complete, nofun, legible⟩
  | colon => exact ⟨_, foldlM_mark rfl (by decide) finished, complete, nofun, legible⟩

private theorem foldlM_tokens {rest tokens : List Token} (legible : Legible rest)
    {scanner : Scanner} (finished : scanner.finish? = some tokens)
    (apart : scanner.inWord = true → startsWithWord rest = false) :
    ∃ after, (rest.flatMap spelling).foldlM step scanner = some after ∧
      after.finish? = some (tokens ++ rest) := by
  induction rest generalizing scanner tokens with
  | nil => exact ⟨scanner, rfl, by rw [List.append_nil, finished]⟩
  | cons token rest ih =>
    obtain ⟨middle, taken, sofar, behind, others⟩ := foldlM_token legible finished apart
    obtain ⟨after, later, whole⟩ := ih others sofar behind
    refine ⟨after, ?_, ?_⟩
    · rw [List.flatMap_cons, List.foldlM_append, taken, Option.bind_eq_bind, Option.bind_some,
        later]
    · rw [whole, List.append_assoc, List.singleton_append]

end Scanner

/-- Legible tokens are read back from their spellings. -/
theorem read?_spelling {tokens : List Token} (legible : Legible tokens) :
    read? (tokens.flatMap spelling) = some tokens := by
  have begun : Scanner.finish? ⟨[], .nothing⟩ = some [] := rfl
  obtain ⟨after, taken, finished⟩ := Scanner.foldlM_tokens legible begun nofun
  rw [read?, taken, Option.bind_some, finished, List.nil_append]

end TraceContainer.Token
