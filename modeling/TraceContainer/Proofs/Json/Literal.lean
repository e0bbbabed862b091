import TraceContainer.Json.Literal

namespace TraceContainer.Literal

theorem hexValue?_digitChar {digit : Nat} (small : digit < 16) :
    hexValue? (Nat.digitChar digit) = some digit := by
  revert digit
  decide

theorem unit?_control {char : Char} (control : char.toNat < 32) :
    unit? '0' '0' (Nat.digitChar (char.toNat / 16)) (Nat.digitChar (char.toNat % 16)) =
      some char.toNat := by
  have zero : hexValue? '0' = some 0 := by decide
  have high : hexValue? (Nat.digitChar (char.toNat / 16)) = some (char.toNat / 16) :=
    hexValue?_digitChar (by omega)
  have low : hexValue? (Nat.digitChar (char.toNat % 16)) = some (char.toNat % 16) :=
    hexValue?_digitChar (by omega)
  simp only [unit?, zero, high, low, bind, Option.bind, pure]
  congr 1
  omega

/-- A character is written as an escape of one letter, as four digits, or as it is. -/
theorem escape_cases (char : Char) :
    (∃ letter, letter ≠ 'u' ∧ unescape? letter = some char ∧ escape char = ['\\', letter]) ∨
    (char.toNat < 32 ∧ escape char = ['\\', 'u', '0', '0', Nat.digitChar (char.toNat / 16),
      Nat.digitChar (char.toNat % 16)]) ∨
    (¬ (char.toNat < 32 ∨ char = '"' ∨ char = '\\') ∧ escape char = [char]) := by
  unfold escape
  iterate 7
    split
    · rename_i same
      exact .inl ⟨_, by decide, by rw [same]; rfl, rfl⟩
  split
  · rename_i control
    exact .inr (.inl ⟨control, rfl⟩)
  · rename_i quote backslash _ _ _ _ _ visible
    refine .inr (.inr ⟨?_, rfl⟩)
    rintro (control | same | same)
    · exact visible control
    · exact quote same
    · exact backslash same

theorem decodeOnto_escape (done : List Char) (char : Char) (rest : List Char) :
    decodeOnto done (escape char ++ rest) = decodeOnto (char :: done) rest := by
  rcases escape_cases char with ⟨letter, notUnit, short, same⟩ | ⟨control, same⟩ | ⟨plain, same⟩
  · rw [same, List.cons_append, List.cons_append, List.nil_append, decodeOnto, short]
    intro _ _ _ _ _ isUnit
    exact absurd isUnit notUnit
  · rw [same]
    simp only [List.cons_append, List.nil_append]
    rw [decodeOnto, unit?_control control]
    simp only
    rw [if_neg (by omega), if_neg (by omega), Char.ofNat_toNat]
  · rw [same, List.cons_append, List.nil_append, decodeOnto, if_neg plain]
    · intro _ _ _ _ _ backslash
      exact absurd (.inr (.inr backslash)) plain
    · intro _ _ backslash
      exact absurd (.inr (.inr backslash)) plain

theorem decode_encode (text : List Char) : decode (encode text) = some text := by
  have onto (done : List Char) : decodeOnto done (encode text) = some (done.reverse ++ text) := by
    induction text generalizing done with
    | nil => rw [encode, List.flatMap_nil, decodeOnto, List.append_nil]
    | cons char rest ih =>
      rw [encode, List.flatMap_cons, decodeOnto_escape, ← encode, ih, List.reverse_cons,
        List.append_assoc, List.singleton_append]
  exact onto []

end TraceContainer.Literal
