import TraceContainer.Json.Integer
import TraceContainer.Proofs.Json.Numbers

namespace TraceContainer.Json

theorem integer?_ofWord (word : UInt64) : (ofWord word).integer? = some (word.toNat : Int) := rfl

theorem word?_ofWord (word : UInt64) : (ofWord word).word? = some word := by
  rw [word?, integer?_ofWord]
  exact congrArg some UInt64.ofNat_toNat

/-- Only the integer of a word is read as that word. -/
theorem word?_eq_some_iff {value : Json} {word : UInt64} :
    value.word? = some word ↔ value = ofWord word := by
  constructor
  · intro read
    rw [word?] at read
    split at read
    · rename_i size kept
      cases read
      cases value with
      | number number =>
        cases number with
        | integer whole fits =>
          cases kept
          have bound : (size : Int) < 2 ^ 64 := fits.2
          have same : (UInt64.ofNat size).toNat = size :=
            UInt64.toNat_ofNat_of_lt' (by rw [UInt64.size]; omega)
          simp only [ofWord, same]
          rfl
        | real => cases kept
      | null | bool | string | array | object => cases kept
    · cases read
  · rintro rfl
    exact word?_ofWord word

theorem integral_ofWord (word : UInt64) : (ofWord word).Integral := integral_integer _ _

theorem integral_ofSigned (word : Int64) : (ofSigned word).Integral := integral_integer _ _

theorem integral_ofWords (words : List UInt64) : Integral (.array (words.map ofWord)) := by
  refine integral_array.mpr fun item present => ?_
  obtain ⟨word, _, rfl⟩ := List.mem_map.mp present
  exact integral_ofWord word

theorem depth_ofWords (words : List UInt64) : depth (.array (words.map ofWord)) = 1 := by
  have flat : itemDepth (words.map ofWord) ≤ 0 := by
    refine itemDepth_le.mpr fun item present => ?_
    obtain ⟨word, _, rfl⟩ := List.mem_map.mp present
    exact Nat.le_refl 0
  rw [depth, Nat.le_zero.mp flat]

theorem sorted_ofWord (word : UInt64) : sorted (ofWord word) = ofWord word := rfl

theorem sorted_ofSigned (word : Int64) : sorted (ofSigned word) = ofSigned word := rfl

theorem reread_ofWord (word : UInt64) : reread (ofWord word) = ofWord word := rfl

theorem rereadItems_ofWords (words : List UInt64) :
    rereadItems (words.map ofWord) = words.map ofWord :=
  Json.array.inj (reread_of_integral (integral_ofWords words))

theorem sorted_ofWords (words : List UInt64) :
    sorted (.array (words.map ofWord)) = .array (words.map ofWord) := by
  rw [sorted, sortedItems_eq, List.map_map]
  exact congrArg array (List.map_congr_left fun word _ => sorted_ofWord word)

end TraceContainer.Json
