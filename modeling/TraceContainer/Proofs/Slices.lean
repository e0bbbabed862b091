import TraceContainer.MappedFile
import TraceContainer.Proofs.Bytes
import TraceContainer.Proofs.Results

namespace TraceContainer

namespace MappedFile

@[simp] theorem size_ofMapping (mapping : Mapping) :
    (ofMapping mapping).size = mapping.bytes.size := rfl

theorem slice_ofMapping {mapping : Mapping} {offset size : UInt64}
    (small : offset.toNat + size.toNat < UInt64.size)
    (inside : offset.toNat + size.toNat ≤ mapping.bytes.size) :
    (ofMapping mapping).slice offset size =
      .ok (mapping.bytes.extract offset.toNat (offset.toNat + size.toNat)) := by
  have total : (UInt64.ofNat (offset.toNat + size.toNat)).toNat = offset.toNat + size.toNat :=
    UInt64.toNat_ofNat_of_lt' small
  have stop := (Binary.sum?_eq_some_iff _ _ _).mpr total
  simp only [MemoryMap.slice, ofMapping, MemoryMap.ofMapping, stop, total,
    if_neg (Nat.not_lt.mpr inside)]

theorem slice_ofMapping_of_lt {mapping : Mapping} {offset size : UInt64}
    (small : offset.toNat + size.toNat < UInt64.size)
    (outside : mapping.bytes.size < offset.toNat + size.toNat) :
    (ofMapping mapping).slice offset size = .error (.mapping
      (.outOfRange offset.toNat (offset.toNat + size.toNat) mapping.bytes.size)) := by
  have total : (UInt64.ofNat (offset.toNat + size.toNat)).toNat = offset.toNat + size.toNat :=
    UInt64.toNat_ofNat_of_lt' small
  have stop := (Binary.sum?_eq_some_iff _ _ _).mpr total
  simp only [MemoryMap.slice, ofMapping, MemoryMap.ofMapping, stop, total, if_pos outside]

/-- Past the end nothing can be had, whether or not the end of the slice is a word. -/
theorem slice_ofMapping_beyond {mapping : Mapping} {offset size : UInt64}
    (outside : mapping.bytes.size < offset.toNat + size.toNat) :
    ∃ cause, (ofMapping mapping).slice offset size = .error (.mapping cause) := by
  by_cases small : offset.toNat + size.toNat < UInt64.size
  · exact ⟨_, slice_ofMapping_of_lt small outside⟩
  · refine ⟨.rangeOverflow, ?_⟩
    have overflow : Binary.sum? offset size = none := if_neg small
    simp only [MemoryMap.slice, ofMapping, MemoryMap.ofMapping, overflow]

section Words

variable {mapping : Mapping} (fits : mapping.bytes.size < UInt64.size)

include fits

theorem slice_ofMapping_eq_ok_iff {offset size : UInt64} {bytes : ByteArray} :
    (ofMapping mapping).slice offset size = .ok bytes ↔
      offset.toNat + size.toNat ≤ mapping.bytes.size ∧
        mapping.bytes.extract offset.toNat (offset.toNat + size.toNat) = bytes := by
  by_cases inside : offset.toNat + size.toNat ≤ mapping.bytes.size
  · rw [slice_ofMapping (Nat.lt_of_le_of_lt inside fits) inside, Except.ok.injEq]
    exact ⟨fun same => ⟨inside, same⟩, And.right⟩
  · obtain ⟨cause, failure⟩ := slice_ofMapping_beyond (Nat.lt_of_not_le inside)
    rw [failure]
    exact ⟨nofun, fun both => absurd both.1 inside⟩

/-- A slice is cut anywhere into two others, and where the second starts is a word. -/
theorem slice_ofMapping_add {offset first second : UInt64} {whole : ByteArray}
    (small : first.toNat + second.toNat < UInt64.size)
    (success : (ofMapping mapping).slice offset (first + second) = .ok whole) :
    (offset + first).toNat = offset.toNat + first.toNat ∧
      ∃ left right, (ofMapping mapping).slice offset first = .ok left ∧
        (ofMapping mapping).slice (offset + first) second = .ok right ∧ left ++ right = whole := by
  obtain ⟨inside, cut⟩ := (slice_ofMapping_eq_ok_iff fits).mp success
  rw [UInt64.toNat_add, Nat.mod_eq_of_lt small] at inside cut
  have middle : (offset + first).toNat = offset.toNat + first.toNat := by
    rw [UInt64.toNat_add, Nat.mod_eq_of_lt (by rw [UInt64.size] at fits; omega)]
  refine ⟨middle, _, _, (slice_ofMapping_eq_ok_iff fits).mpr ⟨by omega, rfl⟩,
    (slice_ofMapping_eq_ok_iff fits).mpr ⟨by omega, rfl⟩, ?_⟩
  rw [middle, ← cut, Nat.add_assoc]
  exact (ByteArray.extract_eq_extract_append_extract _ (by omega) (by omega)).symm

end Words

end MappedFile

end TraceContainer
