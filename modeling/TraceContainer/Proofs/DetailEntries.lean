import TraceContainer.DetailEntry
import TraceContainer.Proofs.Slices

/-! Detail entries of a file: which there are, in terms of its bytes, and what becomes of every
offset. All sums are those of the natural numbers; those of the words that lead to an entry never
wrap around. -/
namespace TraceContainer

def DetailEntry.read (bytes : ByteArray) (sectionStart : UInt64) (offset : Int64) :
    Except DecodeError DetailEntry :=
  if offset.toInt < sectionStart.toNat then .error (.precedesSection offset sectionStart)
  else
    let place := offset.toInt.toNat
    match Binary.number? bytes place 4 with
    | none => .error (.noLength offset)
    | some length =>
      match Binary.window? bytes (place + 4) (place + 4 + length) with
      | none => .error (.beyondFile offset (.ofNat length))
      | some payload => .ok ⟨.ofNat length, payload⟩

theorem DetailEntry.read_of_le {bytes : ByteArray} {sectionStart : UInt64} {offset : Int64}
    {place length : Nat} (starts : offset.toInt = place) (follows : sectionStart.toNat ≤ place)
    (found : Binary.number? bytes place 4 = some length)
    (inside : place + 4 + length ≤ bytes.size) :
    read bytes sectionStart offset =
      .ok ⟨.ofNat length, bytes.extract (place + 4) (place + 4 + length)⟩ := by
  have behind : ¬ offset.toInt < sectionStart.toNat := by omega
  rw [read, if_neg behind]
  simp only [starts, Int.toNat_natCast, found, Binary.window?_of_le (Nat.le_add_right _ _) inside]

theorem DetailEntry.read_of_short {bytes : ByteArray} {sectionStart : UInt64} {offset : Int64}
    {place : Nat} (starts : offset.toInt = place) (follows : sectionStart.toNat ≤ place)
    (short : bytes.size < place + 4) :
    read bytes sectionStart offset = .error (.noLength offset) := by
  have behind : ¬ offset.toInt < sectionStart.toNat := by omega
  rw [read, if_neg behind]
  simp only [starts, Int.toNat_natCast, Binary.number?_of_lt short]

theorem DetailEntry.read_of_beyond {bytes : ByteArray} {sectionStart : UInt64} {offset : Int64}
    {place length : Nat} (starts : offset.toInt = place) (follows : sectionStart.toNat ≤ place)
    (found : Binary.number? bytes place 4 = some length)
    (beyond : bytes.size < place + 4 + length) :
    read bytes sectionStart offset = .error (.beyondFile offset (.ofNat length)) := by
  have behind : ¬ offset.toInt < sectionStart.toNat := by omega
  rw [read, if_neg behind]
  simp only [starts, Int.toNat_natCast, found, Binary.window?_of_lt beyond]

namespace MappedFile

variable {mapping : Mapping} {offset : Int64} {place length : Nat}

private theorem toNat_offset (starts : offset.toInt = place) : offset.toUInt64.toNat = place := by
  have nonnegative : 0 ≤ offset := by
    rw [Int64.le_iff_toInt_le, starts]
    exact Int.natCast_nonneg place
  rw [Int64.toNat_toUInt64_of_le nonnegative, Int64.toNatClampNeg, starts, Int.toNat_natCast]

private theorem place_lt (starts : offset.toInt = place) : place < 2 ^ 63 := by
  have bound := offset.toInt_lt
  omega

/-- An offset in front of a section is negative, or below its start as a word. -/
private theorem precedes_iff (sectionStart : UInt64) (offset : Int64) :
    (offset < 0 ∨ offset.toUInt64 < sectionStart) ↔ offset.toInt < sectionStart.toNat := by
  rw [Int64.lt_iff_toInt_lt, Int64.toInt_zero]
  by_cases negative : offset.toInt < 0
  · simp only [negative, true_or, true_iff]
    exact Int.lt_of_lt_of_le negative (Int.natCast_nonneg _)
  · obtain ⟨place, starts⟩ := Int.eq_ofNat_of_zero_le (Int.not_lt.mp negative)
    rw [UInt64.lt_iff_toNat_lt, toNat_offset starts, starts]
    omega

theorem lengthAt_ofMapping (starts : offset.toInt = place) :
    (ofMapping mapping).lengthAt offset =
      match Binary.number? mapping.bytes place 4 with
      | none => .error (.decode (.noLength offset))
      | some length => .ok (.ofNat length) := by
  have position := toNat_offset starts
  have bound := place_lt starts
  have size : Format.lengthSize.toNat = 4 := rfl
  have small : offset.toUInt64.toNat + Format.lengthSize.toNat < UInt64.size := by
    rw [position, size, UInt64.size]
    omega
  rw [lengthAt]
  by_cases inside : place + 4 ≤ mapping.bytes.size
  · have number : Binary.number? (mapping.bytes.extract place (place + 4)) 0 4 =
        Binary.number? mapping.bytes place 4 :=
      Binary.number?_extract (Nat.le_add_right place 4) inside (Nat.le_refl _)
    rw [slice_ofMapping small (by rw [position, size]; exact inside), position, size]
    cases found : Binary.number? mapping.bytes place 4 with
    | none => simp only [number, found]
    | some length => simp only [number, found]
  · have outside := Nat.not_le.mp inside
    rw [slice_ofMapping_of_lt small (by rw [position, size]; exact outside),
      Binary.number?_of_lt outside]

/-- Every offset leads to the entry that the bytes of the file have there, or to what is wrong with
it; what is wrong is never the access to the file. -/
theorem entryAt_ofMapping (mapping : Mapping) (sectionStart : UInt64) (offset : Int64) :
    (ofMapping mapping).entryAt sectionStart offset =
      (DetailEntry.read mapping.bytes sectionStart offset).mapError .decode := by
  rw [entryAt, DetailEntry.read]
  by_cases precedes : offset.toInt < sectionStart.toNat
  · rw [if_pos ((precedes_iff sectionStart offset).mpr precedes), if_pos precedes]
    rfl
  · rw [if_neg (mt (precedes_iff sectionStart offset).mp precedes), if_neg precedes]
    obtain ⟨place, starts⟩ := Int.eq_ofNat_of_zero_le
      (Int.le_trans (Int.natCast_nonneg _) (Int.not_lt.mp precedes))
    simp only [lengthAt_ofMapping starts, starts, Int.toNat_natCast]
    cases found : Binary.number? mapping.bytes place 4 with
    | none => rfl
    | some length =>
      have position := toNat_offset starts
      have bound := place_lt starts
      have short : length < 2 ^ 32 := Binary.number?_lt found
      have word : (UInt32.ofNat length).toUInt64.toNat = length := by
        rw [UInt32.toNat_toUInt64, UInt32.toNat_ofNat_of_lt' short]
      have payload : (offset.toUInt64 + Format.lengthSize).toNat = place + 4 := by
        have size : Format.lengthSize.toNat = 4 := rfl
        rw [UInt64.toNat_add, position, size, Nat.mod_eq_of_lt (by omega)]
      have stop : (offset.toUInt64 + Format.lengthSize + (UInt32.ofNat length).toUInt64).toNat =
          place + 4 + length := by
        rw [UInt64.toNat_add, payload, word, Nat.mod_eq_of_lt (by omega)]
      by_cases inside : place + 4 + length ≤ mapping.bytes.size
      · have slice : (ofMapping mapping).slice (offset.toUInt64 + Format.lengthSize)
            (UInt32.ofNat length).toUInt64 =
              .ok (mapping.bytes.extract (place + 4) (place + 4 + length)) := by
          rw [slice_ofMapping (by rw [payload, word, UInt64.size]; omega)
            (by rw [payload, word]; exact inside), payload, word]
        simp only [size_ofMapping, stop, if_neg (Nat.not_lt.mpr inside), slice,
          Binary.window?_of_le (Nat.le_add_right _ _) inside, mapError_ok]
      · have outside := Nat.not_le.mp inside
        simp only [size_ofMapping, stop, if_pos outside, Binary.window?_of_lt outside,
          mapError_error]

theorem detailAt_ofMapping (mapping : Mapping) (decoder : Json.Decoder) (sectionStart : UInt64)
    (offset : Int64) :
    (ofMapping mapping).detailAt decoder sectionStart offset =
      match DetailEntry.read mapping.bytes sectionStart offset with
      | .error cause => { answer := .error (.decode cause) }
      | .ok entry => {
          answer := (Detail.decode decoder entry.payload offset).mapError .decode
          events := [.resolving offset entry.length] } := by
  rw [detailAt, entryAt_ofMapping]
  cases DetailEntry.read mapping.bytes sectionStart offset <;> rfl

/-- All that an offset can lead to, with all that is reported on the way. The length of an entry is
the number that its first four bytes make. -/
inductive Resolves (file : MappedFile) (decoder : Json.Decoder) (sectionStart : UInt64)
    (offset : Int64) : Reported (Except Error Detail) → Prop where
  | precedes (before : offset.toInt < 0 ∨ offset.toInt < sectionStart.toNat) :
      Resolves file decoder sectionStart offset
        { answer := .error (.decode (.precedesSection offset sectionStart)), events := [] }
  | closed {place : Nat} (starts : offset.toInt = place) (follows : sectionStart.toNat ≤ place)
      (nothing : file.mapping? = none) :
      Resolves file decoder sectionStart offset { answer := .error (.notOpen .file), events := [] }
  | noLength {place : Nat} {mapping : Mapping} (starts : offset.toInt = place)
      (follows : sectionStart.toNat ≤ place) (opened : file.mapping? = some mapping)
      (short : mapping.bytes.size < place + 4) :
      Resolves file decoder sectionStart offset
        { answer := .error (.decode (.noLength offset)), events := [] }
  | beyondFile {place : Nat} {mapping : Mapping} {length : UInt32} (starts : offset.toInt = place)
      (follows : sectionStart.toNat ≤ place) (opened : file.mapping? = some mapping)
      (found : Binary.number? mapping.bytes place 4 = some length.toNat)
      (beyond : mapping.bytes.size < place + 4 + length.toNat) :
      Resolves file decoder sectionStart offset
        { answer := .error (.decode (.beyondFile offset length)), events := [] }
  | resolved {place : Nat} {mapping : Mapping} {length : UInt32} (starts : offset.toInt = place)
      (follows : sectionStart.toNat ≤ place) (opened : file.mapping? = some mapping)
      (found : Binary.number? mapping.bytes place 4 = some length.toNat)
      (inside : place + 4 + length.toNat ≤ mapping.bytes.size) :
      Resolves file decoder sectionStart offset {
        answer := (Detail.decode decoder
          (mapping.bytes.extract (place + 4) (place + 4 + length.toNat)) offset).mapError .decode
        events := [.resolving offset length] }

section

variable {file : MappedFile} {decoder : Json.Decoder} {sectionStart : UInt64}
  {reported : Reported (Except Error Detail)}

theorem exists_resolves (file : MappedFile) (decoder : Json.Decoder) (sectionStart : UInt64)
    (offset : Int64) : ∃ reported, file.Resolves decoder sectionStart offset reported := by
  by_cases before : offset.toInt < sectionStart.toNat
  · exact ⟨_, .precedes (.inr before)⟩
  obtain ⟨place, starts⟩ := Int.eq_ofNat_of_zero_le
    (Int.le_trans (Int.natCast_nonneg _) (Int.not_lt.mp before))
  have follows : sectionStart.toNat ≤ place := by omega
  cases opened : file.mapping? with
  | none => exact ⟨_, .closed starts follows opened⟩
  | some mapping =>
    by_cases short : mapping.bytes.size < place + 4
    · exact ⟨_, .noLength starts follows opened short⟩
    obtain ⟨length, found⟩ := Binary.exists_number? (Nat.not_lt.mp short)
    have word : (UInt32.ofNat length).toNat = length :=
      UInt32.toNat_ofNat_of_lt' (Binary.number?_lt found)
    rw [← word] at found
    by_cases beyond : mapping.bytes.size < place + 4 + (UInt32.ofNat length).toNat
    · exact ⟨_, .beyondFile starts follows opened found beyond⟩
    · exact ⟨_, .resolved starts follows opened found (Nat.not_lt.mp beyond)⟩

theorem detailAt_of_resolves (resolves : file.Resolves decoder sectionStart offset reported) :
    file.detailAt decoder sectionStart offset = reported := by
  cases resolves with
  | precedes before =>
    have front : offset.toInt < sectionStart.toNat := by omega
    rw [detailAt, entryAt, if_pos ((precedes_iff sectionStart offset).mpr front)]
  | closed starts follows nothing =>
    have behind : ¬ offset.toInt < sectionStart.toNat := by omega
    rw [eq_closed nothing, detailAt, entryAt,
      if_neg (mt (precedes_iff sectionStart offset).mp behind)]
    rfl
  | noLength starts follows opened short =>
    rw [eq_ofMapping opened, detailAt_ofMapping, DetailEntry.read_of_short starts follows short]
  | beyondFile starts follows opened found beyond =>
    rw [eq_ofMapping opened, detailAt_ofMapping,
      DetailEntry.read_of_beyond starts follows found beyond, UInt32.ofNat_toNat]
  | resolved starts follows opened found inside =>
    rw [eq_ofMapping opened, detailAt_ofMapping,
      DetailEntry.read_of_le starts follows found inside, UInt32.ofNat_toNat]

theorem Resolves.failure?_ne_mapping
    (resolves : file.Resolves decoder sectionStart offset reported) :
    Error.failure? reported.answer ≠ some .mapping := by
  cases resolves with
  | precedes | closed | noLength | beyondFile => exact nofun
  | resolved =>
    have decoding (cause : DecodeError) : (Error.decode cause).kind = .decode := rfl
    rw [ne_eq, failure?_mapError_iff decoding]
    exact fun failed => nomatch failed.1

end

/-- Every offset leads to one thing in every file, whether it is open or closed. The access to the
file is never to blame, and only what is found within it is reported, once. -/
theorem detail_resolution (file : MappedFile) (decoder : Json.Decoder) (sectionStart : UInt64)
    (offset : Int64) :
    (∀ reported, file.Resolves decoder sectionStart offset reported ↔
      file.detailAt decoder sectionStart offset = reported) ∧
    Error.failure? (file.detailAt decoder sectionStart offset).answer ≠ some .mapping ∧
    ∀ event ∈ (file.detailAt decoder sectionStart offset).events,
      event.level = .trace ∧ event.message = "Resolving detail event" := by
  obtain ⟨outcome, resolves⟩ := exists_resolves file decoder sectionStart offset
  refine ⟨fun reported => ⟨detailAt_of_resolves, ?_⟩, ?_, ?_⟩
  · rintro rfl
    rw [detailAt_of_resolves resolves]
    exact resolves
  · rw [detailAt_of_resolves resolves]
    exact resolves.failure?_ne_mapping
  · rw [detailAt_of_resolves resolves]
    intro event present
    cases resolves with
    | precedes | closed | noLength | beyondFile => cases present
    | resolved =>
      rw [List.mem_singleton.mp present]
      exact ⟨rfl, rfl⟩

end MappedFile

end TraceContainer
