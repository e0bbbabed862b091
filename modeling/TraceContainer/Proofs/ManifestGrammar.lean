import Mathlib.Data.List.Sort
import TraceContainer.Manifest
import TraceContainer.Proofs.Json.Integer
import TraceContainer.Proofs.Json.Members
import TraceContainer.Proofs.Results

namespace TraceContainer

/-- A value is the integer of a word, or there is no value and the word is a given other one. -/
def Json.WordOr (value? : Option Json) (absent word : UInt64) : Prop :=
  value? = some (.ofWord word) ∨ value? = none ∧ word = absent

namespace Manifest

structure DenotedBy (manifest : Manifest) (members : Members) : Prop where
  metadata : Members.ObjectOrEmpty members "metadata" manifest.metadata
  timeRange : (∃ bounds, Members.present? members "time_range" = some (.object bounds) ∧
      Json.WordOr (Members.find? bounds "start_ns") 0 manifest.timeRange.start ∧
      Json.WordOr (Members.find? bounds "end_ns") manifest.timeRange.start
        manifest.timeRange.stop) ∨
    Members.present? members "time_range" = none ∧
      manifest.timeRange.start = 0 ∧ manifest.timeRange.stop = 0
  threadIds : (∃ words : List UInt64,
      Members.present? members "thread_ids" = some (.array (words.map .ofWord)) ∧
        ∀ word, word ∈ manifest.threadIds ↔ word ∈ words) ∨
    Members.present? members "thread_ids" = none ∧ manifest.threadIds = []
  ascending : manifest.threadIds.Pairwise (· < ·)
  eventCount : Json.WordOr (Members.present? members "event_count") 0 manifest.eventCount

theorem mem_insertWord {word other : UInt64} {words : List UInt64} :
    other ∈ insertWord word words ↔ other = word ∨ other ∈ words := by
  induction words with
  | nil => exact List.mem_cons
  | cons head rest ih =>
    rw [insertWord]
    split
    · exact List.mem_cons
    split
    · rename_i same
      rw [same, List.mem_cons, ← or_assoc, or_self]
    · rw [List.mem_cons, ih, List.mem_cons, or_left_comm]

theorem pairwise_insertWord (word : UInt64) {words : List UInt64}
    (ordered : words.Pairwise (· < ·)) : (insertWord word words).Pairwise (· < ·) := by
  induction words with
  | nil => exact List.pairwise_singleton _ _
  | cons head rest ih =>
    obtain ⟨least, others⟩ := List.pairwise_cons.mp ordered
    rw [insertWord]
    split
    · rename_i before
      refine List.pairwise_cons.mpr ⟨fun other present => ?_, ordered⟩
      rcases List.mem_cons.mp present with same | later
      · exact same ▸ before
      · exact UInt64.lt_trans before (least other later)
    split
    · exact ordered
    · rename_i notBefore different
      refine List.pairwise_cons.mpr ⟨fun other present => ?_, ih others⟩
      rcases mem_insertWord.mp present with same | old
      · exact same ▸ UInt64.lt_of_le_of_ne (UInt64.not_lt.mp notBefore) (Ne.symm different)
      · exact least other old

theorem mem_ascending {word : UInt64} {words : List UInt64} :
    word ∈ ascending words ↔ word ∈ words := by
  induction words with
  | nil => exact Iff.rfl
  | cons head rest ih =>
    rw [ascending, List.foldr_cons, ← ascending, mem_insertWord, ih, List.mem_cons]

theorem pairwise_ascending (words : List UInt64) : (ascending words).Pairwise (· < ·) := by
  induction words with
  | nil => exact List.Pairwise.nil
  | cons word rest ih => exact pairwise_insertWord word ih

theorem ascending_eq_iff {words sorted : List UInt64} :
    ascending words = sorted ↔
      (∀ word, word ∈ sorted ↔ word ∈ words) ∧ sorted.Pairwise (· < ·) := by
  constructor
  · rintro rfl
    exact ⟨fun word => mem_ascending, pairwise_ascending words⟩
  · rintro ⟨same, ordered⟩
    exact (pairwise_ascending words).eq_of_mem_iff ordered fun word =>
      mem_ascending.trans (same word).symm

/-! ### What each reader accepts -/

variable {members others : Members} {decoder : Json.Decoder}

theorem readMetadata_eq_ok_iff {metadata : Members} :
    readMetadata members = .ok metadata ↔ Members.ObjectOrEmpty members "metadata" metadata := by
  rw [readMetadata, Members.ObjectOrEmpty]
  split
  · rename_i nothing
    simp [nothing, eq_comm]
  · rename_i other present
    simp [present, eq_comm]
  · rename_i value notObject present
    simp only [present, Option.some.injEq, reduceCtorEq, false_and, or_false, false_iff]
    exact notObject metadata

theorem readBound_eq_ok_iff {bounds : Members} {key : String} {absent bound : UInt64} :
    readBound bounds key absent = .ok bound ↔
      Json.WordOr (Members.find? bounds key) absent bound := by
  rw [readBound, Json.WordOr]
  cases Members.find? bounds key with
  | none => simp [eq_comm]
  | some value =>
    simp only [Option.some.injEq, reduceCtorEq, false_and, or_false, ← Json.word?_eq_some_iff]
    cases value.word? with
    | none => exact ⟨nofun, nofun⟩
    | some word => rw [Except.ok.injEq, Option.some.injEq]

theorem readEventCount_eq_ok_iff {count : UInt64} :
    readEventCount members = .ok count ↔
      Json.WordOr (Members.present? members "event_count") 0 count := by
  rw [readEventCount, Json.WordOr]
  cases Members.present? members "event_count" with
  | none => simp [eq_comm]
  | some value =>
    simp only [Option.some.injEq, reduceCtorEq, false_and, or_false, ← Json.word?_eq_some_iff]
    cases value.word? with
    | none => cases value.integer? <;> exact ⟨nofun, nofun⟩
    | some word => rw [Except.ok.injEq, Option.some.injEq]

theorem readTimeRange_eq_ok_iff {range : TimeRange} :
    readTimeRange members = .ok range ↔
      (∃ bounds, Members.present? members "time_range" = some (.object bounds) ∧
        Json.WordOr (Members.find? bounds "start_ns") 0 range.start ∧
        Json.WordOr (Members.find? bounds "end_ns") range.start range.stop) ∨
      Members.present? members "time_range" = none ∧ range.start = 0 ∧ range.stop = 0 := by
  simp only [← readBound_eq_ok_iff]
  rw [readTimeRange]
  split
  · rename_i nothing
    simp only [nothing, reduceCtorEq, false_and, exists_false, false_or, true_and]
    constructor
    · intro same
      cases same
      exact ⟨rfl, rfl⟩
    · rintro ⟨start, stop⟩
      cases range
      cases start
      cases stop
      rfl
  · rename_i bounds present
    simp only [present, Option.some.injEq, Json.object.injEq, exists_eq_left', reduceCtorEq,
      false_and, or_false]
    constructor
    · intro read
      obtain ⟨start, readsStart, read⟩ := bind_eq_ok_iff.mp read
      obtain ⟨stop, readsStop, read⟩ := bind_eq_ok_iff.mp read
      rw [TimeRange.of?] at read
      by_cases ordered : start ≤ stop
      · rw [dif_pos ordered] at read
        cases read
        exact ⟨readsStart, readsStop⟩
      · rw [dif_neg ordered] at read
        cases read
    · rintro ⟨readsStart, readsStop⟩
      have ordered : TimeRange.of? range.start range.stop = some range := dif_pos range.ordered
      simp only [readsStart, readsStop, bind_ok, ordered]
  · rename_i value notObject present
    simp only [present, Option.some.injEq, reduceCtorEq, false_and, or_false, false_iff]
    rintro ⟨bounds, same, _⟩
    exact notObject bounds same

theorem mapM_word?_eq_some_iff {items : List Json} {words : List UInt64} :
    items.mapM Json.word? = some words ↔ items = words.map Json.ofWord := by
  simp only [mapM_eq_some_iff, Json.word?_eq_some_iff]
  rw [← List.forall₂_map_right_iff, List.forall₂_eq_eq_eq]

theorem readThreadIds_eq_ok_iff {threadIds : List UInt64} :
    readThreadIds members = .ok threadIds ↔
      ((∃ words : List UInt64,
        Members.present? members "thread_ids" = some (.array (words.map .ofWord)) ∧
          ∀ word, word ∈ threadIds ↔ word ∈ words) ∨
        Members.present? members "thread_ids" = none ∧ threadIds = []) ∧
      threadIds.Pairwise (· < ·) := by
  rw [readThreadIds]
  split
  · rename_i nothing
    simp only [nothing, reduceCtorEq, false_and, exists_false, false_or, true_and]
    constructor
    · intro same
      cases same
      exact ⟨rfl, List.Pairwise.nil⟩
    · rintro ⟨rfl, _⟩
      rfl
  · rename_i items present
    simp only [present, Option.some.injEq, Json.array.injEq, reduceCtorEq, false_and, or_false,
      ← mapM_word?_eq_some_iff]
    cases items.mapM Json.word? with
    | none => simp
    | some words =>
      simp only [Except.ok.injEq, Option.some.injEq, exists_eq_left', ascending_eq_iff]
  · rename_i value notArray present
    simp only [present, Option.some.injEq, reduceCtorEq, false_and, or_false, false_iff]
    rintro ⟨⟨words, same, _⟩, _⟩
    exact notArray _ same

theorem ofMembers_eq_ok_iff {manifest : Manifest} :
    ofMembers members = .ok manifest ↔ manifest.DenotedBy members := by
  rw [ofMembers]
  constructor
  · intro read
    obtain ⟨metadata, readsMetadata, read⟩ := bind_eq_ok_iff.mp read
    obtain ⟨timeRange, readsRange, read⟩ := bind_eq_ok_iff.mp read
    obtain ⟨threadIds, readsThreads, read⟩ := bind_eq_ok_iff.mp read
    obtain ⟨eventCount, readsCount, read⟩ := bind_eq_ok_iff.mp read
    cases read
    obtain ⟨listed, ascending⟩ := readThreadIds_eq_ok_iff.mp readsThreads
    exact ⟨readMetadata_eq_ok_iff.mp readsMetadata, readTimeRange_eq_ok_iff.mp readsRange, listed,
      ascending, readEventCount_eq_ok_iff.mp readsCount⟩
  · rintro ⟨metadata, timeRange, listed, ascending, eventCount⟩
    rw [readMetadata_eq_ok_iff.mpr metadata, readTimeRange_eq_ok_iff.mpr timeRange,
      readThreadIds_eq_ok_iff.mpr ⟨listed, ascending⟩, readEventCount_eq_ok_iff.mpr eventCount]
    rfl

theorem size_ne_zero_of_decode? {payload : ByteArray} {value : Json}
    (decoded : Json.decode? payload = some value) : payload.size ≠ 0 := by
  intro empty
  rw [ByteArray.size_eq_zero_iff.mp empty] at decoded
  cases decoded

theorem decode_of_object {payload : ByteArray}
    (decoded : Json.decode? payload = some (.object members)) :
    decode decoder payload = ofMembers members := by
  rw [decode, if_neg (size_ne_zero_of_decode? decoded), decoder.decode_eq_ok_iff.mpr decoded]

theorem decode_eq_ok_iff {payload : ByteArray} {manifest : Manifest} :
    decode decoder payload = .ok manifest ↔
      payload.size ≠ 0 ∧ ∃ members, Json.decode? payload = some (.object members) ∧
        manifest.DenotedBy members := by
  simp only [← ofMembers_eq_ok_iff]
  constructor
  · intro read
    rw [decode] at read
    split at read
    · cases read
    rename_i nonempty
    split at read
    · cases read
    · rename_i members decoded
      exact ⟨nonempty, members, decoder.decode_eq_ok_iff.mp decoded, read⟩
    · cases read
  · rintro ⟨_, members, decoded, read⟩
    rw [decode_of_object decoded, read]

end Manifest

end TraceContainer
