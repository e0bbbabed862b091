import TraceContainer.Proofs.Json.Document
import TraceContainer.Proofs.ManifestGrammar

namespace TraceContainer

open Json (Integral Ordered depth sorted)

namespace Manifest

variable {decoder : Json.Decoder}

/-- What holds of every manifest that was read. -/
structure WellFormed (manifest : Manifest) : Prop where
  ordered : Ordered (.object manifest.metadata)
  shallow : depth (.object manifest.metadata) < Assembly.maxDepth
  ascending : manifest.threadIds.Pairwise (· < ·)

def reread (manifest : Manifest) : Manifest :=
  { manifest with metadata := Json.rereadMembers manifest.metadata }

theorem WellFormed.reread {manifest : Manifest} (wellFormed : manifest.WellFormed) :
    manifest.reread.WellFormed where
  ordered := Json.ordered_reread wellFormed.ordered
  shallow := (Json.depth_reread (.object manifest.metadata)).trans_lt wellFormed.shallow
  ascending := wellFormed.ascending

theorem reread_eq_self_iff (manifest : Manifest) :
    manifest.reread = manifest ↔ Json.Reproduced (.object manifest.metadata) := by
  rw [← Json.reread_eq_self_iff]
  constructor
  · exact fun same => congrArg (fun manifest : Manifest => Json.object manifest.metadata) same
  · intro same
    rw [reread, Json.object.inj same]

/-- The members that spell a manifest, wherever they stand. -/
structure SpelledBy (manifest : Manifest) (members : Members) : Prop where
  metadata : Members.find? members "metadata" = some (.object manifest.metadata)
  threadIds : Members.find? members "thread_ids" = some (.array (manifest.threadIds.map .ofWord))
  eventCount : Members.find? members "event_count" = some (.ofWord manifest.eventCount)
  timeRange : ∃ bounds : Members, Members.find? members "time_range" = some (.object bounds) ∧
    Members.find? bounds "start_ns" = some (.ofWord manifest.timeRange.start) ∧
    Members.find? bounds "end_ns" = some (.ofWord manifest.timeRange.stop)

theorem SpelledBy.ofReversed {manifest : Manifest} {reversed : Members}
    (spelled : manifest.SpelledBy reversed) : manifest.SpelledBy (Members.ofReversed reversed) where
  metadata := (Members.find?_ofReversed reversed _).trans spelled.metadata
  threadIds := (Members.find?_ofReversed reversed _).trans spelled.threadIds
  eventCount := (Members.find?_ofReversed reversed _).trans spelled.eventCount
  timeRange := by
    obtain ⟨bounds, found, start, stop⟩ := spelled.timeRange
    exact ⟨bounds, (Members.find?_ofReversed reversed _).trans found, start, stop⟩

theorem SpelledBy.denotedBy {manifest : Manifest} {members : Members}
    (spelled : manifest.SpelledBy members) (ordered : manifest.threadIds.Pairwise (· < ·)) :
    manifest.DenotedBy members where
  metadata := .inl (Members.present?_of_find? spelled.metadata nofun)
  timeRange := by
    obtain ⟨bounds, found, start, stop⟩ := spelled.timeRange
    exact .inl ⟨bounds, Members.present?_of_find? found nofun, .inl start, .inl stop⟩
  threadIds := .inl ⟨_, Members.present?_of_find? spelled.threadIds nofun, fun _ => Iff.rfl⟩
  ascending := ordered
  eventCount := .inl (Members.present?_of_find? spelled.eventCount nofun)

/-- Whatever a manifest was read from, its metadata are in order and leave room for the object
around them, and its threads ascend. -/
theorem wellFormed_of_decode {payload : ByteArray} {manifest : Manifest}
    (decoded : decode decoder payload = .ok manifest) : manifest.WellFormed := by
  obtain ⟨_, members, found, denoted⟩ := decode_eq_ok_iff.mp decoded
  obtain ⟨ordered, shallow⟩ :=
    Json.ordered_of_objectOrEmpty (Json.ordered_of_decode? found) denoted.metadata
  exact ⟨ordered, shallow, denoted.ascending⟩

private def sortedBounds (firstKey secondKey : String) (first second : UInt64) : Members :=
  Members.ofReversed [(secondKey, .ofWord second), (firstKey, .ofWord first)]

private theorem sorted_bounds (firstKey secondKey : String) (first second : UInt64) :
    sorted (.object [(firstKey, .ofWord first), (secondKey, .ofWord second)]) =
      .object (sortedBounds firstKey secondKey first second) := by
  simp only [sorted, Json.sortedMembers, Json.sorted_ofWord]
  rfl

private theorem find?_sortedBounds (firstKey secondKey key : String) (first second : UInt64) :
    Members.find? (sortedBounds firstKey secondKey first second) key =
      if key = secondKey then some (.ofWord second)
      else if key = firstKey then some (.ofWord first) else none := by
  rw [sortedBounds, Members.find?_ofReversed, Members.find?_cons, Members.find?_cons]
  rfl

/-- Whatever is reread as an object with the members of a manifest is read as it from its text. -/
theorem decode_encode_of_spelledBy {manifest : Manifest} {value : Json} {members : Members}
    (wellFormed : manifest.WellFormed) (shallow : depth value ≤ Assembly.maxDepth)
    (same : value.reread = .object members)
    (spelled : manifest.SpelledBy (Json.sortedMembers members).reverse) :
    decode decoder value.encode = .ok manifest := by
  have read := Json.decode?_encode_reread shallow
  rw [same] at read
  exact decode_eq_ok_iff.mpr ⟨size_ne_zero_of_decode? read, _, read,
    spelled.ofReversed.denotedBy wellFormed.ascending⟩

theorem canonical_reread (manifest : Manifest) :
    manifest.canonical.reread = manifest.reread.canonical := by
  simp only [canonical, reread, Json.reread, Json.rereadMembers, Json.reread_ofWord,
    Json.rereadItems_ofWords]

theorem toJson_reread (manifest : Manifest) : manifest.toJson.reread = manifest.reread.toJson := by
  simp only [toJson, reread, TimeRange.toJson, Json.reread, Json.rereadMembers, Json.reread_ofWord,
    Json.rereadItems_ofWords]

/-- The text with all keys in order is read as the manifest with its numbers as they are read. -/
theorem decode_encode_reread {manifest : Manifest} (wellFormed : manifest.WellFormed) :
    decode decoder manifest.encode = .ok manifest.reread := by
  have same := canonical_reread manifest
  have again := wellFormed.reread
  generalize manifest.reread = read at same again ⊢
  refine decode_encode_of_spelledBy again ?_ same ⟨?_, ?_, ?_,
    sortedBounds "end_ns" "start_ns" read.timeRange.stop read.timeRange.start, ?_, ?_, ?_⟩
  · have flat : 1 < Assembly.maxDepth := by decide
    refine Json.depth_object_le ?_
    simp only [List.forall_mem_cons, Json.depth_ofWords]
    exact ⟨Nat.zero_lt_of_lt flat, wellFormed.shallow, flat, flat, nofun⟩
  all_goals
    simp [Json.sortedMembers, Members.find?_cons, find?_sortedBounds, sorted_bounds,
      Json.sorted_ofWord, Json.sorted_ofWords, Json.sorted_of_ordered again.ordered]

theorem decode_toJson_reread {manifest : Manifest} (wellFormed : manifest.WellFormed) :
    decode decoder manifest.toJson.encode = .ok manifest.reread := by
  have same := toJson_reread manifest
  have again := wellFormed.reread
  generalize manifest.reread = read at same again ⊢
  refine decode_encode_of_spelledBy again ?_ same ⟨?_, ?_, ?_,
    sortedBounds "start_ns" "end_ns" read.timeRange.start read.timeRange.stop, ?_, ?_, ?_⟩
  · have flat : 1 < Assembly.maxDepth := by decide
    refine Json.depth_object_le ?_
    simp only [List.forall_mem_cons, Json.depth_ofWords]
    exact ⟨wellFormed.shallow, flat, flat, Nat.zero_lt_of_lt flat, nofun⟩
  all_goals
    simp [Json.sortedMembers, Members.find?_cons, TimeRange.toJson, find?_sortedBounds,
      sorted_bounds, Json.sorted_ofWord, Json.sorted_ofWords,
      Json.sorted_of_ordered again.ordered]

theorem decode_encode {manifest : Manifest} (wellFormed : manifest.WellFormed)
    (integral : Integral (.object manifest.metadata)) :
    decode decoder manifest.encode = .ok manifest := by
  have reproduced := Json.reproduced_of_integral integral
  rw [decode_encode_reread wellFormed, (reread_eq_self_iff manifest).mpr reproduced]

theorem decode_toJson {manifest : Manifest} (wellFormed : manifest.WellFormed)
    (integral : Integral (.object manifest.metadata)) :
    decode decoder manifest.toJson.encode = .ok manifest := by
  have reproduced := Json.reproduced_of_integral integral
  rw [decode_toJson_reread wellFormed, (reread_eq_self_iff manifest).mpr reproduced]

/-- A manifest that was read, with nothing but integers among its numbers, is read back from both of
its texts, and the bytes of its section tell it from every other such manifest. -/
theorem read_back {again : Json.Decoder} {payload : ByteArray} {manifest : Manifest}
    (decoded : decode decoder payload = .ok manifest)
    (integral : Integral (.object manifest.metadata)) :
    decode again manifest.encode = .ok manifest ∧
      decode again manifest.toJson.encode = .ok manifest ∧
      ∀ otherPayload other, decode decoder otherPayload = .ok other →
        Integral (.object other.metadata) →
          (manifest = other ↔ manifest.encode = other.encode) := by
  have wellFormed := wellFormed_of_decode decoded
  have canonical : decode again manifest.encode = .ok manifest := decode_encode wellFormed integral
  refine ⟨canonical, decode_toJson wellFormed integral, ?_⟩
  intro otherPayload other otherDecoded otherIntegral
  constructor
  · intro same
    rw [same]
  · intro same
    have otherCanonical : decode again other.encode = .ok other :=
      decode_encode (wellFormed_of_decode otherDecoded) otherIntegral
    rw [← same, canonical] at otherCanonical
    exact Except.ok.inj otherCanonical

def sparsePayload : ByteArray :=
  Json.encode (.object [
    ("thread_ids", .array [.ofWord 7, .ofWord 3, .ofWord 7]),
    ("time_range", .object [("end_ns", .ofWord 5)]),
    ("metadata", .object [("tags", .array [.string "a\n", .ofSigned (-5), .null])])])

def sparse : Manifest where
  metadata := [("tags", .array [.string "a\n", .ofSigned (-5), .null])]
  timeRange := ⟨0, 5, by decide⟩
  threadIds := [3, 7]
  eventCount := 0

theorem read_back_sparse :
    let decoder : Json.Decoder := .saying "expected value"
    let again := { decoder with backend := .vector }
    decode decoder sparsePayload = .ok sparse ∧ Integral (.object sparse.metadata) ∧
      decode again sparse.encode = .ok sparse ∧ decode again sparse.toJson.encode = .ok sparse := by
  intro decoder again
  have decoded : decode decoder sparsePayload = .ok sparse := eq_ok_of_toOption (by decide +kernel)
  have integral : Integral (.object sparse.metadata) := by decide
  obtain ⟨canonical, derived, _⟩ := read_back decoded integral
  exact ⟨decoded, integral, canonical, derived⟩

end Manifest

end TraceContainer
