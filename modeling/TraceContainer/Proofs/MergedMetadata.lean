import TraceContainer.Proofs.CurrentOpening
import TraceContainer.Proofs.ManifestText

namespace TraceContainer

namespace Members

/-- Members put together from a file's own, which all stay as they are, and two that stand in where
the file has none: its path and the number of its records. -/
structure MergedFrom (members own : Members) (path : String) (indexCount : UInt64) : Prop where
  ascending : members.Ascending
  keys : ∀ key, (members.find? key).isSome = true ↔
    (own.find? key).isSome = true ∨ key = "path" ∨ key = "event_count"
  kept : ∀ key value, own.find? key = some value → members.find? key = some value
  path : own.find? "path" = none → members.find? "path" = some (.string path)
  eventCount : own.find? "event_count" = none →
    members.find? "event_count" = some (.ofWord indexCount)

end Members

/-- Each of the two keys is looked for among the file's own members alone, since the keys differ. -/
theorem Contents.find?_mergedMetadata (contents : Contents) (path : String)
    (ascending : Members.Ascending contents.manifest.metadata) (key : String) :
    Members.find? (contents.mergedMetadata (some path)) key =
      if key = "event_count" then
        some ((Members.find? contents.manifest.metadata "event_count").getD
          (.ofWord contents.layout.indexCount))
      else if key = "path" then
        some ((Members.find? contents.manifest.metadata "path").getD (.string path))
      else Members.find? contents.manifest.metadata key := by
  have withPath := Members.ascending_insertNew "path" (.string path) ascending
  rw [mergedMetadata, Members.find?_insertNew _ _ withPath, Members.find?_insertNew _ _ ascending,
    Members.find?_insertNew _ _ ascending, if_neg (show "event_count" ≠ "path" by decide)]

theorem Contents.mergedFrom (contents : Contents) (path : String)
    (ascending : Members.Ascending contents.manifest.metadata) :
    Members.MergedFrom (contents.mergedMetadata (some path)) contents.manifest.metadata path
      contents.layout.indexCount := by
  have found := contents.find?_mergedMetadata path ascending
  constructor
  case ascending =>
    exact Members.ascending_insertNew _ _ (Members.ascending_insertNew _ _ ascending)
  case keys =>
    intro key
    rw [found]
    by_cases count : key = "event_count"
    · simp [count]
    by_cases place : key = "path"
    · simp [place]
    · simp [count, place]
  case kept =>
    intro key value present
    rw [found]
    by_cases count : key = "event_count"
    · rw [if_pos count, ← count, present, Option.getD_some]
    by_cases place : key = "path"
    · rw [if_neg count, if_pos place, ← place, present, Option.getD_some]
    · rw [if_neg count, if_neg place, present]
  case path =>
    intro absent
    rw [found, if_neg (by decide), if_pos rfl, absent, Option.getD_none]
  case eventCount =>
    intro absent
    rw [found, if_pos rfl, absent, Option.getD_none]

theorem Manifest.metadata_withCount (manifest : Manifest) (indexCount : UInt64) :
    (manifest.withCount indexCount).metadata = manifest.metadata := by
  rw [withCount]
  split <;> rfl

theorem Manifest.eventCount_withCount (manifest : Manifest) (indexCount : UInt64) :
    (manifest.withCount indexCount).eventCount =
      if manifest.eventCount = 0 then indexCount else manifest.eventCount := by
  rw [withCount]
  split <;> rfl

namespace Session

/-- In every state of a reader in which a file is open, the metadata are merged from this file, and
the manifest's count of events is the declared one, or else that of the header. -/
theorem metadata_of_current {decoder : Json.Decoder} {store : FileStore} {calls : List ReaderCall}
    (isOpen : ((start decoder store Reader.closed).after callReader calls).source.isOpen = true) :
    let start : Session Reader := .start decoder store .closed
    let reader := (start.after callReader calls).source
    ∃ (current : start.CurrentOpening calls) (layout : Layout) (declared manifest : Manifest)
      (members : Members),
      layout.Matches current.bytes ∧
      Manifest.decode start.decoder
        (current.bytes.extract 40 (40 + layout.manifestLength.toNat)) = .ok declared ∧
      reader.path? = some current.path ∧ reader.layout = .ok layout ∧
      reader.metadata.answer = .ok members ∧
      members.MergedFrom declared.metadata current.path layout.indexCount ∧
      reader.manifest = .ok manifest ∧
      manifest.eventCount =
        if declared.eventCount = 0 then layout.indexCount else declared.eventCount := by
  intro start reader
  obtain ⟨current, continues⟩ := exists_current isOpen rfl
  change reader.Continues _ at continues
  obtain ⟨layout, declared, same, decoded, contents⟩ := Contents.read_eq_ok_iff.mp current.read
  have ascending := (Json.ordered_object.mp (Manifest.wellFormed_of_decode decoded).ordered).1
  have merged := current.contents.mergedFrom current.path
    (by rw [contents, Manifest.metadata_withCount]; exact ascending)
  rw [contents, Manifest.metadata_withCount] at merged
  refine ⟨current, layout, declared, declared.withCount layout.indexCount, _, same,
    Manifest.decode_eq_ok_iff.mpr (Manifest.decode_eq_ok_iff.mp decoded), ?_, ?_, ?_, merged, ?_,
    declared.eventCount_withCount layout.indexCount⟩
  · rw [← Reader.path?_forget, continues.forget]
    rfl
  · rw [← Reader.layout_forget, continues.forget, contents]
    rfl
  · rw [continues.metadata, contents]
    rfl
  · rw [← Reader.manifest_forget, continues.forget, contents]
    rfl

end Session

def namedTrace : ByteArray :=
  Header.encode ⟨Format.magic, Format.version, 0, 42, 82, 1, 114⟩ ++
    "\x7b\"metadata\":\x7b\"path\":null\x7d,\"event_count\":9\x7d".toUTF8 ++
    IndexRecord.encode ⟨100, 11, 1, 0, 0, 0⟩

/-- Calls that ask for the metadata of one trace, then of another, with failing openings between. -/
def namedCalls : List ReaderCall :=
  [.openFile "a", .query .metadata, .openFile "c", .openNew "a", .query .metadata,
    .openFile "./b", .openNew "c", .files (.remove "b"), .query .metadata]

theorem Session.metadata_of_current_namedTrace :
    let start : Session Reader := .start (.saying "expected value")
      (.ofFiles [("a", corruptTrace), ("b", namedTrace)]) .closed
    let reader := (start.after callReader namedCalls).source
    reader.isOpen = true ∧
    ∃ (current : start.CurrentOpening namedCalls) (layout : Layout) (declared manifest : Manifest)
      (members : Members),
      layout.Matches current.bytes ∧
      Manifest.decode start.decoder
        (current.bytes.extract 40 (40 + layout.manifestLength.toNat)) = .ok declared ∧
      reader.path? = some current.path ∧ reader.layout = .ok layout ∧
      reader.metadata.answer = .ok members ∧
      members.MergedFrom declared.metadata current.path layout.indexCount ∧
      reader.manifest = .ok manifest ∧
      manifest.eventCount =
        if declared.eventCount = 0 then layout.indexCount else declared.eventCount := by
  have isOpen : ((start (.saying "expected value")
      (.ofFiles [("a", corruptTrace), ("b", namedTrace)]) Reader.closed).after callReader
      namedCalls).source.isOpen = true := by decide +kernel
  exact ⟨isOpen, metadata_of_current isOpen⟩

end TraceContainer
