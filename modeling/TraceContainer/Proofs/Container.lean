import Mathlib.Data.List.Forall2
import TraceContainer.Proofs.DetailEntries
import TraceContainer.Proofs.DetailText
import TraceContainer.Proofs.FilteredScans
import TraceContainer.TraceFile

namespace TraceContainer

theorem Detail.size_encodeEntry (detail : Detail) :
    detail.encodeEntry.size = 4 + detail.encode.size := by
  rw [encodeEntry, ByteArray.size_append, Binary.size_pack, LittleEndian.length_bytes]

namespace TraceFile

theorem size_encodeIndex (entries : List (Event × Option Detail)) :
    (encodeIndex entries).size = 32 * entries.length := by
  induction entries with
  | nil => rfl
  | cons entry rest ih =>
    rw [encodeIndex, ByteArray.size_append, Event.size_encode, ih, List.length_cons]
    omega

theorem length_placeFrom (offset : Nat) (entries : List (Event × Option Detail)) :
    (placeFrom offset entries).length = entries.length := by
  induction entries generalizing offset with
  | nil => rfl
  | cons entry rest ih =>
    obtain ⟨event, detail?⟩ := entry
    cases detail? with
    | none => rw [placeFrom, List.length_cons, List.length_cons, ih]
    | some detail => rw [placeFrom, List.length_cons, List.length_cons, ih]

theorem window?_encodeIndex (front back : ByteArray) {entries : List (Event × Option Detail)}
    {place : Nat} (counted : place < entries.length) :
    Binary.window? (front ++ encodeIndex entries ++ back) (front.size + 32 * place)
      (front.size + 32 * place + 32) = some entries[place].1.encode := by
  induction entries generalizing front place with
  | nil => cases counted
  | cons entry rest ih =>
    rw [encodeIndex]
    cases place with
    | zero =>
      rw [← ByteArray.append_assoc, ByteArray.append_assoc]
      exact Binary.window?_middle front entry.1.encode _ rfl (by rw [Event.size_encode])
    | succ place =>
      have later := ih (front ++ entry.1.encode) (Nat.lt_of_succ_lt_succ counted)
      rw [ByteArray.size_append, Event.size_encode] at later
      rw [← ByteArray.append_assoc, List.getElem_cons_succ, ← later]
      congr 1 <;> omega

/-- How an event and its detail are kept in a file: without a detail the event has no offset, and
with one the offset leads to the detail's entry behind the start of the detail section. -/
inductive Kept (bytes : ByteArray) (sectionStart : Nat) :
    Event × Option Detail → Event × Option Detail → Prop
  | plain (event : Event) : Kept bytes sectionStart (event, none)
      ({ event with detailOffset := 0 }, none)
  | detailed {event placed : Event} {detail kept : Detail} {start : Nat}
      (sameEvent : placed = { event with detailOffset := placed.detailOffset })
      (sameDetail : kept = { detail with event := placed })
      (offset : placed.detailOffset.toInt = start) (follows : sectionStart ≤ start)
      (found : Binary.window? bytes start (start + kept.encodeEntry.size) =
        some kept.encodeEntry) :
      Kept bytes sectionStart (event, some detail) (placed, some kept)

theorem forall₂_placeFrom {bytes : ByteArray} {sectionStart : Nat} (small : bytes.size < 2 ^ 63)
    {front back : ByteArray} (follows : sectionStart ≤ front.size)
    {entries : List (Event × Option Detail)}
    (whole : bytes = front ++ encodeDetails (placeFrom front.size entries) ++ back) :
    List.Forall₂ (Kept bytes sectionStart) entries (placeFrom front.size entries) := by
  -- The bytes in front grow by each entry, so the running offset is always their number.
  induction entries generalizing front with
  | nil => exact .nil
  | cons entry rest ih =>
    obtain ⟨event, detail?⟩ := entry
    cases detail? with
    | none => exact .cons (.plain event) (ih follows whole)
    | some detail =>
      rw [placeFrom, encodeDetails] at whole
      rw [placeFrom]
      generalize placement : { event with detailOffset := Int64.ofNat front.size } = placed at *
      generalize keeping : { detail with event := placed } = kept at *
      have total : bytes = front ++ kept.encodeEntry ++
          (encodeDetails (placeFrom (front.size + kept.encodeEntry.size) rest) ++ back) := by
        rw [whole]
        simp only [ByteArray.append_assoc]
      have begins : front.size < 2 ^ 63 := by
        rw [total, ByteArray.size_append, ByteArray.size_append] at small
        omega
      have offset : placed.detailOffset.toInt = front.size := by
        rw [← placement]
        exact Int64.toInt_ofNat_of_lt begins
      have found : Binary.window? bytes front.size (front.size + kept.encodeEntry.size) =
          some kept.encodeEntry := by
        rw [total]
        exact Binary.window?_middle front kept.encodeEntry _ rfl rfl
      have later : List.Forall₂ (Kept bytes sectionStart) rest
          (placeFrom (front ++ kept.encodeEntry).size rest) := by
        apply ih
        · rw [ByteArray.size_append]
          omega
        · rw [total, ByteArray.size_append]
          simp only [ByteArray.append_assoc]
      rw [ByteArray.size_append] at later
      refine .cons (.detailed ?_ keeping.symm offset follows found) later
      rw [← placement]

/-- An entry that the bytes of a file hold is the one at its place. -/
theorem entryAt_of_window? {mapping : Mapping} {sectionStart : UInt64} {offset : Int64}
    {start : Nat} {detail : Detail} (short : detail.encode.size < 2 ^ 32)
    (starts : offset.toInt = start)
    (follows : sectionStart.toNat ≤ start)
    (found : Binary.window? mapping.bytes start (start + detail.encodeEntry.size) =
      some detail.encodeEntry) :
    (MappedFile.ofMapping mapping).entryAt sectionStart offset =
      .ok ⟨.ofNat detail.encode.size, detail.encode⟩ := by
  obtain ⟨ordered, inside, same⟩ := Binary.window?_eq_some_iff.mp found
  have size := detail.size_encodeEntry
  have fits : detail.encode.size < 256 ^ 4 := short
  have length : Binary.number? detail.encodeEntry 0 4 = some detail.encode.size := by
    rw [Detail.encodeEntry, Binary.number?_append _ (by simp), Binary.number?_pack,
      Nat.mod_eq_of_lt fits]
  have payload : Binary.window? detail.encodeEntry 4 (4 + detail.encode.size) =
      some detail.encode := by
    have middle : Binary.window? (detail.encodeEntry ++ .empty) 4 (4 + detail.encode.size) =
        some detail.encode := Binary.window?_middle _ _ _ (by simp) (by simp)
    rwa [ByteArray.append_empty] at middle
  rw [← same, Binary.number?_extract ordered inside (by omega), Nat.add_zero] at length
  rw [← same, Binary.window?_extract ordered inside (by omega), ← Nat.add_assoc] at payload
  rw [MappedFile.entryAt_ofMapping, DetailEntry.read_of_le starts follows length (by omega),
    (Binary.window?_eq_some_iff.mp payload).2.2, mapError_ok]

theorem detailFor_of_kept {decoder : Json.Decoder} {mapping : Mapping} {contents : Contents}
    {entry placed : Event × Option Detail} (behind : 0 < contents.layout.detailOffset.toNat)
    (kept : Kept mapping.bytes contents.layout.detailOffset.toNat entry placed)
    (readable : ∀ detail ∈ placed.2, detail.Writable ∧ detail.encode.size < 2 ^ 32) :
    (Reader.detailFor ⟨.ofMapping mapping, some contents⟩ decoder placed.1).answer =
      .ok placed.2 := by
  cases kept with
  | plain event => rfl
  | @detailed event placed detail kept start sameEvent sameDetail offset follows found =>
    obtain ⟨writable, short⟩ := readable kept rfl
    have hasDetail : placed.hasDetail = true := by
      rw [Event.hasDetail, decide_eq_true_eq, Int64.lt_iff_toInt_lt, offset, Int64.toInt_zero]
      omega
    have entry := entryAt_of_window? short offset follows found
    simp only [Reader.detailFor, Reader.contents, hasDetail, if_true, Reader.detailAt,
      MappedFile.detailAt, entry, Reported.map, Detail.decode_encode writable]
    rfl

theorem exists_kept {bytes : ByteArray} {sectionStart : Nat}
    {entries all : List (Event × Option Detail)} {placed : Event × Option Detail}
    (kept : List.Forall₂ (Kept bytes sectionStart) entries all) (present : placed ∈ all) :
    ∃ entry, Kept bytes sectionStart entry placed := by
  induction kept with
  | nil => cases present
  | @cons entry _ _ _ first _ ih =>
    rcases List.mem_cons.mp present with same | later
    · exact ⟨entry, same ▸ first⟩
    · exact ih later

variable (file : TraceFile)

theorem size_front :
    (file.header.encode ++ file.manifest ++ encodeIndex file.placed ++ file.padding).size =
      file.detailOffset := by
  have header : Format.headerSize.toNat = 40 := rfl
  have record : Format.recordSize.toNat = 32 := rfl
  simp only [ByteArray.size_append, Header.size_encode, size_encodeIndex, placed,
    length_placeFrom, detailOffset, indexOffset, header, record]

theorem size_encode : file.encode.size = file.detailOffset + (encodeDetails file.placed).size := by
  rw [encode, ByteArray.size_append, size_front]

variable {file}

/-- The words of a header hold the sizes and places of the sections. -/
private theorem toNat_header (small : file.encode.size < 2 ^ 63) :
    file.header.manifestLength.toNat = file.manifest.size ∧
    file.header.indexOffset.toNat = 40 + file.manifest.size ∧
    file.header.indexCount.toNat = file.entries.length ∧
    file.header.detailOffset.toNat = file.detailOffset := by
  have total := file.size_encode
  have details : file.detailOffset =
    40 + file.manifest.size + 32 * file.entries.length + file.padding.size := rfl
  have index : file.indexOffset = 40 + file.manifest.size := rfl
  have word {number : Nat} (within : number ≤ file.encode.size) :
      (UInt64.ofNat number).toNat = number :=
    UInt64.toNat_ofNat_of_lt' (by rw [UInt64.size]; omega)
  exact ⟨word (by omega), word (by omega), word (by omega), word (by omega)⟩

theorem matches_encode (hasManifest : file.manifest.size ≠ 0) (small : file.encode.size < 2 ^ 63) :
    file.header.sections.Matches file.encode := by
  obtain ⟨length, start, count, stop⟩ := toNat_header small
  have total := file.size_encode
  have details : file.detailOffset =
    40 + file.manifest.size + 32 * file.entries.length + file.padding.size := rfl
  refine Layout.read_eq_ok_iff.mp (Layout.read_eq_ok_iff_header.mpr ⟨file.header, ?_, ?_, rfl⟩)
  · simp only [encode, ByteArray.append_assoc]
    exact Header.read?_encode _ _
  · exact ⟨rfl, rfl, by omega, by omega, by omega, by omega⟩

theorem extract_manifest (small : file.encode.size < 2 ^ 63) :
    file.encode.extract 40 (40 + file.header.sections.manifestLength.toNat) = file.manifest := by
  have length : file.header.sections.manifestLength.toNat = file.manifest.size :=
    (toNat_header small).1
  have window : Binary.window? file.encode 40 (40 + file.manifest.size) = some file.manifest := by
    simp only [encode, ByteArray.append_assoc]
    rw [← ByteArray.append_assoc]
    exact Binary.window?_middle _ _ _ (by rw [Header.size_encode]) (by rw [Header.size_encode])
  rw [length, (Binary.window?_eq_some_iff.mp window).2.2]

theorem record_encode (small : file.encode.size < 2 ^ 63) {place : Nat}
    (counted : place < file.placed.length) :
    file.header.sections.record file.encode place = .ok file.placed[place].1 := by
  have start : file.header.sections.indexOffset.toNat =
      (file.header.encode ++ file.manifest).size := by
    rw [ByteArray.size_append, Header.size_encode]
    exact (toNat_header small).2.1
  have window := window?_encodeIndex (file.header.encode ++ file.manifest)
    (file.padding ++ encodeDetails file.placed) counted
  rw [← ByteArray.append_assoc, ← encode, ← start] at window
  rw [Layout.record, (Binary.window?_eq_some_iff.mp window).2.2, Event.decode_encode]
  rfl

theorem forall₂_placed (small : file.encode.size < 2 ^ 63) :
    List.Forall₂ (Kept file.encode file.detailOffset) file.entries file.placed := by
  rw [placed, ← file.size_front]
  apply forall₂_placeFrom small (Nat.le_refl _)
  rw [file.size_front, ByteArray.append_empty]
  rfl

end TraceFile

theorem TraceFile.items_scan {file : TraceFile} (hasManifest : file.manifest.size ≠ 0)
    (small : file.encode.size < 2 ^ 63) (path : String) (filter : EventFilter) :
    (file.header.sections.scan ⟨path, file.encode⟩ filter).items =
      ((file.placed.map (·.1)).filter filter.keeps).map .ok := by
  have same := matches_encode hasManifest small
  have count : file.header.sections.indexCount.toNat = file.placed.length := by
    rw [placed, length_placeFrom]
    exact (toNat_header small).2.2.1
  have records : file.header.sections.records file.encode = (file.placed.map (·.1)).map .ok := by
    apply List.ext_getElem
    · rw [Layout.length_records, count, List.length_map, List.length_map]
    · intro place inside _
      rw [Layout.length_records, count] at inside
      simp only [Layout.records, List.getElem_map, List.getElem_range]
      exact record_encode small inside
  rw [Scan.items_eq, same.outcomes_scan, records, Scan.itemsOf_ok]
  rfl

/-- A file is read as what it was laid out from. It opens, its index gives the events in order, and
each event leads to its own detail, or to none if it has none. -/
theorem Reader.openFile_encode {decoder : Json.Decoder} {file : TraceFile} {manifest : Manifest}
    (accepted : Manifest.decode decoder file.manifest = .ok manifest)
    (small : file.encode.size < 2 ^ 63)
    (readable : ∀ placed ∈ file.placed, ∀ detail ∈ placed.2,
      detail.Writable ∧ detail.encode.size < 2 ^ 32)
    {store : FileStore} {path : String} (found : store.read path = .ok file.encode)
    (prior : Reader) :
    let outcome := prior.openFile decoder store path
    List.Forall₂ (TraceFile.Kept file.encode file.detailOffset) file.entries file.placed ∧
    outcome.answer = .ok () ∧
    (∃ scan, outcome.state.scan .all = .ok scan ∧
      scan.items = (file.placed.map (·.1)).map .ok) ∧
    ∀ placed ∈ file.placed, (outcome.state.detailFor decoder placed.1).answer = .ok placed.2 := by
  intro outcome
  have hasManifest : file.manifest.size ≠ 0 := by
    intro empty
    rw [Manifest.decode, if_pos empty] at accepted
    cases accepted
  have same := TraceFile.matches_encode hasManifest small
  have opening := Reader.opened_of_matches found same decoder
  rw [TraceFile.extract_manifest small, accepted] at opening
  obtain ⟨answer, state⟩ := Reader.openFile_of_ok opening prior
  have places := TraceFile.forall₂_placed small
  refine ⟨places, answer, ⟨file.header.sections.scan ⟨path, file.encode⟩ .all, ?_, ?_⟩, ?_⟩
  · rw [state]
    rfl
  · rw [TraceFile.items_scan hasManifest small,
      List.filter_eq_self.mpr fun event _ => EventFilter.keeps_all event]
  · intro placed present
    have stop : file.header.sections.detailOffset.toNat = file.detailOffset :=
      (TraceFile.toNat_header small).2.2.2
    obtain ⟨entry, kept⟩ := TraceFile.exists_kept places present
    rw [← stop] at kept
    rw [state]
    have behind : file.detailOffset =
      40 + file.manifest.size + 32 * file.entries.length + file.padding.size := rfl
    exact TraceFile.detailFor_of_kept (by rw [stop]; omega) kept (readable placed present)

def smallTrace : TraceFile where
  flags := 3
  manifest := "\x7b\"event_count\":2\x7d".toUTF8
  entries := [
    (⟨100, 11, 1, .functionEnter, 0, 0⟩, none),
    (⟨250, 12, 2, .syscall, 0, 7⟩, some {
      event := ⟨0, 0, 0, .custom, 0, 0⟩
      callStack := [4096, 18446744073709551615]
      arguments := [("fd", .ofSigned (-1)), ("path", .string "/dev/\"null\"")]
      returnValue := some (.array [.bool true, .null])
      metadata := [] })]
  padding := ⟨#[1, 2, 3]⟩

theorem Reader.openFile_smallTrace :
    let decoder : Json.Decoder := .saying "expected value"
    let store : FileStore := .ofFiles [("a", smallTrace.encode)]
    let outcome := Reader.closed.openFile decoder store "a"
    smallTrace.encode.size < 2 ^ 63 ∧ outcome.answer = .ok () ∧
    (∃ scan, outcome.state.scan .all = .ok scan ∧
      scan.items = (smallTrace.placed.map (·.1)).map .ok) ∧
    ∀ placed ∈ smallTrace.placed,
      (outcome.state.detailFor decoder placed.1).answer = .ok placed.2 := by
  intro decoder store
  have accepted : Manifest.decode decoder smallTrace.manifest = .ok ⟨[], .zero, [], 2⟩ :=
    eq_ok_of_toOption (by decide +kernel)
  have small : smallTrace.encode.size < 2 ^ 63 := by decide +kernel
  have readable : ∀ placed ∈ smallTrace.placed, ∀ detail ∈ placed.2,
      detail.Writable ∧ detail.encode.size < 2 ^ 32 := by
    intro placed present detail held
    rcases List.mem_cons.mp present with same | later
    · subst same
      cases held
    rcases List.mem_cons.mp later with same | nothing
    · subst same
      cases held
      refine ⟨Detail.writable_of_readable (by decide) (by decide) ?_ nofun, by decide +kernel⟩
      intro value returned
      cases returned
      decide
    · cases nothing
  have found : store.read "a" = .ok smallTrace.encode := rfl
  obtain ⟨_, answer, scan, details⟩ :=
    Reader.openFile_encode accepted small readable found .closed
  exact ⟨small, answer, scan, details⟩

end TraceContainer
