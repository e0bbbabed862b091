import TraceContainer.Session.Reader
import TraceContainer.Proofs.Truncation

/-! Sections of open files. Each answer is read from one of them: what a file says of itself from
the manifest, scans from the index and details from the detail section. Files that agree on a
section agree on these answers, whatever else they hold. -/
namespace TraceContainer

/-- A window behind a position is found again in what stands behind that position. -/
theorem Binary.window?_behind {source : ByteArray} {first : Nat} (inside : first ≤ source.size)
    (start stop : Nat) :
    window? (source.extract first source.size) start stop =
      window? source (first + start) (first + stop) := by
  by_cases fits : first + stop ≤ source.size
  · exact window?_extract inside (Nat.le_refl _) fits
  · have size : (source.extract first source.size).size = source.size - first := by
      rw [ByteArray.size_extract, Nat.min_self]
    rw [window?_of_lt (by omega), window?_of_lt (Nat.lt_of_not_le fits)]

namespace Layout

def manifestSection (layout : Layout) (bytes : ByteArray) : ByteArray :=
  bytes.extract 40 (40 + layout.manifestLength.toNat)

def indexSection (layout : Layout) (bytes : ByteArray) : ByteArray :=
  bytes.extract layout.indexOffset.toNat (layout.indexOffset.toNat + 32 * layout.indexCount.toNat)

/-- Everything from the start of the details to the end of the file. -/
def detailSection (layout : Layout) (bytes : ByteArray) : ByteArray :=
  bytes.extract layout.detailOffset.toNat bytes.size

variable {layout otherLayout : Layout} {bytes otherBytes : ByteArray}

/-- A record is a part of the index, at a place that does not depend on where the index lies. -/
theorem extract_record {place : Nat} (counted : place < layout.indexCount.toNat) :
    bytes.extract (layout.indexOffset.toNat + 32 * place)
        (layout.indexOffset.toNat + 32 * place + 32) =
      (layout.indexSection bytes).extract (32 * place) (32 * place + 32) := by
  rw [indexSection, ByteArray.extract_extract, Nat.min_eq_left (by omega), Nat.add_assoc]

theorem records_congr (start : layout.indexOffset = otherLayout.indexOffset)
    (count : layout.indexCount = otherLayout.indexCount)
    (same : layout.indexSection bytes = otherLayout.indexSection otherBytes) :
    layout.records bytes = otherLayout.records otherBytes := by
  rw [records, records, ← count]
  apply List.map_congr_left
  intro place member
  have counted := List.mem_range.mp member
  rw [record, record, extract_record counted, same, ← extract_record (count ▸ counted), start]

/-- Scans over one index give the same items, and end with the same error. -/
theorem Matches.items_congr (one : layout.Matches bytes) (other : otherLayout.Matches otherBytes)
    (start : layout.indexOffset = otherLayout.indexOffset)
    (count : layout.indexCount = otherLayout.indexCount)
    (same : layout.indexSection bytes = otherLayout.indexSection otherBytes)
    (path otherPath : String) (filter : EventFilter) :
    (layout.scan ⟨path, bytes⟩ filter).items =
      (otherLayout.scan ⟨otherPath, otherBytes⟩ filter).items := by
  rw [Scan.items_eq, Scan.items_eq, one.outcomes_scan, other.outcomes_scan,
    records_congr start count same]
  rfl

end Layout

/-- An entry is read from behind the start of its section, and from nowhere else. -/
theorem DetailEntry.read_congr {bytes otherBytes : ByteArray} {sectionStart : UInt64}
    (inside : sectionStart.toNat ≤ bytes.size) (otherInside : sectionStart.toNat ≤ otherBytes.size)
    (same : bytes.extract sectionStart.toNat bytes.size =
      otherBytes.extract sectionStart.toNat otherBytes.size) (offset : Int64) :
    read bytes sectionStart offset = read otherBytes sectionStart offset := by
  by_cases precedes : offset.toInt < sectionStart.toNat
  · rw [read, read, if_pos precedes, if_pos precedes]
  · obtain ⟨skipped, place⟩ : ∃ skipped, offset.toInt.toNat = sectionStart.toNat + skipped :=
      Nat.exists_eq_add_of_le (by omega)
    have window (start stop : Nat) :
        Binary.window? bytes (sectionStart.toNat + start) (sectionStart.toNat + stop) =
          Binary.window? otherBytes (sectionStart.toNat + start) (sectionStart.toNat + stop) := by
      rw [← Binary.window?_behind inside, ← Binary.window?_behind otherInside, same]
    have number : Binary.number? bytes (sectionStart.toNat + skipped) 4 =
        Binary.number? otherBytes (sectionStart.toNat + skipped) 4 := by
      rw [Binary.number?, Binary.number?, Nat.add_assoc, window]
    rw [read, read, if_neg precedes, if_neg precedes]
    simp only [place, number, Nat.add_assoc, window]

namespace Contents

variable {decoder : Json.Decoder} {bytes otherBytes : ByteArray} {contents otherContents : Contents}

theorem matches_of_read (read : read decoder bytes = .ok contents) :
    contents.layout.Matches bytes ∧ contents.keptMetadata? = none := by
  obtain ⟨layout, manifest, same, _, rfl⟩ := read_eq_ok_iff.mp read
  exact ⟨same, rfl⟩

theorem manifest_congr (one : read decoder bytes = .ok contents)
    (other : read decoder otherBytes = .ok otherContents)
    (same : contents.layout.manifestSection bytes =
      otherContents.layout.manifestSection otherBytes)
    (count : contents.layout.indexCount = otherContents.layout.indexCount) :
    contents.manifest = otherContents.manifest := by
  obtain ⟨layout, manifest, _, decoded, rfl⟩ := read_eq_ok_iff.mp one
  obtain ⟨otherLayout, otherManifest, _, otherDecoded, rfl⟩ := read_eq_ok_iff.mp other
  have payloads : Manifest.decode decoder (layout.manifestSection bytes) =
      Manifest.decode decoder (otherLayout.manifestSection otherBytes) := congrArg _ same
  have manifests : manifest = otherManifest :=
    Except.ok.inj (decoded.symm.trans (payloads.trans otherDecoded))
  change manifest.withCount layout.indexCount = otherManifest.withCount otherLayout.indexCount
  rw [manifests, show layout.indexCount = otherLayout.indexCount from count]

end Contents

namespace Reader

section Readers

variable {decoder : Json.Decoder} {path otherPath : String} {bytes otherBytes : ByteArray}
  {contents otherContents : Contents} (one : Contents.read decoder bytes = .ok contents)
  (other : Contents.read decoder otherBytes = .ok otherContents)

include one other

/-- What a file says of itself is said by its manifest and the number of its records. -/
theorem manifest_congr
    (same : contents.layout.manifestSection bytes =
      otherContents.layout.manifestSection otherBytes)
    (count : contents.layout.indexCount = otherContents.layout.indexCount) :
    let reader := holding path bytes contents
    let otherReader := holding otherPath otherBytes otherContents
    reader.manifest = otherReader.manifest ∧ reader.timeRange = otherReader.timeRange ∧
      reader.threadIds = otherReader.threadIds ∧
      (path = otherPath → reader.metadata.answer = otherReader.metadata.answer) := by
  intro reader otherReader
  have manifests := Contents.manifest_congr one other same count
  have kept := (Contents.matches_of_read one).2
  have otherKept := (Contents.matches_of_read other).2
  have view {View : Type} (ofManifest : Manifest → View) :
      reader.contents.map (ofManifest ·.manifest) =
        otherReader.contents.map (ofManifest ·.manifest) :=
    congrArg (Except.ok ∘ ofManifest) manifests
  refine ⟨view id, view Manifest.timeRange, view Manifest.threadIds, ?_⟩
  rintro rfl
  simp only [reader, otherReader, holding, metadata, kept, otherKept, Contents.mergedMetadata,
    manifests, count]
  rfl

theorem items_congr (start : contents.layout.indexOffset = otherContents.layout.indexOffset)
    (count : contents.layout.indexCount = otherContents.layout.indexCount)
    (same : contents.layout.indexSection bytes = otherContents.layout.indexSection otherBytes)
    (filter : EventFilter) :
    ∃ items, ((holding path bytes contents).scan filter).map (·.items) = .ok items ∧
      ((holding otherPath otherBytes otherContents).scan filter).map (·.items) = .ok items := by
  have items := (Contents.matches_of_read one).1.items_congr (Contents.matches_of_read other).1
    start count same path otherPath filter
  exact ⟨_, rfl, congrArg Except.ok items.symm⟩

theorem estimate_congr (start : contents.layout.indexOffset = otherContents.layout.indexOffset)
    (count : contents.layout.indexCount = otherContents.layout.indexCount)
    (same : contents.layout.indexSection bytes = otherContents.layout.indexSection otherBytes)
    (timeRange? : Option TimeRange) :
    (holding path bytes contents).estimate timeRange? =
      (holding otherPath otherBytes otherContents).estimate timeRange? := by
  cases timeRange? with
  | none => exact congrArg Except.ok count
  | some range =>
    have items := (Contents.matches_of_read one).1.items_congr (Contents.matches_of_read other).1
      start count same path otherPath ⟨some range, []⟩
    exact congrArg (List.foldlM (fun (count : UInt64) item => item.map fun _ => count + 1) 0) items

theorem detailAt_congr (start : contents.layout.detailOffset = otherContents.layout.detailOffset)
    (same : contents.layout.detailSection bytes = otherContents.layout.detailSection otherBytes)
    (offset : Int64) :
    (holding path bytes contents).detailAt decoder offset =
      (holding otherPath otherBytes otherContents).detailAt decoder offset := by
  have inside := (Contents.matches_of_read one).1.inside
  have otherInside := (Contents.matches_of_read other).1.inside
  rw [Layout.detailSection, Layout.detailSection, ← start] at same
  rw [← start] at otherInside
  rw [detailAt_holding, detailAt_holding, ← start,
    DetailEntry.read_congr inside otherInside same offset]

theorem detailFor_congr (start : contents.layout.detailOffset = otherContents.layout.detailOffset)
    (same : contents.layout.detailSection bytes = otherContents.layout.detailSection otherBytes)
    (event : Event) :
    (holding path bytes contents).detailFor decoder event =
      (holding otherPath otherBytes otherContents).detailFor decoder event := by
  have details : (holding path bytes contents).detailAt decoder event.detailOffset =
      (holding otherPath otherBytes otherContents).detailAt decoder event.detailOffset :=
    detailAt_congr one other start same event.detailOffset
  rw [holding, holding] at details
  simp only [detailFor, Reader.contents, holding, details]

end Readers

theorem isOpen_eq (reader : Reader) : reader.isOpen = reader.layout.isOk := by
  obtain ⟨file, contents?⟩ := reader
  cases contents? <;> rfl

end Reader

namespace Reader.SameButDetails

variable {one other : Reader} (same : one.SameButDetails other)

include same

theorem isOpen : one.isOpen = other.isOpen := by
  rw [isOpen_eq, isOpen_eq, same.layout]

theorem scan_cases (filter : EventFilter) :
    (∃ error, one.scan filter = .error error ∧ other.scan filter = .error error) ∨
      ∃ scan otherScan, one.scan filter = .ok scan ∧ other.scan filter = .ok otherScan ∧
        scan.items = otherScan.items := by
  have items := same.items filter
  cases found : one.scan filter with
  | error error =>
    cases otherFound : other.scan filter with
    | error otherError =>
      rw [found, otherFound] at items
      cases items
      exact .inl ⟨error, rfl, rfl⟩
    | ok otherScan =>
      rw [found, otherFound] at items
      cases items
  | ok scan =>
    cases otherFound : other.scan filter with
    | error otherError =>
      rw [found, otherFound] at items
      cases items
    | ok otherScan =>
      rw [found, otherFound] at items
      exact .inr ⟨scan, otherScan, rfl, rfl, Except.ok.inj items⟩

/-- Readers that give the same details as well answer every query alike. -/
theorem answer_eq {decoder : Json.Decoder}
    (detailAt : ∀ offset, one.detailAt decoder offset = other.detailAt decoder offset)
    (detailFor : ∀ event, one.detailFor decoder event = other.detailFor decoder event)
    (query : ReaderQuery) : one.answer decoder query = other.answer decoder query := by
  have detailOfItem : one.detailOfItem decoder = other.detailOfItem decoder := by
    funext item
    cases item with
    | error error => rfl
    | ok event => exact detailFor event
  cases query with
  | isOpen => rw [answer, answer, same.isOpen]
  | path => rw [answer, answer, same.path]
  | layout => rw [answer, answer, same.layout]
  | manifest => rw [answer, answer, same.manifest]
  | metadata => rw [answer, answer, same.metadata]
  | timeRange => rw [answer, answer, same.timeRange]
  | threadIds => rw [answer, answer, same.threadIds]
  | events request =>
    rw [answer, answer, scanFor, scanFor]
    cases request.filter with
    | error error => rfl
    | ok filter =>
      rcases same.scan_cases filter with ⟨error, found, otherFound⟩ |
        ⟨scan, otherScan, found, otherFound, items⟩
      · simp only [bind_ok, found, otherFound]
      · simp only [bind_ok, found, otherFound, Reply.of, Scan.result, items]
  | detail offset => rw [answer, answer, detailAt]
  | detailFor event => rw [answer, answer, detailFor]
  | detailEach request =>
    rw [answer, answer, scanFor, scanFor]
    cases request.filter with
    | error error => rfl
    | ok filter =>
      rcases same.scan_cases filter with ⟨error, found, otherFound⟩ |
        ⟨scan, otherScan, found, otherFound, items⟩
      · simp only [bind_ok, found, otherFound]
      · simp only [bind_ok, found, otherFound, items, detailOfItem]
  | estimate bounds => simp only [answer, same.estimate]

end Reader.SameButDetails

namespace Reader

/-- The answers of two files that open, section by section. Files with the same manifest and as many
records say the same of themselves. Files with the same index give the same items to every filter,
and the same estimates. Files with the same details give the same detail at every offset. And files
that agree on all of it cannot be told apart under one path. -/
theorem sections_isolated {decoder : Json.Decoder} {store otherStore : FileStore}
    {path otherPath : String} {bytes otherBytes : ByteArray} {prior otherPrior : Reader}
    (found : store.read path = .ok bytes)
    (success : (prior.openFile decoder store path).answer = .ok ())
    (otherFound : otherStore.read otherPath = .ok otherBytes)
    (otherSuccess : (otherPrior.openFile decoder otherStore otherPath).answer = .ok ()) :
    let one := (prior.openFile decoder store path).state
    let other := (otherPrior.openFile decoder otherStore otherPath).state
    ∃ layout otherLayout, one.layout = .ok layout ∧ other.layout = .ok otherLayout ∧
    (layout.manifestSection bytes = otherLayout.manifestSection otherBytes →
      layout.indexCount = otherLayout.indexCount →
      one.manifest = other.manifest ∧ one.timeRange = other.timeRange ∧
        one.threadIds = other.threadIds ∧
        (path = otherPath → one.metadata.answer = other.metadata.answer)) ∧
    (layout.indexOffset = otherLayout.indexOffset →
      layout.indexCount = otherLayout.indexCount →
      layout.indexSection bytes = otherLayout.indexSection otherBytes →
      (∀ filter, ∃ items, (one.scan filter).map (·.items) = .ok items ∧
        (other.scan filter).map (·.items) = .ok items) ∧
      ∀ timeRange?, one.estimate timeRange? = other.estimate timeRange?) ∧
    (layout.detailOffset = otherLayout.detailOffset →
      layout.detailSection bytes = otherLayout.detailSection otherBytes →
      (∀ offset, one.detailAt decoder offset = other.detailAt decoder offset) ∧
      ∀ event, one.detailFor decoder event = other.detailFor decoder event) ∧
    (path = otherPath → layout = otherLayout →
      layout.manifestSection bytes = otherLayout.manifestSection otherBytes →
      layout.indexSection bytes = otherLayout.indexSection otherBytes →
      layout.detailSection bytes = otherLayout.detailSection otherBytes →
      ∀ query, one.answer decoder query = other.answer decoder query) := by
  obtain ⟨contents, read, state⟩ := (opened_eq_ok_iff found).mp (opened_of_answer success)
  obtain ⟨otherContents, otherRead, otherState⟩ :=
    (opened_eq_ok_iff otherFound).mp (opened_of_answer otherSuccess)
  intro one other
  simp only [one, other, state, otherState]
  refine ⟨contents.layout, otherContents.layout, rfl, rfl, ?_, ?_, ?_, ?_⟩
  · intro manifests counts
    exact manifest_congr read otherRead manifests counts
  · intro starts counts indexes
    exact ⟨items_congr read otherRead starts counts indexes,
      estimate_congr read otherRead starts counts indexes⟩
  · intro starts details
    exact ⟨detailAt_congr read otherRead starts details,
      detailFor_congr read otherRead starts details⟩
  · rintro rfl layouts manifests indexes details
    have starts := congrArg Layout.indexOffset layouts
    have counts := congrArg Layout.indexCount layouts
    have detailStarts := congrArg Layout.detailOffset layouts
    obtain ⟨manifest, timeRange, threadIds, metadata⟩ :=
      manifest_congr read otherRead manifests counts
    have same : (holding path bytes contents).SameButDetails
        (holding path otherBytes otherContents) := {
      path := rfl
      layout := congrArg Except.ok layouts
      manifest
      metadata := metadata rfl
      timeRange
      threadIds
      items := by
        intro filter
        obtain ⟨items, here, there⟩ := items_congr read otherRead starts counts indexes filter
        exact here.trans there.symm
      estimate := estimate_congr read otherRead starts counts indexes }
    exact same.answer_eq (detailAt_congr read otherRead detailStarts details)
      (detailFor_congr read otherRead detailStarts details)

def paddedTrace (flags : UInt16) (padding : List UInt8) : ByteArray :=
  Header.encode ⟨Format.magic, Format.version, flags, 2, 42, 1, 77⟩ ++ "\x7b\x7d".toUTF8 ++
    IndexRecord.encode ⟨100, 11, 1, 0, 77, 0⟩ ++ Binary.pack padding ++
    Binary.pack [2, 0, 0, 0, 123, 125]

theorem sections_isolated_paddedTrace :
    let bytes := paddedTrace 0 [0, 0, 0]
    let otherBytes := paddedTrace 65535 [77, 0, 255]
    let decoder : Json.Decoder := .saying "expected value"
    let store : FileStore := .ofFiles [("a", bytes)]
    let otherStore : FileStore := .ofFiles [("a", otherBytes)]
    store.read "a" = .ok bytes ∧ otherStore.read "a" = .ok otherBytes ∧ bytes ≠ otherBytes ∧
    (closed.openFile decoder store "a").answer = .ok () ∧
    (closed.openFile decoder otherStore "a").answer = .ok () ∧
    ∀ query, (closed.openFile decoder store "a").state.answer decoder query =
      (closed.openFile decoder otherStore "a").state.answer decoder query := by
  intro bytes otherBytes decoder store otherStore
  have found : store.read "a" = .ok bytes := rfl
  have otherFound : otherStore.read "a" = .ok otherBytes := rfl
  let contents : Contents :=
    { layout := ⟨40, 2, 42, 1, 77⟩, manifest := ⟨[], .zero, [], 1⟩ }
  have read : Contents.read decoder bytes = .ok contents := eq_ok_of_toOption (by decide +kernel)
  have otherRead : Contents.read decoder otherBytes = .ok contents :=
    eq_ok_of_toOption (by decide +kernel)
  obtain ⟨success, state⟩ := openFile_of_read found read closed
  obtain ⟨otherSuccess, otherState⟩ := openFile_of_read otherFound otherRead closed
  obtain ⟨layout, otherLayout, sections, otherSections, _, _, _, same⟩ :=
    sections_isolated found success otherFound otherSuccess
  rw [state] at sections
  cases sections
  rw [otherState] at otherSections
  cases otherSections
  exact ⟨found, otherFound, by decide +kernel, success, otherSuccess,
    same rfl rfl (by decide +kernel) (by decide +kernel) (by decide +kernel)⟩

end Reader

end TraceContainer
