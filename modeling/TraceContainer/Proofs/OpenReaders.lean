import TraceContainer.Proofs.DetailEntries
import TraceContainer.Proofs.FilteredScans
import TraceContainer.Proofs.KeptMetadata
import TraceContainer.Proofs.Sessions

/-! Readers between a successful opening and the next call that opens or closes something. Whatever
else is called meanwhile, they stay what they were but for the metadata that they keep, and a query
can fail only because of what the file holds. -/
namespace TraceContainer

/-- Whether a call leaves the file of the reader open as it is. -/
def ReaderCall.keepsFile : ReaderCall → Bool
  | .openFile _ | .openNew _ | .close => false
  | .files _ | .selectBackend _ | .startScan _ _ | .useScan _ _ | .query _ => true

/-- A reader that was another one before its metadata were asked for. -/
structure Reader.Continues (later former : Reader) : Prop where
  forget : later.forget = former
  coherent : later.Coherent

namespace Reader.Continues

variable {later former : Reader}

theorem of_fresh (fresh : former.forget = former) : former.Continues former :=
  ⟨fresh, coherent_of_forget_eq fresh⟩

theorem asked (same : later.Continues former) (query : ReaderQuery) :
    (later.asked query).Continues former :=
  ⟨(later.forget_asked query).trans same.forget, coherent_asked same.coherent query⟩

theorem answer (same : later.Continues former) (decoder : Json.Decoder) (query : ReaderQuery) :
    later.answer decoder query = former.answer decoder query := by
  rw [← answer_forget same.coherent, same.forget]

theorem metadata (same : later.Continues former) :
    later.metadata.answer = former.metadata.answer := by
  rw [← metadata_forget same.coherent, same.forget]

end Reader.Continues

namespace Session

/-- A call that leaves the file open changes nothing of the reader but what it keeps. -/
theorem continues_callReader {session : Session Reader} {former : Reader} {call : ReaderCall}
    (same : session.source.Continues former) (keeps : call.keepsFile = true) :
    (session.callReader call).state.source.Continues former := by
  cases call with
  | files call => exact same
  | selectBackend backend => exact same
  | openFile path => cases keeps
  | openNew path => cases keeps
  | close => cases keeps
  | startScan id request => simpa [callReader] using same
  | useScan id call => simpa [callReader] using same
  | query query => exact same.asked query

theorem continues_after {session : Session Reader} {former : Reader} {calls : List ReaderCall}
    (same : session.source.Continues former) (keeps : ∀ call ∈ calls, call.keepsFile = true) :
    (session.after callReader calls).source.Continues former := by
  apply after_keeps (fun session : Session Reader => session.source.Continues former) same
  intro session call member holds
  exact continues_callReader holds (keeps call member)

end Session

namespace Reader

variable {decoder : Json.Decoder}

theorem exists_read {store : FileStore} {path : String} {after : Reader}
    (success : opened decoder store path = .ok after) : ∃ bytes contents,
      store.read path = .ok bytes ∧ Contents.read decoder bytes = .ok contents ∧
        after = holding path bytes contents := by
  cases found : store.read path with
  | ok bytes =>
    obtain ⟨contents, read, held⟩ := (opened_eq_ok_iff found).mp success
    exact ⟨bytes, contents, rfl, read, held⟩
  | error cause =>
    rw [opened_of_unreadable found] at success
    cases success

theorem exists_holding {store : FileStore} {path : String} {after : Reader}
    (success : opened decoder store path = .ok after) : ∃ bytes layout manifest,
      layout.Matches bytes ∧ after = holding path bytes { layout, manifest } := by
  obtain ⟨bytes, contents, _, read, held⟩ := exists_read success
  obtain ⟨layout, manifest, same, _, rfl⟩ := Contents.read_eq_ok_iff.mp read
  exact ⟨bytes, layout, manifest.withCount layout.indexCount, same, held⟩

/-- Which reader a file gives depends on the bytes under its path alone. -/
theorem opened_congr {store other : FileStore} {path : String}
    (same : store.read path = other.read path) :
    opened decoder store path = opened decoder other path := by
  rw [opened, opened, MemoryMap.load, MemoryMap.load, same]

theorem isOpen_of_opened {store : FileStore} {path : String} {after : Reader}
    (success : opened decoder store path = .ok after) : after.isOpen = true := by
  obtain ⟨bytes, layout, manifest, _, rfl⟩ := exists_holding success
  rfl

theorem forget_of_opened {store : FileStore} {path : String} {after : Reader}
    (success : opened decoder store path = .ok after) : after.forget = after := by
  obtain ⟨bytes, layout, manifest, _, rfl⟩ := exists_holding success
  rfl

end Reader

theorem Session.continues_of_opened {session : Session Reader} {path : String}
    (success : (session.source.openFile session.decoder session.store path).answer = .ok ())
    {calls : List ReaderCall} (keeps : ∀ call ∈ calls, call.keepsFile = true) :
    ((session.callReader (.openFile path)).state.after callReader calls).source.Continues
      (session.source.openFile session.decoder session.store path).state := by
  have fresh := Reader.forget_of_opened (Reader.opened_of_answer success)
  exact continues_after (.of_fresh fresh) keeps

namespace Reader

/-- Nothing that was read when the file was opened is missing later. -/
theorem exists_view {View : Type} {reader : Reader} (isOpen : reader.isOpen = true)
    (view : Contents → View) : ∃ answer, reader.contents.map view = .ok answer := by
  obtain ⟨contents, present⟩ := Option.isSome_iff_exists.mp isOpen
  refine ⟨view contents, ?_⟩
  rw [Reader.contents, present]
  rfl

end Reader

/-- An answer that is there, or fails because of what a record or a detail holds. -/
def Error.OnlyDecode {Answer : Type} (answer : Except Error Answer) : Prop :=
  ∀ kind ∈ failure? answer, kind = .decode

namespace Error

variable {Answer Result : Type}

theorem onlyDecode_ok (answer : Answer) : OnlyDecode (.ok answer) := nofun

theorem onlyDecode_mapError (answer : Except DecodeError Answer) :
    OnlyDecode (answer.mapError .decode) := by
  cases answer with
  | ok answer => exact onlyDecode_ok answer
  | error cause =>
    intro kind failed
    exact (Option.some.inj failed).symm

theorem OnlyDecode.map {answer : Except Error Answer} (only : OnlyDecode answer)
    (result : Answer → Result) : OnlyDecode (answer.map result) := by
  cases answer with
  | ok answer => exact onlyDecode_ok _
  | error error => exact only

end Error

theorem Layout.onlyDecode_record (layout : Layout) (bytes : ByteArray) (place : Nat) :
    Error.OnlyDecode (layout.record bytes place) := by
  rw [record]
  cases Event.decode (bytes.extract (layout.indexOffset.toNat + 32 * place)
      (layout.indexOffset.toNat + 32 * place + 32)) with
  | ok event => exact Error.onlyDecode_ok event
  | error cause => exact Error.onlyDecode_mapError (.error (.recordAt _ cause))

theorem Layout.Matches.onlyDecode_items {layout : Layout} {bytes : ByteArray}
    (same : layout.Matches bytes) (path : String) (filter : EventFilter) :
    ∀ item ∈ (layout.scan ⟨path, bytes⟩ filter).items, Error.OnlyDecode item := by
  intro item member
  rw [Scan.items_eq, same.outcomes_scan] at member
  obtain ⟨place, _, rfl⟩ := List.mem_map.mp (Scan.mem_outcomes_of_mem_itemsOf member)
  exact layout.onlyDecode_record bytes place

theorem MappedFile.onlyDecode_detailAt (mapping : Mapping) (decoder : Json.Decoder)
    (sectionStart : UInt64) (offset : Int64) :
    Error.OnlyDecode ((ofMapping mapping).detailAt decoder sectionStart offset).answer := by
  rw [detailAt_ofMapping]
  cases DetailEntry.read mapping.bytes sectionStart offset with
  | error cause => exact Error.onlyDecode_mapError (.error cause)
  | ok entry => exact Error.onlyDecode_mapError (Detail.decode decoder entry.payload offset)

theorem Scan.onlyDecode_count {items : List (Except Error Event)}
    (only : ∀ item ∈ items, Error.OnlyDecode item) (start : UInt64) :
    Error.OnlyDecode
      (items.foldlM (fun (count : UInt64) item => item.map fun _ => count + 1) start) := by
  induction items generalizing start with
  | nil => exact Error.onlyDecode_ok start
  | cons item rest ih =>
    cases item with
    | error error => exact only _ List.mem_cons_self
    | ok event => exact ih (fun other member => only other (List.mem_cons_of_mem _ member)) _

theorem Reader.onlyDecode_detailFor {reader : Reader} (isOpen : reader.isOpen = true)
    {decoder : Json.Decoder} {event : Event}
    (only : ∀ offset, Error.OnlyDecode (reader.detailAt decoder offset).answer) :
    Error.OnlyDecode (reader.detailFor decoder event).answer := by
  obtain ⟨contents, present⟩ := Option.isSome_iff_exists.mp isOpen
  rw [detailFor, Reader.contents, present]
  by_cases hasDetail : event.hasDetail = true
  · simp only [hasDetail, if_true]
    exact (only event.detailOffset).map some
  · simp only [hasDetail, Bool.false_eq_true, if_false]
    exact Error.onlyDecode_ok none

/-- Of an open reader no query but those about the index and the details can fail, and these only
because of what a record or a detail holds, wherever the numbers in the file lead to. -/
theorem Session.open_reader_fails_only_decoding {session : Session Reader} {path : String}
    (success : (session.source.openFile session.decoder session.store path).answer = .ok ())
    {calls : List ReaderCall} (keeps : ∀ call ∈ calls, call.keepsFile = true) :
    let reader := ((session.callReader (.openFile path)).state.after callReader calls).source
    (∃ layout, reader.layout = .ok layout) ∧
    (∃ manifest, reader.manifest = .ok manifest) ∧
    (∃ members, reader.metadata.answer = .ok members) ∧
    (∃ range, reader.timeRange = .ok range) ∧
    (∃ threadIds, reader.threadIds = .ok threadIds) ∧
    (∀ filter, ∃ scan, reader.scan filter = .ok scan ∧
      ∀ item ∈ scan.items, Error.OnlyDecode item) ∧
    (∀ timeRange?, Error.OnlyDecode (reader.estimate timeRange?)) ∧
    (∀ decoder offset, Error.OnlyDecode (reader.detailAt decoder offset).answer) ∧
    ∀ decoder event, Error.OnlyDecode (reader.detailFor decoder event).answer := by
  intro reader
  have continues := continues_of_opened success keeps
  have opened := Reader.opened_of_answer success
  obtain ⟨bytes, layout, manifest, same, fresh⟩ := Reader.exists_holding opened
  rw [fresh] at continues
  -- But for the metadata that it keeps, the reader is the one that the opening has given.
  have forget := continues.forget
  change reader.forget = _ at forget
  have isOpen : reader.isOpen = true := by
    rw [← Reader.isOpen_forget, forget]
    rfl
  have detailAt (decoder : Json.Decoder) (offset : Int64) :
      Error.OnlyDecode (reader.detailAt decoder offset).answer := by
    rw [← Reader.detailAt_forget, forget]
    exact MappedFile.onlyDecode_detailAt ⟨path, bytes⟩ decoder layout.detailOffset offset
  have items (filter : EventFilter) := same.onlyDecode_items path filter
  refine ⟨Reader.exists_view isOpen _, Reader.exists_view isOpen _, ?_,
    Reader.exists_view isOpen _, Reader.exists_view isOpen _, ?_, ?_, detailAt, ?_⟩
  · rw [Reader.metadata_answer continues.coherent]
    exact Reader.exists_view isOpen _
  · intro filter
    refine ⟨layout.scan ⟨path, bytes⟩ filter, ?_, items filter⟩
    rw [← Reader.scan_forget, forget]
    rfl
  · intro timeRange?
    rw [← Reader.estimate_forget, forget]
    cases timeRange? with
    | none => exact Error.onlyDecode_ok _
    | some range => exact Scan.onlyDecode_count (items ⟨some range, []⟩) 0
  · intro decoder event
    exact Reader.onlyDecode_detailFor isOpen (detailAt decoder)

def corruptSession : Session Reader :=
  .start (.saying "expected value") (.ofFiles [("a", corruptTrace)]) .closed

theorem corruptSession_opens :
    (corruptSession.source.openFile corruptSession.decoder corruptSession.store "a").answer =
      .ok () :=
  eq_ok_of_toOption (by decide +kernel)

theorem Session.open_reader_fails_only_decoding_corruptTrace :
    let calls : List ReaderCall := [.query .metadata, .files (.remove "a"), .query (.detail 7)]
    let reader := ((corruptSession.callReader (.openFile "a")).state.after callReader calls).source
    (corruptSession.source.openFile corruptSession.decoder corruptSession.store "a").answer =
      .ok () ∧
    (∀ call ∈ calls, call.keepsFile = true) ∧
    (∃ layout, reader.layout = .ok layout) ∧
    (∃ manifest, reader.manifest = .ok manifest) ∧
    (∃ members, reader.metadata.answer = .ok members) ∧
    (∃ range, reader.timeRange = .ok range) ∧
    (∃ threadIds, reader.threadIds = .ok threadIds) ∧
    (∀ filter, ∃ scan, reader.scan filter = .ok scan ∧
      ∀ item ∈ scan.items, Error.OnlyDecode item) ∧
    (∀ timeRange?, Error.OnlyDecode (reader.estimate timeRange?)) ∧
    (∀ decoder offset, Error.OnlyDecode (reader.detailAt decoder offset).answer) ∧
    ∀ decoder event, Error.OnlyDecode (reader.detailFor decoder event).answer :=
  ⟨corruptSession_opens, by decide,
    Session.open_reader_fails_only_decoding corruptSession_opens (by decide)⟩

end TraceContainer
