import TraceContainer.Proofs.OpenReaders

/-! The life of a reader through any run of calls. Its two parts are open together or not at all,
and whether they are, and under which path, is decided by the last call that opened or closed. -/
namespace TraceContainer

namespace Reader

/-- What was read from a file is there exactly while its bytes are. -/
def Linked (reader : Reader) : Prop :=
  reader.isOpen = reader.file.isOpen

theorem linked_closed : closed.Linked := rfl

variable {reader : Reader} {decoder : Json.Decoder}

theorem Linked.isOpen_iff (linked : reader.Linked) :
    reader.isOpen = true ↔ ∃ path, reader.path? = some path := by
  rw [linked, MemoryMap.isOpen, ← reader.file.coherent.path, Option.isSome_iff_exists]
  rfl

theorem Linked.eq_closed (linked : reader.Linked) (isClosed : reader.isOpen = false) :
    reader = closed := by
  obtain ⟨file, contents?⟩ := reader
  have noContents : contents? = none :=
    Option.isNone_iff_eq_none.mp (Option.isSome_eq_false_iff.mp isClosed)
  have unmapped : file.isOpen = false := linked.symm.trans isClosed
  rcases file.eq_closed_or_ofMapping with rfl | ⟨mapping, rfl⟩
  · rw [noContents]
    rfl
  · cases unmapped

theorem linked_of_opened {store : FileStore} {path : String} {after : Reader}
    (success : opened decoder store path = .ok after) : after.Linked ∧ after.path? = some path := by
  obtain ⟨bytes, layout, manifest, _, rfl⟩ := exists_holding success
  exact ⟨rfl, rfl⟩

theorem file_asked (reader : Reader) (query : ReaderQuery) :
    (reader.asked query).file = reader.file := by
  rw [← file_forget, forget_asked, file_forget]

theorem Linked.asked (linked : reader.Linked) (query : ReaderQuery) :
    (reader.asked query).Linked := by
  rw [Linked, ← isOpen_forget, forget_asked, isOpen_forget, file_asked]
  exact linked

theorem closed_of_failed (reader : Reader) {store : FileStore} {path : String} {error : Error}
    (failed : (reader.openFile decoder store path).answer = .error error) :
    (reader.openFile decoder store path).state = closed := by
  cases result : opened decoder store path with
  | error cause => exact (openFile_of_error result reader).2
  | ok after =>
    rw [(openFile_of_ok result reader).1] at failed
    cases failed

structure Refuses (reader : Reader) (error : Error) : Prop where
  layout : reader.layout = .error error
  manifest : reader.manifest = .error error
  metadata : reader.metadata.answer = .error error
  timeRange : reader.timeRange = .error error
  threadIds : reader.threadIds = .error error
  scan : ∀ filter, reader.scan filter = .error error
  detailAt : ∀ decoder offset, (reader.detailAt decoder offset).answer = .error error
  detailFor : ∀ decoder event, (reader.detailFor decoder event).answer = .error error
  estimate : ∀ timeRange?, reader.estimate timeRange? = .error error

theorem refuses_closed : closed.Refuses (.notOpen .reader) where
  layout := rfl
  manifest := rfl
  metadata := rfl
  timeRange := rfl
  threadIds := rfl
  scan _ := rfl
  detailAt _ _ := rfl
  detailFor _ _ := rfl
  estimate _ := rfl

end Reader

namespace ReaderCall

/-- What a call with its reply says of the file that is open behind it: the path of a file, or that
there is none. A call that leaves the reader in its place, as it does when no new one could be
opened for it, says nothing. -/
def verdict? : ReaderCall × Reply → Option (Option String)
  | (.openFile path, .status (.ok ()) _ _) => some (some path)
  | (.openFile _, _) => some none
  | (.openNew path, .status (.ok ()) _ _) => some (some path)
  | (.close, _) => some none
  | _ => none

/-- What the last call that opened or closed the reader says of the file that is open. -/
def lastVerdict? (history : List (ReaderCall × Reply)) : Option (Option String) :=
  history.reverse.findSome? verdict?

theorem lastVerdict?_append (front back : List (ReaderCall × Reply)) :
    lastVerdict? (front ++ back) = (lastVerdict? back).or (lastVerdict? front) := by
  rw [lastVerdict?, List.reverse_append, List.findSome?_append]
  rfl

theorem lastVerdict?_singleton (call : ReaderCall × Reply) :
    lastVerdict? [call] = verdict? call :=
  List.findSome?_singleton

theorem lastVerdict?_cons (first : ReaderCall × Reply) (rest : List (ReaderCall × Reply)) :
    lastVerdict? (first :: rest) = (lastVerdict? rest).or (verdict? first) := by
  rw [← List.singleton_append, lastVerdict?_append, lastVerdict?_singleton]

end ReaderCall

namespace Session

theorem preferNew_of_error (present : Reader) {outcome : Outcome Reader (Except Error Unit)}
    {error : Error} (failed : outcome.answer = .error error) :
    preferNew present outcome = { outcome with state := present } := by
  rw [preferNew, failed]

theorem preferNew_of_ok (present : Reader) {outcome : Outcome Reader (Except Error Unit)}
    (success : outcome.answer = .ok ()) : preferNew present outcome = outcome := by
  rw [preferNew, success]

/-- What a call makes of the reader, and what it says of the file that is open then. -/
inductive ReaderStep (session : Session Reader) (call : ReaderCall) :
    Reader → Option (Option String) → Prop where
  | kept (query : ReaderQuery) : ReaderStep session call (session.source.asked query) none
  | opened {path : String} {fresh : Reader} (opens : call = .openFile path ∨ call = .openNew path)
    (success : Reader.opened session.decoder session.store path = .ok fresh) :
    ReaderStep session call fresh (some (some path))
  | closed : ReaderStep session call .closed (some none)

theorem readerStep (session : Session Reader) (call : ReaderCall) :
    session.ReaderStep call (session.callReader call).state.source
      (ReaderCall.verdict? (call, (session.callReader call).answer)) := by
  have same : session.ReaderStep call session.source none := .kept .isOpen
  cases call with
  | files call => exact same
  | selectBackend backend => exact same
  | openFile path =>
    simp only [callReader, replaceReader]
    cases result : Reader.opened session.decoder session.store path with
    | error error =>
      obtain ⟨answer, state⟩ := Reader.openFile_of_error result session.source
      rw [answer, state]
      exact .closed
    | ok after =>
      obtain ⟨answer, state⟩ := Reader.openFile_of_ok result session.source
      rw [answer, state]
      exact .opened (.inl rfl) result
  | openNew path =>
    simp only [callReader, replaceReader]
    cases result : Reader.opened session.decoder session.store path with
    | error error =>
      obtain ⟨answer, _⟩ := Reader.openFile_of_error result .closed
      rw [preferNew_of_error session.source answer, answer]
      exact same
    | ok after =>
      obtain ⟨answer, state⟩ := Reader.openFile_of_ok result .closed
      rw [preferNew_of_ok session.source answer, answer, state]
      exact .opened (.inr rfl) result
  | close => exact .closed
  | startScan id request => simpa [callReader, ReaderCall.verdict?] using same
  | useScan id call => simpa [callReader, ReaderCall.verdict?] using same
  | query query => exact .kept query

theorem ReaderStep.path? {session : Session Reader} {call : ReaderCall} {later : Reader}
    {verdict : Option (Option String)} (step : session.ReaderStep call later verdict)
    (linked : session.source.Linked) :
    later.Linked ∧ later.path? = verdict.getD session.source.path? := by
  cases step with
  | kept query =>
    exact ⟨linked.asked query, congrArg (·.path?) (session.source.file_asked query)⟩
  | opened _ success => exact Reader.linked_of_opened success
  | closed => exact ⟨Reader.linked_closed, rfl⟩

theorem path?_callReader (session : Session Reader) (call : ReaderCall)
    (linked : session.source.Linked) :
    let outcome := session.callReader call
    outcome.state.source.Linked ∧ outcome.state.source.path? =
      (ReaderCall.verdict? (call, outcome.answer)).getD session.source.path? :=
  (session.readerStep call).path? linked

/-- Behind a run of calls the path is what the last one to open or close says. -/
theorem path?_after (session : Session Reader) (calls : List ReaderCall)
    (linked : session.source.Linked) :
    (session.after callReader calls).source.Linked ∧
      (session.after callReader calls).source.path? =
        (ReaderCall.lastVerdict? (session.history callReader calls)).getD session.source.path? := by
  -- The rest of the run starts from the verdict of its first call, whose place a later one takes.
  induction calls generalizing session with
  | nil => exact ⟨linked, rfl⟩
  | cons call rest ih =>
    obtain ⟨kept, path⟩ := session.path?_callReader call linked
    obtain ⟨whole, last⟩ := ih (session.callReader call).state kept
    refine ⟨whole, ?_⟩
    rw [after_cons, last, path, history_cons, ReaderCall.lastVerdict?_cons]
    cases ReaderCall.lastVerdict? ((session.callReader call).state.history callReader rest) <;> rfl

/-- In every state that a run of calls leads to, the reader is open in both of its parts or in
neither, as the last call to open or close it says. An opening that fails leaves a new reader, and
so does closing, once or twice. A closed reader answers every query by saying so. -/
theorem reader_lifecycle (decoder : Json.Decoder) (store : FileStore) (calls : List ReaderCall) :
    let start : Session Reader := .start decoder store .closed
    let reader := (start.after callReader calls).source
    let last? := ReaderCall.lastVerdict? (start.history callReader calls)
    (reader.isOpen = true ↔ reader.file.isOpen = true) ∧
    (reader.isOpen = true ↔ ∃ path, reader.path? = some path) ∧
    (∀ bytes, reader.file.bytes? = some bytes → reader.file.size = bytes.size) ∧
    (reader.isOpen = true ↔ ∃ path, last? = some (some path)) ∧
    (∀ path, last? = some (some path) → reader.path? = some path) ∧
    (∀ decoder store path error, (reader.openFile decoder store path).answer = .error error →
      (reader.openFile decoder store path).state = .closed) ∧
    reader.close.state = .closed ∧
    reader.close.state.close = { answer := (), state := .closed, events := [] } ∧
    (reader.isOpen = false → reader = .closed ∧ reader.file.size = 0 ∧
      reader.Refuses (.notOpen .reader)) ∧
    Error.message (.notOpen .reader) = "ATF reader is not open" := by
  intro start reader last?
  obtain ⟨linked, path⟩ := start.path?_after calls Reader.linked_closed
  change reader.Linked at linked
  change reader.path? = last?.getD none at path
  refine ⟨by rw [linked], linked.isOpen_iff, ?_, ?_, ?_, ?_, rfl, rfl, ?_, rfl⟩
  · intro bytes mapped
    exact reader.file.coherent.size_eq mapped
  · rw [linked.isOpen_iff, path]
    cases last? <;> simp
  · intro opened last
    rw [path, last, Option.getD_some]
  · intro decoder store path error
    exact reader.closed_of_failed
  · intro isClosed
    rw [linked.eq_closed isClosed]
    exact ⟨rfl, rfl, Reader.refuses_closed⟩

end Session

end TraceContainer
