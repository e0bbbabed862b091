import TraceContainer.Proofs.Lifecycle

/-! What a reader reports of the files that it maps. Each mapping is given up before the next one is
reported, and none is given up twice. The one that is left is that of the open file. -/
namespace TraceContainer

def LogEvent.isMapping : LogEvent → Bool
  | mapped _ _ | unmapped _ => true
  | opened _ _ _ _ _ | rejected _ _ | resolving _ _ | backendSelected _ _ => false

theorem LogEvent.isMapping_iff (event : LogEvent) : event.isMapping = true ↔
    event.message = "Mapped ATF file" ∨ event.message = "Unmapped ATF file" := by
  cases event <;> simp [isMapping, message]

@[simp] theorem LogEvent.isMapping_mapped (path : String) (size : Nat) :
    (mapped path size).isMapping = true := rfl

@[simp] theorem LogEvent.isMapping_unmapped (path : String) :
    (unmapped path).isMapping = true := rfl

def LogEvent.Quiet (events : List LogEvent) : Prop :=
  ∀ event ∈ events, event.isMapping = false

theorem LogEvent.quiet_nil : Quiet [] := nofun

theorem LogEvent.quiet_singleton {event : LogEvent} (quiet : event.isMapping = false) :
    Quiet [event] :=
  List.forall_mem_singleton.mpr quiet

namespace MappedFile

/-- Events by which each mapping was given up at once before the next, under its own path, but for
that of the open file. -/
def AccountedBy (file : MappedFile) (events : List LogEvent) : Prop :=
  ∃ released : List (String × Nat), events.filter (·.isMapping) =
    (released.flatMap fun (path, size) => [.mapped path size, .unmapped path]) ++
      file.mapping?.toList.map fun mapping => .mapped mapping.path mapping.bytes.size

theorem accountedBy_nil : closed.AccountedBy [] := ⟨[], rfl⟩

theorem events_close (file : MappedFile) :
    file.close.events = file.path?.toList.map .unmapped := by
  rcases file.eq_closed_or_ofMapping with rfl | ⟨mapping, rfl⟩ <;> rfl

namespace AccountedBy

variable {file : MappedFile} {history : List LogEvent}

theorem append_of_quiet (accounted : file.AccountedBy history) {events : List LogEvent}
    (quiet : LogEvent.Quiet events) : file.AccountedBy (history ++ events) := by
  obtain ⟨released, same⟩ := accounted
  refine ⟨released, ?_⟩
  have none : events.filter (·.isMapping) = [] := by
    apply List.filter_eq_nil_iff.mpr
    intro event member
    rw [quiet event member]
    exact Bool.false_ne_true
  rw [List.filter_append, none, List.append_nil, same]

theorem close (accounted : file.AccountedBy history) :
    closed.AccountedBy (history ++ file.close.events) := by
  obtain ⟨released, same⟩ := accounted
  rcases file.eq_closed_or_ofMapping with rfl | ⟨mapping, rfl⟩
  · refine ⟨released, ?_⟩
    rw [List.filter_append, same]
    exact List.append_nil _
  · refine ⟨released ++ [(mapping.path, mapping.bytes.size)], ?_⟩
    rw [List.filter_append, same, events_close, List.flatMap_append]
    simp [closed, ofMapping, MemoryMap.ofMapping, mapping?]

theorem map (accounted : closed.AccountedBy history) (mapping : Mapping) :
    (ofMapping mapping).AccountedBy
      (history ++ [.mapped mapping.path mapping.bytes.size]) := by
  obtain ⟨released, same⟩ := accounted
  refine ⟨released, ?_⟩
  rw [List.filter_append, same]
  simp [closed, ofMapping, MemoryMap.ofMapping, mapping?]

/-- The last event tells of a mapping exactly if a file is open. -/
theorem isOpen_iff (accounted : file.AccountedBy history) :
    file.isOpen = true ↔
      ∃ path size, (history.filter (·.isMapping)).getLast? = some (.mapped path size) := by
  obtain ⟨released, same⟩ := accounted
  rw [same]
  rcases file.eq_closed_or_ofMapping with rfl | ⟨mapping, rfl⟩
  · rcases List.eq_nil_or_concat released with nothing | ⟨earlier, last, parts⟩
    · simp [closed, MemoryMap.isOpen, mapping?, nothing]
    · simp [closed, MemoryMap.isOpen, mapping?, parts]
  · simp [ofMapping, MemoryMap.ofMapping, MemoryMap.isOpen, mapping?]

end AccountedBy

end MappedFile

namespace Reader

/-- The three ways in which an opening can go, with all that is reported of each. -/
inductive Opening (reader : Reader) (path : String) : Outcome Reader (Except Error Unit) → Prop
  | opened (bytes : ByteArray) (contents : Contents) :
    Opening reader path {
      answer := .ok ()
      state := holding path bytes contents
      events := reader.file.close.events ++ [.mapped path bytes.size,
        .opened path bytes.size contents.layout.indexOffset contents.layout.indexCount
          contents.layout.detailOffset] }
  | unmapped (error : Error) (kind : error.kind = .mapping) :
    Opening reader path {
      answer := .error error, state := closed, events := reader.file.close.events }
  | rejected (bytes : ByteArray) (error : Error)
    (kind : error.kind = .header ∨ error.kind = .manifest) :
    Opening reader path {
      answer := .error error
      state := closed
      events := reader.file.close.events ++
        [.mapped path bytes.size, .rejected path error, .unmapped path] }

private theorem kind_of_load {store : FileStore} {path : String} {error : Error}
    (failure : MemoryMap.load store path = .error error) : error.kind = .mapping := by
  rw [MemoryMap.load] at failure
  split at failure
  · cases failure
    rfl
  · split at failure
    · cases failure
      rfl
    · cases failure

private theorem kind_of_read {decoder : Json.Decoder} {bytes : ByteArray} {error : Error}
    (failure : Contents.read decoder bytes = .error error) :
    error.kind = .header ∨ error.kind = .manifest := by
  rw [Contents.read] at failure
  cases sections : Layout.read bytes with
  | error cause =>
    rw [sections] at failure
    cases failure
    exact .inl rfl
  | ok layout =>
    simp only [sections, mapError_ok, bind_ok] at failure
    cases decoded : Manifest.decode decoder
        (bytes.extract 40 (40 + layout.manifestLength.toNat)) with
    | error cause =>
      simp only [decoded, mapError_error, bind_error, Except.error.injEq] at failure
      exact .inr (failure ▸ rfl)
    | ok manifest =>
      rw [decoded] at failure
      cases failure

theorem opening_openFile (reader : Reader) (decoder : Json.Decoder) (store : FileStore)
    (path : String) : reader.Opening path (reader.openFile decoder store path) := by
  -- The reader gives its file up before the file is opened, which has nothing left to give up.
  have released : reader.close.events ++ reader.close.state.file.close.events =
      reader.file.close.events := List.append_nil _
  rw [openFile]
  cases loaded : MemoryMap.load store path with
  | error error =>
    simp only [MappedFile.openFile_of_failure loaded, released]
    exact .unmapped error (kind_of_load loaded)
  | ok handle =>
    simp only [MappedFile.openFile_of_load loaded, readContents_ofMapping]
    rw [← List.append_assoc, released]
    cases read : Contents.read decoder handle.bytes with
    | error error =>
      simp only [List.append_assoc]
      exact .rejected handle.bytes error (kind_of_read read)
    | ok contents =>
      simp only [List.append_assoc]
      exact .opened handle.bytes contents

/-- An opening accounts for the file that it gives up and for the one that it takes. -/
theorem Opening.accounted {reader : Reader} {path : String}
    {outcome : Outcome Reader (Except Error Unit)} (opening : reader.Opening path outcome)
    {history : List LogEvent} (accounted : reader.file.AccountedBy history) :
    outcome.state.file.AccountedBy (history ++ outcome.events) := by
  have released := accounted.close
  cases opening with
  | opened bytes contents =>
    have quiet : LogEvent.Quiet [.opened path bytes.size contents.layout.indexOffset
      contents.layout.indexCount contents.layout.detailOffset] := LogEvent.quiet_singleton rfl
    have held := (released.map ⟨path, bytes⟩).append_of_quiet quiet
    rwa [List.append_assoc, List.append_assoc] at held
  | unmapped error kind => exact released
  | rejected bytes error kind =>
    have quiet : LogEvent.Quiet [.rejected path error] := LogEvent.quiet_singleton rfl
    have given := ((released.map ⟨path, bytes⟩).append_of_quiet quiet).close
    rwa [List.append_assoc, List.append_assoc, List.append_assoc] at given

theorem message_of_close {file : MappedFile} {event : LogEvent}
    (member : event ∈ file.close.events) : event.message = "Unmapped ATF file" := by
  rw [MappedFile.events_close] at member
  obtain ⟨path, _, rfl⟩ := List.mem_map.mp member
  rfl

section Reports

variable {reader : Reader} {path : String} {outcome : Outcome Reader (Except Error Unit)}
  (opening : reader.Opening path outcome)

include opening

theorem Opening.events_of_rejected {error : Error} (failed : outcome.answer = .error error)
    (kind : error.kind = .header ∨ error.kind = .manifest) :
    ∃ size, outcome.events = reader.path?.toList.map .unmapped ++
      [.mapped path size, .rejected path error, .unmapped path] := by
  rw [path?, ← MappedFile.events_close]
  cases opening with
  | opened bytes contents => cases failed
  | unmapped error other =>
    cases failed
    rcases kind with kind | kind <;> cases other.symm.trans kind
  | rejected bytes error _ =>
    cases failed
    exact ⟨bytes.size, rfl⟩

theorem Opening.events_of_unmapped {error : Error} (failed : outcome.answer = .error error)
    (kind : error.kind = .mapping) : outcome.events = reader.path?.toList.map .unmapped := by
  rw [path?, ← MappedFile.events_close]
  cases opening with
  | opened bytes contents => cases failed
  | unmapped error _ => rfl
  | rejected bytes error other =>
    cases failed
    rcases other with other | other <;> cases kind.symm.trans other

/-- What else is reported of a file that was mapped is found between the two ends of the mapping. -/
theorem Opening.message_cases {event : LogEvent} (member : event ∈ outcome.events) :
    event.message = "Unmapped ATF file" ∨ event.message = "Mapped ATF file" ∨
      (event.message = "Opened ATF trace" ∧ outcome.answer = .ok ()) ∨
      (event.message = "Rejected ATF trace" ∧ ∃ error, outcome.answer = .error error ∧
        (error.kind = .header ∨ error.kind = .manifest)) := by
  cases opening with
  | opened bytes contents =>
    rcases List.mem_append.mp member with earlier | later
    · exact .inl (message_of_close earlier)
    · rcases later with _ | ⟨_, _ | ⟨_, ⟨⟩⟩⟩
      · exact .inr (.inl rfl)
      · exact .inr (.inr (.inl ⟨rfl, rfl⟩))
  | unmapped error kind => exact .inl (message_of_close member)
  | rejected bytes error kind =>
    rcases List.mem_append.mp member with earlier | later
    · exact .inl (message_of_close earlier)
    · rcases later with _ | ⟨_, _ | ⟨_, _ | ⟨_, ⟨⟩⟩⟩⟩
      · exact .inr (.inl rfl)
      · exact .inr (.inr (.inr ⟨rfl, error, rfl, kind⟩))
      · exact .inl rfl

theorem Opening.opened_iff :
    (∃ event ∈ outcome.events, event.message = "Opened ATF trace") ↔ outcome.answer = .ok () := by
  constructor
  · rintro ⟨event, member, message⟩
    simpa [message] using opening.message_cases member
  · intro success
    cases opening with
    | opened bytes contents => exact ⟨_, List.mem_append_right _ (.tail _ (.head _)), rfl⟩
    | unmapped error kind => cases success
    | rejected bytes error kind => cases success

theorem Opening.rejected_iff :
    (∃ event ∈ outcome.events, event.message = "Rejected ATF trace") ↔
      ∃ error, outcome.answer = .error error ∧
        (error.kind = .header ∨ error.kind = .manifest) := by
  constructor
  · rintro ⟨event, member, message⟩
    simpa [message] using opening.message_cases member
  · rintro ⟨error, failed, kind⟩
    obtain ⟨size, reported⟩ := opening.events_of_rejected failed kind
    rw [reported]
    exact ⟨_, List.mem_append_right _ (.tail _ (.head _)), rfl⟩

end Reports

end Reader

section Queries

theorem MappedFile.quiet_detailAt (file : MappedFile) (decoder : Json.Decoder)
    (sectionStart : UInt64) (offset : Int64) :
    LogEvent.Quiet (file.detailAt decoder sectionStart offset).events := by
  rw [detailAt]
  cases file.entryAt sectionStart offset with
  | error error => exact LogEvent.quiet_nil
  | ok entry => exact LogEvent.quiet_singleton rfl

namespace Reader

variable (reader : Reader) (decoder : Json.Decoder)

theorem quiet_detailAt (offset : Int64) :
    LogEvent.Quiet (reader.detailAt decoder offset).events := by
  rw [detailAt]
  cases reader.contents with
  | error error => exact LogEvent.quiet_nil
  | ok contents => exact reader.file.quiet_detailAt decoder contents.layout.detailOffset offset

theorem quiet_detailFor (event : Event) :
    LogEvent.Quiet (reader.detailFor decoder event).events := by
  rw [detailFor]
  cases reader.contents with
  | error error => exact LogEvent.quiet_nil
  | ok contents =>
    by_cases hasDetail : event.hasDetail = true
    · simp only [hasDetail, if_true]
      exact reader.quiet_detailAt decoder event.detailOffset
    · simp only [hasDetail, Bool.false_eq_true, if_false]
      exact LogEvent.quiet_nil

theorem quiet_detailOfItem (item : Except Error Event) :
    LogEvent.Quiet (reader.detailOfItem decoder item).events := by
  cases item with
  | error error => exact LogEvent.quiet_nil
  | ok event => exact reader.quiet_detailFor decoder event

/-- No query maps a file or gives one up. -/
theorem quiet_answer (query : ReaderQuery) :
    LogEvent.Quiet (reader.answer decoder query).events := by
  cases query with
  | detail offset => exact reader.quiet_detailAt decoder offset
  | detailFor event => exact reader.quiet_detailFor decoder event
  | detailEach request =>
    rw [answer]
    cases reader.scanFor request with
    | error error => exact LogEvent.quiet_nil
    | ok scan =>
      intro event member
      obtain ⟨outcome, among, reported⟩ := List.mem_flatMap.mp member
      obtain ⟨item, _, rfl⟩ := List.mem_map.mp among
      exact reader.quiet_detailOfItem decoder item event reported
  | _ => exact LogEvent.quiet_nil

end Reader

end Queries

namespace Session

theorem events_startScan (session : Session Reader) (id : String) (result : Except Error Scan) :
    (session.startScan id result).events = [] := by
  cases result <;> rfl

theorem events_useScan (session : Session Reader) (id : String) (call : ScanCall) :
    (session.useScan id call).events = [] := by
  rw [useScan]
  cases session.scan? id with
  | none => rfl
  | some scan => cases call <;> rfl

/-- Each call on the same reader accounts for what it maps and gives up. -/
theorem accounted_callReader (session : Session Reader) (call : ReaderCall)
    (sameReader : ∀ path, call ≠ .openNew path) {history : List LogEvent}
    (accounted : session.source.file.AccountedBy history) :
    (session.callReader call).state.source.file.AccountedBy
      (history ++ (session.callReader call).events) := by
  cases call with
  | files call => simpa [callReader, changeFiles] using accounted
  | selectBackend backend => exact accounted.append_of_quiet (LogEvent.quiet_singleton rfl)
  | openFile path =>
    exact (session.source.opening_openFile session.decoder session.store path).accounted accounted
  | openNew path => exact absurd rfl (sameReader path)
  | close => exact accounted.close
  | startScan id request => simpa [callReader, events_startScan] using accounted
  | useScan id call => simpa [callReader, events_useScan] using accounted
  | query query =>
    change (session.source.asked query).file.AccountedBy _
    rw [Reader.file_asked]
    exact accounted.append_of_quiet (session.source.quiet_answer session.decoder query)

theorem accounted_after (session : Session Reader) {calls : List ReaderCall}
    (sameReader : ∀ path, .openNew path ∉ calls) {history : List LogEvent}
    (accounted : session.source.file.AccountedBy history) :
    (session.after callReader calls).source.file.AccountedBy
      (history ++ (session.run callReader calls).flatMap (·.events)) := by
  -- Each call meets a longer history, and whatever it is, it is accounted for.
  induction calls generalizing session history with
  | nil => simpa [run] using accounted
  | cons call rest ih =>
    have first := session.accounted_callReader call
      (fun path same => sameReader path (same ▸ List.mem_cons_self)) accounted
    have others := ih (session.callReader call).state
      (fun path member => sameReader path (List.mem_cons_of_mem call member)) first
    rwa [List.append_assoc] at others

/-- Behind any run of calls on one reader that starts closed, all mappings are accounted for, and
the last event to tell of one tells of the open file. An opening reports that it went well exactly
if it did. It reports a file as rejected exactly if header or manifest are to blame, with the text
of its error, between taking the file and giving it up. Where a file cannot be mapped, what was open
before is given up all the same, and nothing else is reported. -/
theorem mappings_accounted (decoder : Json.Decoder) (store : FileStore)
    {calls : List ReaderCall} (sameReader : ∀ path, .openNew path ∉ calls) :
    let start : Session Reader := .start decoder store .closed
    let events := (start.run callReader calls).flatMap (·.events)
    let reader := (start.after callReader calls).source
    reader.file.AccountedBy events ∧
    (reader.isOpen = true ↔
      ∃ path size, (events.filter (·.isMapping)).getLast? = some (.mapped path size)) ∧
    ∀ decoder store path,
      let opening := reader.openFile decoder store path
      ((∃ event ∈ opening.events, event.message = "Opened ATF trace") ↔
        opening.answer = .ok ()) ∧
      ((∃ event ∈ opening.events, event.message = "Rejected ATF trace") ↔
        ∃ error, opening.answer = .error error ∧
          (error.kind = .header ∨ error.kind = .manifest)) ∧
      (∀ error, opening.answer = .error error →
        (error.kind = .header ∨ error.kind = .manifest) →
        ∃ size report, opening.events = reader.path?.toList.map .unmapped ++
            [.mapped path size, report, .unmapped path] ∧
          report.message = "Rejected ATF trace" ∧
          report.fields = [("path", path), ("error", error.message)]) ∧
      ∀ error, opening.answer = .error error → error.kind = .mapping →
        opening.events = reader.path?.toList.map .unmapped := by
  intro start events reader
  have accounted : reader.file.AccountedBy events :=
    start.accounted_after sameReader MappedFile.accountedBy_nil
  have linked : reader.Linked := (start.path?_after calls Reader.linked_closed).1
  refine ⟨accounted, ?_, ?_⟩
  · rw [linked]
    exact accounted.isOpen_iff
  · intro decoder store path opening
    have goes : reader.Opening path opening := reader.opening_openFile decoder store path
    refine ⟨goes.opened_iff, goes.rejected_iff, ?_, fun _ => goes.events_of_unmapped⟩
    intro error failed kind
    obtain ⟨size, reported⟩ := goes.events_of_rejected failed kind
    exact ⟨size, .rejected path error, reported, rfl, rfl⟩

theorem mappings_accounted_corruptTrace :
    let start : Session Reader :=
      .start (.saying "expected value") (.ofFiles [("a", corruptTrace)]) .closed
    let calls : List ReaderCall := [.openFile "a", .query (.detail 138), .openFile "c",
      .files (.write "b" (Binary.pack [65])), .openFile "a", .openFile "b", .close, .openFile "a"]
    let events := (start.run callReader calls).flatMap (·.events)
    let reader := (start.after callReader calls).source
    (∀ path, .openNew path ∉ calls) ∧ reader.file.AccountedBy events ∧ reader.isOpen = true ∧
      ∃ path size, (events.filter (·.isMapping)).getLast? = some (.mapped path size) := by
  intro start calls events reader
  have sameReader : ∀ path, .openNew path ∉ calls := by simp [calls]
  obtain ⟨accounted, last, _⟩ := mappings_accounted (.saying "expected value")
    (.ofFiles [("a", corruptTrace)]) sameReader
  have isOpen : reader.isOpen = true := by decide +kernel
  refine ⟨sameReader, ?_, isOpen, last.mp isOpen⟩
  simpa only [start, events, reader] using accounted

end Session

end TraceContainer
