import TraceContainer.Proofs.OpenReaders

namespace TraceContainer

section Backends

/-! Decoders that differ in their backend alone can be put in each other's place. -/

variable {decoder other : Json.Decoder} (same : decoder.complaint = other.complaint)

include same

theorem Manifest.decode_congr (payload : ByteArray) :
    decode decoder payload = decode other payload := by
  rw [decode, decode, Json.Decoder.decode_congr same]

theorem Detail.decode_congr (payload : ByteArray) (offset : Int64) :
    decode decoder payload offset = decode other payload offset := by
  rw [decode, decode, Json.Decoder.decode_congr same]

theorem MappedFile.detailAt_congr (file : MappedFile) (sectionStart : UInt64) (offset : Int64) :
    file.detailAt decoder sectionStart offset = file.detailAt other sectionStart offset := by
  simp only [detailAt, Detail.decode_congr same]

namespace Reader

theorem opened_congr_decoder (store : FileStore) (path : String) :
    opened decoder store path = opened other store path := by
  simp only [opened, Contents.read, Manifest.decode_congr same]

variable (reader : Reader)

theorem detailAt_congr_decoder (offset : Int64) :
    reader.detailAt decoder offset = reader.detailAt other offset := by
  simp only [detailAt, MappedFile.detailAt_congr same]

theorem detailFor_congr_decoder (event : Event) :
    reader.detailFor decoder event = reader.detailFor other event := by
  simp only [detailFor, detailAt_congr_decoder same]

theorem detailOfItem_congr_decoder (item : Except Error Event) :
    reader.detailOfItem decoder item = reader.detailOfItem other item := by
  cases item with
  | error error => rfl
  | ok event => exact detailFor_congr_decoder same reader event

/-- No query is answered otherwise because of the backend. -/
theorem answer_congr_decoder (query : ReaderQuery) :
    reader.answer decoder query = reader.answer other query := by
  cases query with
  | detail offset => rw [answer, answer, detailAt_congr_decoder same]
  | detailFor event => rw [answer, answer, detailFor_congr_decoder same]
  | detailEach request =>
    have each := funext (detailOfItem_congr_decoder same reader)
    rw [answer, answer, each]
  | _ => rfl

end Reader

end Backends

namespace ReaderCall

/-- Whether a call leaves a named scan in its place, to be asked for its next item or not. -/
def keepsScan (id : String) : ReaderCall → Bool
  | .openFile _ | .openNew _ | .close => false
  | .startScan other _ | .useScan other .rest | .useScan other .count => other ≠ id
  | .files _ | .selectBackend _ | .useScan _ .next | .useScan _ .hint | .query _ => true

def isPull (id : String) : ReaderCall → Bool
  | .useScan other .next => other = id
  | _ => false

end ReaderCall

namespace Session

/-- A pull moves its own scan. No other call that leaves the scan in its place touches it. -/
theorem scan?_callReader (session : Session Reader) {id : String} {call : ReaderCall}
    (keeps : call.keepsScan id = true) :
    (session.callReader call).state.scan? id =
      if call.isPull id then (session.scan? id).map (·.next.2) else session.scan? id := by
  cases call with
  | files call => rfl
  | selectBackend backend => rfl
  | openFile path => cases keeps
  | openNew path => cases keeps
  | close => cases keeps
  | startScan other request =>
    have different : other ≠ id := of_decide_eq_true keeps
    simp only [callReader, startScan, ReaderCall.isPull, Bool.false_eq_true, if_false]
    cases session.source.scanFor request with
    | error error => rfl
    | ok scan => exact session.scan?_putScan_of_ne different scan
  | useScan other call =>
    simp only [callReader, useScan]
    cases call with
    | next =>
      by_cases same : other = id
      · subst same
        cases found : session.scan? other <;> simp [ReaderCall.isPull, found]
      · simp only [ReaderCall.isPull, same, decide_false, Bool.false_eq_true, if_false]
        cases session.scan? other with
        | none => rfl
        | some scan => exact session.scan?_putScan_of_ne same _
    | hint => cases session.scan? other <;> rfl
    | rest =>
      have different : other ≠ id := of_decide_eq_true keeps
      cases session.scan? other with
      | none => rfl
      | some scan => exact session.scan?_endScan_of_ne different
    | count =>
      have different : other ≠ id := of_decide_eq_true keeps
      cases session.scan? other with
      | none => rfl
      | some scan => exact session.scan?_endScan_of_ne different
  | query query => rfl

/-- How far a scan has come is decided by its own pulls alone. -/
theorem scan?_after {session : Session Reader} {id : String} {scan : Scan}
    (present : session.scan? id = some scan) {calls : List ReaderCall}
    (keeps : ∀ call ∈ calls, call.keepsScan id = true) :
    (session.after callReader calls).scan? id =
      some (scan.behind (calls.countP (·.isPull id))) := by
  -- The rest of the calls meets the scan as the first of them has left it.
  induction calls generalizing session scan with
  | nil => exact present
  | cons call rest ih =>
    have first := session.scan?_callReader (keeps call List.mem_cons_self)
    have others : ∀ call ∈ rest, call.keepsScan id = true := fun other member =>
      keeps other (List.mem_cons_of_mem call member)
    rw [present, Option.map_some] at first
    rw [after_cons]
    by_cases pull : call.isPull id = true
    · rw [if_pos pull] at first
      rw [ih first others, List.countP_cons_of_pos pull, Scan.behind]
    · rw [if_neg pull] at first
      rw [ih first others, List.countP_cons_of_neg pull]

/-- A call can select another backend, but the words for what is refused stay. -/
theorem complaint_callReader (session : Session Reader) (call : ReaderCall) :
    (session.callReader call).state.decoder.complaint = session.decoder.complaint := by
  cases call with
  | startScan id request =>
    obtain ⟨scans, same⟩ := session.exists_scans_startScan id (session.source.scanFor request)
    rw [callReader, same]
  | useScan id call =>
    obtain ⟨scans, same⟩ := session.exists_scans_useScan id call
    rw [callReader, same]
  | _ => rfl

theorem complaint_after (session : Session Reader) (calls : List ReaderCall) :
    (session.after callReader calls).decoder.complaint = session.decoder.complaint := by
  apply after_keeps (fun later : Session Reader =>
    later.decoder.complaint = session.decoder.complaint) rfl
  intro later call _ same
  exact (later.complaint_callReader call).trans same

section Replies

variable {session : Session Reader} {id : String} {scan : Scan}

theorem answer_next (present : session.scan? id = some scan) :
    (session.callReader (.useScan id .next)).answer =
      .item scan.next.1 scan.next.2.sizeHint := by
  simp only [callReader, useScan, present]

theorem answer_rest (present : session.scan? id = some scan) :
    (session.callReader (.useScan id .rest)).answer = .events (Scan.resultOf scan.items) := by
  simp only [callReader, useScan, present]
  rfl

theorem answer_count (present : session.scan? id = some scan) :
    (session.callReader (.useScan id .count)).answer = .number scan.items.length := by
  simp only [callReader, useScan, present]

end Replies

/-- Between the opening of a file and the next call that opens or closes, every query is answered
as by a new reader on the bytes that the file had then, whichever backends are selected for the one
and for the other. A scan started meanwhile is the one that the new reader would start. Its next
item is found among those that it has when it is drained at once, at the place that its own earlier
pulls have led it to. -/
theorem snapshot_of_opened {session : Session Reader} {path : String} {bytes : ByteArray}
    (found : session.store.read path = .ok bytes)
    (success : (session.source.openFile session.decoder session.store path).answer = .ok ())
    {calls : List ReaderCall} (keeps : ∀ call ∈ calls, call.keepsFile = true)
    {store : FileStore} (again : store.read path = .ok bytes) (backend : Json.Backend) :
    let later := (session.callReader (.openFile path)).state.after callReader calls
    let decoder := { session.decoder with backend }
    let fresh := Reader.closed.openFile decoder store path
    fresh.answer = .ok () ∧
    (∀ query,
      (later.callReader (.query query)).toReported = fresh.state.answer decoder query) ∧
    (∀ payload, later.decoder.decode payload = decoder.decode payload) ∧
    ∀ id request filter, request.filter = .ok filter → ∃ scan,
      fresh.state.scan filter = .ok scan ∧
      let starting := later.callReader (.startScan id request)
      starting.answer = .started scan.sizeHint ∧
      (starting.state.callReader (.useScan id .rest)).answer =
        .events (Scan.resultOf scan.items) ∧
      ∀ further, (∀ call ∈ further, call.keepsScan id = true) →
        let now := starting.state.after callReader further
        let pulls := further.countP (·.isPull id)
        (now.callReader (.useScan id .next)).answer =
          .item scan.items[pulls]? (scan.behind (pulls + 1)).sizeHint ∧
        (now.callReader (.useScan id .rest)).answer =
          .events (Scan.resultOf (scan.items.drop pulls)) ∧
        (now.callReader (.useScan id .count)).answer = .number (scan.items.drop pulls).length := by
  intro later decoder fresh
  have words : later.decoder.complaint = decoder.complaint :=
    ((session.callReader (.openFile path)).state.complaint_after calls).trans
      (session.complaint_callReader (.openFile path))
  have kept : decoder.complaint = session.decoder.complaint := rfl
  have opened : Reader.opened decoder store path =
      .ok (session.source.openFile session.decoder session.store path).state := by
    rw [Reader.opened_congr_decoder kept, Reader.opened_congr (again.trans found.symm)]
    exact Reader.opened_of_answer success
  obtain ⟨answer, state⟩ := Reader.openFile_of_ok opened .closed
  have continues : later.source.Continues fresh.state := by
    change later.source.Continues (Reader.closed.openFile decoder store path).state
    rw [state]
    exact continues_of_opened success keeps
  refine ⟨answer, ?_, Json.Decoder.decode_congr words, ?_⟩
  · intro query
    exact (Reader.answer_congr_decoder words later.source query).trans
      (continues.answer decoder query)
  intro id request filter valid
  obtain ⟨scan, begun⟩ : ∃ scan, fresh.state.scan filter = .ok scan := by
    apply Reader.exists_view
    rw [state]
    exact Reader.isOpen_of_opened opened
  have starts : later.callReader (.startScan id request) = later.startScan id (.ok scan) := by
    have same : later.source.scan filter = .ok scan := by
      rw [← Reader.scan_forget, continues.forget, begun]
    rw [callReader, Reader.scanFor, valid, bind_ok, same]
  refine ⟨scan, begun, ?_⟩
  rw [starts]
  have present : (later.startScan id (.ok scan)).state.scan? id = some scan :=
    later.scan?_putScan scan
  refine ⟨rfl, answer_rest present, ?_⟩
  intro further undisturbed now pulls
  have reached : now.scan? id = some (scan.behind pulls) := scan?_after present undisturbed
  refine ⟨?_, ?_, ?_⟩
  · rw [answer_next reached, Scan.next_behind, ← Scan.behind_succ]
  · rw [answer_rest reached, Scan.items_behind]
  · rw [answer_count reached, Scan.items_behind]

theorem snapshot_of_opened_corruptSession :
    let calls : List ReaderCall :=
      [.files (.remove "a"), .selectBackend .vector, .query .metadata]
    let further : List ReaderCall := [.useScan "x" .next, .startScan "y" ⟨none, [12]⟩,
      .useScan "y" .next, .files (.write "a" .empty), .query (.detail 138)]
    let store : FileStore := .ofFiles [("a", corruptTrace)]
    let decoder : Json.Decoder := { corruptSession.decoder with backend := .vector }
    let later := (corruptSession.callReader (.openFile "a")).state.after callReader calls
    let starting := later.callReader (.startScan "x" ⟨none, []⟩)
    let now := starting.state.after callReader further
    corruptSession.store.read "a" = .ok corruptTrace ∧
    (corruptSession.source.openFile corruptSession.decoder corruptSession.store "a").answer =
      .ok () ∧
    (∀ call ∈ calls, call.keepsFile = true) ∧ store.read "a" = .ok corruptTrace ∧
    (∀ call ∈ further, call.keepsScan "x" = true) ∧
    (later.callReader (.query (.detail 138))).toReported =
      (Reader.closed.openFile decoder store "a").state.answer decoder (.detail 138) ∧
    ∃ scan, (Reader.closed.openFile decoder store "a").state.scan .all = .ok scan ∧
      starting.answer = .started scan.sizeHint ∧
      (now.callReader (.useScan "x" .next)).answer =
        .item scan.items[1]? (scan.behind 2).sizeHint := by
  intro calls further store decoder
  have keeps : ∀ call ∈ calls, call.keepsFile = true := by decide
  have undisturbed : ∀ call ∈ further, call.keepsScan "x" = true := by decide
  have found : corruptSession.store.read "a" = .ok corruptTrace := rfl
  have again : store.read "a" = .ok corruptTrace := rfl
  obtain ⟨_, answers, _, scans⟩ := snapshot_of_opened found
    corruptSession_opens keeps again .vector
  obtain ⟨scan, begun, started, _, pulled⟩ := scans "x" ⟨none, []⟩ .all rfl
  obtain ⟨next, _, _⟩ := pulled further undisturbed
  exact ⟨found, corruptSession_opens, keeps, again, undisturbed, answers (.detail 138), scan, begun,
    started, next⟩

end Session

end TraceContainer
