import TraceContainer.Proofs.Opening
import TraceContainer.Proofs.Records
import TraceContainer.Proofs.Scanning

namespace TraceContainer

def Layout.typeCode? (layout : Layout) (bytes : ByteArray) (place : Nat) : Option Nat :=
  Binary.number? bytes (layout.indexOffset.toNat + 32 * place + 16) 4

theorem Layout.Matches.record_inside {layout : Layout} {bytes : ByteArray}
    (same : layout.Matches bytes) {place : Nat} (counted : place < layout.indexCount.toNat) :
    layout.indexOffset.toNat + 32 * place + 32 ≤ layout.detailOffset.toNat ∧
      layout.indexOffset.toNat + 32 * place + 32 ≤ bytes.size := by
  have details := same.detailsFollow
  have inside := same.inside
  omega

/-- An event inside the time range, if there is one, and of one of the threads, if any are named. -/
def EventFilter.Admits (timeRange? : Option TimeRange) (threadIds? : Option (List UInt64))
    (event : Event) : Prop :=
  (∀ range ∈ timeRange?, range.start ≤ event.timestamp ∧ event.timestamp ≤ range.stop) ∧
    ∀ threadIds ∈ threadIds?, threadIds ≠ [] → event.threadId.toUInt64 ∈ threadIds

theorem EventFilter.keeps_iff (timeRange? : Option TimeRange) (threadIds? : Option (List UInt64))
    (event : Event) :
    EventFilter.keeps ⟨timeRange?, threadIds?.getD []⟩ event = true ↔
      Admits timeRange? threadIds? event := by
  rw [keeps, Bool.and_eq_true, Admits]
  apply and_congr
  · cases timeRange? with
    | none => simp
    | some range => simp [TimeRange.contains_iff]
  · cases threadIds? with
    | none => simp
    | some threadIds => cases threadIds <;> simp

instance (timeRange? : Option TimeRange) (threadIds? : Option (List UInt64)) (event : Event) :
    Decidable (EventFilter.Admits timeRange? threadIds? event) :=
  decidable_of_iff _ (EventFilter.keeps_iff timeRange? threadIds? event)

theorem EventFilter.keeps_eq (timeRange? : Option TimeRange) (threadIds? : Option (List UInt64)) :
    EventFilter.keeps ⟨timeRange?, threadIds?.getD []⟩ =
      fun event => decide (Admits timeRange? threadIds? event) := by
  funext event
  rw [Bool.eq_iff_iff, keeps_iff, decide_eq_true_eq]

theorem EventFilter.keeps_all (event : Event) : EventFilter.all.keeps event = true := rfl

namespace Scan

theorem resultOf_get {outcomes : List (Except Error Event)} {place : Nat}
    (inside : place < (resultOf outcomes).events.length) :
    outcomes[place]? = some (.ok (resultOf outcomes).events[place]) := by
  induction outcomes generalizing place with
  | nil => simp [resultOf] at inside
  | cons outcome rest ih =>
    cases outcome with
    | error error => simp [resultOf] at inside
    | ok event =>
      cases place with
      | zero => rfl
      | succ place =>
        simp only [resultOf, List.length_cons, Nat.add_lt_add_iff_right] at inside
        simpa [resultOf] using ih inside

theorem length_events_le (outcomes : List (Except Error Event)) :
    (resultOf outcomes).events.length ≤ outcomes.length := by
  apply Nat.le_of_not_lt
  intro inside
  have beyond := resultOf_get inside
  rw [List.getElem?_eq_none (Nat.le_refl _)] at beyond
  cases beyond

theorem resultOf_stop (outcomes : List (Except Error Event)) :
    outcomes[(resultOf outcomes).events.length]? = (resultOf outcomes).stoppedBy.map .error := by
  induction outcomes with
  | nil => rfl
  | cons outcome rest ih =>
    cases outcome with
    | error error => rfl
    | ok event => simpa [resultOf] using ih

theorem length_events_of_finished {outcomes : List (Except Error Event)}
    (finished : (resultOf outcomes).stoppedBy = none) :
    (resultOf outcomes).events.length = outcomes.length := by
  have behind := resultOf_stop outcomes
  rw [finished, Option.map_none, List.getElem?_eq_none_iff] at behind
  exact Nat.le_antisymm (length_events_le outcomes) behind

end Scan

namespace Layout

/-- What the record at a place of the index holds. -/
def record (layout : Layout) (bytes : ByteArray) (place : Nat) : Except Error Event :=
  let start := layout.indexOffset.toNat + 32 * place
  (Event.decode (bytes.extract start (start + 32))).mapError fun cause =>
    .decode (.recordAt (.ofNat start) cause)

def records (layout : Layout) (bytes : ByteArray) : List (Except Error Event) :=
  (List.range layout.indexCount.toNat).map (layout.record bytes)

def scan (layout : Layout) (mapping : Mapping) (filter : EventFilter) : Scan where
  file := .ofMapping mapping
  indexOffset := layout.indexOffset
  count := layout.indexCount
  filter

variable {layout : Layout} {bytes : ByteArray}

theorem length_records : (layout.records bytes).length = layout.indexCount.toNat := by
  rw [records, List.length_map, List.length_range]

theorem record_of_getElem? {place : Nat} {outcome : Except Error Event}
    (found : (layout.records bytes)[place]? = some outcome) :
    place < layout.indexCount.toNat ∧ layout.record bytes place = outcome := by
  obtain ⟨counted, same⟩ := List.getElem?_eq_some_iff.mp found
  rw [length_records] at counted
  simp only [records, List.getElem_map, List.getElem_range] at same
  exact ⟨counted, same⟩

theorem Matches.eventAt_scan (same : layout.Matches bytes) (path : String) (filter : EventFilter)
    {place : Nat} (counted : place < layout.indexCount.toNat) :
    (layout.scan ⟨path, bytes⟩ filter).eventAt (.ofNat place) = layout.record bytes place := by
  obtain ⟨inside, within⟩ := same.record_inside counted
  have small := Nat.lt_of_le_of_lt inside layout.detailOffset.toNat_lt
  rw [Scan.eventAt_inside rfl small within, record]
  rfl

/-- A scan over an accepted index meets its records in their order, whatever its filter. -/
theorem Matches.outcomes_scan (same : layout.Matches bytes) (path : String)
    (filter : EventFilter) :
    (layout.scan ⟨path, bytes⟩ filter).outcomes = layout.records bytes := by
  have remaining : (layout.scan ⟨path, bytes⟩ filter).remaining = layout.indexCount.toNat := rfl
  rw [Scan.outcomes, remaining]
  apply List.map_congr_left
  intro place member
  have zero : (layout.scan ⟨path, bytes⟩ filter).position.toNat = 0 := rfl
  rw [zero, Nat.zero_add, same.eventAt_scan path filter (List.mem_range.mp member)]

/-- Only an unknown type code keeps a record of an accepted index from being an event. -/
theorem Matches.record_cases (same : layout.Matches bytes) {place : Nat}
    (counted : place < layout.indexCount.toNat) :
    ∃ code : UInt32, layout.typeCode? bytes place = some code.toNat ∧
      ((6 < code.toNat ∧ layout.record bytes place = .error (.decode (.recordAt
        (.ofNat (layout.indexOffset.toNat + 32 * place)) (.unknownType code)))) ∨
      (code.toNat ≤ 6 ∧ ∃ event, layout.record bytes place = .ok event)) := by
  obtain ⟨code, found, ⟨unknown, failure⟩ | ⟨known, event, success⟩⟩ :=
    Event.decode_window (same.record_inside counted).2
  · refine ⟨code, found, .inl ⟨unknown, ?_⟩⟩
    rw [record, failure]
    rfl
  · refine ⟨code, found, .inr ⟨known, event, ?_⟩⟩
    rw [record, success]
    rfl

theorem Matches.known_of_ok (same : layout.Matches bytes) {place : Nat} {event : Event}
    (counted : place < layout.indexCount.toNat) (success : layout.record bytes place = .ok event) :
    ∃ code, layout.typeCode? bytes place = some code ∧ code ≤ 6 := by
  obtain ⟨code, found, ⟨_, failure⟩ | ⟨known, _⟩⟩ := same.record_cases counted
  · rw [success] at failure
    cases failure
  · exact ⟨code.toNat, found, known⟩

theorem Matches.unknown_of_error (same : layout.Matches bytes) {place : Nat} {error : Error}
    (counted : place < layout.indexCount.toNat)
    (failure : layout.record bytes place = .error error) :
    ∃ code : UInt32, layout.typeCode? bytes place = some code.toNat ∧ 6 < code.toNat ∧
      error = .decode (.recordAt (.ofNat (layout.indexOffset.toNat + 32 * place))
        (.unknownType code)) := by
  obtain ⟨code, found, ⟨unknown, cause⟩ | ⟨_, event, success⟩⟩ := same.record_cases counted
  · exact ⟨code, found, unknown, Except.error.inj (failure.symm.trans cause)⟩
  · rw [failure] at success
    cases success

theorem decode_of_record {place : Nat} {event : Event}
    (success : layout.record bytes place = .ok event) :
    Event.decode (bytes.extract (layout.indexOffset.toNat + 32 * place)
      (layout.indexOffset.toNat + 32 * place + 32)) = .ok event := by
  rw [record] at success
  cases decoded : Event.decode (bytes.extract (layout.indexOffset.toNat + 32 * place)
      (layout.indexOffset.toNat + 32 * place + 32)) with
  | error cause => rw [decoded] at success; cases success
  | ok event => rw [decoded] at success; cases success; rfl

/-- How far a scan over an accepted index comes, and what stops it. -/
structure Stops (layout : Layout) (bytes : ByteArray) (events : List Event)
    (stop? : Option Error) : Prop where
  decoded : ∀ place (inside : place < events.length),
    Event.decode (bytes.extract (layout.indexOffset.toNat + 32 * place)
      (layout.indexOffset.toNat + 32 * place + 32)) = .ok events[place]
  stopped : stop?.isSome = true ↔ ∃ place < layout.indexCount.toNat, ∃ code,
    layout.typeCode? bytes place = some code ∧ 6 < code
  finished : stop? = none → events.length = layout.indexCount.toNat
  first : ∀ error ∈ stop?, events.length < layout.indexCount.toNat ∧
    (∀ place < events.length, ∃ code, layout.typeCode? bytes place = some code ∧ code ≤ 6) ∧
    ∃ code offset, layout.typeCode? bytes events.length = some code.toNat ∧ 6 < code.toNat ∧
      offset.toNat = layout.indexOffset.toNat + 32 * events.length ∧
      error = .decode (.recordAt offset (.unknownType code)) ∧
      error.message = s!"event decode error: unknown event type code {code} at offset {offset}"

theorem Matches.stops (same : layout.Matches bytes) :
    let result := Scan.resultOf (layout.records bytes)
    layout.Stops bytes result.events result.stoppedBy := by
  intro result
  have event {place : Nat} (inside : place < result.events.length) :
      place < layout.indexCount.toNat ∧ layout.record bytes place = .ok result.events[place] :=
    record_of_getElem? (Scan.resultOf_get inside)
  have known {place : Nat} (inside : place < result.events.length) :
      ∃ code, layout.typeCode? bytes place = some code ∧ code ≤ 6 :=
    same.known_of_ok (event inside).1 (event inside).2
  have stopped {error : Error} (ends : result.stoppedBy = some error) :
      result.events.length < layout.indexCount.toNat ∧
        layout.record bytes result.events.length = .error error := by
    apply record_of_getElem?
    rw [Scan.resultOf_stop, ends, Option.map_some]
  have finished (none : result.stoppedBy = none) :
      result.events.length = layout.indexCount.toNat :=
    (Scan.length_events_of_finished none).trans length_records
  refine ⟨fun place inside => decode_of_record (event inside).2, ?_, finished, ?_⟩
  · constructor
    · intro some
      obtain ⟨error, ends⟩ := Option.isSome_iff_exists.mp some
      obtain ⟨counted, failure⟩ := stopped ends
      obtain ⟨code, found, large, _⟩ := same.unknown_of_error counted failure
      exact ⟨_, counted, _, found, large⟩
    · rintro ⟨place, counted, code, found, large⟩
      apply Option.isSome_iff_ne_none.mpr
      intro none
      rw [← finished none] at counted
      obtain ⟨other, again, small⟩ := known counted
      rw [found] at again
      cases again
      exact absurd small (Nat.not_le.mpr large)
  · intro error ends
    obtain ⟨counted, failure⟩ := stopped ends
    obtain ⟨code, found, large, cause⟩ := same.unknown_of_error counted failure
    obtain ⟨inside, _⟩ := same.record_inside counted
    have bound := layout.detailOffset.toNat_lt
    refine ⟨counted, fun place inside => known inside, code, _, found, large, ?_, cause, ?_⟩
    · exact UInt64.toNat_ofNat_of_lt' (by rw [UInt64.size]; omega)
    · rw [cause]
      rfl

end Layout

/-- A filter leaves out events of the scan without it, and changes nothing else: neither the order
of the others nor the error that ends the scan. -/
theorem Reader.scan_filtered {prior : Reader} {decoder : Json.Decoder} {store : FileStore}
    {path : String} {bytes : ByteArray} (found : store.read path = .ok bytes)
    (success : (prior.openFile decoder store path).answer = .ok ())
    (timeRange? : Option TimeRange) (threadIds? : Option (List UInt64)) :
    let reader := (prior.openFile decoder store path).state
    ∃ layout whole kept events stop?,
      reader.layout = .ok layout ∧ reader.scan .all = .ok whole ∧
      reader.scan ⟨timeRange?, threadIds?.getD []⟩ = .ok kept ∧
      whole.items = events.map .ok ++ stop?.toList.map .error ∧
      kept.items = (events.filter (EventFilter.Admits timeRange? threadIds? ·)).map .ok ++
        stop?.toList.map .error ∧
      layout.Stops bytes events stop? := by
  obtain ⟨layout, manifest, same, _, state⟩ := eq_of_opened found (opened_of_answer success)
  have outcomes (filter : EventFilter) := same.outcomes_scan path filter
  refine ⟨layout, layout.scan ⟨path, bytes⟩ .all,
    layout.scan ⟨path, bytes⟩ ⟨timeRange?, threadIds?.getD []⟩, _, _, ?_, ?_, ?_, ?_, ?_,
    same.stops⟩
  · rw [state]; rfl
  · rw [state]; rfl
  · rw [state]; rfl
  · rw [Scan.items_eq, outcomes, Scan.itemsOf_eq, Layout.scan,
      List.filter_eq_self.mpr fun event _ => EventFilter.keeps_all event]
  · rw [Scan.items_eq, outcomes, Scan.itemsOf_eq, Layout.scan, EventFilter.keeps_eq]

def corruptTrace : ByteArray :=
  Header.encode ⟨Format.magic, Format.version, 0, 2, 42, 3, 138⟩ ++ "\x7b\x7d".toUTF8 ++
    IndexRecord.encode ⟨100, 11, 1, 0, 0, 0⟩ ++ IndexRecord.encode ⟨250, 12, 2, 4, 0, 0⟩ ++
    IndexRecord.encode ⟨480, 11, 3, 99, 0, 0⟩

private theorem corruptTrace_opens :
    (Reader.closed.openFile (.saying "expected value") (.ofFiles [("a", corruptTrace)])
      "a").answer = .ok () :=
  eq_ok_of_toOption (by decide +kernel)

theorem Reader.scan_filtered_corruptTrace :
    let decoder : Json.Decoder := .saying "expected value"
    let store : FileStore := .ofFiles [("a", corruptTrace)]
    let reader := (Reader.closed.openFile decoder store "a").state
    let range : TimeRange := ⟨200, 300, by decide⟩
    store.read "a" = .ok corruptTrace ∧
    (Reader.closed.openFile decoder store "a").answer = .ok () ∧
    ∃ layout whole kept events stop?,
      reader.layout = .ok layout ∧ reader.scan .all = .ok whole ∧
      reader.scan ⟨some range, [11, 12]⟩ = .ok kept ∧
      whole.items = events.map .ok ++ stop?.toList.map .error ∧
      kept.items = (events.filter (EventFilter.Admits (some range) (some [11, 12]) ·)).map .ok ++
        stop?.toList.map .error ∧
      layout.Stops corruptTrace events stop? :=
  ⟨rfl, corruptTrace_opens,
    Reader.scan_filtered rfl corruptTrace_opens (some ⟨200, 300, by decide⟩) (some [11, 12])⟩

end TraceContainer
