import TraceContainer.Proofs.CurrentOpening
import TraceContainer.Proofs.Sections

/-! How many events a time range holds. The estimate is the number of events that a scan over the
range gives, and fails as this scan does. One record of no known type lets it fail for every range;
without one it counts events like a measure on time: it adds up over neighbouring ranges. -/
namespace TraceContainer

namespace Scan

theorem resultOf_append (events : List Event) (stop? : Option Error) :
    resultOf (events.map .ok ++ stop?.toList.map .error) = ⟨events, stop?⟩ := by
  induction events with
  | nil => cases stop? <;> rfl
  | cons event rest ih => rw [List.map_cons, List.cons_append, resultOf, ih]

/-- Items are counted as long as they are events, from a number that leaves room for all of them. -/
theorem foldlM_count (items : List (Except Error Event)) (start : UInt64) :
    items.foldlM (fun (count : UInt64) item => item.map fun _ => count + 1) start =
      match (resultOf items).stoppedBy with
      | some error => .error error
      | none => .ok (start + .ofNat (resultOf items).events.length) := by
  induction items generalizing start with
  | nil => exact congrArg Except.ok (UInt64.add_zero start).symm
  | cons item rest ih =>
    cases item with
    | error error => rfl
    | ok event =>
      rw [List.foldlM_cons]
      refine (ih (start + 1)).trans ?_
      simp only [resultOf]
      cases (resultOf rest).stoppedBy with
      | some error => rfl
      | none =>
        simp only [List.length_cons]
        rw [Nat.add_comm, UInt64.ofNat_add, ← UInt64.add_assoc]
        rfl

theorem result_eq (scan : Scan) :
    scan.result = ⟨(resultOf scan.outcomes).events.filter scan.filter.keeps,
      (resultOf scan.outcomes).stoppedBy⟩ := by
  rw [result, items_eq, itemsOf_eq, resultOf_append]

end Scan

namespace TimeRange

def always : TimeRange :=
  ⟨0, 18446744073709551615, by decide⟩

theorem contains_always (timestamp : UInt64) : always.contains timestamp = true := by
  rw [contains_iff]
  exact ⟨UInt64.zero_le, UInt64.le_iff_toNat_le.mpr (Nat.le_of_lt_succ timestamp.toNat_lt)⟩

/-- What counts as a measure on time: a number for each range, at most the total, which adds up
where one range begins right behind another. -/
structure Measure (count : TimeRange → UInt64) (total : UInt64) : Prop where
  le_total : ∀ range, count range ≤ total
  always : count always = total
  monotone : ∀ inner outer : TimeRange, outer.start ≤ inner.start → inner.stop ≤ outer.stop →
    count inner ≤ count outer
  adds : ∀ left right whole : TimeRange, whole.start = left.start →
    right.start.toNat = left.stop.toNat + 1 → whole.stop = right.stop →
    (count whole).toNat = (count left).toNat + (count right).toNat

def countIn (range : TimeRange) (events : List Event) : Nat :=
  events.countP fun event => range.contains event.timestamp

theorem countIn_mono (events : List Event) {inner outer : TimeRange}
    (start : outer.start ≤ inner.start) (stop : inner.stop ≤ outer.stop) :
    inner.countIn events ≤ outer.countIn events := by
  refine List.countP_mono_left fun event _ within => ?_
  obtain ⟨low, high⟩ := (contains_iff inner event.timestamp).mp within
  exact (contains_iff outer event.timestamp).mpr
    ⟨UInt64.le_trans start low, UInt64.le_trans high stop⟩

/-- An event inside the whole range lies in one of its halves, and in one only. -/
theorem countIn_add (events : List Event) {left right whole : TimeRange}
    (start : whole.start = left.start) (next : right.start.toNat = left.stop.toNat + 1)
    (stop : whole.stop = right.stop) :
    whole.countIn events = left.countIn events + right.countIn events := by
  induction events with
  | nil => rfl
  | cons event rest ih =>
    have leftOrdered := left.ordered
    have rightOrdered := right.ordered
    simp only [countIn] at ih ⊢
    rw [List.countP_cons, List.countP_cons, List.countP_cons, ih]
    simp only [contains_iff, start, stop]
    simp only [UInt64.le_iff_toNat_le] at leftOrdered rightOrdered ⊢
    split <;> split <;> split <;> omega

theorem toNat_countIn {events : List Event} {total : UInt64} (length : events.length = total.toNat)
    (range : TimeRange) :
    (UInt64.ofNat (range.countIn events)).toNat = range.countIn events := by
  have within : range.countIn events ≤ total.toNat := length ▸ List.countP_le_length
  exact UInt64.toNat_ofNat_of_lt' (Nat.lt_of_le_of_lt within total.toNat_lt)

theorem measure_countIn {events : List Event} {total : UInt64}
    (length : events.length = total.toNat) :
    Measure (fun range => .ofNat (range.countIn events)) total := by
  have size := toNat_countIn length
  constructor
  case le_total =>
    intro range
    rw [UInt64.le_iff_toNat_le, size]
    exact length ▸ List.countP_le_length
  case always =>
    have all : TimeRange.always.countIn events = events.length :=
      List.countP_eq_length.mpr fun event _ => contains_always event.timestamp
    rw [all, length, UInt64.ofNat_toNat]
  case monotone =>
    intro inner outer start stop
    rw [UInt64.le_iff_toNat_le, size, size]
    exact countIn_mono events start stop
  case adds =>
    intro left right whole start next stop
    rw [size, size, size]
    exact countIn_add events start next stop

end TimeRange

theorem EventFilter.keeps_range (range : TimeRange) (event : Event) :
    EventFilter.keeps ⟨some range, []⟩ event = range.contains event.timestamp :=
  Bool.and_true _

theorem Layout.Matches.result_range {layout : Layout} {bytes : ByteArray}
    (same : layout.Matches bytes) (path : String) (range : TimeRange) :
    (layout.scan ⟨path, bytes⟩ ⟨some range, []⟩).result =
      ⟨(Scan.resultOf (layout.records bytes)).events.filter
          fun event => range.contains event.timestamp,
        (Scan.resultOf (layout.records bytes)).stoppedBy⟩ := by
  have keeps := funext (EventFilter.keeps_range range)
  rw [Scan.result_eq, same.outcomes_scan, Layout.scan, keeps]

/-- With a range the estimate counts what a scan over it gives, and fails as the scan does. -/
theorem Reader.estimate_holding {bytes : ByteArray} {contents : Contents}
    (same : contents.layout.Matches bytes) (path : String) (range : TimeRange) :
    (holding path bytes contents).estimate (some range) =
      match (Scan.resultOf (contents.layout.records bytes)).stoppedBy with
      | some error => .error error
      | none =>
        .ok (.ofNat (range.countIn (Scan.resultOf (contents.layout.records bytes)).events)) := by
  have counted := Scan.foldlM_count (contents.layout.scan ⟨path, bytes⟩ ⟨some range, []⟩).items 0
  have result := same.result_range path range
  rw [Scan.result] at result
  rw [result, UInt64.zero_add, ← List.countP_eq_length_filter] at counted
  exact counted

/-- Of an open reader, in every state that a run of calls leads to, the estimate without a range is
the number of records that the header gives. With a range it is the number of events that the scan
over the range gives, or the error that ends it. One error makes it fail for every range, and else
it measures time. -/
theorem Session.estimate_counts {decoder : Json.Decoder} {store : FileStore}
    {calls : List ReaderCall}
    (isOpen : ((start decoder store Reader.closed).after callReader calls).source.isOpen = true) :
    let reader := ((start decoder store Reader.closed).after callReader calls).source
    ∃ layout, reader.layout = .ok layout ∧ reader.estimate none = .ok layout.indexCount ∧
    (∀ range, ∃ scan, reader.scan ⟨some range, []⟩ = .ok scan ∧
      (∀ error, scan.result.stoppedBy = some error →
        reader.estimate (some range) = .error error) ∧
      (scan.result.stoppedBy = none → ∃ count, reader.estimate (some range) = .ok count ∧
        count.toNat = scan.result.events.length)) ∧
    ((∃ error, ∀ range, reader.estimate (some range) = .error error) ∨
      ∃ count, (∀ range, reader.estimate (some range) = .ok (count range)) ∧
        TimeRange.Measure count layout.indexCount) := by
  intro reader
  obtain ⟨⟨_, _, _, path, bytes, contents, _, _, _, read, _⟩, continues⟩ :=
    exists_current isOpen rfl
  change reader.Continues (.holding path bytes contents) at continues
  obtain ⟨same, _⟩ := Contents.matches_of_read read
  have estimate (timeRange? : Option TimeRange) :
      reader.estimate timeRange? = (Reader.holding path bytes contents).estimate timeRange? := by
    rw [← Reader.estimate_forget, continues.forget]
  have layout : reader.layout = .ok contents.layout := by
    rw [← Reader.layout_forget, continues.forget]
    rfl
  have scan (range : TimeRange) : reader.scan ⟨some range, []⟩ =
      .ok (contents.layout.scan ⟨path, bytes⟩ ⟨some range, []⟩) := by
    rw [← Reader.scan_forget, continues.forget]
    rfl
  have ranges (range : TimeRange) :=
    (estimate (some range)).trans (Reader.estimate_holding same path range)
  refine ⟨contents.layout, layout, estimate none, ?_⟩
  cases ended : (Scan.resultOf (contents.layout.records bytes)).stoppedBy with
  | some error =>
    simp only [ended] at ranges
    refine ⟨fun range => ⟨_, scan range, ?_, ?_⟩, .inl ⟨error, ranges⟩⟩
    · intro other stopped
      rw [same.result_range, ended] at stopped
      cases stopped
      exact ranges range
    · intro finished
      rw [same.result_range, ended] at finished
      cases finished
  | none =>
    simp only [ended] at ranges
    have length := (Scan.length_events_of_finished ended).trans Layout.length_records
    refine ⟨fun range => ⟨_, scan range, ?_, ?_⟩,
      .inr ⟨_, ranges, TimeRange.measure_countIn length⟩⟩
    · intro error stopped
      rw [same.result_range, ended] at stopped
      cases stopped
    · intro finished
      refine ⟨_, ranges range, ?_⟩
      rw [same.result_range, TimeRange.toNat_countIn length, TimeRange.countIn,
        List.countP_eq_length_filter]

def unsortedTrace : ByteArray :=
  Header.encode ⟨Format.magic, Format.version, 0, 2, 42, 3, 138⟩ ++ "\x7b\x7d".toUTF8 ++
    IndexRecord.encode ⟨480, 11, 1, 0, 0, 0⟩ ++ IndexRecord.encode ⟨100, 12, 2, 4, 0, 0⟩ ++
    IndexRecord.encode ⟨250, 11, 3, 6, 0, 0⟩

theorem Session.estimate_counts_unsortedTrace :
    let start : Session Reader :=
      .start (.saying "expected value") (.ofFiles [("a", unsortedTrace)]) .closed
    let reader := (start.after callReader [.openFile "a", .files (.remove "a")]).source
    reader.isOpen = true ∧
    ∃ layout, reader.layout = .ok layout ∧ reader.estimate none = .ok layout.indexCount ∧
    (∀ range, ∃ scan, reader.scan ⟨some range, []⟩ = .ok scan ∧
      (∀ error, scan.result.stoppedBy = some error →
        reader.estimate (some range) = .error error) ∧
      (scan.result.stoppedBy = none → ∃ count, reader.estimate (some range) = .ok count ∧
        count.toNat = scan.result.events.length)) ∧
    ((∃ error, ∀ range, reader.estimate (some range) = .error error) ∨
      ∃ count, (∀ range, reader.estimate (some range) = .ok (count range)) ∧
        TimeRange.Measure count layout.indexCount) := by
  have isOpen : ((start (.saying "expected value") (.ofFiles [("a", unsortedTrace)])
      Reader.closed).after callReader [.openFile "a", .files (.remove "a")]).source.isOpen =
        true := by decide +kernel
  exact ⟨isOpen, estimate_counts isOpen⟩

end TraceContainer
