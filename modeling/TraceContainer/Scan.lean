import TraceContainer.Event
import TraceContainer.MappedFile
import TraceContainer.TimeRange

/-! Scans over index records, one record after the other in the order of the file. A record is
decoded before the filter sees it, so a malformed one ends the scan even where its event would have
been left out; the error is the last item. -/
namespace TraceContainer

/-- Which events a scan keeps: those inside the time range, if there is one, and of one of the
threads, if any are named. -/
structure EventFilter where
  timeRange? : Option TimeRange
  threadIds : List UInt64
  deriving DecidableEq

namespace EventFilter

def all : EventFilter := ⟨none, []⟩

/-- The filter with the given bounds of time, unless the second precedes the first. -/
def between (bounds : Option (UInt64 × UInt64)) (threadIds : List UInt64) :
    Except Error EventFilter :=
  match bounds with
  | none => .ok ⟨none, threadIds⟩
  | some (start, stop) => (TimeRange.between start stop).map fun range => ⟨some range, threadIds⟩

def keeps (filter : EventFilter) (event : Event) : Bool :=
  (match filter.timeRange? with
    | none => true
    | some range => range.contains event.timestamp) &&
  (filter.threadIds.isEmpty || filter.threadIds.contains event.threadId.toUInt64)

/-- Whether the filter looks at events at all. -/
def isActive (filter : EventFilter) : Bool :=
  filter.timeRange?.isSome || !filter.threadIds.isEmpty

end EventFilter

structure Scan where
  file : MappedFile
  indexOffset : UInt64
  count : UInt64
  filter : EventFilter
  /-- The number of records examined. -/
  position : UInt64 := 0
  deriving DecidableEq

/-- The events that a scan had left, and the error that ended it. -/
structure ScanResult where
  events : List Event
  stoppedBy : Option Error

namespace Scan

/-- Where the record at a position starts, unless that is past the last 64-bit offset. -/
def recordOffset? (scan : Scan) (position : UInt64) : Option UInt64 :=
  (Binary.product? position Format.recordSize).bind fun delta => Binary.sum? delta scan.indexOffset

def eventAt (scan : Scan) (position : UInt64) : Except Error Event :=
  match scan.recordOffset? position with
  | none => .error (.mapping .recordOverflow)
  | some offset =>
    match scan.file.slice offset Format.recordSize with
    | .error error => .error error
    | .ok bytes => (Event.decode bytes).mapError fun cause => .decode (.recordAt offset cause)

def remaining (scan : Scan) : Nat :=
  scan.count.toNat - scan.position.toNat

/-- Examines up to a number of records until one gives an item. An error leaves no record
unexamined. -/
def advance : Nat → Scan → Option (Except Error Event) × Scan
  | 0, scan => (none, scan)
  | records + 1, scan =>
    match scan.eventAt scan.position with
    | .error error => (some (.error error), { scan with position := scan.count })
    | .ok event =>
      let later := { scan with position := scan.position + 1 }
      if scan.filter.keeps event then (some (.ok event), later) else advance records later

def next (scan : Scan) : Option (Except Error Event) × Scan :=
  advance scan.remaining scan

def take : Nat → Scan → List (Except Error Event)
  | 0, _ => []
  | calls + 1, scan =>
    match scan.next with
    | (none, _) => []
    | (some item, later) => item :: take calls later

/-- All items left. Each takes at least one record, so no more calls are needed than records are
left. -/
def items (scan : Scan) : List (Except Error Event) :=
  take scan.remaining scan

/-- Splits items into the events and the error behind them. -/
def resultOf : List (Except Error Event) → ScanResult
  | [] => ⟨[], none⟩
  | .error error :: _ => ⟨[], some error⟩
  | .ok event :: rest =>
    let result := resultOf rest
    ⟨event :: result.events, result.stoppedBy⟩

def result (scan : Scan) : ScanResult :=
  resultOf scan.items

/-- Bounds on the number of items left. Only a scan that keeps every event has a lower one. -/
def sizeHint (scan : Scan) : Nat × Nat :=
  (if scan.filter.isActive then 0 else scan.remaining, scan.remaining)

end Scan

end TraceContainer
