import TraceContainer.Error
import TraceContainer.Json.Basic

namespace TraceContainer

structure TimeRange where
  start : UInt64
  stop : UInt64
  ordered : start ≤ stop
  deriving DecidableEq

namespace TimeRange

def zero : TimeRange := ⟨0, 0, UInt64.le_refl 0⟩

def of? (start stop : UInt64) : Option TimeRange :=
  if ordered : start ≤ stop then some ⟨start, stop, ordered⟩ else none

/-- The interval between two bounds, unless the second precedes the first. -/
def between (start stop : UInt64) : Except Error TimeRange :=
  match of? start stop with
  | some range => .ok range
  | none => .error (.manifest (.reversedRange start stop))

def contains (range : TimeRange) (timestamp : UInt64) : Bool :=
  range.start ≤ timestamp && timestamp ≤ range.stop

def duration (range : TimeRange) : UInt64 :=
  range.stop - range.start

def toJson (range : TimeRange) : Json :=
  .object [("start_ns", .ofWord range.start), ("end_ns", .ofWord range.stop)]

theorem contains_iff (range : TimeRange) (timestamp : UInt64) :
    range.contains timestamp = true ↔ range.start ≤ timestamp ∧ timestamp ≤ range.stop := by
  simp [contains]

end TimeRange

end TraceContainer
