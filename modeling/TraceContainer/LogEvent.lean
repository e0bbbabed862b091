import TraceContainer.Error
import TraceContainer.Json.Document

/-! What the library reports while it works, how a report is written as a line of text, and what
calls leave behind. A call that only asks has an answer and reports events; a call that may change a
state has a new state as well, so the types tell which calls change nothing. -/
namespace TraceContainer

inductive LogLevel where
  | trace
  | debug
  | info
  | warn
  deriving DecidableEq

def LogLevel.name : LogLevel → String
  | trace => "TRACE"
  | debug => "DEBUG"
  | info => "INFO"
  | warn => "WARN"

def LogLevel.rank : LogLevel → Nat
  | trace => 0
  | debug => 1
  | info => 2
  | warn => 3

inductive LogEvent where
  | mapped (path : String) (size : Nat)
  | unmapped (path : String)
  | opened (path : String) (fileSize : Nat) (indexOffset indexCount detailOffset : UInt64)
  | rejected (path : String) (error : Error)
  | resolving (offset : Int64) (payloadLength : UInt32)
  | backendSelected (requested effective : Json.Backend)
  deriving DecidableEq

namespace LogEvent

def level : LogEvent → LogLevel
  | rejected _ _ => .warn
  | resolving _ _ => .trace
  | _ => .debug

def message : LogEvent → String
  | mapped _ _ => "Mapped ATF file"
  | unmapped _ => "Unmapped ATF file"
  | opened _ _ _ _ _ => "Opened ATF trace"
  | rejected _ _ => "Rejected ATF trace"
  | resolving _ _ => "Resolving detail event"
  | backendSelected _ _ => "Selected JSON backend"

/-- The names of the reported values with the values, in the order in which they are written. -/
def fields : LogEvent → List (String × String)
  | mapped path size => [("path", path), ("size", toString size)]
  | unmapped path => [("path", path)]
  | opened path fileSize indexOffset indexCount detailOffset => [
    ("path", path), ("file_size", toString fileSize),
    ("index_offset", toString indexOffset), ("index_count", toString indexCount),
    ("detail_offset", toString detailOffset)]
  | rejected path error => [("path", path), ("error", error.message)]
  | resolving offset payloadLength => [
    ("offset", toString offset), ("payload_length", toString payloadLength)]
  | backendSelected requested effective => [
    ("requested", requested.name), ("effective", effective.name)]

def line (event : LogEvent) : String :=
  " ".intercalate (event.level.name :: event.message ::
    event.fields.map fun (name, value) => name ++ "=" ++ value)

def lines (lowest : LogLevel) (events : List LogEvent) : List String :=
  (events.filter fun event => lowest.rank ≤ event.level.rank).map line

end LogEvent

/-- An answer, with the events reported on the way to it in their order. -/
structure Reported (Answer : Type) where
  answer : Answer
  events : List LogEvent := []

/-- A reported answer together with the state after the call. -/
structure Outcome (State Answer : Type) extends Reported Answer where
  state : State

def Reported.map {Answer Result : Type} (result : Answer → Result) (reported : Reported Answer) :
    Reported Result where
  answer := result reported.answer
  events := reported.events

/-- The same outcome with another view of the answer and of the state. -/
def Outcome.map {State Answer Owner Result : Type} (owner : State → Owner)
    (result : Answer → Result) (outcome : Outcome State Answer) : Outcome Owner Result where
  toReported := outcome.toReported.map result
  state := owner outcome.state

end TraceContainer
