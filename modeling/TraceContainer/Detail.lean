import TraceContainer.Event
import TraceContainer.Json.Document
import TraceContainer.Json.Integer

namespace TraceContainer

structure Detail where
  /-- The payload's own copy of the event, which need not be that of the index. -/
  event : Event
  callStack : List UInt64
  arguments : Members
  returnValue : Option Json
  metadata : Members
  deriving DecidableEq

namespace Detail

/-- The integer of a field, if the field is present and its integer lies from `low` up to and
without `high`. -/
def readOptional (fields : Members) (key : String) (low high : Int) :
    Except DecodeError (Option Int) :=
  match Members.present? fields key with
  | none => .ok none
  | some value =>
    match value.denoted? with
    | some number => if low ≤ number ∧ number < high then .ok (some number)
      else .error (.invalidField key)
    | none => .error (.invalidField key)

def readRequired (fields : Members) (key : String) (bits : Nat) : Except DecodeError Nat := do
  match ← readOptional fields key 0 (2 ^ bits) with
  | some number => .ok number.toNat
  | none => .error (.missingField key)

/-- An event type is given by its name, or by a number kept as an integer. -/
def readType (fields : Members) : Except DecodeError EventType :=
  match Members.present? fields "event_type" with
  | none => .error .missingType
  | some (.string name) =>
    match EventType.ofName? name with
    | some type => .ok type
    | none => .error .unsupportedType
  | some value =>
    match value.word? with
    | none => .error .unsupportedType
    | some code =>
      if code.toNat < UInt32.size then
        match EventType.ofCode? code.toUInt32 with
        | some type => .ok type
        | none => .error .unsupportedType
      else .error .unsupportedType

/-- The event of a payload. Where it names no offset of its own, the one that led to the payload
takes its place. -/
def readEvent (fields : Members) (offset : Int64) : Except DecodeError Event := do
  let type ← readType fields
  let timestamp ← readRequired fields "timestamp_ns" 64
  let threadId ← readRequired fields "thread_id" 32
  let functionId ← readRequired fields "function_id" 32
  let detailOffset ← readOptional fields "detail_offset" (-2 ^ 63) (2 ^ 63)
  let flags ← readOptional fields "flags" 0 (2 ^ 32)
  return {
    timestamp := .ofNat timestamp
    threadId := .ofNat threadId
    functionId := .ofNat functionId
    type
    detailOffset := (detailOffset.map Int64.ofInt).getD offset
    flags := .ofNat (flags.getD 0).toNat }

def frame? (value : Json) : Option UInt64 :=
  match value.denoted? with
  | some (.ofNat size) => if size < UInt64.size then some (UInt64.ofNat size) else none
  | _ => none

def readCallStack (members : Members) : Except DecodeError (List UInt64) :=
  match Members.present? members "call_stack" with
  | none => .ok []
  | some (.array items) =>
    match items.mapM frame? with
    | some frames => .ok frames
    | none => .error .invalidFrame
  | some _ => .error .stackNotList

def readObject (members : Members) (key : String) : Except DecodeError Members :=
  match Members.present? members key with
  | none => .ok []
  | some (.object object) => .ok object
  | some _ => .error (.memberNotObject key)

def ofMembers (members : Members) (offset : Int64) : Except DecodeError Detail :=
  match Members.find? members "index_event" with
  | some (.object fields) => do
    let event ← readEvent fields offset
    let callStack ← readCallStack members
    let arguments ← readObject members "arguments"
    let metadata ← readObject members "metadata"
    return {
      event, callStack, arguments, metadata
      returnValue := Members.present? members "return_value" }
  | _ => .error .missingEvent

def decode (decoder : Json.Decoder) (payload : ByteArray) (offset : Int64) :
    Except DecodeError Detail :=
  match decoder.decode payload with
  | .error cause => .error (.malformedJson cause)
  | .ok (.object members) => ofMembers members offset
  | .ok _ => .error .notObject

def toJson (detail : Detail) : Json :=
  .object [
    ("index_event", detail.event.toJson),
    ("call_stack", .array (detail.callStack.map .ofWord)),
    ("arguments", .object detail.arguments),
    ("return_value", detail.returnValue.getD .null),
    ("metadata", .object detail.metadata)]

def encode (detail : Detail) : ByteArray :=
  detail.toJson.encode

end Detail

end TraceContainer
