import TraceContainer.Binary
import TraceContainer.Error
import TraceContainer.EventType
import TraceContainer.Json.Basic

namespace TraceContainer

structure IndexRecord where
  timestamp : UInt64
  threadId : UInt32
  functionId : UInt32
  typeCode : UInt32
  /-- The bits of a signed word. -/
  detailOffset : UInt64
  flags : UInt32
  deriving DecidableEq

namespace IndexRecord

/-- The words of 32 bytes; bytes of any other number are no record. -/
def read? (bytes : ByteArray) : Option IndexRecord :=
  if bytes.size = Format.recordSize.toNat then do
    return {
      timestamp := .ofNat (← Binary.number? bytes 0 8)
      threadId := .ofNat (← Binary.number? bytes 8 4)
      functionId := .ofNat (← Binary.number? bytes 12 4)
      typeCode := .ofNat (← Binary.number? bytes 16 4)
      detailOffset := .ofNat (← Binary.number? bytes 20 8)
      flags := .ofNat (← Binary.number? bytes 28 4) }
  else none

def encode (record : IndexRecord) : ByteArray :=
  Binary.pack (LittleEndian.bytes 8 record.timestamp.toNat ++
    LittleEndian.bytes 4 record.threadId.toNat ++ LittleEndian.bytes 4 record.functionId.toNat ++
    LittleEndian.bytes 4 record.typeCode.toNat ++
    LittleEndian.bytes 8 record.detailOffset.toNat ++ LittleEndian.bytes 4 record.flags.toNat)

end IndexRecord

structure Event where
  timestamp : UInt64
  threadId : UInt32
  functionId : UInt32
  type : EventType
  /-- Where in the file the event's detail entry starts, if the number is positive. -/
  detailOffset : Int64
  flags : UInt32
  deriving DecidableEq

namespace Event

def toRecord (event : Event) : IndexRecord where
  timestamp := event.timestamp
  threadId := event.threadId
  functionId := event.functionId
  typeCode := event.type.code
  detailOffset := event.detailOffset.toUInt64
  flags := event.flags

def ofRecord (record : IndexRecord) : Except RecordError Event :=
  match EventType.ofCode? record.typeCode with
  | none => .error (.unknownType record.typeCode)
  | some type => .ok {
      timestamp := record.timestamp
      threadId := record.threadId
      functionId := record.functionId
      type
      detailOffset := record.detailOffset.toInt64
      flags := record.flags }

def decode (bytes : ByteArray) : Except RecordError Event :=
  match IndexRecord.read? bytes with
  | none => .error (.wrongSize bytes.size)
  | some record => ofRecord record

def encode (event : Event) : ByteArray :=
  event.toRecord.encode

def hasDetail (event : Event) : Bool :=
  0 < event.detailOffset

def toJson (event : Event) : Json :=
  .object [
    ("timestamp_ns", .ofWord event.timestamp),
    ("thread_id", .ofWord event.threadId.toUInt64),
    ("function_id", .ofWord event.functionId.toUInt64),
    ("event_type", .string event.type.name),
    ("detail_offset", .ofSigned event.detailOffset),
    ("flags", .ofWord event.flags.toUInt64)]

end Event

end TraceContainer
