import TraceContainer.Json.Document
import TraceContainer.Json.Integer
import TraceContainer.TimeRange

namespace TraceContainer

structure Manifest where
  metadata : Members
  timeRange : TimeRange
  /-- In ascending order, each once. -/
  threadIds : List UInt64
  eventCount : UInt64
  deriving DecidableEq

namespace Manifest

def insertWord (word : UInt64) : List UInt64 → List UInt64
  | [] => [word]
  | head :: rest =>
    if word < head then word :: head :: rest
    else if word = head then head :: rest
    else head :: insertWord word rest

def ascending (words : List UInt64) : List UInt64 :=
  words.foldr insertWord []

def readMetadata (members : Members) : Except ManifestError Members :=
  match Members.present? members "metadata" with
  | none => .ok []
  | some (.object metadata) => .ok metadata
  | some _ => .error .metadataNotObject

/-- A bound of the time range. Here an explicit null is a value, and not a number. -/
def readBound (bounds : Members) (key : String) (absent : UInt64) :
    Except ManifestError UInt64 :=
  match Members.find? bounds key with
  | none => .ok absent
  | some value =>
    match value.word? with
    | some bound => .ok bound
    | none => .error .invalidTimeRange

def readTimeRange (members : Members) : Except ManifestError TimeRange :=
  match Members.present? members "time_range" with
  | none => .ok .zero
  | some (.object bounds) => do
    let start ← readBound bounds "start_ns" 0
    let stop ← readBound bounds "end_ns" start
    match TimeRange.of? start stop with
    | some range => .ok range
    | none => .error .endPrecedesStart
  | some _ => .error .invalidTimeRange

def readThreadIds (members : Members) : Except ManifestError (List UInt64) :=
  match Members.present? members "thread_ids" with
  | none => .ok []
  | some (.array items) =>
    match items.mapM Json.word? with
    | some words => .ok (ascending words)
    | none => .error .threadIdNotInteger
  | some _ => .error .threadIdsNotList

def readEventCount (members : Members) : Except ManifestError UInt64 :=
  match Members.present? members "event_count" with
  | none => .ok 0
  | some value =>
    match value.word?, value.integer? with
    | some count, _ => .ok count
    | none, some _ => .error .negativeEventCount
    | none, none => .error .eventCountNotInteger

/-- The manifest of a JSON object. Of several faults the first in the order of the fields counts. -/
def ofMembers (members : Members) : Except ManifestError Manifest := do
  let metadata ← readMetadata members
  let timeRange ← readTimeRange members
  let threadIds ← readThreadIds members
  let eventCount ← readEventCount members
  return { metadata, timeRange, threadIds, eventCount }

def decode (decoder : Json.Decoder) (payload : ByteArray) : Except ManifestError Manifest :=
  if payload.size = 0 then .error .empty
  else
    match decoder.decode payload with
    | .error cause => .error (.malformedJson cause)
    | .ok (.object members) => ofMembers members
    | .ok _ => .error .notObject

def toJson (manifest : Manifest) : Json :=
  .object [
    ("metadata", .object manifest.metadata),
    ("time_range", manifest.timeRange.toJson),
    ("thread_ids", .array (manifest.threadIds.map .ofWord)),
    ("event_count", .ofWord manifest.eventCount)]

/-- The same object with all its keys in ascending order. -/
def canonical (manifest : Manifest) : Json :=
  .object [
    ("event_count", .ofWord manifest.eventCount),
    ("metadata", .object manifest.metadata),
    ("thread_ids", .array (manifest.threadIds.map .ofWord)),
    ("time_range", .object [
      ("end_ns", .ofWord manifest.timeRange.stop),
      ("start_ns", .ofWord manifest.timeRange.start)])]

def encode (manifest : Manifest) : ByteArray :=
  manifest.canonical.encode

/-- Whether the encoded manifest reads back as this one. -/
def survives (manifest : Manifest) (decoder : Json.Decoder) : Bool :=
  match decode decoder manifest.encode with
  | .ok again => again = manifest
  | .error _ => false

/-- Counts the records of the index where the manifest itself gives no count. -/
def withCount (manifest : Manifest) (indexCount : UInt64) : Manifest :=
  if manifest.eventCount = 0 then { manifest with eventCount := indexCount } else manifest

end Manifest

end TraceContainer
