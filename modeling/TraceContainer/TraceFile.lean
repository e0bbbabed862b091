import TraceContainer.Detail
import TraceContainer.Header

namespace TraceContainer

structure TraceFile where
  flags : UInt16
  manifest : ByteArray
  entries : List (Event × Option Detail)
  /-- Bytes between the index and the details, without meaning. -/
  padding : ByteArray

/-- The bytes of a detail in the detail section: its length, then its payload. -/
def Detail.encodeEntry (detail : Detail) : ByteArray :=
  Binary.pack (LittleEndian.bytes 4 detail.encode.size) ++ detail.encode

namespace TraceFile

/-- Gives details their places from an offset on, and tells them and their events. -/
def placeFrom (offset : Nat) : List (Event × Option Detail) → List (Event × Option Detail)
  | [] => []
  | (event, none) :: rest => ({ event with detailOffset := 0 }, none) :: placeFrom offset rest
  | (event, some detail) :: rest =>
    let placed := { event with detailOffset := .ofNat offset }
    let placedDetail := { detail with event := placed }
    (placed, some placedDetail) :: placeFrom (offset + placedDetail.encodeEntry.size) rest

def indexOffset (file : TraceFile) : Nat :=
  Format.headerSize.toNat + file.manifest.size

def detailOffset (file : TraceFile) : Nat :=
  file.indexOffset + Format.recordSize.toNat * file.entries.length + file.padding.size

def placed (file : TraceFile) : List (Event × Option Detail) :=
  placeFrom file.detailOffset file.entries

def header (file : TraceFile) : Header where
  magic := Format.magic
  version := Format.version
  flags := file.flags
  manifestLength := .ofNat file.manifest.size
  indexOffset := .ofNat file.indexOffset
  indexCount := .ofNat file.entries.length
  detailOffset := .ofNat file.detailOffset

def encodeIndex : List (Event × Option Detail) → ByteArray
  | [] => .empty
  | (event, _) :: rest => event.encode ++ encodeIndex rest

def encodeDetails : List (Event × Option Detail) → ByteArray
  | [] => .empty
  | (_, none) :: rest => encodeDetails rest
  | (_, some detail) :: rest => detail.encodeEntry ++ encodeDetails rest

def encode (file : TraceFile) : ByteArray :=
  file.header.encode ++ file.manifest ++ encodeIndex file.placed ++ file.padding ++
    encodeDetails file.placed

end TraceFile

end TraceContainer
