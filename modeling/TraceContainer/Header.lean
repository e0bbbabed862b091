import TraceContainer.Binary
import TraceContainer.Error

namespace TraceContainer

structure Header where
  magic : UInt32
  version : UInt16
  /-- Kept, and without meaning. -/
  flags : UInt16
  manifestLength : UInt64
  indexOffset : UInt64
  indexCount : UInt64
  detailOffset : UInt64
  deriving DecidableEq

/-- Where the sections of a file lie: manifest, index and detail section, in this order. -/
structure Layout where
  manifestOffset : UInt64
  manifestLength : UInt64
  indexOffset : UInt64
  indexCount : UInt64
  detailOffset : UInt64
  deriving DecidableEq

namespace Header

def read? (bytes : ByteArray) : Option Header := do
  return {
    magic := .ofNat (← Binary.number? bytes 0 4)
    version := .ofNat (← Binary.number? bytes 4 2)
    flags := .ofNat (← Binary.number? bytes 6 2)
    manifestLength := .ofNat (← Binary.number? bytes 8 8)
    indexOffset := .ofNat (← Binary.number? bytes 16 8)
    indexCount := .ofNat (← Binary.number? bytes 24 8)
    detailOffset := .ofNat (← Binary.number? bytes 32 8) }

def decode (bytes : ByteArray) : Except HeaderError Header :=
  match read? bytes with
  | none => .error (.tooShort bytes.size)
  | some header => .ok header

def encode (header : Header) : ByteArray :=
  Binary.pack (LittleEndian.bytes 4 header.magic.toNat ++
    LittleEndian.bytes 2 header.version.toNat ++ LittleEndian.bytes 2 header.flags.toNat ++
    LittleEndian.bytes 8 header.manifestLength.toNat ++
    LittleEndian.bytes 8 header.indexOffset.toNat ++
    LittleEndian.bytes 8 header.indexCount.toNat ++
    LittleEndian.bytes 8 header.detailOffset.toNat)

/-- Where the index ends, unless that is past the last 64-bit position. -/
def indexEnd? (header : Header) : Option UInt64 :=
  (Binary.product? header.indexCount Format.recordSize).bind
    fun length => Binary.sum? length header.indexOffset

/-- The sections of a file of a given size. The index follows the manifest at once, and the detail
section starts behind the index and not behind the end of the file. -/
def validate (header : Header) (fileSize : Nat) : Except HeaderError Layout :=
  if header.magic ≠ Format.magic then .error (.wrongMagic header.magic)
  else if header.version ≠ Format.version then .error (.unsupportedVersion header.version)
  else if header.manifestLength = 0 then .error .emptyManifest
  else
    match Binary.sum? Format.headerSize header.manifestLength with
    | none => .error .manifestOverflow
    | some manifestEnd =>
      if header.indexOffset ≠ manifestEnd then
        .error (.misplacedIndex header.indexOffset manifestEnd)
      else
        match header.indexEnd? with
        | none => .error .indexOverflow
        | some indexEnd =>
          if header.detailOffset < indexEnd then
            .error (.overlappingDetail header.detailOffset indexEnd)
          else if fileSize < header.detailOffset.toNat then
            .error (.detailBeyondFile header.detailOffset fileSize)
          else .ok {
            manifestOffset := Format.headerSize
            manifestLength := header.manifestLength
            indexOffset := header.indexOffset
            indexCount := header.indexCount
            detailOffset := header.detailOffset }

end Header

end TraceContainer
