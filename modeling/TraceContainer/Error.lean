import TraceContainer.Binary
import TraceContainer.Text.Quoted

namespace TraceContainer.Format

/-- The four bytes at the start of every file: `ATF0`. -/
def tag : List UInt8 := [65, 84, 70, 48]

/-- The tag as the little-endian word that the header holds. -/
def magic : UInt32 := UInt32.ofNat (LittleEndian.value tag)

def version : UInt16 := 1

def headerSize : UInt64 := 40

def recordSize : UInt64 := 32

def lengthSize : UInt64 := 4

end TraceContainer.Format

namespace TraceContainer

inductive FileError where
  | missing
  | notDirectory
  | other (text : String)
  deriving DecidableEq

def FileError.message : FileError → String
  | .missing => "No such file or directory (os error 2)"
  | .notDirectory => "Not a directory (os error 20)"
  | .other text => text

inductive MappingError where
  | emptyFile (path : String)
  | rangeOverflow
  | outOfRange (start stop size : Nat)
  | recordOverflow
  | other (text : String)
  deriving DecidableEq

def MappingError.message : MappingError → String
  | .emptyFile path => s!"ATF file is empty: {path}"
  | .rangeOverflow => "requested range overflows"
  | .outOfRange start stop size => s!"range {start}..{stop} exceeds mapped file size {size}"
  | .recordOverflow => "index record offset overflows"
  | .other text => text

inductive HeaderError where
  | tooShort (size : Nat)
  | wrongMagic (magic : UInt32)
  | unsupportedVersion (version : UInt16)
  | emptyManifest
  | manifestOverflow
  | misplacedIndex (offset expected : UInt64)
  | indexOverflow
  | overlappingDetail (offset indexEnd : UInt64)
  | detailBeyondFile (offset : UInt64) (fileSize : Nat)
  | other (text : String)
  deriving DecidableEq

def byteList (bytes : List UInt8) : String :=
  "[" ++ ", ".intercalate (bytes.map fun byte => toString byte.toNat) ++ "]"

def HeaderError.message : HeaderError → String
  | .tooShort size => s!"ATF header is malformed: expected {Format.headerSize} bytes, got {size}"
  | .wrongMagic magic =>
    let found := byteList (LittleEndian.bytes 4 magic.toNat)
    s!"ATF file magic does not match: expected {byteList Format.tag}, got {found}"
  | .unsupportedVersion version =>
    s!"unsupported ATF version {version}, expected {Format.version}"
  | .emptyManifest => "manifest length is zero"
  | .manifestOverflow => "manifest length overflows"
  | .misplacedIndex offset expected =>
    s!"index offset {offset} does not follow manifest (expected {expected})"
  | .indexOverflow => "index section length overflows"
  | .overlappingDetail offset indexEnd =>
    s!"detail section at {offset} overlaps index section ending at {indexEnd}"
  | .detailBeyondFile offset fileSize =>
    s!"detail section offset {offset} exceeds file size {fileSize}"
  | .other text => text

inductive ManifestError where
  | empty
  | malformedJson (cause : String)
  | notObject
  | metadataNotObject
  | invalidTimeRange
  | endPrecedesStart
  | reversedRange (start stop : UInt64)
  | threadIdNotInteger
  | threadIdsNotList
  | negativeEventCount
  | eventCountNotInteger
  | other (text : String)
  deriving DecidableEq

def ManifestError.message : ManifestError → String
  | .empty => "manifest payload is empty"
  | .malformedJson cause => s!"failed to parse manifest JSON: {cause}"
  | .notObject => "manifest must be a JSON object"
  | .metadataNotObject => "manifest metadata must be an object"
  | .invalidTimeRange => "invalid time range in manifest"
  | .endPrecedesStart => "manifest end time precedes start time"
  | .reversedRange start stop => s!"time range end {stop} precedes start {start}"
  | .threadIdNotInteger => "manifest thread_ids must contain integers"
  | .threadIdsNotList => "manifest thread_ids must be a list"
  | .negativeEventCount => "manifest event_count must be non-negative"
  | .eventCountNotInteger => "manifest event_count must be an integer"
  | .other text => text

inductive RecordError where
  | wrongSize (size : Nat)
  | unknownType (code : UInt32)
  deriving DecidableEq

def RecordError.message : RecordError → String
  | .wrongSize size => s!"malformed index record: expected {Format.recordSize} bytes, got {size}"
  | .unknownType code => s!"unknown event type code {code}"

/-- Why an event was refused: its index record, its detail entry's place in the file, or the
entry's payload. -/
inductive DecodeError where
  | record (cause : RecordError)
  | recordAt (offset : UInt64) (cause : RecordError)
  | precedesSection (offset : Int64) (start : UInt64)
  | noLength (offset : Int64)
  | beyondFile (offset : Int64) (length : UInt32)
  | malformedJson (cause : String)
  | notObject
  | missingEvent
  | missingType
  | unsupportedType
  | missingField (field : String)
  | invalidField (field : String)
  | invalidFrame
  | stackNotList
  | memberNotObject (member : String)
  | other (text : String)
  deriving DecidableEq

def DecodeError.message : DecodeError → String
  | .record cause => cause.message
  | .recordAt offset cause => s!"{cause.message} at offset {offset}"
  | .precedesSection offset start =>
    s!"detail offset {offset} precedes detail section at {start}"
  | .noLength offset => s!"detail entry at {offset} has invalid length prefix"
  | .beyondFile offset length =>
    s!"detail entry at {offset} with {length} byte payload extends beyond file"
  | .malformedJson cause => s!"detail payload contains invalid JSON: {cause}"
  | .notObject => "detail payload must be a JSON object"
  | .missingEvent => "detail payload missing index_event"
  | .missingType => "detail payload missing event_type"
  | .unsupportedType => "unsupported event type in detail payload"
  | .missingField field => s!"detail index_event missing {field}"
  | .invalidField field => s!"detail index_event field {field} is invalid"
  | .invalidFrame => "detail payload contains invalid call_stack entry"
  | .stackNotList => "detail payload call_stack must be a list"
  | .memberNotObject member => s!"detail payload {member} must be an object"
  | .other text => text

inductive Closed where
  | reader
  | file
  deriving DecidableEq

def Closed.name : Closed → String
  | .reader => "ATF reader"
  | .file => "ATF file"

inductive Error where
  | mapping (cause : MappingError)
  | file (path : String) (cause : FileError)
  | header (cause : HeaderError)
  | manifest (cause : ManifestError)
  | decode (cause : DecodeError)
  | notOpen (subject : Closed)
  deriving DecidableEq

/-- The classes of errors that a caller tells apart. -/
inductive ErrorKind where
  | mapping
  | header
  | manifest
  | decode
  | notOpen
  deriving DecidableEq

namespace Error

def kind : Error → ErrorKind
  | mapping _ | file _ _ => .mapping
  | header _ => .header
  | manifest _ => .manifest
  | decode _ => .decode
  | notOpen _ => .notOpen

def message : Error → String
  | mapping cause => s!"memory map error: {cause.message}"
  | file path cause => s!"memory map error at {Text.quoted path}: {cause.message}"
  | header cause => s!"header validation error: {cause.message}"
  | manifest cause => s!"manifest parse error: {cause.message}"
  | decode cause => s!"event decode error: {cause.message}"
  | notOpen subject => s!"{subject.name} is not open"

/-- The text of the error behind this one; only the file system's errors stand behind others. -/
def source? : Error → Option String
  | file _ cause => some cause.message
  | _ => none

end Error

end TraceContainer
