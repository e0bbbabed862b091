import TraceContainer.Proofs.Layout
import TraceContainer.Proofs.Records
import TraceContainer.Proofs.Slices

/-! Operations that stop a program where they leave their range: sums and differences of words, and
accesses to bytes. Slices, headers and records that are read by such operations are those that are
read without them, and nothing stops on the way. -/
namespace TraceContainer

/-- Why an operation stops a program. -/
inductive Trap where
  | overflow
  | underflow
  | outOfBounds
  deriving DecidableEq

namespace Trapping

def add (left right : UInt64) : Except Trap UInt64 :=
  if left.toNat + right.toNat < UInt64.size then .ok (left + right) else .error .overflow

def sub (left right : UInt64) : Except Trap UInt64 :=
  if right ≤ left then .ok (left - right) else .error .underflow

def byteAt (bytes : ByteArray) (place : Nat) : Except Trap UInt8 :=
  if inside : place < bytes.size then .ok bytes[place] else .error .outOfBounds

def range (bytes : ByteArray) (start stop : Nat) : Except Trap ByteArray :=
  if start ≤ stop ∧ stop ≤ bytes.size then .ok (bytes.extract start stop) else .error .outOfBounds

/-- A little-endian number whose bytes are taken one by one. -/
def number (bytes : ByteArray) (start width : Nat) : Except Trap Nat := do
  return LittleEndian.value (← (List.range' start width).mapM (byteAt bytes))

/-- A little-endian number whose bytes are taken at once. -/
def wideNumber (bytes : ByteArray) (start width : Nat) : Except Trap Nat := do
  return LittleEndian.value (← range bytes start (start + width)).data.toList

theorem add_of_lt {left right : UInt64} (small : left.toNat + right.toNat < UInt64.size) :
    add left right = .ok (left + right) :=
  if_pos small

theorem sub_of_le {left right : UInt64} (ordered : right ≤ left) :
    sub left right = .ok (left - right) :=
  if_pos ordered

theorem byteAt_of_lt {bytes : ByteArray} {place : Nat} (inside : place < bytes.size) :
    byteAt bytes place = .ok bytes[place] :=
  dif_pos inside

theorem range_of_le {bytes : ByteArray} {start stop : Nat} (ordered : start ≤ stop)
    (inside : stop ≤ bytes.size) : range bytes start stop = .ok (bytes.extract start stop) :=
  if_pos ⟨ordered, inside⟩

theorem mapM_byteAt {bytes : ByteArray} {start width : Nat} (inside : start + width ≤ bytes.size) :
    (List.range' start width).mapM (byteAt bytes) =
      .ok ((bytes.data.toList.drop start).take width) := by
  induction width generalizing start with
  | zero => rfl
  | succ width ih =>
    have first : start < bytes.data.toList.length := by
      rw [Array.length_toList, ByteArray.size_data]
      omega
    rw [List.range'_succ, List.mapM_cons, byteAt_of_lt (by omega), bind_ok, ih (by omega), bind_ok,
      List.drop_eq_getElem_cons first, List.take_succ_cons]
    rfl

section Numbers

variable {bytes : ByteArray} {start width value : Nat}
  (found : Binary.number? bytes start width = some value)

include found

theorem number_of_some : number bytes start width = .ok value := by
  obtain ⟨part, window, same⟩ := Option.map_eq_some_iff.mp found
  obtain ⟨_, inside, rfl⟩ := Binary.window?_eq_some_iff.mp window
  rw [ByteArray.data_extract, Array.toList_extract, List.extract_eq_take_drop,
    Nat.add_sub_cancel_left] at same
  rw [number, mapM_byteAt inside, bind_ok, same]
  rfl

theorem wideNumber_of_some : wideNumber bytes start width = .ok value := by
  obtain ⟨part, window, same⟩ := Option.map_eq_some_iff.mp found
  obtain ⟨ordered, inside, rfl⟩ := Binary.window?_eq_some_iff.mp window
  rw [wideNumber, range_of_le ordered inside, bind_ok, same]
  rfl

end Numbers

/-- Only the end of a slice is compared, and only with the size that is kept beside the bytes. -/
def slice (map : MemoryMap) (offset size : UInt64) : Except Trap (Except Error ByteArray) :=
  match map.bytes? with
  | none => return .error (.notOpen .file)
  | some bytes =>
    match Binary.sum? offset size with
    | none => return .error (.mapping .rangeOverflow)
    | some stop =>
      if map.size < stop.toNat then
        return .error (.mapping (.outOfRange offset.toNat stop.toNat map.size))
      else return .ok (← range bytes offset.toNat stop.toNat)

/-- That the size is the number of bytes keeps a slice from leaving them. -/
theorem slice_eq {map : MemoryMap} (coherent : map.Coherent) (offset size : UInt64) :
    slice map offset size = .ok (map.slice offset size) := by
  rw [slice, MemoryMap.slice]
  cases held : map.bytes? with
  | none => rfl
  | some bytes =>
    have counted := coherent.size_eq held
    cases sum : Binary.sum? offset size with
    | none => rfl
    | some stop =>
      have total := (Binary.sum?_eq_some_iff offset size stop).mp sum
      have ordered : offset.toNat ≤ stop.toNat := total ▸ Nat.le_add_right _ _
      by_cases inside : stop.toNat ≤ bytes.size
      · simp only [counted, Nat.not_lt.mpr inside, if_false, range_of_le ordered inside, bind_ok]
        rfl
      · simp only [counted, Nat.lt_of_not_le inside, if_true]
        rfl

def readHeader (bytes : ByteArray) : Except Trap Header := do
  return {
    magic := .ofNat (← number bytes 0 4)
    version := .ofNat (← number bytes 4 2)
    flags := .ofNat (← number bytes 6 2)
    manifestLength := .ofNat (← wideNumber bytes 8 8)
    indexOffset := .ofNat (← wideNumber bytes 16 8)
    indexCount := .ofNat (← wideNumber bytes 24 8)
    detailOffset := .ofNat (← wideNumber bytes 32 8) }

def decodeHeader (bytes : ByteArray) : Except Trap (Except HeaderError Header) := do
  if bytes.size < Format.headerSize.toNat then return .error (.tooShort bytes.size)
  else return .ok (← readHeader bytes)

theorem readHeader_eq {bytes : ByteArray} {header : Header}
    (found : Header.read? bytes = some header) : readHeader bytes = .ok header := by
  obtain ⟨magic, version, flags, manifestLength, indexOffset, indexCount, detailOffset⟩ :=
    Header.read?_eq_some_iff.mp found
  simp only [readHeader, number_of_some magic, number_of_some version, number_of_some flags,
    wideNumber_of_some manifestLength, wideNumber_of_some indexOffset,
    wideNumber_of_some indexCount, wideNumber_of_some detailOffset, bind_ok, UInt32.ofNat_toNat,
    UInt16.ofNat_toNat, UInt64.ofNat_toNat]
  rfl

theorem decodeHeader_eq (bytes : ByteArray) :
    decodeHeader bytes = .ok (Header.decode bytes) := by
  have size : Format.headerSize.toNat = 40 := rfl
  rw [decodeHeader, Header.decode, size]
  by_cases short : bytes.size < 40
  · have absent : Header.read? bytes = none := by
      cases found : Header.read? bytes with
      | none => rfl
      | some header => exact absurd (Header.size_of_read? found) (Nat.not_le.mpr short)
    rw [if_pos short, absent]
    rfl
  · obtain ⟨header, found⟩ := Header.exists_read? (Nat.le_of_not_lt short)
    rw [if_neg short, readHeader_eq found, found]
    rfl

/-- The sections that a header names. The sums and products by which they are validated refuse to
wrap around, so that none of them stops. -/
def readLayout (bytes : ByteArray) (fileSize : Nat) : Except Trap (Except HeaderError Layout) := do
  return (← decodeHeader bytes).bind (·.validate fileSize)

theorem readLayout_eq (bytes : ByteArray) (fileSize : Nat) :
    readLayout bytes fileSize = .ok ((Header.decode bytes).bind (·.validate fileSize)) := by
  rw [readLayout, decodeHeader_eq, bind_ok]
  rfl

/-- The type of a record is decided before its other words are taken. -/
def decodeEvent (bytes : ByteArray) : Except Trap (Except RecordError Event) := do
  if bytes.size ≠ Format.recordSize.toNat then return .error (.wrongSize bytes.size)
  else
    let typeCode := UInt32.ofNat (← number bytes 16 4)
    match EventType.ofCode? typeCode with
    | none => return .error (.unknownType typeCode)
    | some type => return .ok {
        timestamp := .ofNat (← wideNumber bytes 0 8)
        threadId := .ofNat (← number bytes 8 4)
        functionId := .ofNat (← number bytes 12 4)
        type
        detailOffset := (UInt64.ofNat (← wideNumber bytes 20 8)).toInt64
        flags := .ofNat (← number bytes 28 4) }

theorem decodeEvent_eq (bytes : ByteArray) : decodeEvent bytes = .ok (Event.decode bytes) := by
  have size : Format.recordSize.toNat = 32 := rfl
  rw [decodeEvent, Event.decode, size]
  by_cases exact : bytes.size = 32
  · obtain ⟨record, found⟩ := IndexRecord.exists_read? exact
    obtain ⟨_, timestamp, threadId, functionId, typeCode, detailOffset, flags⟩ :=
      IndexRecord.read?_eq_some_iff.mp found
    simp only [exact, ne_eq, not_true_eq_false, if_false, number_of_some typeCode, bind_ok,
      UInt32.ofNat_toNat, found, Event.ofRecord]
    cases EventType.ofCode? record.typeCode with
    | none => rfl
    | some type =>
      simp only [wideNumber_of_some timestamp, number_of_some threadId,
        number_of_some functionId, wideNumber_of_some detailOffset, number_of_some flags, bind_ok,
        UInt32.ofNat_toNat, UInt64.ofNat_toNat]
      rfl
  · have absent : IndexRecord.read? bytes = none := if_neg exact
    rw [if_pos exact, absent]
    rfl

end Trapping

end TraceContainer
