import TraceContainer.Reader
import TraceContainer.Proofs.Scanning
import TraceContainer.Proofs.Trapping.Bytes

namespace TraceContainer

theorem MemoryMap.size_of_slice {map : MemoryMap} (coherent : map.Coherent) {offset size : UInt64}
    {bytes : ByteArray} (found : map.slice offset size = .ok bytes) :
    bytes.size = size.toNat := by
  rw [slice] at found
  split at found
  · cases found
  rename_i whole held
  split at found
  · cases found
  rename_i stop sum
  split at found
  · cases found
  rename_i inside
  cases found
  have total := (Binary.sum?_eq_some_iff offset size stop).mp sum
  rw [coherent.size_eq held, Nat.not_lt] at inside
  rw [ByteArray.size_extract, Nat.min_eq_left inside, total, Nat.add_sub_cancel_left]

namespace Scan

def Bounded (scan : Scan) : Prop :=
  scan.position ≤ scan.count

theorem Bounded.advance {scan : Scan} (bounded : scan.Bounded) {records : Nat}
    (left : scan.remaining = records) : (advance records scan).2.Bounded := by
  induction records generalizing scan with
  | zero => exact bounded
  | succ records ih =>
    have position := toNat_position_succ (show 0 < scan.remaining by omega)
    have further : { scan with position := scan.position + 1 }.Bounded := by
      rw [remaining] at left
      rw [Bounded, UInt64.le_iff_toNat_le, position]
      change _ ≤ scan.count.toNat
      omega
    rw [Scan.advance]
    cases scan.eventAt scan.position with
    | error error => exact UInt64.le_refl scan.count
    | ok event =>
      cases kept : scan.filter.keeps event with
      | true =>
        simp only [kept, if_true]
        exact further
      | false =>
        simp only [kept, Bool.false_eq_true, if_false]
        exact ih further (remaining_succ left)

/-- Calls to `next` keep a scan bounded, also those that find an error. -/
theorem Bounded.behind {scan : Scan} (bounded : scan.Bounded) (calls : Nat) :
    (behind calls scan).Bounded := by
  induction calls generalizing scan with
  | zero => exact bounded
  | succ calls ih => exact ih (bounded.advance rfl)

end Scan

namespace Trapping

section Details

def lengthAt (file : MappedFile) (offset : Int64) : Except Trap (Except Error UInt32) := do
  match ← slice file.toMemoryMap offset.toUInt64 Format.lengthSize with
  | .error (.notOpen subject) => return .error (.notOpen subject)
  | .error _ => return .error (.decode (.noLength offset))
  | .ok bytes => return .ok (.ofNat (← number bytes 0 4))

/-- Both ends of the payload are computed before one of them is compared with the size of the
file. -/
def entryAt (file : MappedFile) (sectionStart : UInt64) (offset : Int64) :
    Except Trap (Except Error DetailEntry) := do
  if offset < 0 ∨ offset.toUInt64 < sectionStart then
    return .error (.decode (.precedesSection offset sectionStart))
  else
    match ← lengthAt file offset with
    | .error error => return .error error
    | .ok length =>
      let payloadStart ← add offset.toUInt64 Format.lengthSize
      let payloadEnd ← add payloadStart length.toUInt64
      if file.size < payloadEnd.toNat then return .error (.decode (.beyondFile offset length))
      else
        match ← slice file.toMemoryMap payloadStart length.toUInt64 with
        | .error error => return .error error
        | .ok payload => return .ok { length, payload }

def detailAt (file : MappedFile) (decoder : Json.Decoder) (sectionStart : UInt64)
    (offset : Int64) : Except Trap (Reported (Except Error Detail)) := do
  match ← entryAt file sectionStart offset with
  | .error error => return { answer := .error error }
  | .ok entry => return {
      answer := (Detail.decode decoder entry.payload offset).mapError .decode
      events := [.resolving offset entry.length] }

/-- An offset that is not negative leaves room for a length and for as many bytes as it counts. -/
theorem add_payload {offset : Int64} (nonnegative : 0 ≤ offset) (length : UInt32) :
    let payloadStart := offset.toUInt64 + Format.lengthSize
    add offset.toUInt64 Format.lengthSize = .ok payloadStart ∧
      add payloadStart length.toUInt64 = .ok (payloadStart + length.toUInt64) := by
  intro payloadStart
  have place : offset.toUInt64.toNat < 2 ^ 63 := by
    have bound := offset.toInt_lt
    rw [Int64.toNat_toUInt64_of_le nonnegative, Int64.toNatClampNeg]
    omega
  have size : Format.lengthSize.toNat = 4 := rfl
  have short := length.toNat_lt
  have start : payloadStart.toNat = offset.toUInt64.toNat + 4 := by
    rw [UInt64.toNat_add, size, Nat.mod_eq_of_lt (by omega)]
  constructor
  · apply add_of_lt
    rw [size, UInt64.size]
    omega
  · apply add_of_lt
    rw [start, length.toNat_toUInt64, UInt64.size]
    omega

variable (file : MappedFile) (sectionStart : UInt64) (offset : Int64)

theorem lengthAt_eq : lengthAt file offset = .ok (file.lengthAt offset) := by
  rw [lengthAt, MappedFile.lengthAt, slice_eq file.coherent, bind_ok]
  cases found : file.slice offset.toUInt64 Format.lengthSize with
  | error error => cases error <;> rfl
  | ok bytes =>
    have size : bytes.size = 4 := MemoryMap.size_of_slice file.coherent found
    obtain ⟨length, counted⟩ : ∃ length, Binary.number? bytes 0 4 = some length :=
      Binary.exists_number? (by omega)
    simp only [number_of_some counted, bind_ok, counted]
    rfl

theorem entryAt_eq : entryAt file sectionStart offset = .ok (file.entryAt sectionStart offset) := by
  rw [entryAt, MappedFile.entryAt]
  by_cases precedes : offset < 0 ∨ offset.toUInt64 < sectionStart
  · rw [if_pos precedes, if_pos precedes]
    rfl
  · have nonnegative : 0 ≤ offset := Int64.not_lt.mp fun negative => precedes (.inl negative)
    rw [if_neg precedes, if_neg precedes, lengthAt_eq, bind_ok]
    cases file.lengthAt offset with
    | error error => rfl
    | ok length =>
      obtain ⟨payloadStart, payloadEnd⟩ := add_payload nonnegative length
      simp only [payloadStart, payloadEnd, bind_ok, slice_eq file.coherent]
      by_cases beyond :
          file.size < (offset.toUInt64 + Format.lengthSize + length.toUInt64).toNat
      · rw [if_pos beyond, if_pos beyond]
        rfl
      · rw [if_neg beyond, if_neg beyond]
        cases file.slice (offset.toUInt64 + Format.lengthSize) length.toUInt64 <;> rfl

theorem detailAt_eq (decoder : Json.Decoder) :
    detailAt file decoder sectionStart offset =
      .ok (file.detailAt decoder sectionStart offset) := by
  rw [detailAt, MappedFile.detailAt, entryAt_eq, bind_ok]
  cases file.entryAt sectionStart offset <;> rfl

end Details

def readContents (decoder : Json.Decoder) (file : MappedFile) :
    Except Trap (Except Error Contents) := do
  match ← slice file.toMemoryMap 0 (.ofNat (min Format.headerSize.toNat file.size)) with
  | .error error => return .error error
  | .ok headerBytes =>
    match ← readLayout headerBytes file.size with
    | .error cause => return .error (.header cause)
    | .ok layout =>
      match ← slice file.toMemoryMap layout.manifestOffset layout.manifestLength with
      | .error error => return .error error
      | .ok manifestBytes =>
        return ((Manifest.decode decoder manifestBytes).mapError .manifest).map fun manifest =>
          { layout, manifest := manifest.withCount layout.indexCount }

theorem readContents_eq (decoder : Json.Decoder) (file : MappedFile) :
    readContents decoder file = .ok (Reader.readContents decoder file) := by
  rw [readContents, Reader.readContents, slice_eq file.coherent, bind_ok]
  cases file.slice 0 (.ofNat (min Format.headerSize.toNat file.size)) with
  | error error => rfl
  | ok headerBytes =>
    simp only [readLayout_eq, bind_ok, slice_eq file.coherent]
    cases Header.decode headerBytes with
    | error cause => rfl
    | ok header =>
      simp only [mapError_ok, bind_ok, Except.bind]
      cases header.validate file.size with
      | error cause => rfl
      | ok layout =>
        simp only [mapError_ok, bind_ok]
        cases file.slice layout.manifestOffset layout.manifestLength with
        | error error => rfl
        | ok manifestBytes =>
          simp only [bind_ok]
          cases Manifest.decode decoder manifestBytes <;> rfl

section Scans

def eventAt (scan : Scan) (position : UInt64) : Except Trap (Except Error Event) :=
  match scan.recordOffset? position with
  | none => return .error (.mapping .recordOverflow)
  | some offset => do
    match ← slice scan.file.toMemoryMap offset Format.recordSize with
    | .error error => return .error error
    | .ok bytes =>
      return (← decodeEvent bytes).mapError fun cause => .decode (.recordAt offset cause)

/-- The position moves before the record that it named is examined. -/
def advance : Nat → Scan → Except Trap (Option (Except Error Event) × Scan)
  | 0, scan => return (none, scan)
  | records + 1, scan => do
    let position ← add scan.position 1
    match ← eventAt scan scan.position with
    | .error error => return (some (.error error), { scan with position := scan.count })
    | .ok event =>
      let later := { scan with position }
      if scan.filter.keeps event then return (some (.ok event), later) else advance records later

def next (scan : Scan) : Except Trap (Option (Except Error Event) × Scan) :=
  advance scan.remaining scan

def sizeHint (scan : Scan) : Except Trap (Nat × Nat) := do
  let remaining ← sub scan.count scan.position
  return (if scan.filter.isActive then 0 else remaining.toNat, remaining.toNat)

/-- Counts the items of up to a number of calls to `next`, unless one of them is an error. -/
def countItems : Nat → Scan → UInt64 → Except Trap (Except Error UInt64)
  | 0, _, count => return .ok count
  | calls + 1, scan, count => do
    match ← next scan with
    | (none, _) => return .ok count
    | (some (.error error), _) => return .error error
    | (some (.ok _), later) => countItems calls later (← add count 1)

def estimate (reader : Reader) (timeRange? : Option TimeRange) :
    Except Trap (Except Error UInt64) :=
  match reader.contents with
  | .error error => return .error error
  | .ok contents =>
    match timeRange? with
    | none => return .ok contents.layout.indexCount
    | some _ =>
      match reader.scan ⟨timeRange?, []⟩ with
      | .error error => return .error error
      | .ok scan => countItems scan.remaining scan 0

theorem eventAt_eq (scan : Scan) (position : UInt64) :
    eventAt scan position = .ok (scan.eventAt position) := by
  rw [eventAt, Scan.eventAt]
  cases scan.recordOffset? position with
  | none => rfl
  | some offset =>
    simp only [slice_eq scan.file.coherent, bind_ok]
    cases scan.file.slice offset Format.recordSize with
    | error error => rfl
    | ok bytes =>
      simp only [decodeEvent_eq, bind_ok]
      rfl

theorem advance_eq (scan : Scan) {records : Nat} (left : scan.remaining = records) :
    advance records scan = .ok (Scan.advance records scan) := by
  -- While a record is left, the position is below the number of records, which is a word itself.
  induction records generalizing scan with
  | zero => rfl
  | succ records ih =>
    have position := Scan.toNat_position_succ (show 0 < scan.remaining by omega)
    have moved : add scan.position 1 = .ok (scan.position + 1) := by
      apply add_of_lt
      rw [UInt64.toNat_one, ← position]
      exact (scan.position + 1).toNat_lt
    rw [advance, Scan.advance, moved, bind_ok, eventAt_eq, bind_ok]
    cases scan.eventAt scan.position with
    | error error => rfl
    | ok event =>
      cases kept : scan.filter.keeps event with
      | true =>
        simp only [kept, if_true]
        rfl
      | false =>
        simp only [kept, Bool.false_eq_true, if_false]
        exact ih { scan with position := scan.position + 1 } (Scan.remaining_succ left)

theorem next_eq (scan : Scan) : next scan = .ok scan.next :=
  advance_eq scan rfl

theorem sizeHint_eq {scan : Scan} (bounded : scan.Bounded) :
    sizeHint scan = .ok scan.sizeHint := by
  have left : (scan.count - scan.position).toNat = scan.remaining :=
    UInt64.toNat_sub_of_le _ _ bounded
  rw [sizeHint, sub_of_le bounded, bind_ok, left]
  rfl

/-- A scan that had passed its last record would stop the program. -/
example (file : MappedFile) (filter : EventFilter) :
    sizeHint { file, indexOffset := 0, count := 2, filter, position := 3 } = .error .underflow :=
  rfl

/-- Items are counted without a carry as long as the count has room for all records left. -/
theorem countItems_eq (calls : Nat) (scan : Scan) {count : UInt64}
    (room : count.toNat + scan.remaining < UInt64.size) :
    countItems calls scan count = .ok ((Scan.take calls scan).foldlM
      (fun (count : UInt64) item => item.map fun _ => count + 1) count) := by
  -- What the count gains by an item, the scan loses in records at least.
  induction calls generalizing scan count with
  | zero => rfl
  | succ calls ih =>
    rw [countItems, Scan.take, next_eq, bind_ok]
    obtain ⟨position, ⟨ended, _⟩ | ⟨item, found, _, fewer⟩⟩ := scan.next_spec
    · simp only [ended]
      rfl
    · simp only [found]
      cases item with
      | error error => rfl
      | ok event =>
        have small : count.toNat + 1 < UInt64.size := by omega
        have sum : (count + 1).toNat = count.toNat + 1 := by
          rw [UInt64.toNat_add, UInt64.toNat_one, Nat.mod_eq_of_lt small]
        have counted : add count 1 = .ok (count + 1) := add_of_lt small
        simp only [counted, bind_ok]
        apply ih
        omega

theorem estimate_eq (reader : Reader) (timeRange? : Option TimeRange) :
    estimate reader timeRange? = .ok (reader.estimate timeRange?) := by
  rw [estimate, Reader.estimate]
  cases found : reader.contents with
  | error error => rfl
  | ok contents =>
    cases timeRange? with
    | none => rfl
    | some range =>
      simp only [bind_ok, Reader.scan, found, Except.map]
      apply countItems_eq
      exact Nat.lt_of_le_of_lt (by simp [Scan.remaining]) contents.layout.indexCount.toNat_lt

end Scans

/-- Nothing that is read of a file stops at an operation that leaves its range, and everything is
what it is without such operations: slices anywhere, headers and records of any bytes, what a file
holds when it is opened, details at any offset of any section, and the items, hints and counts of
scans over any index, however far they have come. -/
theorem never_stops (file : MappedFile) (decoder : Json.Decoder) :
    (∀ offset size, slice file.toMemoryMap offset size = .ok (file.slice offset size)) ∧
    (∀ bytes fileSize,
      readLayout bytes fileSize = .ok ((Header.decode bytes).bind (·.validate fileSize))) ∧
    (∀ bytes, decodeEvent bytes = .ok (Event.decode bytes)) ∧
    readContents decoder file = .ok (Reader.readContents decoder file) ∧
    (∀ sectionStart offset,
      detailAt file decoder sectionStart offset =
        .ok (file.detailAt decoder sectionStart offset)) ∧
    (∀ indexOffset count filter calls,
      let scan := Scan.behind calls { file, indexOffset, count, filter }
      next scan = .ok scan.next ∧ sizeHint scan = .ok scan.sizeHint) ∧
    ∀ contents? timeRange?,
      let reader : Reader := ⟨file, contents?⟩
      estimate reader timeRange? = .ok (reader.estimate timeRange?) := by
  refine ⟨slice_eq file.coherent, readLayout_eq, decodeEvent_eq, readContents_eq decoder file,
    fun sectionStart offset => detailAt_eq file sectionStart offset decoder, ?_,
    fun contents? => estimate_eq ⟨file, contents?⟩⟩
  intro indexOffset count filter calls scan
  have start : Scan.Bounded { file, indexOffset, count, filter } := UInt64.zero_le
  exact ⟨next_eq scan, sizeHint_eq (start.behind calls)⟩

end Trapping

end TraceContainer
