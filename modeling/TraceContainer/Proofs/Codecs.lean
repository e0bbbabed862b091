import TraceContainer.Proofs.Layout
import TraceContainer.Proofs.Records

/-! Records and headers against the bytes that hold them. Their fields lie side by side, each read
in full and written to the place that it was read from, so that nothing is lost in either
direction. -/
namespace TraceContainer

theorem IndexRecord.encode_of_read? {bytes : ByteArray} {record : IndexRecord}
    (found : read? bytes = some record) : record.encode = bytes := by
  obtain ⟨size, timestamp, threadId, functionId, typeCode, detailOffset, flags⟩ :=
    read?_eq_some_iff.mp found
  simp only [encode, Binary.pack_append, Binary.pack_of_number? timestamp,
    Binary.pack_of_number? threadId, Binary.pack_of_number? functionId,
    Binary.pack_of_number? typeCode, Binary.pack_of_number? detailOffset,
    Binary.pack_of_number? flags]
  simpa [ByteArray.extract_append_extract] using Binary.extract_whole size

theorem Header.encode_of_read? {bytes : ByteArray} {header : Header}
    (found : read? bytes = some header) : header.encode = bytes.extract 0 40 := by
  obtain ⟨magic, version, flags, manifestLength, indexOffset, indexCount, detailOffset⟩ :=
    read?_eq_some_iff.mp found
  simp only [encode, Binary.pack_append, Binary.pack_of_number? magic,
    Binary.pack_of_number? version, Binary.pack_of_number? flags,
    Binary.pack_of_number? manifestLength, Binary.pack_of_number? indexOffset,
    Binary.pack_of_number? indexCount, Binary.pack_of_number? detailOffset]
  simp [ByteArray.extract_append_extract]

namespace Event

/-- An event is what a record says of it, and nothing of the record is left over. -/
theorem ofRecord_eq_ok_iff {record : IndexRecord} {event : Event} :
    ofRecord record = .ok event ↔ event.toRecord = record := by
  constructor
  · intro success
    unfold ofRecord at success
    split at success
    · cases success
    · rename_i type known
      cases success
      simp only [toRecord, EventType.code_eq_of_ofCode? known, UInt64.toUInt64_toInt64]
  · rintro rfl
    simp only [ofRecord, toRecord, EventType.ofCode?_code, Int64.toInt64_toUInt64]

theorem decode_eq_ok_iff {bytes : ByteArray} {event : Event} :
    decode bytes = .ok event ↔ event.encode = bytes := by
  constructor
  · intro success
    unfold decode at success
    split at success
    · cases success
    · rename_i record found
      rw [encode, ofRecord_eq_ok_iff.mp success]
      exact IndexRecord.encode_of_read? found
  · rintro rfl
    exact event.decode_encode

/-- Nothing but its size and its type code can be wrong with a record. -/
theorem exists_decode_iff {bytes : ByteArray} :
    (∃ event, decode bytes = .ok event) ↔
      bytes.size = 32 ∧ ∃ code ≤ 6, Binary.number? bytes 16 4 = some code := by
  have cases (size : bytes.size = 32) := @decode_window bytes 0 (Nat.le_of_eq size.symm)
  simp only [Nat.zero_add] at cases
  constructor
  · rintro ⟨event, success⟩
    have size : bytes.size = 32 := by
      rw [← decode_eq_ok_iff.mp success]
      exact event.size_encode
    obtain ⟨code, found, ⟨_, failure⟩ | ⟨known, _⟩⟩ := cases size
    · rw [Binary.extract_whole size, success] at failure
      cases failure
    · exact ⟨size, code.toNat, known, found⟩
  · rintro ⟨size, code, known, found⟩
    obtain ⟨word, again, ⟨unknown, _⟩ | ⟨_, success⟩⟩ := cases size
    · rw [found, Option.some.injEq] at again
      omega
    · rwa [Binary.extract_whole size] at success

theorem toNat_twosComplement (number : Int64) :
    number.toUInt64.toNat = (number.toInt % 2 ^ 64).toNat := by
  have bound := number.toUInt64.toNat_lt
  have same : number.toInt = (number.toUInt64.toNat : Int).bmod (2 ^ 64) := by
    rw [← Int64.toInt_toBitVec, BitVec.toInt_eq_toNat_bmod]
    rfl
  have residue : number.toInt % (2 ^ 64 : Nat) = number.toUInt64.toNat % (2 ^ 64 : Nat) := by
    rw [same, Int.bmod_emod]
  omega

end Event

theorem Header.exists_decode_iff {bytes : ByteArray} :
    (∃ header, decode bytes = .ok header) ↔ 40 ≤ bytes.size := by
  constructor
  · rintro ⟨header, success⟩
    exact size_of_read? (decode_eq_ok_iff.mp success)
  · intro long
    obtain ⟨header, found⟩ := exists_read? long
    exact ⟨header, decode_eq_ok_iff.mpr found⟩

/-- An index record is 32 bytes with a known type code, and a header is at least 40 bytes, of any
values. What is read from them and written again, field by field, are the same bytes, and what is
written and read again is the same event or header, whatever stands behind the header. -/
theorem codecs_lossless :
    (∀ event : Event, event.encode = Binary.pack (
      LittleEndian.bytes 8 event.timestamp.toNat ++ LittleEndian.bytes 4 event.threadId.toNat ++
      LittleEndian.bytes 4 event.functionId.toNat ++ LittleEndian.bytes 4 event.type.code.toNat ++
      LittleEndian.bytes 8 (event.detailOffset.toInt % 2 ^ 64).toNat ++
      LittleEndian.bytes 4 event.flags.toNat)) ∧
    (∀ bytes, (∃ event, Event.decode bytes = .ok event) ↔
      bytes.size = 32 ∧ ∃ code ≤ 6, Binary.number? bytes 16 4 = some code) ∧
    (∀ bytes event, Event.decode bytes = .ok event ↔ event.encode = bytes) ∧
    (∀ header : Header, header.encode = Binary.pack (
      LittleEndian.bytes 4 header.magic.toNat ++ LittleEndian.bytes 2 header.version.toNat ++
      LittleEndian.bytes 2 header.flags.toNat ++ LittleEndian.bytes 8 header.manifestLength.toNat ++
      LittleEndian.bytes 8 header.indexOffset.toNat ++
      LittleEndian.bytes 8 header.indexCount.toNat ++
      LittleEndian.bytes 8 header.detailOffset.toNat)) ∧
    (∀ bytes, (∃ header, Header.decode bytes = .ok header) ↔ 40 ≤ bytes.size) ∧
    (∀ bytes header, Header.decode bytes = .ok header → header.encode = bytes.extract 0 40) ∧
    (∀ (header : Header) rest, Header.decode (header.encode ++ rest) = .ok header) := by
  refine ⟨?_, fun _ => Event.exists_decode_iff, fun _ _ => Event.decode_eq_ok_iff, fun _ => rfl,
    fun _ => Header.exists_decode_iff, ?_, ?_⟩
  · intro event
    rw [← Event.toNat_twosComplement]
    rfl
  · intro bytes header success
    exact Header.encode_of_read? (Header.decode_eq_ok_iff.mp success)
  · intro header rest
    exact Header.decode_eq_ok_iff.mpr (header.read?_encode rest)

end TraceContainer
