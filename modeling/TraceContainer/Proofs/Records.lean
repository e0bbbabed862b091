import TraceContainer.Event
import TraceContainer.Proofs.Bytes

namespace TraceContainer

theorem EventType.ofCode?_eq_none_iff {code : UInt32} : ofCode? code = none ↔ 6 < code.toNat := by
  rw [ofCode?, List.find?_eq_none]
  simp only [all, List.mem_cons, List.not_mem_nil, or_false, forall_eq_or_imp, forall_eq,
    EventType.code, decide_eq_true_eq, ← UInt32.toNat_inj]
  constructor
  · intro unknown
    simp only [UInt32.reduceToNat] at unknown
    omega
  · intro large
    simp only [UInt32.reduceToNat]
    omega

namespace IndexRecord

theorem read?_eq_some_iff {bytes : ByteArray} {record : IndexRecord} :
    read? bytes = some record ↔ bytes.size = 32 ∧
      Binary.number? bytes 0 8 = some record.timestamp.toNat ∧
      Binary.number? bytes 8 4 = some record.threadId.toNat ∧
      Binary.number? bytes 12 4 = some record.functionId.toNat ∧
      Binary.number? bytes 16 4 = some record.typeCode.toNat ∧
      Binary.number? bytes 20 8 = some record.detailOffset.toNat ∧
      Binary.number? bytes 28 4 = some record.flags.toNat := by
  have size : Format.recordSize.toNat = 32 := rfl
  rw [read?, size]
  split
  · rename_i long
    simp only [long, true_and, Option.bind_eq_bind, Option.bind_eq_some_iff, Option.pure_def,
      Option.some.injEq]
    constructor
    · rintro ⟨timestamp, atTimestamp, threadId, atThreadId, functionId, atFunctionId, typeCode,
        atTypeCode, detailOffset, atDetailOffset, flags, atFlags, rfl⟩
      exact ⟨Binary.number?_word64 atTimestamp, Binary.number?_word32 atThreadId,
        Binary.number?_word32 atFunctionId, Binary.number?_word32 atTypeCode,
        Binary.number?_word64 atDetailOffset, Binary.number?_word32 atFlags⟩
    · rintro ⟨timestamp, threadId, functionId, typeCode, detailOffset, flags⟩
      refine ⟨_, timestamp, _, threadId, _, functionId, _, typeCode, _, detailOffset, _, flags, ?_⟩
      simp only [UInt32.ofNat_toNat, UInt64.ofNat_toNat]
  · rename_i other
    simp [other]

theorem exists_read? {bytes : ByteArray} (size : bytes.size = 32) :
    ∃ record, read? bytes = some record := by
  have field (start width : Nat) (inside : start + width ≤ 32) :
      ∃ number, Binary.number? bytes start width = some number :=
    Binary.exists_number? (size ▸ inside)
  obtain ⟨timestamp, atTimestamp⟩ := field 0 8 (by decide)
  obtain ⟨threadId, atThreadId⟩ := field 8 4 (by decide)
  obtain ⟨functionId, atFunctionId⟩ := field 12 4 (by decide)
  obtain ⟨typeCode, atTypeCode⟩ := field 16 4 (by decide)
  obtain ⟨detailOffset, atDetailOffset⟩ := field 20 8 (by decide)
  obtain ⟨flags, atFlags⟩ := field 28 4 (by decide)
  exact ⟨⟨.ofNat timestamp, .ofNat threadId, .ofNat functionId, .ofNat typeCode,
    .ofNat detailOffset, .ofNat flags⟩, read?_eq_some_iff.mpr ⟨size,
    Binary.number?_word64 atTimestamp, Binary.number?_word32 atThreadId,
    Binary.number?_word32 atFunctionId, Binary.number?_word32 atTypeCode,
    Binary.number?_word64 atDetailOffset, Binary.number?_word32 atFlags⟩⟩

theorem size_encode (record : IndexRecord) : record.encode.size = 32 := by
  simp [encode]

theorem read?_encode (record : IndexRecord) : read? record.encode = some record := by
  rw [read?_eq_some_iff]
  refine ⟨record.size_encode, ?_⟩
  simp only [encode, Binary.pack_append]
  simp (disch := simp) only [Binary.number?_append, Binary.number?_last, Binary.number?_pack,
    Binary.word32_mod, Binary.word64_mod, and_self]

end IndexRecord

theorem Event.size_encode (event : Event) : event.encode.size = 32 :=
  event.toRecord.size_encode

theorem Event.decode_encode (event : Event) : decode event.encode = .ok event := by
  rw [decode, encode, IndexRecord.read?_encode]
  simp only [ofRecord, toRecord, EventType.ofCode?_code, Int64.toInt64_toUInt64]

/-- A record is an event unless its type code is unknown; nothing else can be wrong with it. -/
theorem Event.decode_window {source : ByteArray} {start : Nat} (inside : start + 32 ≤ source.size) :
    ∃ code : UInt32, Binary.number? source (start + 16) 4 = some code.toNat ∧
      ((6 < code.toNat ∧
        Event.decode (source.extract start (start + 32)) = .error (.unknownType code)) ∨
      (code.toNat ≤ 6 ∧ ∃ event, Event.decode (source.extract start (start + 32)) = .ok event)) := by
  have size : (source.extract start (start + 32)).size = 32 := by
    rw [ByteArray.size_extract, Nat.min_eq_left inside, Nat.add_sub_cancel_left]
  obtain ⟨record, found⟩ := IndexRecord.exists_read? size
  obtain ⟨_, _, _, _, typeCode, _, _⟩ := IndexRecord.read?_eq_some_iff.mp found
  rw [Binary.number?_extract (by omega) inside (by omega)] at typeCode
  refine ⟨record.typeCode, typeCode, ?_⟩
  rw [decode, found]
  simp only [ofRecord]
  cases type : EventType.ofCode? record.typeCode with
  | none => exact .inl ⟨EventType.ofCode?_eq_none_iff.mp type, rfl⟩
  | some type =>
    have known : ¬ 6 < record.typeCode.toNat := fun large => by
      rw [EventType.ofCode?_eq_none_iff.mpr large] at type
      cases type
    exact .inr ⟨by omega, _, rfl⟩

end TraceContainer
