import TraceContainer.Detail
import TraceContainer.Proofs.Json.Denoted
import TraceContainer.Proofs.Json.Integer
import TraceContainer.Proofs.Records
import TraceContainer.Proofs.Results

/-! Which payloads are details, and of which detail each is the payload. Both are said of the
members of a JSON object alone, field by field, and with integers of any size. -/
namespace TraceContainer

namespace Members

def Denotes (members : Members) (key : String) (number : Int) : Prop :=
  ∃ value, present? members key = some value ∧ value.Denotes number

/-- Under a key stands an integer, or nothing and the integer is a given other one. -/
def DenotesOr (members : Members) (key : String) (absent number : Int) : Prop :=
  Denotes members key number ∨ present? members key = none ∧ number = absent

end Members

/-- The values that stand for an event type: its name, and its code as a number that was kept as an
integer. -/
inductive EventType.GivenBy (type : EventType) : Json → Prop where
  | name : GivenBy type (.string type.name)
  | code : GivenBy type (.ofWord type.code.toUInt64)

/-- The event that the members of an object denote. Where they name no offset, it is the one that
led to them. -/
structure Event.DenotedBy (event : Event) (fields : Members) (offset : Int64) : Prop where
  type : ∃ value, Members.present? fields "event_type" = some value ∧ event.type.GivenBy value
  timestamp : Members.Denotes fields "timestamp_ns" event.timestamp.toNat
  threadId : Members.Denotes fields "thread_id" event.threadId.toNat
  functionId : Members.Denotes fields "function_id" event.functionId.toNat
  detailOffset : Members.DenotesOr fields "detail_offset" offset.toInt event.detailOffset.toInt
  flags : Members.DenotesOr fields "flags" 0 event.flags.toNat

structure Detail.DenotedBy (detail : Detail) (members : Members) (offset : Int64) : Prop where
  event : ∃ fields, Members.find? members "index_event" = some (.object fields) ∧
    detail.event.DenotedBy fields offset
  callStack : (∃ items, Members.present? members "call_stack" = some (.array items) ∧
      List.Forall₂ (fun item frame => item.Denotes (frame.toNat : Int)) items detail.callStack) ∨
    Members.present? members "call_stack" = none ∧ detail.callStack = []
  arguments : Members.ObjectOrEmpty members "arguments" detail.arguments
  returnValue : detail.returnValue = Members.present? members "return_value"
  metadata : Members.ObjectOrEmpty members "metadata" detail.metadata

namespace Detail

variable {members fields : Members} {key : String} {offset : Int64}

theorem readOptional_eq_none_iff {low high : Int} :
    readOptional fields key low high = .ok none ↔ Members.present? fields key = none := by
  rw [readOptional]
  cases Members.present? fields key with
  | none => exact ⟨fun _ => rfl, fun _ => rfl⟩
  | some value =>
    refine ⟨fun read => ?_, nofun⟩
    dsimp only at read
    split at read
    · split at read <;> cases read
    · cases read

/-- The bounds of a field lie within 128 bits, so reading in so many loses none of its integers. -/
theorem readOptional_eq_some_iff {low high number : Int} (wide : -2 ^ 127 ≤ low ∧ high ≤ 2 ^ 127) :
    readOptional fields key low high = .ok (some number) ↔
      Members.Denotes fields key number ∧ low ≤ number ∧ number < high := by
  rw [readOptional]
  cases present : Members.present? fields key with
  | none =>
    refine ⟨nofun, ?_⟩
    rintro ⟨⟨value, found, _⟩, _⟩
    rw [present] at found
    cases found
  | some value =>
    dsimp only
    constructor
    · intro read
      split at read
      · rename_i denoted
        split at read
        · rename_i inside
          cases read
          exact ⟨⟨value, present, (Json.denoted?_eq_some_iff.mp denoted).1⟩, inside⟩
        · cases read
      · cases read
    · rintro ⟨⟨other, found, denotes⟩, inside⟩
      rw [present] at found
      cases found
      have denoted : value.denoted? = some number :=
        Json.denoted?_eq_some_iff.mpr ⟨denotes, by omega, by omega⟩
      rw [denoted]
      exact if_pos inside

/-- What is read of an optional field, with another integer in its place where it is absent. -/
theorem readOptional_getD_iff {low high absent number : Int}
    (wide : -2 ^ 127 ≤ low ∧ high ≤ 2 ^ 127) (inside : low ≤ absent ∧ absent < high) :
    (∃ number?, readOptional fields key low high = .ok number? ∧ number?.getD absent = number) ↔
      Members.DenotesOr fields key absent number ∧ low ≤ number ∧ number < high := by
  constructor
  · rintro ⟨number?, read, rfl⟩
    cases number? with
    | none => exact ⟨.inr ⟨readOptional_eq_none_iff.mp read, rfl⟩, inside⟩
    | some number =>
      obtain ⟨denotes, bounds⟩ := (readOptional_eq_some_iff wide).mp read
      exact ⟨.inl denotes, bounds⟩
  · rintro ⟨denotes | ⟨nothing, rfl⟩, bounds⟩
    · exact ⟨some number, (readOptional_eq_some_iff wide).mpr ⟨denotes, bounds⟩, rfl⟩
    · exact ⟨none, readOptional_eq_none_iff.mpr nothing, rfl⟩

theorem readRequired_eq_ok_iff {bits number : Nat} (narrow : bits ≤ 127) :
    readRequired fields key bits = .ok number ↔
      Members.Denotes fields key number ∧ number < 2 ^ bits := by
  have wide : -2 ^ 127 ≤ (0 : Int) ∧ (2 : Int) ^ bits ≤ 2 ^ 127 :=
    ⟨by decide, by exact_mod_cast Nat.pow_le_pow_right Nat.two_pos narrow⟩
  rw [readRequired, bind_eq_ok_iff]
  constructor
  · rintro ⟨number?, read, last⟩
    cases number? with
    | none => cases last
    | some whole =>
      cases last
      obtain ⟨denotes, positive, bound⟩ := (readOptional_eq_some_iff wide).mp read
      obtain ⟨size, rfl⟩ := Int.eq_ofNat_of_zero_le positive
      exact ⟨denotes, by exact_mod_cast bound⟩
  · rintro ⟨denotes, bound⟩
    have inside : (0 : Int) ≤ number ∧ (number : Int) < 2 ^ bits :=
      ⟨Int.natCast_nonneg number, by exact_mod_cast bound⟩
    exact ⟨some number, (readOptional_eq_some_iff wide).mpr ⟨denotes, inside⟩, rfl⟩

private theorem ofCode?_toUInt32_iff {code : UInt64} {type : EventType} :
    code.toNat < UInt32.size ∧ EventType.ofCode? code.toUInt32 = some type ↔
      code = type.code.toUInt64 := by
  constructor
  · rintro ⟨short, known⟩
    rw [EventType.code_eq_of_ofCode? known, ← UInt64.toNat_inj, UInt32.toNat_toUInt64,
      UInt64.toNat_toUInt32, Nat.mod_eq_of_lt short]
  · rintro rfl
    refine ⟨?_, ?_⟩
    · rw [UInt32.toNat_toUInt64]
      exact type.code.toNat_lt
    · rw [UInt32.toUInt32_toUInt64, EventType.ofCode?_code]

theorem readType_eq_ok_iff {type : EventType} :
    readType fields = .ok type ↔
      ∃ value, Members.present? fields "event_type" = some value ∧ type.GivenBy value := by
  rw [readType]
  split
  · rename_i nothing
    rw [nothing]
    exact ⟨nofun, fun given => nomatch given⟩
  · rename_i name present
    simp only [present, Option.some.injEq, exists_eq_left']
    constructor
    · intro read
      cases known : EventType.ofName? name with
      | none =>
        rw [known] at read
        cases read
      | some other =>
        rw [known] at read
        cases read
        rw [← EventType.name_eq_of_ofName? known]
        exact .name
    · rintro ⟨⟩
      rw [EventType.ofName?_name]
  · rename_i value notName present
    simp only [present, Option.some.injEq, exists_eq_left']
    constructor
    · intro read
      cases kept : value.word? with
      | none =>
        rw [kept] at read
        cases read
      | some code =>
        simp only [kept] at read
        split at read
        · rename_i short
          split at read
          · rename_i known
            cases read
            rw [Json.word?_eq_some_iff.mp kept, ofCode?_toUInt32_iff.mp ⟨short, known⟩]
            exact .code
          · cases read
        · cases read
    · rintro (_ | _)
      · exact absurd rfl (notName _)
      · obtain ⟨short, known⟩ := ofCode?_toUInt32_iff.mpr (rfl : type.code.toUInt64 = _)
        simp only [Json.word?_ofWord, if_pos short, known]

theorem readWord64_iff {word : UInt64} :
    (∃ number, readRequired fields key 64 = .ok number ∧ UInt64.ofNat number = word) ↔
      Members.Denotes fields key word.toNat := by
  constructor
  · rintro ⟨number, read, rfl⟩
    obtain ⟨denotes, fits⟩ := (readRequired_eq_ok_iff (by decide)).mp read
    rwa [UInt64.toNat_ofNat_of_lt' fits]
  · intro denotes
    exact ⟨word.toNat, (readRequired_eq_ok_iff (by decide)).mpr ⟨denotes, word.toNat_lt⟩,
      UInt64.ofNat_toNat⟩

theorem readWord32_iff {word : UInt32} :
    (∃ number, readRequired fields key 32 = .ok number ∧ UInt32.ofNat number = word) ↔
      Members.Denotes fields key word.toNat := by
  constructor
  · rintro ⟨number, read, rfl⟩
    obtain ⟨denotes, fits⟩ := (readRequired_eq_ok_iff (by decide)).mp read
    rwa [UInt32.toNat_ofNat_of_lt' fits]
  · intro denotes
    exact ⟨word.toNat, (readRequired_eq_ok_iff (by decide)).mpr ⟨denotes, word.toNat_lt⟩,
      UInt32.ofNat_toNat⟩

theorem readSigned_iff {word : Int64} :
    (∃ number?, readOptional fields key (-2 ^ 63) (2 ^ 63) = .ok number? ∧
      (number?.map Int64.ofInt).getD offset = word) ↔
      Members.DenotesOr fields key offset.toInt word.toInt := by
  have read := @readOptional_getD_iff fields key (-2 ^ 63) (2 ^ 63) offset.toInt word.toInt
    (by decide) ⟨offset.le_toInt, offset.toInt_lt⟩
  rw [and_iff_left ⟨word.le_toInt, word.toInt_lt⟩] at read
  rw [← read]
  refine exists_congr fun number? => and_congr_right fun success => ?_
  cases number? with
  | none => exact Int64.toInt_inj.symm
  | some number =>
    obtain ⟨_, low, high⟩ := (readOptional_eq_some_iff (by decide)).mp success
    have kept : (Int64.ofInt number).toInt = number := Int64.toInt_ofInt_of_le low high
    rw [← Int64.toInt_inj, Option.map_some, Option.getD_some, kept, Option.getD_some]

theorem readFlags_iff {word : UInt32} :
    (∃ number?, readOptional fields key 0 (2 ^ 32) = .ok number? ∧
      UInt32.ofNat (number?.getD 0).toNat = word) ↔
      Members.DenotesOr fields key 0 word.toNat := by
  have bound := word.toNat_lt
  have inside : (0 : Int) ≤ 0 ∧ (0 : Int) < 2 ^ 32 := by decide
  have read := @readOptional_getD_iff fields key 0 (2 ^ 32) 0 word.toNat (by decide) inside
  rw [and_iff_left ⟨Int.natCast_nonneg _, by exact_mod_cast bound⟩] at read
  rw [← read]
  refine exists_congr fun number? => and_congr_right fun success => ?_
  obtain ⟨_, positive, fits⟩ :=
    (readOptional_getD_iff (by decide) inside).mp ⟨number?, success, rfl⟩
  obtain ⟨size, same⟩ := Int.eq_ofNat_of_zero_le positive
  rw [same] at fits ⊢
  have kept : (UInt32.ofNat size).toNat = size :=
    UInt32.toNat_ofNat_of_lt' (by rw [UInt32.size]; omega)
  rw [Int.toNat_natCast, ← UInt32.toNat_inj, kept, Int.natCast_inj]

theorem readEvent_eq_ok_iff {event : Event} :
    readEvent fields offset = .ok event ↔ event.DenotedBy fields offset := by
  constructor
  · intro read
    obtain ⟨type, readsType, read⟩ := bind_eq_ok_iff.mp read
    obtain ⟨timestamp, readsTimestamp, read⟩ := bind_eq_ok_iff.mp read
    obtain ⟨threadId, readsThread, read⟩ := bind_eq_ok_iff.mp read
    obtain ⟨functionId, readsFunction, read⟩ := bind_eq_ok_iff.mp read
    obtain ⟨detailOffset?, readsOffset, read⟩ := bind_eq_ok_iff.mp read
    obtain ⟨flags?, readsFlags, read⟩ := bind_eq_ok_iff.mp read
    cases read
    exact ⟨readType_eq_ok_iff.mp readsType, readWord64_iff.mp ⟨_, readsTimestamp, rfl⟩,
      readWord32_iff.mp ⟨_, readsThread, rfl⟩, readWord32_iff.mp ⟨_, readsFunction, rfl⟩,
      readSigned_iff.mp ⟨_, readsOffset, rfl⟩, readFlags_iff.mp ⟨_, readsFlags, rfl⟩⟩
  · intro denoted
    obtain ⟨timestamp, readsTimestamp, sameTimestamp⟩ := readWord64_iff.mpr denoted.timestamp
    obtain ⟨threadId, readsThread, sameThread⟩ := readWord32_iff.mpr denoted.threadId
    obtain ⟨functionId, readsFunction, sameFunction⟩ := readWord32_iff.mpr denoted.functionId
    obtain ⟨detailOffset?, readsOffset, sameOffset⟩ := readSigned_iff.mpr denoted.detailOffset
    obtain ⟨flags?, readsFlags, sameFlags⟩ := readFlags_iff.mpr denoted.flags
    rw [readEvent, readType_eq_ok_iff.mpr denoted.type, readsTimestamp, readsThread,
      readsFunction, readsOffset, readsFlags]
    simp only [bind_ok, pure, Except.pure, sameTimestamp, sameThread, sameFunction, sameOffset,
      sameFlags]

theorem frame?_eq_some_iff {item : Json} {frame : UInt64} :
    frame? item = some frame ↔ item.Denotes (frame.toNat : Int) := by
  have bound := frame.toNat_lt
  constructor
  · intro read
    rw [frame?] at read
    split at read
    · rename_i size denoted
      split at read
      · rename_i short
        cases read
        rw [UInt64.toNat_ofNat_of_lt' short]
        exact (Json.denoted?_eq_some_iff.mp denoted).1
      · cases read
    · cases read
  · intro denotes
    have denoted : item.denoted? = some (.ofNat frame.toNat) :=
      Json.denoted?_eq_some_iff.mpr ⟨denotes, by simp, by simp; omega⟩
    simp only [frame?, denoted, UInt64.ofNat_toNat]
    exact if_pos bound

theorem readCallStack_eq_ok_iff {frames : List UInt64} :
    readCallStack members = .ok frames ↔
      (∃ items, Members.present? members "call_stack" = some (.array items) ∧
        List.Forall₂ (fun item frame => item.Denotes (frame.toNat : Int)) items frames) ∨
      Members.present? members "call_stack" = none ∧ frames = [] := by
  simp only [← frame?_eq_some_iff, ← mapM_eq_some_iff]
  rw [readCallStack]
  split
  · rename_i nothing
    simp [nothing, eq_comm]
  · rename_i items present
    simp only [present, Option.some.injEq, Json.array.injEq, exists_eq_left', reduceCtorEq,
      false_and, or_false]
    cases items.mapM frame? with
    | none => exact ⟨nofun, nofun⟩
    | some words => rw [Except.ok.injEq, Option.some.injEq]
  · rename_i value notArray present
    simp only [present, Option.some.injEq, reduceCtorEq, false_and, or_false, false_iff]
    rintro ⟨items, same, _⟩
    exact notArray items same

theorem readObject_eq_ok_iff {object : Members} :
    readObject members key = .ok object ↔ Members.ObjectOrEmpty members key object := by
  rw [readObject, Members.ObjectOrEmpty]
  split
  · rename_i nothing
    simp [nothing, eq_comm]
  · rename_i other present
    simp [present, eq_comm]
  · rename_i value notObject present
    simp only [present, Option.some.injEq, reduceCtorEq, false_and, or_false, false_iff]
    exact notObject object

theorem ofMembers_eq_ok_iff {detail : Detail} :
    ofMembers members offset = .ok detail ↔ detail.DenotedBy members offset := by
  rw [ofMembers]
  split
  · rename_i fields found
    constructor
    · intro read
      obtain ⟨event, readsEvent, read⟩ := bind_eq_ok_iff.mp read
      obtain ⟨callStack, readsStack, read⟩ := bind_eq_ok_iff.mp read
      obtain ⟨arguments, readsArguments, read⟩ := bind_eq_ok_iff.mp read
      obtain ⟨metadata, readsMetadata, read⟩ := bind_eq_ok_iff.mp read
      cases read
      exact ⟨⟨fields, found, readEvent_eq_ok_iff.mp readsEvent⟩,
        readCallStack_eq_ok_iff.mp readsStack, readObject_eq_ok_iff.mp readsArguments, rfl,
        readObject_eq_ok_iff.mp readsMetadata⟩
    · rintro ⟨⟨others, foundOthers, event⟩, callStack, arguments, returnValue, metadata⟩
      rw [found] at foundOthers
      cases foundOthers
      rw [readEvent_eq_ok_iff.mpr event, readCallStack_eq_ok_iff.mpr callStack,
        readObject_eq_ok_iff.mpr arguments, readObject_eq_ok_iff.mpr metadata]
      simp only [bind_ok, pure, Except.pure, ← returnValue]
  · rename_i notObject
    refine ⟨nofun, ?_⟩
    rintro ⟨⟨fields, found, _⟩, _⟩
    exact absurd found (notObject fields)

theorem decode_eq_ok_iff {decoder : Json.Decoder} {payload : ByteArray} {detail : Detail} :
    decode decoder payload offset = .ok detail ↔
      ∃ members, Json.decode? payload = some (.object members) ∧
        detail.DenotedBy members offset := by
  simp only [← ofMembers_eq_ok_iff, ← decoder.decode_eq_ok_iff]
  rw [decode]
  split
  · rename_i malformed
    simp [malformed]
  · rename_i members found
    simp [found]
  · rename_i value notObject found
    simp only [found, Except.ok.injEq, reduceCtorEq, false_iff]
    rintro ⟨members, same, _⟩
    exact notObject members same

end Detail

/-! ### Integers in range are the integers of words -/

section

variable {Word : Type} {integer : Word → Int} {Fits : Int → Prop}

end

namespace Detail

end Detail

end TraceContainer
