import TraceContainer.Proofs.DetailGrammar
import TraceContainer.Proofs.Json.Document

namespace TraceContainer

open Json (Integral Ordered depth sorted)

structure Event.SpelledBy (event : Event) (fields : Members) : Prop where
  timestamp : Members.find? fields "timestamp_ns" = some (.ofWord event.timestamp)
  threadId : Members.find? fields "thread_id" = some (.ofWord event.threadId.toUInt64)
  functionId : Members.find? fields "function_id" = some (.ofWord event.functionId.toUInt64)
  type : Members.find? fields "event_type" = some (.string event.type.name)
  detailOffset : Members.find? fields "detail_offset" = some (.ofSigned event.detailOffset)
  flags : Members.find? fields "flags" = some (.ofWord event.flags.toUInt64)

/-- The members that spell a detail, wherever they stand. -/
structure Detail.SpelledBy (detail : Detail) (members : Members) : Prop where
  event : ∃ fields, Members.find? members "index_event" = some (.object fields) ∧
    detail.event.SpelledBy fields
  callStack : Members.find? members "call_stack" = some (.array (detail.callStack.map .ofWord))
  arguments : Members.find? members "arguments" = some (.object detail.arguments)
  returnValue : Members.find? members "return_value" = some (detail.returnValue.getD .null)
  metadata : Members.find? members "metadata" = some (.object detail.metadata)

theorem Event.SpelledBy.denotedBy {event : Event} {fields : Members}
    (spelled : event.SpelledBy fields) (offset : Int64) : event.DenotedBy fields offset where
  type := ⟨_, Members.present?_of_find? spelled.type nofun, .name⟩
  timestamp := ⟨_, Members.present?_of_find? spelled.timestamp nofun, .number _ _⟩
  threadId := ⟨_, Members.present?_of_find? spelled.threadId nofun, .number _ _⟩
  functionId := ⟨_, Members.present?_of_find? spelled.functionId nofun, .number _ _⟩
  detailOffset := .inl ⟨_, Members.present?_of_find? spelled.detailOffset nofun, .number _ _⟩
  flags := .inl ⟨_, Members.present?_of_find? spelled.flags nofun, .number _ _⟩

namespace Detail

variable {decoder : Json.Decoder}

/-- An explicit null is read as no value, and everything else as it is. -/
theorem present?_getD {members : Members} {key : String} {value? : Option Json}
    (found : Members.find? members key = some (value?.getD .null)) (notNull : value? ≠ some .null) :
    Members.present? members key = value? := by
  cases value? with
  | none => rw [Members.present?, found]; rfl
  | some value => exact Members.present?_of_find? found fun null => notNull (congrArg some null)

theorem SpelledBy.denotedBy {detail : Detail} {members : Members}
    (spelled : detail.SpelledBy members) (notNull : detail.returnValue ≠ some .null)
    (offset : Int64) : detail.DenotedBy members offset where
  event := by
    obtain ⟨fields, found, event⟩ := spelled.event
    exact ⟨fields, found, event.denotedBy offset⟩
  callStack := by
    refine .inl ⟨_, Members.present?_of_find? spelled.callStack nofun, ?_⟩
    rw [List.forall₂_map_left_iff, List.forall₂_same]
    exact fun frame _ => .number _ _
  arguments := .inl (Members.present?_of_find? spelled.arguments nofun)
  returnValue := (present?_getD spelled.returnValue notNull).symm
  metadata := .inl (Members.present?_of_find? spelled.metadata nofun)

/-- What holds of every detail that was read: its members stand in order, it is nested no deeper
than a reader allows, and it returns no explicit null. -/
structure WellFormed (detail : Detail) : Prop where
  arguments : Ordered (.object detail.arguments)
  metadata : Ordered (.object detail.metadata)
  returnValue : ∀ value ∈ detail.returnValue, Ordered value
  notNull : detail.returnValue ≠ some .null
  shallow : depth detail.toJson ≤ Assembly.maxDepth

/-- What lets a detail be told from its text: its members stand in order, as those of any value that
is held, its numbers are integers, it is nested no deeper than a reader allows, and it returns no
explicit null. -/
structure Writable (detail : Detail) : Prop where
  arguments : Ordered (.object detail.arguments)
  metadata : Ordered (.object detail.metadata)
  returnValue : ∀ value ∈ detail.returnValue, Ordered value
  notNull : detail.returnValue ≠ some .null
  integral : Integral detail.toJson
  shallow : depth detail.toJson ≤ Assembly.maxDepth

theorem Writable.wellFormed {detail : Detail} (writable : detail.Writable) : detail.WellFormed :=
  ⟨writable.arguments, writable.metadata, writable.returnValue, writable.notNull, writable.shallow⟩

def reread (detail : Detail) : Detail :=
  { detail with
    arguments := Json.rereadMembers detail.arguments
    returnValue := detail.returnValue.map Json.reread
    metadata := Json.rereadMembers detail.metadata }

theorem integral_event (event : Event) : Integral event.toJson := by
  refine Json.integral_object.mpr ?_
  simp only [List.forall_mem_cons]
  exact ⟨Json.integral_ofWord _, Json.integral_ofWord _, Json.integral_ofWord _,
    Json.integral_string _, Json.integral_ofSigned _, Json.integral_ofWord _, nofun⟩

theorem toJson_reread (detail : Detail) : detail.reread.toJson = detail.toJson.reread := by
  have returned : (detail.returnValue.map Json.reread).getD .null =
      (detail.returnValue.getD .null).reread := by
    cases detail.returnValue <;> rfl
  simp only [toJson, reread, Json.reread, Json.rereadMembers, returned, Json.rereadItems_ofWords,
    Json.reread_of_integral (integral_event detail.event)]

theorem WellFormed.reread {detail : Detail} (wellFormed : detail.WellFormed) :
    detail.reread.WellFormed where
  arguments := Json.ordered_reread wellFormed.arguments
  metadata := Json.ordered_reread wellFormed.metadata
  returnValue := by
    intro value present
    obtain ⟨original, returned, rfl⟩ := Option.map_eq_some_iff.mp present
    exact Json.ordered_reread (wellFormed.returnValue original returned)
  notNull := by
    intro present
    obtain ⟨original, returned, null⟩ := Option.map_eq_some_iff.mp present
    refine Json.reread_ne_null (fun same => wellFormed.notNull ?_) null
    rw [returned, same]
  shallow := by
    rw [toJson_reread, Json.depth_reread]
    exact wellFormed.shallow

theorem reread_eq_self_iff (detail : Detail) : detail.reread = detail ↔
    Json.Reproduced (.object detail.arguments) ∧
      (∀ value ∈ detail.returnValue, Json.Reproduced value) ∧
      Json.Reproduced (.object detail.metadata) := by
  simp only [← Json.reread_eq_self_iff]
  obtain ⟨event, callStack, arguments, returnValue, metadata⟩ := detail
  simp only [reread, Detail.mk.injEq, true_and, Json.reread, Json.object.injEq]
  refine and_congr_right fun _ => and_congr_left fun _ => ?_
  cases returnValue with
  | none => simp
  | some value => simp

/-- It is enough to look at the parts that are values themselves. -/
theorem integral_toJson {detail : Detail} (arguments : Integral (.object detail.arguments))
    (returnValue : ∀ value ∈ detail.returnValue, Integral value)
    (metadata : Integral (.object detail.metadata)) : Integral detail.toJson := by
  have returned : Integral (detail.returnValue.getD .null) := by
    cases present : detail.returnValue with
    | none => exact Json.integral_null
    | some value => exact returnValue value present
  refine Json.integral_object.mpr ?_
  simp only [List.forall_mem_cons]
  exact ⟨integral_event _, Json.integral_ofWords _, arguments, returned, metadata, nofun⟩

theorem depth_toJson_le {detail : Detail}
    (arguments : depth (.object detail.arguments) < Assembly.maxDepth)
    (returnValue : ∀ value ∈ detail.returnValue, depth value < Assembly.maxDepth)
    (metadata : depth (.object detail.metadata) < Assembly.maxDepth) :
    depth detail.toJson ≤ Assembly.maxDepth := by
  have flat : 1 < Assembly.maxDepth := by decide
  have returned : depth (detail.returnValue.getD .null) < Assembly.maxDepth := by
    cases present : detail.returnValue with
    | none => exact Nat.zero_lt_of_lt flat
    | some value => exact returnValue value present
  refine Json.depth_object_le ?_
  simp only [List.forall_mem_cons, Json.depth_ofWords]
  exact ⟨flat, flat, arguments, returned, metadata, nofun⟩

theorem writable_of_readable {detail : Detail}
    (arguments : Json.Readable (.object detail.arguments) ∧ Ordered (.object detail.arguments))
    (metadata : Json.Readable (.object detail.metadata) ∧ Ordered (.object detail.metadata))
    (returnValue : ∀ value ∈ detail.returnValue, value.Readable ∧ Ordered value)
    (notNull : detail.returnValue ≠ some .null) : detail.Writable := by
  have integral := integral_toJson arguments.1.1
    (fun value present => (returnValue value present).1.1) metadata.1.1
  have shallow := depth_toJson_le arguments.1.2
    (fun value present => (returnValue value present).1.2) metadata.1.2
  exact ⟨arguments.2, metadata.2, fun value present => (returnValue value present).2, notNull,
    integral, shallow⟩

private theorem spelledBy_sortedEvent (event : Event) :
    ∃ fields, sorted event.toJson = .object fields ∧ event.SpelledBy fields := by
  refine ⟨_, rfl, ⟨?_, ?_, ?_, ?_, ?_, ?_⟩⟩
  all_goals
    simp [Members.find?_ofReversed, Members.find?_cons, Json.sortedMembers, Json.sorted_ofWord,
      Json.sorted_ofSigned, sorted]

private theorem spelledBy_sorted {detail : Detail} (wellFormed : detail.WellFormed) :
    ∃ members, sorted detail.toJson = .object members ∧ detail.SpelledBy members := by
  have returned : sorted (detail.returnValue.getD .null) = detail.returnValue.getD .null := by
    cases present : detail.returnValue with
    | none => rfl
    | some value => exact Json.sorted_of_ordered (wellFormed.returnValue value present)
  obtain ⟨fields, event, spelled⟩ := spelledBy_sortedEvent detail.event
  refine ⟨_, rfl, ⟨⟨fields, ?_, spelled⟩, ?_, ?_, ?_, ?_⟩⟩
  all_goals
    simp [Members.find?_ofReversed, Members.find?_cons, Json.sortedMembers, Json.sorted_ofWords,
      Json.sorted_of_ordered wellFormed.arguments, Json.sorted_of_ordered wellFormed.metadata,
      returned, event]

/-- A detail is read from its text with its numbers as they are read, whatever offset led to it. -/
theorem decode_encode_reread {detail : Detail} (wellFormed : detail.WellFormed) (offset : Int64) :
    decode decoder detail.encode offset = .ok detail.reread := by
  obtain ⟨members, same, spelled⟩ := spelledBy_sorted wellFormed.reread
  have read := Json.decode?_encode_reread wellFormed.shallow
  rw [← toJson_reread, same] at read
  exact decode_eq_ok_iff.mpr ⟨members, read, spelled.denotedBy wellFormed.reread.notNull offset⟩

theorem decode_encode {detail : Detail} (writable : detail.Writable) (offset : Int64) :
    decode decoder detail.encode offset = .ok detail := by
  have inside := Json.integral_object.mp writable.integral
  simp only [List.forall_mem_cons] at inside
  obtain ⟨_, _, arguments, returned, metadata, _⟩ := inside
  have same : detail.reread = detail := by
    refine (reread_eq_self_iff detail).mpr ⟨Json.reproduced_of_integral arguments, ?_,
      Json.reproduced_of_integral metadata⟩
    intro value present
    rw [show detail.returnValue = some value from present] at returned
    exact Json.reproduced_of_integral returned
  rw [decode_encode_reread writable.wellFormed, same]

theorem wellFormed_of_decode {payload : ByteArray} {offset : Int64} {detail : Detail}
    (decoded : decode decoder payload offset = .ok detail) : detail.WellFormed := by
  obtain ⟨members, found, denoted⟩ := decode_eq_ok_iff.mp decoded
  have sound := Json.ordered_of_decode? found
  obtain ⟨orderedArguments, shallowArguments⟩ :=
    Json.ordered_of_objectOrEmpty sound denoted.arguments
  obtain ⟨orderedMetadata, shallowMetadata⟩ :=
    Json.ordered_of_objectOrEmpty sound denoted.metadata
  have returned (value) (present : detail.returnValue = some value) :=
    Json.ordered_of_present? sound (denoted.returnValue.symm.trans present)
  refine ⟨orderedArguments, orderedMetadata, fun value present => (returned value present).1, ?_,
    depth_toJson_le shallowArguments (fun value present => (returned value present).2)
      shallowMetadata⟩
  intro null
  have present := denoted.returnValue.symm.trans null
  exact of_decide_eq_true (Option.filter_eq_some_iff.mp present).2 rfl

theorem writable_of_decode {payload : ByteArray} {offset : Int64} {detail : Detail}
    (decoded : decode decoder payload offset = .ok detail)
    (arguments : Integral (.object detail.arguments))
    (returnValue : ∀ value ∈ detail.returnValue, Integral value)
    (metadata : Integral (.object detail.metadata)) : detail.Writable := by
  have wellFormed := wellFormed_of_decode decoded
  exact ⟨wellFormed.arguments, wellFormed.metadata, wellFormed.returnValue, wellFormed.notNull,
    integral_toJson arguments returnValue metadata, wellFormed.shallow⟩

/-- A detail that was read, with nothing but integers among its numbers, is read back from its own
text, whatever led to the one and to the other. So its names and numbers, its nulls and what it
leaves out are put into one form once, and stay in it. -/
theorem decode_encode_of_decode {again : Json.Decoder} {payload : ByteArray} {offset : Int64}
    {detail : Detail}
    (decoded : decode decoder payload offset = .ok detail)
    (arguments : Integral (.object detail.arguments))
    (returnValue : ∀ value ∈ detail.returnValue, Integral value)
    (metadata : Integral (.object detail.metadata)) (other : Int64) :
    decode again detail.encode other = .ok detail :=
  decode_encode (writable_of_decode decoded arguments returnValue metadata) other

def loosePayload : ByteArray :=
  Json.encode (.object [
    ("index_event", .object [
      ("event_type", .ofWord 4), ("timestamp_ns", .string " +018446744073709551615 "),
      ("thread_id", .string "11"), ("function_id", .ofWord 3), ("flags", .null)]),
    ("call_stack", .array [.string "4096", .ofWord 18446744073709551615]),
    ("arguments", .object [("fd", .ofSigned (-9223372036854775808)), ("path", .string "a\n")]),
    ("return_value", .null)])

def loose : Detail where
  event := ⟨18446744073709551615, 11, 3, .syscall, -5, 0⟩
  callStack := [4096, 18446744073709551615]
  arguments := [("fd", .ofSigned (-9223372036854775808)), ("path", .string "a\n")]
  returnValue := none
  metadata := []

theorem decode_encode_of_decode_loose :
    let decoder : Json.Decoder := .saying "expected value"
    decode decoder loosePayload (-5) = .ok loose ∧ Integral (.object loose.arguments) ∧
      (∀ value ∈ loose.returnValue, Integral value) ∧ Integral (.object loose.metadata) ∧
      decode { decoder with backend := .vector } loose.encode 9 = .ok loose := by
  intro decoder
  have read : Json.decode? loosePayload = some (Json.sorted _) :=
    Json.decode?_encode (by decide) (by decide)
  have decoded : decode decoder loosePayload (-5) = .ok loose := by
    rw [decode, decoder.decode_eq_ok_iff.mpr read]
    exact eq_ok_of_toOption (by decide +kernel)
  have arguments : Integral (.object loose.arguments) := by decide
  have metadata : Integral (.object loose.metadata) := by decide
  have returnValue : ∀ value ∈ loose.returnValue, Integral value := by
    rintro value ⟨⟩
  exact ⟨decoded, arguments, returnValue, metadata,
    decode_encode_of_decode decoded arguments returnValue metadata 9⟩

end Detail

end TraceContainer
