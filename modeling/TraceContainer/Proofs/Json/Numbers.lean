import TraceContainer.Proofs.Json.Parts
import TraceContainer.Proofs.Json.Reread

namespace TraceContainer.Json

mutual

/-- A value with each number in it as it is read from its own spelling. -/
def reread : Json → Json
  | .number value => .number value.reread
  | .array items => .array (rereadItems items)
  | .object members => .object (rereadMembers members)
  | value => value

def rereadItems : List Json → List Json
  | [] => []
  | first :: rest => first.reread :: rereadItems rest

def rereadMembers : List (String × Json) → Members
  | [] => []
  | (key, value) :: rest => (key, value.reread) :: rereadMembers rest

end

/-- Every binary64 in a value is read from its own spelling with the same bits. -/
def Reproduced (value : Json) : Prop :=
  ∀ part ∈ value.parts, ∀ real, part = .number (.real real) → real.reread.toBits = real.toBits

theorem rereadItems_eq (items : List Json) : rereadItems items = items.map reread := by
  induction items with
  | nil => rfl
  | cons first rest ih => rw [rereadItems, ih, List.map_cons]

theorem rereadMembers_eq (members : Members) :
    rereadMembers members = members.map fun member => (member.1, member.2.reread) := by
  induction members with
  | nil => rfl
  | cons first rest ih => rw [rereadMembers, ih, List.map_cons]

private theorem itemDepth_reread {items : List Json}
    (each : ∀ item ∈ items, item.reread.depth = item.depth) :
    itemDepth (rereadItems items) = itemDepth items := by
  induction items with
  | nil => rfl
  | cons first rest ih =>
    obtain ⟨front, others⟩ := List.forall_mem_cons.mp each
    rw [rereadItems, itemDepth, itemDepth, front, ih others]

private theorem memberDepth_reread {members : Members}
    (each : ∀ member ∈ members, member.2.reread.depth = member.2.depth) :
    memberDepth (rereadMembers members) = memberDepth members := by
  induction members with
  | nil => rfl
  | cons first rest ih =>
    obtain ⟨front, others⟩ := List.forall_mem_cons.mp each
    rw [rereadMembers, memberDepth, memberDepth, front, ih others]

theorem depth_reread (value : Json) : value.reread.depth = value.depth := by
  induction value using induct with
  | null | bool | number | string => rfl
  | array items ih => rw [reread, depth, depth, itemDepth_reread ih]
  | object members ih => rw [reread, depth, depth, memberDepth_reread ih]

theorem ordered_reread {value : Json} (ordered : value.Ordered) : value.reread.Ordered := by
  induction value using induct with
  | null | bool | number | string => exact List.forall_mem_singleton.mpr Members.ascending_nil
  | array items ih =>
    have inside := ordered_array.mp ordered
    rw [reread, ordered_array, rereadItems_eq, List.forall_mem_map]
    exact fun item present => ih item present (inside item present)
  | object members ih =>
    obtain ⟨ascending, inside⟩ := ordered_object.mp ordered
    rw [reread, ordered_object, rereadMembers_eq, List.forall_mem_map]
    exact ⟨List.pairwise_map.mpr ascending,
      fun member present => ih member present (inside member present)⟩

private theorem reproduced_of_ne {part : Json} (different : part.isReal = false) :
    ∀ real, part = .number (.real real) → real.reread.toBits = real.toBits := by
  rintro real rfl
  cases different

theorem reproduced_real {real : Binary64} :
    Reproduced (.number (.real real)) ↔ real.reread.toBits = real.toBits := by
  refine List.forall_mem_singleton.trans ⟨fun same => same real rfl, ?_⟩
  rintro same other ⟨⟩
  exact same

theorem reproduced_array {items : List Json} :
    Reproduced (.array items) ↔ ∀ item ∈ items, item.Reproduced :=
  forall_parts_array.trans (and_iff_right (reproduced_of_ne rfl))

theorem reproduced_object {members : Members} :
    Reproduced (.object members) ↔ ∀ member ∈ members, member.2.Reproduced :=
  forall_parts_object.trans (and_iff_right (reproduced_of_ne rfl))

/-- A value is reread as itself exactly if each binary64 in it is. -/
theorem reread_eq_self_iff (value : Json) : value.reread = value ↔ value.Reproduced := by
  induction value using induct with
  | null | bool | string =>
    exact iff_of_true rfl (List.forall_mem_singleton.mpr (reproduced_of_ne rfl))
  | number value =>
    cases value with
    | integer value fits =>
      exact iff_of_true rfl (List.forall_mem_singleton.mpr (reproduced_of_ne rfl))
    | real value =>
      rw [reproduced_real, Binary64.toBits_injective.eq_iff, reread, Number.reread,
        Json.number.injEq, Number.real.injEq]
  | array items ih =>
    rw [reproduced_array, reread, rereadItems_eq, Json.array.injEq]
    conv_lhs => rw [← List.map_id items, List.map_map, List.map_inj_left]
    exact forall₂_congr ih
  | object members ih =>
    rw [reproduced_object, reread, rereadMembers_eq, Json.object.injEq]
    conv_lhs => rw [← List.map_id members, List.map_map, List.map_inj_left]
    refine forall₂_congr fun member present => ?_
    rw [Function.comp_apply, id, Prod.ext_iff, and_iff_right rfl]
    exact ih member present

theorem reproduced_of_integral {value : Json} (integral : value.Integral) : value.Reproduced :=
  fun part inside => reproduced_of_ne (integral part inside)

theorem reread_of_integral {value : Json} (integral : value.Integral) : value.reread = value :=
  (reread_eq_self_iff value).mpr (reproduced_of_integral integral)

theorem reread_ne_null {value : Json} (different : value ≠ .null) : value.reread ≠ .null := by
  cases value with
  | null => exact absurd rfl different
  | bool | number | string | array | object => exact nofun

end TraceContainer.Json
