import TraceContainer.Proofs.Json.Members

/-! Values of JSON by their parts: what holds of every value inside one, how deep these stand, and
the order that reading brings to the members of objects. -/
namespace TraceContainer.Json

/-- Induction on a value, with the hypothesis at hand for each item and each member. -/
theorem induct {motive : Json → Prop} (null : motive .null) (bool : ∀ value, motive (.bool value))
    (number : ∀ value, motive (.number value)) (string : ∀ value, motive (.string value))
    (array : ∀ items, (∀ item ∈ items, motive item) → motive (.array items))
    (object : ∀ members : Members, (∀ member ∈ members, motive member.2) →
      motive (.object members)) (value : Json) : motive value := by
  refine @Json.rec motive (fun items => ∀ item ∈ items, motive item)
    (fun members => ∀ member ∈ members, motive member.2) (fun member => motive member.2)
    null bool number string array object ?_ ?_ ?_ ?_ ?_ value
  · exact fun _ present => nomatch present
  · exact fun first rest holds others => List.forall_mem_cons.mpr ⟨holds, others⟩
  · exact fun _ present => nomatch present
  · exact fun first rest holds others => List.forall_mem_cons.mpr ⟨holds, others⟩
  · exact fun key value holds => holds

mutual

def parts : Json → List Json
  | .array items => .array items :: itemParts items
  | .object members => .object members :: memberParts members
  | value => [value]

def itemParts : List Json → List Json
  | [] => []
  | first :: rest => first.parts ++ itemParts rest

def memberParts : List (String × Json) → List Json
  | [] => []
  | (_, value) :: rest => value.parts ++ memberParts rest

end

mutual

/-- How many containers stand inside each other. -/
def depth : Json → Nat
  | .array items => itemDepth items + 1
  | .object members => memberDepth members + 1
  | _ => 0

def itemDepth : List Json → Nat
  | [] => 0
  | first :: rest => max first.depth (itemDepth rest)

def memberDepth : List (String × Json) → Nat
  | [] => 0
  | (_, value) :: rest => max value.depth (memberDepth rest)

end

mutual

/-- A value as it is read from its own text: with the members of each object in order. -/
def sorted : Json → Json
  | .array items => .array (sortedItems items)
  | .object members => .object (Members.ofReversed (sortedMembers members).reverse)
  | value => value

def sortedItems : List Json → List Json
  | [] => []
  | first :: rest => first.sorted :: sortedItems rest

def sortedMembers : List (String × Json) → Members
  | [] => []
  | (key, value) :: rest => (key, value.sorted) :: sortedMembers rest

end

def isReal : Json → Bool
  | .number (.real _) => true
  | _ => false

def members : Json → Members
  | .object members => members
  | _ => []

/-- Every number in a value is an integer of 64 bits. -/
def Integral (value : Json) : Prop :=
  ∀ part ∈ value.parts, part.isReal = false

/-- The members of every object in a value stand in ascending order. -/
def Ordered (value : Json) : Prop :=
  ∀ part ∈ value.parts, Members.Ascending part.members

instance (value : Json) : Decidable value.Integral :=
  inferInstanceAs (Decidable (∀ part ∈ value.parts, part.isReal = false))

instance (value : Json) : Decidable value.Ordered :=
  inferInstanceAs (Decidable (∀ part ∈ value.parts, Members.Ascending part.members))

theorem mem_itemParts {items : List Json} {part : Json} :
    part ∈ itemParts items ↔ ∃ item ∈ items, part ∈ item.parts := by
  induction items with
  | nil => simp [itemParts]
  | cons first rest ih => simp [itemParts, ih]

theorem mem_memberParts {members : Members} {part : Json} :
    part ∈ memberParts members ↔ ∃ member ∈ members, part ∈ member.2.parts := by
  induction members with
  | nil => simp [memberParts]
  | cons first rest ih => simp [memberParts, ih]

theorem forall_parts_array {holds : Json → Prop} {items : List Json} :
    (∀ part ∈ (array items).parts, holds part) ↔
      holds (.array items) ∧ ∀ item ∈ items, ∀ part ∈ item.parts, holds part := by
  rw [parts, List.forall_mem_cons]
  refine and_congr_right fun _ => ⟨?_, ?_⟩
  · exact fun all item present part inside => all part (mem_itemParts.mpr ⟨item, present, inside⟩)
  · intro all part within
    obtain ⟨item, present, inside⟩ := mem_itemParts.mp within
    exact all item present part inside

theorem forall_parts_object {holds : Json → Prop} {members : Members} :
    (∀ part ∈ (object members).parts, holds part) ↔
      holds (.object members) ∧ ∀ member ∈ members, ∀ part ∈ member.2.parts, holds part := by
  rw [parts, List.forall_mem_cons]
  refine and_congr_right fun _ => ⟨?_, ?_⟩
  · exact fun all member present part inside =>
      all part (mem_memberParts.mpr ⟨member, present, inside⟩)
  · intro all part within
    obtain ⟨member, present, inside⟩ := mem_memberParts.mp within
    exact all member present part inside

theorem integral_array {items : List Json} :
    Integral (.array items) ↔ ∀ item ∈ items, item.Integral :=
  forall_parts_array.trans (and_iff_right rfl)

theorem integral_object {members : Members} :
    Integral (.object members) ↔ ∀ member ∈ members, member.2.Integral :=
  forall_parts_object.trans (and_iff_right rfl)

theorem ordered_array {items : List Json} :
    Ordered (.array items) ↔ ∀ item ∈ items, item.Ordered :=
  forall_parts_array.trans (and_iff_right Members.ascending_nil)

theorem ordered_object {members : Members} :
    Ordered (.object members) ↔
      Members.Ascending members ∧ ∀ member ∈ members, member.2.Ordered :=
  forall_parts_object

theorem integral_null : Integral .null :=
  List.forall_mem_singleton.mpr rfl

theorem integral_string (value : String) : Integral (.string value) :=
  List.forall_mem_singleton.mpr rfl

theorem integral_integer (value : Int) (fits : -2 ^ 63 ≤ value ∧ value < 2 ^ 64) :
    Integral (.number (.integer value fits)) :=
  List.forall_mem_singleton.mpr rfl

theorem itemDepth_le {items : List Json} {bound : Nat} :
    itemDepth items ≤ bound ↔ ∀ item ∈ items, item.depth ≤ bound := by
  induction items with
  | nil => simp [itemDepth]
  | cons first rest ih => rw [itemDepth, Nat.max_le, ih, List.forall_mem_cons]

theorem memberDepth_le {members : Members} {bound : Nat} :
    memberDepth members ≤ bound ↔ ∀ member ∈ members, member.2.depth ≤ bound := by
  induction members with
  | nil => simp [memberDepth]
  | cons first rest ih => rw [memberDepth, Nat.max_le, ih, List.forall_mem_cons]

theorem sortedItems_eq (items : List Json) : sortedItems items = items.map sorted := by
  induction items with
  | nil => rfl
  | cons first rest ih => rw [sortedItems, ih, List.map_cons]

theorem sortedMembers_eq (members : Members) :
    sortedMembers members = members.map fun member => (member.1, member.2.sorted) := by
  induction members with
  | nil => rfl
  | cons first rest ih => rw [sortedMembers, ih, List.map_cons]

/-- Reading changes nothing in a value whose members stand in order already. -/
theorem sorted_of_ordered {value : Json} (ordered : value.Ordered) : value.sorted = value := by
  induction value using induct with
  | null => rfl
  | bool value => rfl
  | number value => rfl
  | string value => rfl
  | array items ih =>
    have inside := ordered_array.mp ordered
    have same : items.map sorted = items.map id :=
      List.map_congr_left fun item present => ih item present (inside item present)
    rw [sorted, sortedItems_eq, same, List.map_id]
  | object members ih =>
    obtain ⟨ascending, inside⟩ := ordered_object.mp ordered
    have same : members.map (fun member => (member.1, member.2.sorted)) = members.map id := by
      refine List.map_congr_left fun member present => ?_
      rw [ih member present (inside member present), id]
    rw [sorted, sortedMembers_eq, same, List.map_id, Members.ofReversed_reverse ascending]

end TraceContainer.Json
