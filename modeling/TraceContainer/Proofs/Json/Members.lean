import TraceContainer.Json.Basic

namespace TraceContainer.Members

def Ascending (members : Members) : Prop :=
  members.Pairwise fun left right => left.1 < right.1

instance (members : Members) : Decidable members.Ascending :=
  inferInstanceAs (Decidable (members.Pairwise fun left right => left.1 < right.1))

theorem ascending_nil : Ascending [] := List.Pairwise.nil

theorem mem_insertNew {key : String} {value : Json} {members : Members} {member : String × Json}
    (present : member ∈ insertNew key value members) :
    member = (key, value) ∨ member ∈ members := by
  induction members with
  | nil => simpa [insertNew] using present
  | cons first rest ih =>
    obtain ⟨head, value'⟩ := first
    rw [insertNew] at present
    split at present
    · exact List.mem_cons.mp present
    split at present
    · exact .inr present
    · rcases List.mem_cons.mp present with same | later
      · exact .inr (by simp [same])
      · rcases ih later with new | old
        · exact .inl new
        · exact .inr (List.mem_cons_of_mem _ old)

theorem ascending_insertNew (key : String) (value : Json) {members : Members}
    (ascending : Ascending members) : Ascending (insertNew key value members) := by
  induction members with
  | nil => exact List.pairwise_singleton _ _
  | cons first rest ih =>
    obtain ⟨head, value'⟩ := first
    obtain ⟨least, others⟩ := List.pairwise_cons.mp ascending
    rw [insertNew]
    split
    · rename_i before
      apply List.pairwise_cons.mpr
      refine ⟨fun member present => ?_, ascending⟩
      rcases List.mem_cons.mp present with same | later
      · rw [same]
        exact before
      · exact String.lt_trans before (least member later)
    split
    · exact ascending
    · rename_i notBefore different
      apply List.pairwise_cons.mpr
      refine ⟨fun member present => ?_, ih others⟩
      rcases mem_insertNew present with same | old
      · rw [same]
        exact Std.lt_of_le_of_ne (String.not_lt.mp notBefore) (Ne.symm different)
      · exact least member old

theorem find?_cons (key other : String) (value : Json) (rest : Members) :
    find? ((key, value) :: rest) other = if other = key then some value else find? rest other := by
  rw [find?, List.lookup_cons]
  by_cases same : other = key
  · simp [same]
  · rw [if_neg same, beq_false_of_ne same, find?]

theorem present?_of_find? {members : Members} {key : String} {value : Json}
    (found : find? members key = some value) (notNull : value ≠ .null) :
    present? members key = some value := by
  rw [present?, found, Option.filter_some, if_pos (decide_eq_true notNull)]

theorem mem_of_find? {members : Members} {key : String} {value : Json}
    (found : find? members key = some value) : (key, value) ∈ members := by
  induction members with
  | nil => cases found
  | cons first rest ih =>
    obtain ⟨head, value'⟩ := first
    rw [find?_cons] at found
    split at found
    · rename_i same
      cases found
      exact same ▸ List.mem_cons_self
    · exact List.mem_cons_of_mem _ (ih found)

theorem mem_of_present? {members : Members} {key : String} {value : Json}
    (present : present? members key = some value) : (key, value) ∈ members :=
  mem_of_find? (Option.filter_eq_some_iff.mp present).1

/-- Under a key stands an object, or nothing and the object is empty. -/
def ObjectOrEmpty (members : Members) (key : String) (object : Members) : Prop :=
  present? members key = some (.object object) ∨ present? members key = none ∧ object = []

theorem find?_of_lt {key : String} {members : Members}
    (before : ∀ member ∈ members, key < member.1) : find? members key = none := by
  induction members with
  | nil => rfl
  | cons first rest ih =>
    have less := before first List.mem_cons_self
    rw [find?_cons, if_neg (String.ne_of_lt less),
      ih fun member present => before member (List.mem_cons_of_mem _ present)]

/-- A member is put in only under a new key. -/
theorem find?_insertNew (key : String) (value : Json) {members : Members}
    (ascending : Ascending members) (other : String) :
    find? (insertNew key value members) other =
      if other = key then some ((find? members key).getD value) else find? members other := by
  induction members with
  | nil => rw [insertNew, find?_cons]; rfl
  | cons first rest ih =>
    obtain ⟨head, value'⟩ := first
    obtain ⟨least, others⟩ := List.pairwise_cons.mp ascending
    rw [insertNew]
    split
    · rename_i before
      have absent : find? ((head, value') :: rest) key = none := by
        apply find?_of_lt
        intro member present
        rcases List.mem_cons.mp present with same | later
        · rw [same]
          exact before
        · exact String.lt_trans before (least member later)
      rw [find?_cons, absent, Option.getD_none]
    split
    · rename_i same
      subst same
      rw [find?_cons, find?_cons, if_pos rfl, Option.getD_some]
      split <;> rfl
    · rename_i different
      rw [find?_cons, find?_cons, find?_cons, if_neg different, ih others]
      by_cases here : other = head
      · rw [if_pos here, if_pos here, if_neg (fun same => different (same.symm.trans here))]
      · rw [if_neg here, if_neg here]

private theorem foldl_insertNew (reversed : Members) {members : Members}
    (ascending : Ascending members) :
    Ascending (reversed.foldl (fun members (key, value) => insertNew key value members) members) ∧
      ∀ key, find? (reversed.foldl (fun members (key, value) => insertNew key value members)
        members) key = (find? members key).or (find? reversed key) := by
  induction reversed generalizing members with
  | nil => exact ⟨ascending, fun key => (Option.or_none).symm⟩
  | cons first rest ih =>
    obtain ⟨head, value⟩ := first
    obtain ⟨ordered, found⟩ := ih (ascending_insertNew head value ascending)
    refine ⟨ordered, fun key => ?_⟩
    rw [List.foldl_cons, found key, find?_insertNew head value ascending, find?_cons]
    by_cases same : key = head
    · subst same
      rw [if_pos rfl, if_pos rfl]
      cases find? members key <;> rfl
    · rw [if_neg same, if_neg same]

theorem ascending_ofReversed (reversed : Members) : Ascending (ofReversed reversed) :=
  (foldl_insertNew reversed ascending_nil).1

/-- Of several members with one key the last written is found. -/
theorem find?_ofReversed (reversed : Members) (key : String) :
    find? (ofReversed reversed) key = find? reversed key :=
  (foldl_insertNew reversed ascending_nil).2 key

private theorem mem_foldl_insertNew {reversed members : Members} {member : String × Json}
    (present : member ∈
      reversed.foldl (fun members (key, value) => insertNew key value members) members) :
    member ∈ members ∨ member ∈ reversed := by
  induction reversed generalizing members with
  | nil => exact .inl present
  | cons first rest ih =>
    rcases ih present with earlier | later
    · rcases mem_insertNew earlier with same | old
      · exact .inr (same ▸ List.mem_cons_self)
      · exact .inl old
    · exact .inr (List.mem_cons_of_mem _ later)

theorem mem_ofReversed {reversed : Members} {member : String × Json}
    (present : member ∈ ofReversed reversed) : member ∈ reversed := by
  rcases mem_foldl_insertNew present with nowhere | found
  · cases nowhere
  · exact found

theorem insertNew_of_lt {key : String} {value : Json} {members : Members}
    (before : ∀ member ∈ members, key < member.1) :
    insertNew key value members = (key, value) :: members := by
  cases members with
  | nil => rfl
  | cons first rest => rw [insertNew, if_pos (before first List.mem_cons_self)]

/-- Members in order are in the order in which they are put. -/
theorem ofReversed_reverse {members : Members} (ascending : Ascending members) :
    ofReversed members.reverse = members := by
  rw [ofReversed, List.foldl_reverse]
  induction members with
  | nil => rfl
  | cons first rest ih =>
    obtain ⟨least, others⟩ := List.pairwise_cons.mp ascending
    rw [List.foldr_cons, ih others]
    exact insertNew_of_lt least

end TraceContainer.Members
