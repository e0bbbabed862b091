import TraceContainer.Proofs.Json.Spelling

namespace TraceContainer.Assembly

open Json (itemTokens moreItemTokens memberTokens moreMemberTokens)

/-- What a value's tokens lead to: the value, as it is read, is handed to the containers around it,
which leave room for it. -/
def Assembles (value : Json) : Prop :=
  ∀ frames rest, frames.length + value.depth ≤ maxDepth →
    (value.tokens ++ rest).foldlM accept (.value frames) =
      rest.foldlM accept (place value.reread.sorted frames)

private theorem foldlM_cons {state next : Assembly} {token : Token}
    (accepted : accept state token = some next) (rest : List Token) :
    (token :: rest).foldlM accept state = rest.foldlM accept next := by
  rw [List.foldlM_cons, accepted, Option.bind_eq_bind, Option.bind_some]

private theorem foldlM_nextItem (done : List Json) (frames : List Frame) (rest : List Token) :
    (.comma :: rest).foldlM accept (.afterItem done frames) =
      rest.foldlM accept (.value (.items done :: frames)) :=
  foldlM_cons rfl rest

private theorem foldlM_firstMember (key : String) (frames : List Frame) (rest : List Token) :
    (.text key :: .colon :: rest).foldlM accept (.firstKey frames) =
      rest.foldlM accept (.value (.member [] key :: frames)) :=
  (foldlM_cons rfl (.colon :: rest)).trans (foldlM_cons rfl rest)

private theorem foldlM_nextMember (done : Members) (key : String) (frames : List Frame)
    (rest : List Token) :
    (.comma :: .text key :: .colon :: rest).foldlM accept (.afterMember done frames) =
      rest.foldlM accept (.value (.member done key :: frames)) :=
  (foldlM_cons rfl (.text key :: .colon :: rest)).trans <|
    (foldlM_cons rfl (.colon :: rest)).trans (foldlM_cons rfl rest)

/-- A value does not start with the mark that ends an array. -/
private theorem foldlM_firstItem {value : Json} (frames : List Frame) (rest : List Token) :
    (value.tokens ++ rest).foldlM accept (.firstItem frames) =
      (value.tokens ++ rest).foldlM accept (.value (.items [] :: frames)) := by
  cases value <;> rfl

private theorem foldlM_moreItems {items : List Json} (each : ∀ item ∈ items, Assembles item)
    (done : List Json) (frames : List Frame) (rest : List Token)
    (room : frames.length + (Json.itemDepth items + 1) ≤ maxDepth) :
    (moreItemTokens items ++ rest).foldlM accept (.afterItem done frames) =
      rest.foldlM accept (place
        (.array (done.reverse ++ Json.sortedItems (Json.rereadItems items))) frames) := by
  induction items generalizing done with
  | nil =>
    rw [Json.rereadItems, Json.sortedItems, List.append_nil]
    exact foldlM_cons rfl rest
  | cons next later ih =>
    obtain ⟨first, others⟩ := List.forall_mem_cons.mp each
    rw [Json.itemDepth] at room
    have front := first (.items done :: frames) (moreItemTokens later ++ rest)
      (by rw [List.length_cons]; omega)
    rw [moreItemTokens, List.cons_append, List.cons_append, List.append_assoc, foldlM_nextItem,
      front]
    refine (ih others (next.reread.sorted :: done) (by omega)).trans ?_
    rw [List.reverse_cons, List.append_assoc, List.singleton_append, Json.rereadItems,
      Json.sortedItems]

private theorem foldlM_moreMembers {members : Members}
    (each : ∀ member ∈ members, Assembles member.2) (done : Members) (frames : List Frame)
    (rest : List Token) (room : frames.length + (Json.memberDepth members + 1) ≤ maxDepth) :
    (moreMemberTokens members ++ rest).foldlM accept (.afterMember done frames) =
      rest.foldlM accept (place (.object (Members.ofReversed
        ((Json.sortedMembers (Json.rereadMembers members)).reverse ++ done))) frames) := by
  induction members generalizing done with
  | nil => exact foldlM_cons rfl rest
  | cons next later ih =>
    obtain ⟨key, value⟩ := next
    obtain ⟨(first : Assembles value), others⟩ := List.forall_mem_cons.mp each
    rw [Json.memberDepth] at room
    have front := first (.member done key :: frames) (moreMemberTokens later ++ rest)
      (by rw [List.length_cons]; omega)
    simp only [moreMemberTokens, List.cons_append, List.append_assoc]
    rw [foldlM_nextMember, front]
    refine (ih others ((key, value.reread.sorted) :: done) (by omega)).trans ?_
    rw [Json.rereadMembers, Json.sortedMembers, List.reverse_cons, List.append_assoc,
      List.singleton_append]

theorem assembles (value : Json) : Assembles value := by
  -- Each item meets other containers around it and other tokens behind it, so both are arbitrary.
  induction value using Json.induct with
  | null => exact fun frames rest _ => foldlM_cons rfl rest
  | bool value =>
    intro frames rest _
    refine foldlM_cons ?_ rest
    rw [accept, start, Json.ofWord?_bool]
    rfl
  | number value =>
    intro frames rest _
    refine foldlM_cons ?_ rest
    rw [accept, start, Json.ofWord?_number]
    rfl
  | string value => exact fun frames rest _ => foldlM_cons rfl rest
  | array items ih =>
    intro frames rest room
    rw [Json.depth] at room
    have opened : accept (.value frames) .openArray = some (.firstItem frames) :=
      if_pos (by omega)
    rw [Json.tokens, List.cons_append, foldlM_cons opened]
    cases items with
    | nil => exact foldlM_cons rfl rest
    | cons first later =>
      obtain ⟨front, others⟩ := List.forall_mem_cons.mp ih
      rw [Json.itemDepth] at room
      rw [itemTokens, List.append_assoc, foldlM_firstItem,
        front (.items [] :: frames) _ (by rw [List.length_cons]; omega)]
      refine (foldlM_moreItems others [first.reread.sorted] frames rest (by omega)).trans ?_
      rw [Json.reread, Json.rereadItems, Json.sorted, Json.sortedItems]
      rfl
  | object members ih =>
    intro frames rest room
    rw [Json.depth] at room
    have opened : accept (.value frames) .openObject = some (.firstKey frames) :=
      if_pos (by omega)
    rw [Json.tokens, List.cons_append, foldlM_cons opened]
    cases members with
    | nil => exact foldlM_cons rfl rest
    | cons first later =>
      obtain ⟨key, value⟩ := first
      obtain ⟨(front : Assembles value), others⟩ := List.forall_mem_cons.mp ih
      rw [Json.memberDepth] at room
      simp only [memberTokens, List.cons_append, List.append_assoc]
      rw [foldlM_firstMember,
        front (.member [] key :: frames) _ (by rw [List.length_cons]; omega)]
      have behind :=
        foldlM_moreMembers others [(key, value.reread.sorted)] frames rest (by omega)
      refine behind.trans ?_
      rw [Json.reread, Json.rereadMembers, Json.sorted, Json.sortedMembers, List.reverse_cons]

/-- A value nested no deeper than a reader allows is read back from its tokens with the members of
its objects in order. -/
theorem run?_tokens {value : Json} (shallow : value.depth ≤ maxDepth) :
    run? value.tokens = some value.reread.sorted := by
  have whole := assembles value [] [] (by rw [List.length_nil]; omega)
  rw [List.append_nil] at whole
  rw [run?, whole]
  rfl

/-- What fits inside so many containers: members in order, and not too many containers inside. -/
def Fits (level : Nat) (value : Json) : Prop :=
  value.Ordered ∧ level + value.depth ≤ maxDepth

/-- Values fit into a container that stands inside these. -/
def Holds (frames : List Frame) (values : List Json) : Prop :=
  frames.length < maxDepth ∧ ∀ value ∈ values, Fits (frames.length + 1) value

def Held : List Frame → Prop
  | [] => True
  | .items done :: frames => Holds frames done ∧ Held frames
  | .member done _ :: frames => Holds frames (done.map (·.2)) ∧ Held frames

/-- The invariant of reading: whatever was read fits where it stands. -/
def Sound : Assembly → Prop
  | .value frames => Held frames
  | .firstItem frames | .firstKey frames => Holds frames [] ∧ Held frames
  | .afterItem done frames => Holds frames done ∧ Held frames
  | .nextKey done frames | .afterKey done _ frames | .afterMember done frames =>
    Holds frames (done.map (·.2)) ∧ Held frames
  | .complete result => Fits 0 result

private theorem Holds.cons {frames : List Frame} {values : List Json} {value : Json}
    (holds : Holds frames values) (fits : Fits (frames.length + 1) value) :
    Holds frames (value :: values) :=
  ⟨holds.1, List.forall_mem_cons.mpr ⟨fits, holds.2⟩⟩

private theorem Holds.subset {frames : List Frame} {values others : List Json}
    (holds : Holds frames values) (among : ∀ value ∈ others, value ∈ values) :
    Holds frames others :=
  ⟨holds.1, fun value present => holds.2 value (among value present)⟩

private theorem mem_values_ofReversed {reversed : Members} {value : Json}
    (present : value ∈ (Members.ofReversed reversed).map (·.2)) : value ∈ reversed.map (·.2) := by
  obtain ⟨member, inside, same⟩ := List.mem_map.mp present
  exact List.mem_map.mpr ⟨member, Members.mem_ofReversed inside, same⟩

private theorem length_le_of_held {frames : List Frame} (held : Held frames) :
    frames.length ≤ maxDepth := by
  match frames, held with
  | [], _ => exact Nat.zero_le _
  | .items _ :: _, ⟨⟨room, _⟩, _⟩ => exact room
  | .member _ _ :: _, ⟨⟨room, _⟩, _⟩ => exact room

theorem sound_place {value : Json} {frames : List Frame} (fits : Fits frames.length value)
    (held : Held frames) : Sound (place value frames) := by
  match frames, held with
  | [], _ => exact fits
  | .items _ :: _, ⟨holds, others⟩ => exact ⟨holds.cons fits, others⟩
  | .member _ _ :: _, ⟨holds, others⟩ => exact ⟨holds.cons fits, others⟩

private theorem fits_array {frames : List Frame} {items : List Json} (holds : Holds frames items) :
    Fits frames.length (.array items) := by
  obtain ⟨room, each⟩ := holds
  have deepest : Json.itemDepth items ≤ maxDepth - (frames.length + 1) :=
    Json.itemDepth_le.mpr fun item present => Nat.le_sub_of_add_le' (each item present).2
  refine ⟨Json.ordered_array.mpr fun item present => (each item present).1, ?_⟩
  rw [Json.depth]
  omega

private theorem fits_object {frames : List Frame} {members : Members}
    (holds : Holds frames (members.map (·.2))) (ascending : Members.Ascending members) :
    Fits frames.length (.object members) := by
  obtain ⟨room, each⟩ := holds
  rw [List.forall_mem_map] at each
  have deepest : Json.memberDepth members ≤ maxDepth - (frames.length + 1) :=
    Json.memberDepth_le.mpr fun member present => Nat.le_sub_of_add_le' (each member present).2
  refine ⟨Json.ordered_object.mpr ⟨ascending, fun member present => (each member present).1⟩, ?_⟩
  rw [Json.depth]
  omega

private theorem fits_flat {frames : List Frame} (held : Held frames) {value : Json}
    (flat : value.depth = 0) : Fits frames.length value := by
  have room := length_le_of_held held
  cases value with
  | array items => cases flat
  | object members => cases flat
  | _ => exact ⟨List.forall_mem_singleton.mpr Members.ascending_nil, room⟩

private theorem depth_of_ofWord? {spelling : List Char} {value : Json}
    (named : Json.ofWord? spelling = some value) : value.depth = 0 := by
  rw [Json.ofWord?] at named
  split at named
  · cases named
    rfl
  split at named
  · cases named
    rfl
  split at named
  · cases named
    rfl
  · obtain ⟨number, _, rfl⟩ := Option.map_eq_some_iff.mp named
    rfl

private theorem sound_start {frames : List Frame} (held : Held frames) {token : Token}
    {next : Assembly} (started : start frames token = some next) : Sound next := by
  unfold start at started
  split at started
  · obtain ⟨value, named, rfl⟩ := Option.map_eq_some_iff.mp started
    exact sound_place (fits_flat held (depth_of_ofWord? named)) held
  · cases started
    exact sound_place (fits_flat held rfl) held
  · split at started
    · rename_i room
      cases started
      exact ⟨⟨room, nofun⟩, held⟩
    · cases started
  · split at started
    · rename_i room
      cases started
      exact ⟨⟨room, nofun⟩, held⟩
    · cases started
  · cases started

private theorem sound_accept {state next : Assembly} {token : Token} (sound : Sound state)
    (accepted : accept state token = some next) : Sound next := by
  unfold accept at accepted
  split at accepted
  · exact sound_start sound accepted
  · cases accepted
    exact sound_place (fits_array sound.1) sound.2
  · exact sound_start (show Held (.items [] :: _) from sound) accepted
  · cases accepted
    exact sound
  · cases accepted
    exact sound_place (fits_array (sound.1.subset fun item => List.mem_reverse.mp)) sound.2
  · cases accepted
    exact sound_place (fits_object sound.1 Members.ascending_nil) sound.2
  · cases accepted
    exact sound
  · cases accepted
    exact sound
  · cases accepted
    exact sound
  · cases accepted
    exact sound
  · cases accepted
    have among := sound.1.subset fun value => mem_values_ofReversed
    exact sound_place (fits_object among (Members.ascending_ofReversed _)) sound.2
  · cases accepted

private theorem sound_foldlM {tokens : List Token} {state last : Assembly} (sound : Sound state)
    (accepted : tokens.foldlM accept state = some last) : Sound last := by
  induction tokens generalizing state with
  | nil =>
    cases accepted
    exact sound
  | cons token rest ih =>
    obtain ⟨next, first, later⟩ := Option.bind_eq_some_iff.mp accepted
    exact ih (sound_accept sound first) later

/-- Whatever is put together has the members of its objects in order and is nested no deeper than
a reader allows. -/
theorem ordered_of_run? {tokens : List Token} {value : Json}
    (assembled : run? tokens = some value) : value.Ordered ∧ value.depth ≤ maxDepth := by
  have begun : Sound (.value []) := trivial
  rw [run?] at assembled
  split at assembled
  · rename_i result whole
    cases assembled
    obtain ⟨ordered, shallow⟩ := sound_foldlM begun whole
    exact ⟨ordered, by omega⟩
  · cases assembled

end TraceContainer.Assembly
