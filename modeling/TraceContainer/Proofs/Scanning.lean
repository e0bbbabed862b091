import TraceContainer.Scan
import TraceContainer.Proofs.Slices

namespace TraceContainer.Scan

theorem recordOffset?_eq_some_iff (scan : Scan) {place : Nat} (small : place < UInt64.size)
    (offset : UInt64) :
    scan.recordOffset? (.ofNat place) = some offset ↔
      offset.toNat = scan.indexOffset.toNat + 32 * place := by
  rw [recordOffset?, Binary.position_eq_some_iff, UInt64.toNat_ofNat_of_lt' small]
  rfl

theorem eventAt_inside {mapping : Mapping} {scan : Scan} (mapped : scan.file = .ofMapping mapping)
    {place : Nat} (small : scan.indexOffset.toNat + 32 * place + 32 < UInt64.size)
    (inside : scan.indexOffset.toNat + 32 * place + 32 ≤ mapping.bytes.size) :
    let start := scan.indexOffset.toNat + 32 * place
    scan.eventAt (.ofNat place) =
      (Event.decode (mapping.bytes.extract start (start + 32))).mapError fun cause =>
        .decode (.recordAt (.ofNat start) cause) := by
  intro start
  have size : Format.recordSize.toNat = 32 := rfl
  have offset : (UInt64.ofNat start).toNat = start :=
    UInt64.toNat_ofNat_of_lt' (Nat.lt_of_le_of_lt (Nat.le_add_right start 32) small)
  have found : scan.recordOffset? (.ofNat place) = some (.ofNat start) :=
    (scan.recordOffset?_eq_some_iff (by omega) _).mpr offset
  have slice : (MappedFile.ofMapping mapping).slice (.ofNat start) Format.recordSize =
      .ok (mapping.bytes.extract start (start + 32)) := by
    rw [MappedFile.slice_ofMapping (by rw [offset, size]; exact small)
      (by rw [offset, size]; exact inside), offset, size]
  simp only [eventAt, found, mapped, slice]

/-- A record that leaves the bytes cannot be had, whether or not its offset is a word. -/
theorem eventAt_beyond {mapping : Mapping} {scan : Scan} (mapped : scan.file = .ofMapping mapping)
    {place : Nat} (small : place < UInt64.size)
    (outside : mapping.bytes.size < scan.indexOffset.toNat + 32 * place + 32) :
    ∃ cause, scan.eventAt (.ofNat place) = .error (.mapping cause) := by
  rw [eventAt]
  cases found : scan.recordOffset? (.ofNat place) with
  | none => exact ⟨_, rfl⟩
  | some offset =>
    have start := (scan.recordOffset?_eq_some_iff small offset).mp found
    have beyond : mapping.bytes.size < offset.toNat + Format.recordSize.toNat := by
      rw [start]
      exact outside
    obtain ⟨cause, slice⟩ := MappedFile.slice_ofMapping_beyond beyond
    simp only [mapped, slice]
    exact ⟨cause, rfl⟩

/-- What the records hold that are not examined yet, in their order. -/
def outcomes (scan : Scan) : List (Except Error Event) :=
  (List.range scan.remaining).map fun place =>
    scan.eventAt (.ofNat (scan.position.toNat + place))

/-- The items that records give: the events kept up to the first error, and that error. -/
def itemsOf (keeps : Event → Bool) : List (Except Error Event) → List (Except Error Event)
  | [] => []
  | .error error :: _ => [.error error]
  | .ok event :: rest =>
    if keeps event then .ok event :: itemsOf keeps rest else itemsOf keeps rest

theorem length_itemsOf_le (keeps : Event → Bool) (outcomes : List (Except Error Event)) :
    (itemsOf keeps outcomes).length ≤ outcomes.length := by
  induction outcomes with
  | nil => simp [itemsOf]
  | cons outcome rest ih =>
    cases outcome with
    | error error => simp [itemsOf]
    | ok event =>
      rw [itemsOf]
      split
      · simpa using ih
      · exact Nat.le_succ_of_le ih

/-- A filter takes items away in front of the error and nothing else. -/
theorem itemsOf_eq (keeps : Event → Bool) (outcomes : List (Except Error Event)) :
    itemsOf keeps outcomes = ((resultOf outcomes).events.filter keeps).map .ok ++
      (resultOf outcomes).stoppedBy.toList.map .error := by
  induction outcomes with
  | nil => rfl
  | cons outcome rest ih =>
    cases outcome with
    | error error => rfl
    | ok event =>
      rw [itemsOf, ih]
      cases kept : keeps event <;> simp [resultOf, kept]

theorem itemsOf_ok (keeps : Event → Bool) (events : List Event) :
    itemsOf keeps (events.map .ok) = (events.filter keeps).map .ok := by
  induction events with
  | nil => rfl
  | cons event rest ih =>
    rw [List.map_cons, itemsOf, ih, List.filter_cons]
    split <;> rfl

@[simp] theorem length_outcomes (scan : Scan) : scan.outcomes.length = scan.remaining := by
  simp [outcomes]

theorem outcomes_of_remaining_eq_zero {scan : Scan} (finished : scan.remaining = 0) :
    scan.outcomes = [] := by
  simp [outcomes, finished]

theorem remaining_at_count (scan : Scan) : { scan with position := scan.count }.remaining = 0 := by
  simp [remaining]

/-- The position stays below the number of records, so that it cannot wrap around. -/
theorem toNat_position_succ {scan : Scan} (unfinished : 0 < scan.remaining) :
    (scan.position + 1).toNat = scan.position.toNat + 1 := by
  have bound := scan.count.toNat_lt
  rw [remaining] at unfinished
  rw [UInt64.toNat_add, UInt64.toNat_one, Nat.mod_eq_of_lt (by omega)]

theorem remaining_succ {scan : Scan} {records : Nat} (left : scan.remaining = records + 1) :
    { scan with position := scan.position + 1 }.remaining = records := by
  have position := toNat_position_succ (show 0 < scan.remaining by omega)
  rw [remaining] at left
  change scan.count.toNat - (scan.position + 1).toNat = records
  omega

theorem outcomes_succ {scan : Scan} {records : Nat} (left : scan.remaining = records + 1) :
    scan.outcomes =
      scan.eventAt scan.position :: { scan with position := scan.position + 1 }.outcomes := by
  have position := toNat_position_succ (show 0 < scan.remaining by omega)
  rw [outcomes, outcomes, left, remaining_succ left, List.range_succ_eq_map, List.map_cons,
    List.map_map, Nat.add_zero, UInt64.ofNat_toNat, position]
  congr 1
  apply List.map_congr_left
  intro place _
  rw [Function.comp_apply, Nat.succ_eq_add_one, Nat.add_assoc, Nat.add_comm 1 place]
  rfl

/-- The ways in which a call to `next` can go. It passes events that the filter leaves out, up to a
record that gives an item, or up to the last. -/
inductive Advances (scan : Scan) : Option (Except Error Event) → Scan → Prop where
  | kept {passed : List Event} {event : Event} {position : UInt64}
    (leftOut : ∀ other ∈ passed, scan.filter.keeps other = false)
    (keeps : scan.filter.keeps event = true)
    (records : scan.outcomes = passed.map .ok ++ .ok event :: { scan with position }.outcomes) :
    Advances scan (some (.ok event)) { scan with position }
  | failed {passed : List Event} {error : Error} {rest : List (Except Error Event)}
    (leftOut : ∀ other ∈ passed, scan.filter.keeps other = false)
    (records : scan.outcomes = passed.map .ok ++ .error error :: rest) :
    Advances scan (some (.error error)) { scan with position := scan.count }
  | ended {passed : List Event} {position : UInt64}
    (leftOut : ∀ other ∈ passed, scan.filter.keeps other = false)
    (records : scan.outcomes = passed.map .ok)
    (finished : { scan with position }.remaining = 0) : Advances scan none { scan with position }

/-- A record that is left out is passed, and the call goes on with the next one. -/
theorem Advances.pass {scan later : Scan} {event : Event} {position : UInt64}
    {answer : Option (Except Error Event)}
    (advances : { scan with position }.Advances answer later)
    (leftOut : scan.filter.keeps event = false)
    (first : scan.outcomes = .ok event :: { scan with position }.outcomes) :
    scan.Advances answer later := by
  have both {passed : List Event} (others : ∀ other ∈ passed, scan.filter.keeps other = false) :
      ∀ other ∈ event :: passed, scan.filter.keeps other = false :=
    List.forall_mem_cons.mpr ⟨leftOut, others⟩
  have more {rest : List (Except Error Event)} (records : { scan with position }.outcomes = rest) :
      scan.outcomes = .ok event :: rest :=
    records ▸ first
  cases advances with
  | kept others keeps records => exact .kept (both others) keeps (more records)
  | failed others records => exact .failed (both others) (more records)
  | ended others records finished => exact .ended (both others) (more records) finished

theorem advances_advance (scan : Scan) {records : Nat} (left : scan.remaining = records) :
    scan.Advances (advance records scan).1 (advance records scan).2 := by
  induction records generalizing scan with
  | zero =>
    have nothing := outcomes_of_remaining_eq_zero left
    exact @Advances.ended scan [] scan.position nofun nothing left
  | succ records ih =>
    have first := outcomes_succ left
    rw [advance]
    cases found : scan.eventAt scan.position with
    | error error =>
      rw [found] at first
      exact @Advances.failed scan [] error _ nofun first
    | ok event =>
      rw [found] at first
      cases kept : scan.filter.keeps event with
      | true =>
        simp only [kept, if_true]
        exact @Advances.kept scan [] event _ nofun kept first
      | false =>
        simp only [kept, Bool.false_eq_true, if_false]
        exact (ih _ (remaining_succ left)).pass kept first

theorem advances_next (scan : Scan) : scan.Advances scan.next.1 scan.next.2 :=
  scan.advances_advance rfl

theorem itemsOf_passed {keeps : Event → Bool} {passed : List Event}
    (leftOut : ∀ event ∈ passed, keeps event = false) (rest : List (Except Error Event)) :
    itemsOf keeps (passed.map .ok ++ rest) = itemsOf keeps rest := by
  induction passed with
  | nil => rfl
  | cons event others ih =>
    obtain ⟨first, later⟩ := List.forall_mem_cons.mp leftOut
    rw [List.map_cons, List.cons_append, itemsOf, first, if_neg Bool.false_ne_true, ih later]

/-- A call to `next` moves the position alone. The item stands first among those still to come, and
fewer records are left for the others. -/
theorem next_spec (scan : Scan) :
    ∃ position, let later := { scan with position }
      (scan.next = (none, later) ∧
        itemsOf scan.filter.keeps scan.outcomes = [] ∧ later.remaining = 0) ∨
      ∃ item, scan.next = (some item, later) ∧
        itemsOf scan.filter.keeps scan.outcomes =
          item :: itemsOf scan.filter.keeps later.outcomes ∧
        later.remaining < scan.remaining := by
  have step := scan.advances_next
  have total := scan.length_outcomes
  generalize scan.next = outcome at step
  obtain ⟨answer, later⟩ := outcome
  cases step with
  | @kept passed event position leftOut keeps records =>
    refine ⟨position, .inr ⟨.ok event, rfl, ?_, ?_⟩⟩
    · rw [records, itemsOf_passed leftOut, itemsOf, if_pos keeps]
    · rw [records, List.length_append, List.length_cons, length_outcomes] at total
      omega
  | @failed passed error rest leftOut records =>
    have finished := remaining_at_count scan
    refine ⟨scan.count, .inr ⟨.error error, rfl, ?_, ?_⟩⟩
    · rw [records, itemsOf_passed leftOut, outcomes_of_remaining_eq_zero finished, itemsOf, itemsOf]
    · rw [records, List.length_append, List.length_cons] at total
      omega
  | @ended passed position leftOut records finished =>
    refine ⟨position, .inl ⟨rfl, ?_, finished⟩⟩
    rw [records, ← List.append_nil (passed.map _), itemsOf_passed leftOut, itemsOf]

/-- Calls to `next` give the items one after the other. -/
theorem take_eq (calls : Nat) (scan : Scan) :
    take calls scan = (itemsOf scan.filter.keeps scan.outcomes).take calls := by
  induction calls generalizing scan with
  | zero => simp [take]
  | succ calls ih =>
    obtain ⟨position, ⟨ended, nothing, _⟩ | ⟨item, found, items, _⟩⟩ := next_spec scan
    · simp only [take, ended, nothing, List.take_nil]
    · simp only [take, found, items, List.take_succ_cons, ih]

theorem items_eq (scan : Scan) : scan.items = itemsOf scan.filter.keeps scan.outcomes := by
  have fits := length_itemsOf_le scan.filter.keeps scan.outcomes
  rw [length_outcomes] at fits
  rw [items, take_eq, List.take_of_length_le fits]

theorem next_items (scan : Scan) :
    scan.next.1 = scan.items.head? ∧ scan.next.2.items = scan.items.tail := by
  obtain ⟨position, ⟨ended, nothing, finished⟩ | ⟨item, found, items, _⟩⟩ := next_spec scan
  · rw [items_eq, items_eq, ended, nothing, outcomes_of_remaining_eq_zero finished]
    exact ⟨rfl, rfl⟩
  · rw [items_eq, items_eq, found, items]
    exact ⟨rfl, rfl⟩

def behind : Nat → Scan → Scan
  | 0, scan => scan
  | calls + 1, scan => behind calls scan.next.2

theorem behind_succ (calls : Nat) (scan : Scan) :
    behind (calls + 1) scan = (behind calls scan).next.2 := by
  induction calls generalizing scan with
  | zero => rfl
  | succ calls ih => rw [behind, ih, behind]

theorem exists_behind (calls : Nat) (scan : Scan) :
    ∃ position, behind calls scan = { scan with position } := by
  induction calls with
  | zero => exact ⟨scan.position, rfl⟩
  | succ calls ih =>
    obtain ⟨former, reached⟩ := ih
    obtain ⟨position, ⟨ended, _⟩ | ⟨_, found, _⟩⟩ := (behind calls scan).next_spec
    · exact ⟨position, by rw [behind_succ, ended, reached]⟩
    · exact ⟨position, by rw [behind_succ, found, reached]⟩

/-- Calls to `next` take as many items away as there are calls. -/
theorem items_behind (calls : Nat) (scan : Scan) :
    (behind calls scan).items = scan.items.drop calls := by
  induction calls generalizing scan with
  | zero => rfl
  | succ calls ih => rw [behind, ih, (next_items scan).2, List.drop_tail]

theorem next_behind (calls : Nat) (scan : Scan) :
    (behind calls scan).next.1 = scan.items[calls]? := by
  rw [(next_items _).1, items_behind, List.head?_drop]

theorem mem_outcomes_of_mem_itemsOf {keeps : Event → Bool} {outcomes : List (Except Error Event)}
    {item : Except Error Event} (member : item ∈ itemsOf keeps outcomes) : item ∈ outcomes := by
  induction outcomes with
  | nil => exact member
  | cons outcome rest ih =>
    cases outcome with
    | error error =>
      rw [List.mem_singleton.mp member]
      exact List.mem_cons_self
    | ok event =>
      rw [itemsOf] at member
      split at member
      · rcases List.mem_cons.mp member with same | later
        · exact List.mem_cons.mpr (.inl same)
        · exact List.mem_cons_of_mem _ (ih later)
      · exact List.mem_cons_of_mem _ (ih member)

end TraceContainer.Scan
