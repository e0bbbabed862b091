import TraceContainer.Proofs.Scanning

/-! What the hint of a scan says of the items that it still gives. There are never more of them than
the upper bound. The lower bound of a scan without a filter counts on every record left, and one
that cannot be read lets the scan end below it, unless it is the last. -/
namespace TraceContainer

theorem EventFilter.keeps_of_inactive {filter : EventFilter} (inactive : filter.isActive = false)
    (event : Event) : filter.keeps event = true := by
  obtain ⟨timeRange?, threadIds⟩ := filter
  obtain ⟨noRange, noThreads⟩ : timeRange? = none ∧ threadIds = [] := by
    simpa [isActive] using inactive
  rw [noRange, noThreads]
  rfl

namespace Scan

/-- Records that are all kept give an item each, unless one in front of the last cannot be read. -/
theorem length_le_itemsOf_iff {keeps : Event → Bool} (all : ∀ event, keeps event = true)
    (outcomes : List (Except Error Event)) :
    outcomes.length ≤ (itemsOf keeps outcomes).length ↔
      ∀ place, place + 1 < outcomes.length → ∃ event, outcomes[place]? = some (.ok event) := by
  induction outcomes with
  | nil => simp [itemsOf]
  | cons outcome rest ih =>
    cases outcome with
    | error error =>
      -- The error is an item too, so it takes one away only from what stands behind it.
      simp only [itemsOf, List.length_cons, List.length_nil]
      constructor
      · intro single place inside
        omega
      · intro events
        apply Nat.le_of_not_lt
        intro more
        obtain ⟨event, impossible⟩ := events 0 more
        cases impossible
    | ok event =>
      rw [itemsOf, if_pos (all event), List.length_cons, List.length_cons, Nat.add_le_add_iff_right,
        ih]
      constructor
      · intro others place inside
        cases place with
        | zero => exact ⟨event, rfl⟩
        | succ place => exact others place (Nat.lt_of_succ_lt_succ inside)
      · intro events place inside
        exact events (place + 1) (Nat.succ_lt_succ inside)

theorem getElem?_outcomes {scan : Scan} {place : Nat} (inside : place < scan.remaining) :
    scan.outcomes[place]? = some (scan.eventAt (.ofNat (scan.position.toNat + place))) := by
  rw [outcomes, List.getElem?_map, List.getElem?_range inside, Option.map_some]

/-- Behind any number of calls to `next` a scan gives no more items than its hint says. It gives as
few as the hint says or more exactly if it has a filter, or every record left but the last can be
read. -/
theorem items_within_sizeHint (file : MappedFile) (indexOffset count : UInt64)
    (filter : EventFilter) (calls : Nat) :
    let scan := behind calls { file, indexOffset, count, filter }
    scan.items.length ≤ scan.sizeHint.2 ∧
    (scan.sizeHint.1 ≤ scan.items.length ↔ scan.filter.isActive = true ∨
      ∀ place, place + 1 < scan.remaining →
        ∃ event, scan.eventAt (.ofNat (scan.position.toNat + place)) = .ok event) := by
  intro scan
  have records := scan.length_outcomes
  rw [items_eq]
  refine ⟨?_, ?_⟩
  · change _ ≤ scan.remaining
    rw [← records]
    exact length_itemsOf_le scan.filter.keeps scan.outcomes
  · cases active : scan.filter.isActive with
    | true => simp [sizeHint, active]
    | false =>
      have all := length_le_itemsOf_iff (EventFilter.keeps_of_inactive active) scan.outcomes
      simp only [sizeHint, active, Bool.false_eq_true, if_false, false_or]
      rw [records] at all
      rw [all]
      refine forall_congr' fun place => forall_congr' fun inside => exists_congr fun event => ?_
      rw [getElem?_outcomes (Nat.lt_of_succ_lt inside), Option.some.injEq]

/-- An index of three records behind eight other bytes. The record in the middle has no known
type. -/
def brokenIndex : ByteArray :=
  Binary.pack (.replicate 8 170) ++ IndexRecord.encode ⟨100, 11, 0, 0, 0, 0⟩ ++
    IndexRecord.encode ⟨250, 12, 1, 99, 0, 0⟩ ++ IndexRecord.encode ⟨480, 11, 2, 6, 0, 0⟩

/-- The hint of a scan over it promises three items, and the scan gives two. -/
theorem items_below_sizeHint :
    let scan : Scan := {
      file := .ofMapping ⟨"a", brokenIndex⟩, indexOffset := 8, count := 3, filter := .all }
    scan.sizeHint = (3, 3) ∧ scan.items.length = 2 ∧ ¬ scan.sizeHint.1 ≤ scan.items.length := by
  decide +kernel

end Scan

end TraceContainer
