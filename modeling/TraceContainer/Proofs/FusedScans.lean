import Mathlib.Data.List.ReduceOption
import TraceContainer.Proofs.Scanning

/-! What any number of calls to `next` give, also behind the last item. Events come first, then the
error if there is one, and from then on nothing. The upper bound of the hint is the number of
records that no call has examined, until an error gives up all that are left. -/
namespace TraceContainer.Scan

def answers : Nat → Scan → List (Option (Except Error Event))
  | 0, _ => []
  | calls + 1, scan => scan.next.1 :: answers calls scan.next.2

/-- How many records are examined by a number of calls to `next`: each call goes on to the next
event that is kept, and none goes past an error or the last record. -/
def examined (keeps : Event → Bool) : Nat → List (Except Error Event) → Nat
  | 0, _ => 0
  | _ + 1, [] => 0
  | _ + 1, .error _ :: _ => 1
  | calls + 1, .ok event :: rest =>
    examined keeps (if keeps event then calls else calls + 1) rest + 1

theorem examined_passed {keeps : Event → Bool} {passed : List Event}
    (leftOut : ∀ event ∈ passed, keeps event = false) (calls : Nat)
    (rest : List (Except Error Event)) :
    examined keeps (calls + 1) (passed.map .ok ++ rest) =
      passed.length + examined keeps (calls + 1) rest := by
  induction passed with
  | nil => simp
  | cons event others ih =>
    obtain ⟨first, later⟩ := List.forall_mem_cons.mp leftOut
    rw [List.map_cons, List.cons_append, examined, first, if_neg Bool.false_ne_true, ih later,
      List.length_cons]
    omega

theorem itemsOf_take_examined (keeps : Event → Bool) (calls : Nat)
    (outcomes : List (Except Error Event)) :
    itemsOf keeps (outcomes.take (examined keeps calls outcomes)) =
      (itemsOf keeps outcomes).take calls := by
  induction outcomes generalizing calls with
  | nil => simp [itemsOf]
  | cons outcome rest ih =>
    cases calls with
    | zero => simp [examined, itemsOf]
    | succ calls =>
      cases outcome with
      | error error => simp [examined, itemsOf]
      | ok event =>
        rw [examined, List.take_succ_cons, itemsOf, itemsOf, ih]
        cases kept : keeps event <;> simp

section Finished

variable {scan : Scan} (finished : scan.remaining = 0)

include finished

theorem behind_of_finished (calls : Nat) : behind calls scan = scan := by
  have still : scan.next.2 = scan := by rw [next, finished, advance]
  induction calls with
  | zero => rfl
  | succ calls ih => rw [behind, still, ih]

theorem answers_of_finished (calls : Nat) : answers calls scan = List.replicate calls none := by
  have silent : scan.next = (none, scan) := by rw [next, finished, advance]
  induction calls with
  | zero => rfl
  | succ calls ih => rw [answers, silent, ih, List.replicate_succ]

theorem sizeHint_of_finished : scan.sizeHint = (0, 0) := by
  simp [sizeHint, finished]

end Finished

theorem remaining_next_le (scan : Scan) : scan.next.2.remaining ≤ scan.remaining := by
  obtain ⟨_, ⟨ended, _, finished⟩ | ⟨_, found, _, fewer⟩⟩ := scan.next_spec
  · rw [ended, finished]
    exact Nat.zero_le _
  · rw [found]
    exact Nat.le_of_lt fewer

theorem remaining_next_lt {scan : Scan} {item : Except Error Event}
    (found : scan.next.1 = some item) : scan.next.2.remaining < scan.remaining := by
  obtain ⟨_, ⟨ended, _⟩ | ⟨_, same, _, fewer⟩⟩ := scan.next_spec
  · rw [ended] at found
    cases found
  · rw [same]
    exact fewer

/-- An answer that is no event leaves no record unexamined. -/
theorem Advances.finished {scan later : Scan} {answer : Option (Except Error Event)}
    (advances : scan.Advances answer later) (noEvent : ∀ event, answer ≠ some (.ok event)) :
    later.remaining = 0 := by
  cases advances with
  | kept => exact absurd rfl (noEvent _)
  | failed => exact scan.remaining_at_count
  | ended _ _ finished => exact finished

theorem finished_of_mem_answers {calls : Nat} {scan : Scan} {answer : Option (Except Error Event)}
    (given : answer ∈ answers calls scan) (noEvent : ∀ event, answer ≠ some (.ok event)) :
    (behind calls scan).remaining = 0 := by
  induction calls generalizing scan with
  | zero => cases given
  | succ calls ih =>
    rcases List.mem_cons.mp given with rfl | later
    · have finished := scan.advances_next.finished noEvent
      rw [behind, behind_of_finished finished, finished]
    · exact ih later

/-- Before an error the records that are left are those that no call has examined. -/
theorem examined_add_remaining {calls : Nat} {scan : Scan}
    (unbroken : ∀ error, some (.error error) ∉ answers calls scan) :
    examined scan.filter.keeps calls scan.outcomes + (behind calls scan).remaining =
      scan.remaining := by
  induction calls generalizing scan with
  | zero => rw [examined, behind, Nat.zero_add]
  | succ calls ih =>
    have step := scan.advances_next
    rw [answers] at unbroken
    rw [behind]
    generalize scan.next.1 = answer at step unbroken
    generalize scan.next.2 = later at step unbroken ⊢
    have total := scan.length_outcomes
    cases step with
    | @kept passed event position leftOut keeps records =>
      have others : examined scan.filter.keeps calls { scan with position }.outcomes +
          (behind calls { scan with position }).remaining = { scan with position }.remaining :=
        ih fun error given => unbroken error (List.mem_cons_of_mem _ given)
      rw [records, List.length_append, List.length_map, List.length_cons, length_outcomes] at total
      rw [records, examined_passed leftOut, examined, if_pos keeps]
      omega
    | failed => exact absurd List.mem_cons_self (unbroken _)
    | @ended passed position leftOut records finished =>
      rw [records, List.length_map] at total
      rw [records, ← List.append_nil (passed.map _), examined_passed leftOut, examined,
        behind_of_finished finished, finished, ← total]
      rfl

/-- Events, at most one error, and nothing behind it. -/
theorem exists_answers (calls : Nat) (scan : Scan) :
    ∃ (events : List Event) (stop? : Option Error) (silent : Nat), answers calls scan =
      events.map (some <| .ok ·) ++ stop?.toList.map (some <| .error ·) ++
        List.replicate silent none := by
  induction calls generalizing scan with
  | zero => exact ⟨[], none, 0, rfl⟩
  | succ calls ih =>
    have step := scan.advances_next
    rw [answers]
    generalize scan.next.1 = answer at step ⊢
    generalize scan.next.2 = later at step ⊢
    cases step with
    | kept =>
      obtain ⟨events, stop?, silent, others⟩ := ih _
      exact ⟨_ :: events, stop?, silent, congrArg _ others⟩
    | failed =>
      have silent := answers_of_finished scan.remaining_at_count calls
      exact ⟨[], some _, calls, congrArg _ silent⟩
    | ended _ _ finished =>
      exact ⟨[], none, calls + 1, congrArg _ (answers_of_finished finished calls)⟩

theorem reduceOption_answers (calls : Nat) (scan : Scan) :
    (answers calls scan).reduceOption = scan.items.take calls := by
  induction calls generalizing scan with
  | zero => rw [answers, List.reduceOption_nil, List.take_zero]
  | succ calls ih =>
    obtain ⟨first, others⟩ := next_items scan
    rw [answers, first]
    cases items : scan.items with
    | nil =>
      rw [List.head?_nil, List.reduceOption_cons_of_none, ih, others, items, List.tail_nil,
        List.take_nil, List.take_nil]
    | cons item rest =>
      rw [List.head?_cons, List.reduceOption_cons_of_some, ih, others, items, List.tail_cons,
        List.take_succ_cons]

/-- However often a scan is asked for its next item, it gives events, then at most one error, and
then nothing any more, and once it has given anything but an event its hint is empty. Before an
error the upper bound of the hint counts the records that were not examined; it never grows, and
falls with every item. The items of some calls and those left behind them are all items, and those
left are had by calls that are enough of them. -/
theorem answers_fused (file : MappedFile) (indexOffset count : UInt64) (filter : EventFilter)
    (calls : Nat) :
    let scan : Scan := { file, indexOffset, count, filter }
    let later := behind calls scan
    let records := examined filter.keeps calls scan.outcomes
    (∃ (events : List Event) (stop? : Option Error) (silent : Nat), answers calls scan =
      events.map (some <| .ok ·) ++ stop?.toList.map (some <| .error ·) ++
        List.replicate silent none) ∧
    (∀ answer ∈ answers calls scan, (∀ event, answer ≠ some (.ok event)) →
      ∀ more, (behind more later).next.1 = none ∧ (behind more later).sizeHint = (0, 0)) ∧
    ((∀ error, some (.error error) ∉ answers calls scan) →
      later.sizeHint.2 + records = count.toNat ∧
      (answers calls scan).reduceOption = itemsOf filter.keeps (scan.outcomes.take records)) ∧
    later.next.2.sizeHint.2 ≤ later.sizeHint.2 ∧
    (∀ item, later.next.1 = some item → later.next.2.sizeHint.2 < later.sizeHint.2) ∧
    (answers calls scan).reduceOption ++ later.items = scan.items ∧
    (∀ more, later.items.length ≤ more → (answers more later).reduceOption = later.items) := by
  intro scan later records
  have given := reduceOption_answers calls scan
  refine ⟨exists_answers calls scan, ?_, ?_, later.remaining_next_le,
    fun _ => remaining_next_lt, ?_, ?_⟩
  · intro answer member noEvent more
    have finished := finished_of_mem_answers member noEvent
    rw [behind_of_finished finished, next, finished]
    exact ⟨rfl, sizeHint_of_finished finished⟩
  · intro unbroken
    refine ⟨(Nat.add_comm _ _).trans (examined_add_remaining unbroken), ?_⟩
    rw [given, items_eq]
    exact (itemsOf_take_examined filter.keeps calls scan.outcomes).symm
  · rw [given, items_behind, List.take_append_drop]
  · intro more enough
    rw [reduceOption_answers, List.take_of_length_le enough]

end TraceContainer.Scan
