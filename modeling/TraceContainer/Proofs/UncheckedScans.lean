import TraceContainer.Proofs.FilteredScans
import TraceContainer.Proofs.SizeHints

/-! Scans whose records are only taken to start at an offset and to be so many, in a file that was
not asked. Whatever the two numbers are, a scan ends at the first record that has no known type or
leaves the file, and examines none behind it. -/
namespace TraceContainer.Scan

/-- At a place that a scan comes to there is an error. -/
def StopsAt (scan : Scan) (place : Nat) : Prop :=
  place < scan.count.toNat → ∃ error, scan.eventAt (.ofNat place) = .error error

/-- A scan that has not passed a place, or has nothing left to examine. -/
def Within (scan : Scan) (place : Nat) : Prop :=
  scan.position.toNat ≤ place ∨ scan.remaining = 0

theorem StopsAt.position_lt {scan : Scan} {place : Nat} (stops : scan.StopsAt place)
    (within : scan.position.toNat ≤ place) (unfinished : 0 < scan.remaining) {event : Event}
    (found : scan.eventAt scan.position = .ok event) : scan.position.toNat < place := by
  apply Nat.lt_of_le_of_ne within
  intro same
  rw [remaining] at unfinished
  obtain ⟨error, failed⟩ := stops (by omega)
  rw [← same, UInt64.ofNat_toNat, found] at failed
  cases failed

theorem Within.advance {scan : Scan} {place : Nat} (within : scan.Within place)
    (stops : scan.StopsAt place) {records : Nat} (left : scan.remaining = records) :
    (advance records scan).2.Within place := by
  induction records generalizing scan with
  | zero => exact within
  | succ records ih =>
    have unfinished : 0 < scan.remaining := by omega
    have before : scan.position.toNat ≤ place := within.resolve_right (Nat.ne_of_gt unfinished)
    rw [Scan.advance]
    cases found : scan.eventAt scan.position with
    | error error => exact .inr scan.remaining_at_count
    | ok event =>
      have further : { scan with position := scan.position + 1 }.Within place := by
        left
        rw [toNat_position_succ unfinished]
        exact stops.position_lt before unfinished found
      cases kept : scan.filter.keeps event with
      | true =>
        simp only [kept, if_true]
        exact further
      | false =>
        simp only [kept, Bool.false_eq_true, if_false]
        exact ih further stops (remaining_succ left)

/-- No record behind the place at which a scan stops is examined on the way to the next item. -/
theorem advance_eq_min {scan : Scan} {place : Nat} (within : scan.position.toNat ≤ place)
    (stops : scan.StopsAt place) {records : Nat} (left : scan.remaining = records) :
    advance records scan = advance (min records (place + 1 - scan.position.toNat)) scan := by
  induction records generalizing scan with
  | zero => rw [Nat.zero_min]
  | succ records ih =>
    have unfinished : 0 < scan.remaining := by omega
    have bound : min (records + 1) (place + 1 - scan.position.toNat) =
        min records (place - scan.position.toNat) + 1 := by omega
    rw [bound, advance, advance]
    cases found : scan.eventAt scan.position with
    | error error => rfl
    | ok event =>
      have before := stops.position_lt within unfinished found
      have position := toNat_position_succ unfinished
      cases kept : scan.filter.keeps event with
      | true => simp only [kept, if_true]
      | false =>
        have further : { scan with position := scan.position + 1 }.position.toNat ≤ place := by
          rw [position]
          exact before
        have later := ih further stops (remaining_succ left)
        simp only [position, Nat.add_sub_add_right] at later
        simp only [kept, Bool.false_eq_true, if_false]
        exact later

theorem StopsAt.behind {scan : Scan} {place : Nat} (stops : scan.StopsAt place) (calls : Nat) :
    (behind calls scan).StopsAt place := by
  obtain ⟨position, reached⟩ := exists_behind calls scan
  rw [reached]
  exact stops

theorem Within.behind {scan : Scan} {place : Nat} (within : scan.Within place)
    (stops : scan.StopsAt place) (calls : Nat) : (behind calls scan).Within place := by
  induction calls with
  | zero => exact within
  | succ calls ih =>
    rw [behind_succ]
    exact ih.advance (stops.behind calls) rfl

theorem Within.next_eq_min {scan : Scan} {place : Nat} (within : scan.Within place)
    (stops : scan.StopsAt place) :
    scan.next = Scan.advance (min scan.remaining (place + 1 - scan.position.toNat)) scan := by
  rcases within with before | finished
  · exact advance_eq_min before stops rfl
  · rw [next, finished, Nat.zero_min]

/-- The number of whole records between an offset and the end of the bytes. -/
def wholeRecords (bytes : ByteArray) (indexOffset : UInt64) : Nat :=
  (bytes.size - indexOffset.toNat) / 32

def UnknownAt (bytes : ByteArray) (indexOffset : UInt64) (place : Nat) (code : UInt32) : Prop :=
  Binary.number? bytes (indexOffset.toNat + 32 * place + 16) 4 = some code.toNat ∧ 6 < code.toNat

/-- The ways in which a scan ends that takes its records to start at an offset, unchecked: behind so
many events, and with an error or without. -/
inductive Ends (bytes : ByteArray) (indexOffset : UInt64) (count : Nat) :
    Nat → Option Error → Prop where
  | unknown {place : Nat} {code : UInt32} {offset : UInt64}
    (known : ∀ earlier < place, ∀ code, ¬ UnknownAt bytes indexOffset earlier code)
    (inside : place < min count (wholeRecords bytes indexOffset))
    (unknown : UnknownAt bytes indexOffset place code)
    (start : offset.toNat = indexOffset.toNat + 32 * place) :
    Ends bytes indexOffset count place (some (.decode (.recordAt offset (.unknownType code))))
  | short {cause : MappingError}
    (known : ∀ earlier < wholeRecords bytes indexOffset, ∀ code,
      ¬ UnknownAt bytes indexOffset earlier code)
    (short : wholeRecords bytes indexOffset < count) :
    Ends bytes indexOffset count (wholeRecords bytes indexOffset) (some (.mapping cause))
  | complete (known : ∀ earlier < count, ∀ code, ¬ UnknownAt bytes indexOffset earlier code)
    (enough : count ≤ wholeRecords bytes indexOffset) :
    Ends bytes indexOffset count count none

section Records

variable {mapping : Mapping} {scan : Scan} (mapped : scan.file = .ofMapping mapping)
  (small : mapping.bytes.size < 2 ^ 63)

include small in
theorem wholeRecords_lt (indexOffset : UInt64) :
    wholeRecords mapping.bytes indexOffset < UInt64.size := by
  rw [wholeRecords, UInt64.size]
  omega

include mapped

theorem eventAt_behind_whole {place : Nat} (word : place < UInt64.size)
    (outside : wholeRecords mapping.bytes scan.indexOffset ≤ place) :
    ∃ cause, scan.eventAt (.ofNat place) = .error (.mapping cause) := by
  apply eventAt_beyond mapped word
  rw [wholeRecords] at outside
  omega

include small

theorem eventAt_whole {place : Nat} (inside : place < wholeRecords mapping.bytes scan.indexOffset) :
    let start := scan.indexOffset.toNat + 32 * place
    (∃ code offset, UnknownAt mapping.bytes scan.indexOffset place code ∧ offset.toNat = start ∧
      scan.eventAt (.ofNat place) = .error (.decode (.recordAt offset (.unknownType code)))) ∨
    (∃ event, (∀ code, ¬ UnknownAt mapping.bytes scan.indexOffset place code) ∧
      Event.decode (mapping.bytes.extract start (start + 32)) = .ok event ∧
      scan.eventAt (.ofNat place) = .ok event) := by
  intro start
  have within : start + 32 ≤ mapping.bytes.size := by
    rw [wholeRecords] at inside
    omega
  have bound : start + 32 < UInt64.size := by
    rw [UInt64.size]
    omega
  have record := eventAt_inside mapped bound within
  obtain ⟨code, found, ⟨large, failure⟩ | ⟨known, event, success⟩⟩ := Event.decode_window within
  · refine .inl ⟨code, .ofNat start, ⟨found, large⟩, ?_, ?_⟩
    · exact UInt64.toNat_ofNat_of_lt' (Nat.lt_of_le_of_lt (Nat.le_add_right start 32) bound)
    · exact record.trans (by rw [failure]; rfl)
  · refine .inr ⟨event, ?_, success, ?_⟩
    · rintro other ⟨again, large⟩
      rw [found, Option.some.injEq] at again
      omega
    · exact record.trans (by rw [success]; rfl)

theorem stopsAt_wholeRecords : scan.StopsAt (wholeRecords mapping.bytes scan.indexOffset) := by
  intro _
  obtain ⟨cause, failed⟩ :=
    eventAt_behind_whole mapped (wholeRecords_lt small scan.indexOffset) (Nat.le_refl _)
  exact ⟨_, failed⟩

theorem whole_of_ok {place : Nat} (word : place < UInt64.size) {event : Event}
    (found : scan.eventAt (.ofNat place) = .ok event) :
    place < wholeRecords mapping.bytes scan.indexOffset ∧
      (∀ code, ¬ UnknownAt mapping.bytes scan.indexOffset place code) ∧
      Event.decode (mapping.bytes.extract (scan.indexOffset.toNat + 32 * place)
        (scan.indexOffset.toNat + 32 * place + 32)) = .ok event := by
  rcases Nat.lt_or_ge place (wholeRecords mapping.bytes scan.indexOffset) with inside | outside
  · obtain ⟨_, _, _, _, failed⟩ | ⟨other, known, decoded, again⟩ := eventAt_whole mapped small inside
    · rw [found] at failed
      cases failed
    · rw [found] at again
      cases again
      exact ⟨inside, known, decoded⟩
  · obtain ⟨cause, failed⟩ := eventAt_behind_whole mapped word outside
    rw [found] at failed
    cases failed

/-- An error ends a scan at the first record of no known type, or behind the last whole record. -/
theorem ends_of_error {place : Nat} (counted : place < scan.count.toNat)
    (known : ∀ earlier < place, earlier < wholeRecords mapping.bytes scan.indexOffset ∧
      ∀ code, ¬ UnknownAt mapping.bytes scan.indexOffset earlier code)
    {error : Error} (failed : scan.eventAt (.ofNat place) = .error error) :
    Ends mapping.bytes scan.indexOffset scan.count.toNat place (some error) := by
  have known' := fun earlier before => (known earlier before).2
  rcases Nat.lt_or_ge place (wholeRecords mapping.bytes scan.indexOffset) with inside | outside
  · obtain ⟨code, offset, unknown, start, found⟩ | ⟨_, _, _, found⟩ :=
      eventAt_whole mapped small inside
    · rw [failed] at found
      cases found
      exact .unknown known' (Nat.lt_min.mpr ⟨counted, inside⟩) unknown start
    · rw [failed] at found
      cases found
  · -- All places in front are those of whole records, so this one is right behind the last.
    have last : place = wholeRecords mapping.bytes scan.indexOffset :=
      Nat.le_antisymm (Nat.le_of_not_lt fun beyond =>
        Nat.lt_irrefl _ (known _ beyond).1) outside
    subst last
    obtain ⟨cause, found⟩ :=
      eventAt_behind_whole mapped (wholeRecords_lt small scan.indexOffset) (Nat.le_refl _)
    rw [failed] at found
    cases found
    exact .short known' counted

theorem ends_of_fresh (fresh : scan.position = 0) :
    let result := resultOf scan.outcomes
    Ends mapping.bytes scan.indexOffset scan.count.toNat result.events.length result.stoppedBy ∧
      ∀ place (inside : place < result.events.length),
        let start := scan.indexOffset.toNat + 32 * place
        Event.decode (mapping.bytes.extract start (start + 32)) = .ok result.events[place] := by
  intro result
  have remaining : scan.remaining = scan.count.toNat := by
    rw [Scan.remaining, fresh, UInt64.toNat_zero, Nat.sub_zero]
  have outcome {place : Nat} {outcome : Except Error Event}
      (found : scan.outcomes[place]? = some outcome) :
      place < scan.count.toNat ∧ scan.eventAt (.ofNat place) = outcome := by
    have counted := (List.getElem?_eq_some_iff.mp found).1
    rw [length_outcomes] at counted
    rw [getElem?_outcomes counted, fresh, UInt64.toNat_zero, Nat.zero_add] at found
    exact ⟨remaining ▸ counted, Option.some.inj found⟩
  have read {place : Nat} (inside : place < result.events.length) := by
    obtain ⟨counted, found⟩ := outcome (resultOf_get inside)
    exact whole_of_ok mapped small (Nat.lt_trans counted scan.count.toNat_lt) found
  refine ⟨?_, fun place inside => (read inside).2.2⟩
  have known := fun place (inside : place < result.events.length) =>
    And.intro (read inside).1 (read inside).2.1
  cases stopped : result.stoppedBy with
  | some error =>
    have stop := resultOf_stop scan.outcomes
    rw [stopped] at stop
    obtain ⟨counted, failed⟩ := outcome stop
    exact ends_of_error mapped small counted known failed
  | none =>
    have all := length_events_of_finished stopped
    rw [length_outcomes, remaining] at all
    change result.events.length = scan.count.toNat at all
    rw [all] at known ⊢
    refine .complete (fun place inside => (known place inside).2) (Nat.le_of_not_lt fun beyond => ?_)
    exact Nat.lt_irrefl _ (known _ beyond).1

end Records

/-- Behind so many events at most one error stands, and only where a record was left. -/
theorem Ends.length_le {bytes : ByteArray} {indexOffset : UInt64} {count examined : Nat}
    {stop? : Option Error} (ends : Ends bytes indexOffset count examined stop?) :
    examined + stop?.toList.length ≤ min count (wholeRecords bytes indexOffset + 1) := by
  cases ends with
  | unknown _ inside => simp only [Option.toList_some, List.length_singleton]; omega
  | short _ short => simp only [Option.toList_some, List.length_singleton]; omega
  | complete _ enough => simp only [Option.toList_none, List.length_nil]; omega

theorem items_of_closed {indexOffset count : UInt64} (filter : EventFilter) (some : 0 < count) :
    items { file := .closed, indexOffset, count, filter } = [.error (.notOpen .file)] := by
  let scan : Scan := { file := .closed, indexOffset, count, filter }
  obtain ⟨records, left⟩ : ∃ records, scan.remaining = records + 1 :=
    Nat.exists_eq_succ_of_ne_zero (Nat.ne_of_gt (UInt64.lt_iff_toNat_lt.mp some))
  have start : scan.recordOffset? 0 = .some indexOffset :=
    (scan.recordOffset?_eq_some_iff (show 0 < UInt64.size by decide) indexOffset).mpr rfl
  have failed : scan.eventAt scan.position = .error (.notOpen .file) := by
    change scan.eventAt 0 = _
    rw [eventAt, start]
    rfl
  change scan.items = _
  rw [items_eq, outcomes_succ left, failed, itemsOf]

/-- A scan over any bytes, whatever its index is said to be, gives the events of whole records that
its filter keeps, and then ends: with the first record that has no known type, behind the last whole
record if more were asked for, or without an error. No call to `next` examines a record behind the
last whole one and the one that is not there. A closed file gives one error. -/
theorem drained_unchecked {mapping : Mapping} (small : mapping.bytes.size < 2 ^ 63)
    (indexOffset count : UInt64) (filter : EventFilter) :
    let scan : Scan := { file := .ofMapping mapping, indexOffset, count, filter }
    let whole := wholeRecords mapping.bytes indexOffset
    (∃ (events : List Event) (stop? : Option Error),
      scan.items = (events.filter filter.keeps).map .ok ++ stop?.toList.map .error ∧
      (∀ place (inside : place < events.length),
        let start := indexOffset.toNat + 32 * place
        Event.decode (mapping.bytes.extract start (start + 32)) = .ok events[place]) ∧
      Ends mapping.bytes indexOffset count.toNat events.length stop?) ∧
    scan.items.length ≤ min count.toNat (whole + 1) ∧
    (behind scan.items.length scan).next.1 = none ∧
    (∀ calls, let later := behind calls scan
      later.next = advance (min later.remaining (whole + 1 - later.position.toNat)) later) ∧
    (0 < count → items { file := .closed, indexOffset, count, filter } =
      [.error (.notOpen .file)]) := by
  intro scan whole
  have stops : scan.StopsAt whole := stopsAt_wholeRecords rfl small
  have within : scan.Within whole := .inl (Nat.zero_le whole)
  have items : scan.items = _ := scan.items_eq.trans (itemsOf_eq filter.keeps scan.outcomes)
  have mapped : scan.file = .ofMapping mapping := rfl
  obtain ⟨ends, decoded⟩ := ends_of_fresh mapped small rfl
  refine ⟨⟨_, _, items, decoded, ends⟩, ?_, ?_, ?_, items_of_closed filter⟩
  · have fits := ends.length_le
    rw [items, List.length_append, List.length_map, List.length_map]
    exact Nat.le_trans (Nat.add_le_add_right (List.length_filter_le _ _) _) fits
  · rw [next_behind, List.getElem?_eq_none (Nat.le_refl _)]
  · intro calls
    exact (within.behind stops calls).next_eq_min (stops.behind calls)

theorem drained_unchecked_brokenIndex :
    let filter : EventFilter := ⟨none, [18446744073709551615]⟩
    let count : UInt64 := 18446744073709551615
    let scan : Scan := { file := .ofMapping ⟨"a", brokenIndex⟩, indexOffset := 72, count, filter }
    let whole := wholeRecords brokenIndex 72
    brokenIndex.size < 2 ^ 63 ∧
    (∃ (events : List Event) (stop? : Option Error),
      scan.items = (events.filter filter.keeps).map .ok ++ stop?.toList.map .error ∧
      (∀ place (inside : place < events.length),
        let start := (72 : UInt64).toNat + 32 * place
        Event.decode (brokenIndex.extract start (start + 32)) = .ok events[place]) ∧
      Ends brokenIndex 72 count.toNat events.length stop?) ∧
    scan.items.length ≤ min count.toNat (whole + 1) ∧
    (behind scan.items.length scan).next.1 = none ∧
    (∀ calls, let later := behind calls scan
      later.next = advance (min later.remaining (whole + 1 - later.position.toNat)) later) ∧
    (0 < count → items { file := .closed, indexOffset := 72, count, filter } =
      [.error (.notOpen .file)]) := by
  have small : brokenIndex.size < 2 ^ 63 := by decide
  exact ⟨small, @drained_unchecked ⟨"a", brokenIndex⟩ small 72 18446744073709551615
    ⟨none, [18446744073709551615]⟩⟩

end TraceContainer.Scan
