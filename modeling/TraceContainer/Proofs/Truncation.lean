import TraceContainer.Proofs.Container

/-! Files that were cut off, and files that go on behind what was written first. As long as all of
the index is there, only the details show the difference, and of them only those that it touches. -/
namespace TraceContainer

namespace Layout

variable {layout : Layout} {front : ByteArray}

theorem Matches.header_le {bytes : ByteArray} (same : layout.Matches bytes) :
    40 ≤ layout.detailOffset.toNat := by
  have follows := same.indexFollows
  have details := same.detailsFollow
  omega

/-- Files with one header have one layout, as long as each of them reaches to the details. -/
theorem Matches.of_begins {bytes other : ByteArray} (same : layout.Matches bytes)
    (begins : ∀ start stop, stop ≤ 40 →
      Binary.window? other start stop = Binary.window? bytes start stop)
    (inside : layout.detailOffset.toNat ≤ other.size) : layout.Matches other := by
  have number (start width : Nat) (within : start + width ≤ 40) :
      Binary.number? other start width = Binary.number? bytes start width := by
    rw [Binary.number?, Binary.number?, begins start (start + width) within]
  exact { same with
    long := Nat.le_trans same.header_le inside
    tag := (begins 0 4 (by decide)).trans same.tag
    version := (number 4 2 (by decide)).trans same.version
    manifestLength := (number 8 8 (by decide)).trans same.manifestLength
    indexOffset := (number 16 8 (by decide)).trans same.indexOffset
    indexCount := (number 24 8 (by decide)).trans same.indexCount
    detailOffset := (number 32 8 (by decide)).trans same.detailOffset
    inside }

/-- A layout fits the beginning of a file if it fits the file and leaves out details alone. -/
theorem matches_append_iff (back : ByteArray) :
    layout.Matches front ↔
      layout.Matches (front ++ back) ∧ layout.detailOffset.toNat ≤ front.size := by
  constructor
  · intro same
    refine ⟨same.of_begins ?_ ?_, same.inside⟩
    · intro start stop within
      exact Binary.window?_append back (Nat.le_trans within same.long)
    · rw [ByteArray.size_append]
      exact Nat.le_add_right_of_le same.inside
  · rintro ⟨same, inside⟩
    apply same.of_begins _ inside
    intro start stop within
    have long := Nat.le_trans same.header_le inside
    exact (Binary.window?_append back (Nat.le_trans within long)).symm

theorem Matches.records_append (same : layout.Matches front) (back : ByteArray) :
    layout.records (front ++ back) = layout.records front := by
  apply List.map_congr_left
  intro place member
  obtain ⟨_, inside⟩ := same.record_inside (List.mem_range.mp member)
  rw [record, record, Binary.extract_append_of_le back inside]

theorem Matches.items_append (same : layout.Matches front) (back : ByteArray) (path : String)
    (filter : EventFilter) :
    (layout.scan ⟨path, front ++ back⟩ filter).items =
      (layout.scan ⟨path, front⟩ filter).items := by
  have longer := ((matches_append_iff back).mp same).1
  rw [Scan.items_eq, Scan.items_eq, longer.outcomes_scan, same.outcomes_scan,
    same.records_append back]
  rfl

end Layout

/-- What a file holds is known from its beginning, as long as that leaves out details alone. -/
theorem Contents.read_append_iff {decoder : Json.Decoder} {front : ByteArray} (back : ByteArray)
    {contents : Contents} :
    read decoder front = .ok contents ↔ read decoder (front ++ back) = .ok contents ∧
      contents.layout.detailOffset.toNat ≤ front.size := by
  have payload {layout : Layout} (same : layout.Matches front) :
      (front ++ back).extract 40 (40 + layout.manifestLength.toNat) =
        front.extract 40 (40 + layout.manifestLength.toNat) := by
    apply Binary.extract_append_of_le
    rw [← same.indexFollows]
    have details := same.detailsFollow
    have inside := same.inside
    omega
  simp only [read_eq_ok_iff]
  constructor
  · rintro ⟨layout, manifest, same, decoded, rfl⟩
    obtain ⟨longer, inside⟩ := (Layout.matches_append_iff back).mp same
    exact ⟨⟨layout, manifest, longer, (payload same).symm ▸ decoded, rfl⟩, inside⟩
  · rintro ⟨⟨layout, manifest, longer, decoded, rfl⟩, inside⟩
    have same := (Layout.matches_append_iff back).mpr ⟨longer, inside⟩
    exact ⟨layout, manifest, same, payload same ▸ decoded, rfl⟩

namespace DetailEntry

/-- The entry at an offset lies, with its length in front, within the first bytes of a file. -/
def LiesWithin (bytes : ByteArray) (offset : Int64) (size : Nat) : Prop :=
  ∃ place length : Nat, offset.toInt = place ∧
    Binary.number? bytes place 4 = some length ∧ place + 4 + length ≤ size

variable {front : ByteArray} {sectionStart : UInt64} {offset : Int64}

theorem liesWithin_append (back : ByteArray) :
    LiesWithin (front ++ back) offset front.size ↔ LiesWithin front offset front.size := by
  constructor
  · rintro ⟨place, length, starts, number, inside⟩
    rw [Binary.number?_append back (by omega)] at number
    exact ⟨place, length, starts, number, inside⟩
  · rintro ⟨place, length, starts, number, inside⟩
    refine ⟨place, length, starts, ?_, inside⟩
    rw [Binary.number?_append back (by omega), number]

theorem liesWithin_of_read {entry : DetailEntry}
    (success : read front sectionStart offset = .ok entry) :
    LiesWithin front offset front.size := by
  unfold read at success
  split at success
  · cases success
  rename_i follows
  obtain ⟨place, starts⟩ := Int.eq_ofNat_of_zero_le
    (Int.le_trans (Int.natCast_nonneg _) (Int.not_lt.mp follows))
  simp only [starts, Int.toNat_natCast] at success
  split at success
  · cases success
  rename_i length number
  split at success
  · cases success
  rename_i payload window
  exact ⟨place, length, starts, number, (Binary.window?_eq_some_iff.mp window).2.1⟩

/-- What stands behind an entry does not matter to it, nor to what is wrong with its place. -/
theorem read_append (within : LiesWithin front offset front.size) (back : ByteArray) :
    read (front ++ back) sectionStart offset = read front sectionStart offset := by
  obtain ⟨place, length, starts, number, inside⟩ := within
  have start : Binary.number? (front ++ back) place 4 = Binary.number? front place 4 :=
    Binary.number?_append back (by omega)
  simp only [read, starts, Int.toNat_natCast, start, number, Binary.window?_append back inside]

end DetailEntry

/-- Two files that give the same answers, but for what is asked about details. -/
structure Reader.SameButDetails (one other : Reader) : Prop where
  path : one.path? = other.path?
  layout : one.layout = other.layout
  manifest : one.manifest = other.manifest
  metadata : one.metadata.answer = other.metadata.answer
  timeRange : one.timeRange = other.timeRange
  threadIds : one.threadIds = other.threadIds
  items : ∀ filter, (one.scan filter).map (·.items) = (other.scan filter).map (·.items)
  estimate : ∀ timeRange?, one.estimate timeRange? = other.estimate timeRange?

namespace Reader

variable {decoder : Json.Decoder} {path : String} {front : ByteArray} {contents : Contents}

theorem sameButDetails_append (read : Contents.read decoder front = .ok contents)
    (back : ByteArray) :
    (holding path front contents).SameButDetails (holding path (front ++ back) contents) := by
  obtain ⟨layout, manifest, same, _, rfl⟩ := Contents.read_eq_ok_iff.mp read
  have items (filter : EventFilter) := same.items_append back path filter
  refine ⟨rfl, rfl, rfl, rfl, rfl, rfl, ?_, ?_⟩
  · intro filter
    exact congrArg Except.ok (items filter).symm
  · intro timeRange?
    cases timeRange? with
    | none => rfl
    | some range =>
      exact congrArg (List.foldlM (fun (count : UInt64) item => item.map fun _ => count + 1) 0)
        (items ⟨some range, []⟩).symm

theorem detailAt_holding (bytes : ByteArray) (offset : Int64) :
    (holding path bytes contents).detailAt decoder offset =
      match DetailEntry.read bytes contents.layout.detailOffset offset with
      | .error cause => { answer := .error (.decode cause) }
      | .ok entry => {
          answer := (Detail.decode decoder entry.payload offset).mapError .decode
          events := [.resolving offset entry.length] } :=
  MappedFile.detailAt_ofMapping ⟨path, bytes⟩ decoder contents.layout.detailOffset offset

theorem detailAt_append (offset : Int64) (back : ByteArray) :
    (DetailEntry.LiesWithin (front ++ back) offset front.size →
      (holding path front contents).detailAt decoder offset =
        (holding path (front ++ back) contents).detailAt decoder offset) ∧
    (¬ DetailEntry.LiesWithin (front ++ back) offset front.size →
      Error.failure? ((holding path front contents).detailAt decoder offset).answer =
        some .decode) := by
  rw [DetailEntry.liesWithin_append]
  constructor
  · intro within
    rw [detailAt_holding, detailAt_holding, DetailEntry.read_append within back]
  · intro cut
    rw [detailAt_holding]
    cases found : DetailEntry.read front contents.layout.detailOffset offset with
    | error cause => rfl
    | ok entry => exact False.elim (cut (DetailEntry.liesWithin_of_read found))

theorem detailAt_of_ok {offset : Int64} {detail : Detail}
    (success : ((holding path front contents).detailAt decoder offset).answer = .ok detail)
    (back : ByteArray) :
    (holding path (front ++ back) contents).detailAt decoder offset =
      (holding path front contents).detailAt decoder offset := by
  rw [detailAt_holding] at success ⊢
  rw [detailAt_holding]
  cases found : DetailEntry.read front contents.layout.detailOffset offset with
  | error cause =>
    rw [found] at success
    cases success
  | ok entry =>
    rw [DetailEntry.read_append (DetailEntry.liesWithin_of_read found) back, found]

theorem detailFor_of_ok {event : Event} {detail? : Option Detail}
    (success : ((holding path front contents).detailFor decoder event).answer = .ok detail?)
    (back : ByteArray) :
    (holding path (front ++ back) contents).detailFor decoder event =
      (holding path front contents).detailFor decoder event := by
  by_cases hasDetail : event.hasDetail = true
  · simp only [detailFor, Reader.contents, holding, hasDetail, if_true] at success ⊢
    cases found : ((holding path front contents).detailAt decoder event.detailOffset).answer with
    | ok detail => exact congrArg (Reported.map _) (detailAt_of_ok found back)
    | error error =>
      simp only [holding] at found
      rw [Reported.map, found] at success
      cases success
  · simp only [detailFor, Reader.contents, holding, hasDetail, Bool.false_eq_true, if_false]

/-- A file cut off in front of its details is refused, an empty one for being empty and any other
for its header. -/
theorem failure?_openFile_of_lt {store : FileStore} {back : ByteArray}
    (found : store.read path = .ok front)
    (read : Contents.read decoder (front ++ back) = .ok contents)
    (cut : front.size < contents.layout.detailOffset.toNat) (prior : Reader) :
    Error.failure? (prior.openFile decoder store path).answer =
      some (if front.size = 0 then .mapping else .header) := by
  obtain ⟨layout, manifest, same, _, rfl⟩ := Contents.read_eq_ok_iff.mp read
  by_cases empty : front = .empty
  · have failure := opened_of_empty found empty decoder
    rw [(openFile_of_error failure prior).1, empty]
    rfl
  · have malformed (other : Layout) : ¬ other.Matches front := by
      -- Whatever fits the part fits the whole, of which the part leaves out too much.
      intro shorter
      obtain ⟨longer, inside⟩ := (Layout.matches_append_iff back).mp shorter
      rw [longer.unique same] at inside
      exact absurd cut (Nat.not_lt.mpr inside)
    obtain ⟨cause, failure⟩ := opened_of_malformed found empty malformed decoder
    rw [(openFile_of_error failure prior).1,
      if_neg fun zero => empty (ByteArray.size_eq_zero_iff.mp zero)]
    rfl

theorem openFile_front {store : FileStore} {back : ByteArray}
    (found : store.read path = .ok front)
    (read : Contents.read decoder (front ++ back) = .ok contents)
    (prior : Reader) :
    let outcome := prior.openFile decoder store path
    let whole := holding path (front ++ back) contents
    let start := contents.layout.detailOffset.toNat
    (outcome.answer = .ok () ↔ start ≤ front.size) ∧
    (front.size < start →
      Error.failure? outcome.answer = some (if front.size = 0 then .mapping else .header)) ∧
    (start ≤ front.size → outcome.state.SameButDetails whole ∧ ∀ offset,
      (DetailEntry.LiesWithin (front ++ back) offset front.size →
        outcome.state.detailAt decoder offset = whole.detailAt decoder offset) ∧
      (¬ DetailEntry.LiesWithin (front ++ back) offset front.size →
        Error.failure? (outcome.state.detailAt decoder offset).answer = some .decode)) := by
  intro outcome whole start
  by_cases inside : start ≤ front.size
  · have shorter := (Contents.read_append_iff back).mpr ⟨read, inside⟩
    obtain ⟨answer, state⟩ := openFile_of_read found shorter prior
    refine ⟨iff_of_true answer inside, ?_, ?_⟩
    · intro cut
      exact absurd inside (Nat.not_le.mpr cut)
    · intro _
      simp only [outcome, state]
      exact ⟨sameButDetails_append shorter back, fun offset => detailAt_append offset back⟩
  · have failure := failure?_openFile_of_lt found read (Nat.not_le.mp inside) prior
    have refused : outcome.answer ≠ .ok () := by
      intro answer
      rw [answer] at failure
      cases failure
    refine ⟨iff_of_false refused inside, fun _ => failure, ?_⟩
    intro within
    exact absurd within inside

/-- The first bytes of a file open exactly if they hold everything in front of its details, and
then they are the whole file to every question but those about details that they cut off, which
they answer with a decoding error. A file that goes on behind the end gives every answer again that
was there before. -/
theorem openFile_truncated {store : FileStore} {bytes : ByteArray} {prior : Reader}
    (found : store.read path = .ok bytes)
    (success : (prior.openFile decoder store path).answer = .ok ()) :
    let whole := (prior.openFile decoder store path).state
    ∃ layout, whole.layout = .ok layout ∧
    (∀ size ≤ bytes.size, ∀ shorter : FileStore,
      shorter.read path = .ok (bytes.extract 0 size) → ∀ other : Reader,
      let outcome := other.openFile decoder shorter path
      (outcome.answer = .ok () ↔ layout.detailOffset.toNat ≤ size) ∧
      (size < layout.detailOffset.toNat →
        Error.failure? outcome.answer = some (if size = 0 then .mapping else .header)) ∧
      (layout.detailOffset.toNat ≤ size →
        outcome.state.SameButDetails whole ∧ ∀ offset,
          (DetailEntry.LiesWithin bytes offset size →
            outcome.state.detailAt decoder offset = whole.detailAt decoder offset) ∧
          (¬ DetailEntry.LiesWithin bytes offset size →
            Error.failure? (outcome.state.detailAt decoder offset).answer = some .decode))) ∧
    ∀ (extra : ByteArray) (longer : FileStore),
      longer.read path = .ok (bytes ++ extra) → ∀ other : Reader,
      let outcome := other.openFile decoder longer path
      outcome.answer = .ok () ∧ whole.SameButDetails outcome.state ∧
      (∀ offset detail, (whole.detailAt decoder offset).answer = .ok detail →
        outcome.state.detailAt decoder offset = whole.detailAt decoder offset) ∧
      ∀ event detail?, (whole.detailFor decoder event).answer = .ok detail? →
        outcome.state.detailFor decoder event = whole.detailFor decoder event := by
  obtain ⟨contents, read, state⟩ := (opened_eq_ok_iff found).mp (opened_of_answer success)
  intro whole
  simp only [whole, state]
  refine ⟨contents.layout, rfl, ?_, ?_⟩
  · intro size inside shorter cut other
    have length : (bytes.extract 0 size).size = size := by
      rw [ByteArray.size_extract, Nat.min_eq_left inside, Nat.sub_zero]
    have parts : bytes = bytes.extract 0 size ++ bytes.extract size bytes.size := by
      rw [← ByteArray.extract_eq_extract_append_extract size (Nat.zero_le size) inside,
        ByteArray.extract_zero_size]
    -- From here on the file is the two parts that the cut makes of it.
    generalize bytes.extract 0 size = front at parts length cut
    generalize bytes.extract size bytes.size = back at parts
    subst parts length
    exact openFile_front cut read other
  · intro extra longer goesOn other
    have longerRead := ((Contents.read_append_iff extra).mp read).1
    obtain ⟨answer, after⟩ := openFile_of_read goesOn longerRead other
    simp only [after]
    refine ⟨answer, sameButDetails_append read extra, ?_, ?_⟩
    · intro offset detail success
      exact detailAt_of_ok success extra
    · intro event detail? success
      exact detailFor_of_ok success extra

theorem read_smallTrace : Contents.read (.saying "expected value") smallTrace.encode =
    .ok { layout := ⟨40, 17, 57, 2, 124⟩, manifest := ⟨[], .zero, [], 2⟩ } :=
  eq_ok_of_toOption (by decide +kernel)

/-- Without its last byte a trace still opens, and only its detail is lost. -/
theorem openFile_truncated_smallTrace :
    let decoder : Json.Decoder := .saying "expected value"
    let store : FileStore := .ofFiles [("a", smallTrace.encode)]
    let shorter : FileStore := .ofFiles [("a", smallTrace.encode.extract 0 374)]
    let whole := closed.openFile decoder store "a"
    let part := closed.openFile decoder shorter "a"
    store.read "a" = .ok smallTrace.encode ∧ smallTrace.encode.size = 375 ∧
    whole.answer = .ok () ∧ part.answer = .ok () ∧ part.state.SameButDetails whole.state ∧
    Error.failure? (part.state.detailAt decoder 124).answer = some .decode := by
  intro decoder store shorter
  have found : store.read "a" = .ok smallTrace.encode := rfl
  have cut : shorter.read "a" = .ok (smallTrace.encode.extract 0 374) := rfl
  obtain ⟨size, number⟩ : smallTrace.encode.size = 375 ∧
      Binary.number? smallTrace.encode 124 4 = some 247 := by decide +kernel
  have lost : ¬ DetailEntry.LiesWithin smallTrace.encode 124 374 := by
    rintro ⟨place, length, starts, there, inside⟩
    have first : place = 124 := (Int.ofNat.inj starts).symm
    rw [first, number] at there
    cases there
    omega
  have read : Contents.read decoder smallTrace.encode = .ok _ := read_smallTrace
  obtain ⟨success, state⟩ := openFile_of_read found read closed
  obtain ⟨layout, sections, shortened, _⟩ := openFile_truncated found success
  rw [state] at sections
  cases sections
  obtain ⟨opens, _, same⟩ := shortened 374 (by omega) _ cut closed
  obtain ⟨others, details⟩ := same (by decide)
  exact ⟨found, size, success, opens.mpr (by decide), others, (details 124).2 lost⟩

end Reader

end TraceContainer
