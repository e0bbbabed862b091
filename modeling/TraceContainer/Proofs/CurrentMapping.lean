import Mathlib.Data.List.Induction
import TraceContainer.Proofs.Sessions
import TraceContainer.Proofs.Slices
import TraceContainer.Session.MappedFile

/-! The bytes that are mapped behind a run of openings and closings. The fields that are written one
by one stay about one file or none; the file is the one that the last call opened, if it did, and
slices are cut from its bytes as they were then. -/
namespace TraceContainer

namespace MemoryMap

/-- A call that writes the fields; an opening finds the files as they are at its time. -/
inductive Call where
  | openFile (store : FileStore) (path : String)
  | close

def step (map : MemoryMap) : Call → MemoryMap
  | .openFile store path => (map.openFile store path).state
  | .close => map.close.state

def after (map : MemoryMap) (calls : List Call) : MemoryMap :=
  calls.foldl step map

theorem after_concat (map : MemoryMap) (calls : List Call) (call : Call) :
    map.after (calls ++ [call]) = (map.after calls).step call :=
  List.foldl_concat ..

theorem after_append (map : MemoryMap) (calls more : List Call) :
    map.after (calls ++ more) = (map.after calls).after more :=
  List.foldl_append

theorem coherent_step (map : MemoryMap) (call : Call) : (map.step call).Coherent := by
  cases call with
  | openFile store path => exact map.coherent_openFile store path
  | close => exact map.coherent_close

/-- However often a file is opened and closed, and whether or not that can be done, the size is the
number of bytes mapped, and there is a path and an open file exactly if there are any. -/
theorem Coherent.after {map : MemoryMap} (coherent : map.Coherent) (calls : List Call) :
    (map.after calls).Coherent := by
  induction calls generalizing map with
  | nil => exact coherent
  | cons call rest ih => exact ih (map.coherent_step call)

/-- What calls have mapped last and not given up again: a file that is not empty, as the last of
them found it. -/
inductive LastMapped : List Call → Mapping → Prop where
  | opened {earlier : List Call} {store : FileStore} {path : String} {bytes : ByteArray}
    (found : store.read path = .ok bytes) (nonempty : bytes.size ≠ 0) :
    LastMapped (earlier ++ [.openFile store path]) ⟨path, bytes⟩

variable {calls : List Call}

theorem LastMapped.after_eq {mapping : Mapping} (mapped : LastMapped calls mapping)
    (map : MemoryMap) : map.after calls = ofMapping mapping := by
  obtain ⟨found, nonempty⟩ := mapped
  have loaded := load_eq_ok_iff.mpr ⟨found, nonempty⟩
  rw [after_concat, step, openFile_of_load loaded]

theorem new_or_lastMapped (calls : List Call) :
    after {} calls = {} ∨ ∃ mapping, LastMapped calls mapping := by
  -- Every call gives up what the ones before it have mapped, so the last one decides.
  induction calls using List.reverseRecOn with
  | nil => exact .inl rfl
  | append_singleton earlier call _ =>
    cases call with
    | close => exact .inl (after_concat ..)
    | openFile store path =>
      cases loaded : load store path with
      | error error =>
        left
        rw [after_concat, step, openFile_of_failure loaded]
      | ok handle =>
        obtain ⟨found, nonempty⟩ := load_eq_ok_iff.mp loaded
        exact .inr ⟨_, .opened found nonempty⟩

theorem lastMapped_iff {mapping : Mapping} :
    LastMapped calls mapping ↔ after {} calls = ofMapping mapping := by
  constructor
  · exact fun mapped => mapped.after_eq {}
  · intro held
    rcases new_or_lastMapped calls with new | ⟨other, mapped⟩
    · rw [held] at new
      cases new
    · have same := held.symm.trans (mapped.after_eq {})
      cases mapping
      cases other
      cases same
      exact mapped

/-- Behind any run of openings and closings the fields are about the file that was mapped last, if
it was not given up. A slice holds the bytes at its place in that file. It can be had as far as
these reach, with its end taken as a sum of natural numbers, and so can any two slices that it is
cut into. Where it cannot be had, nothing is mapped or the file is too short. -/
theorem slices_of_lastMapped (calls : List Call)
    (fits : ∀ mapping, LastMapped calls mapping → mapping.bytes.size < UInt64.size) :
    let map := after {} calls
    (map.size = (map.bytes?.map ByteArray.size).getD 0 ∧
      map.handle?.isSome = map.isOpen ∧ map.path?.isSome = map.isOpen) ∧
    (map.isOpen = true ↔ ∃ mapping, LastMapped calls mapping) ∧
    (∀ mapping, LastMapped calls mapping → map.bytes? = some mapping.bytes ∧
      map.path? = some mapping.path ∧ map.size = mapping.bytes.size) ∧
    (∀ offset size bytes, map.slice offset size = .ok bytes ↔
      ∃ mapping, LastMapped calls mapping ∧
        offset.toNat + size.toNat ≤ mapping.bytes.size ∧
        mapping.bytes.extract offset.toNat (offset.toNat + size.toNat) = bytes) ∧
    (map.isOpen = false → ∀ offset size, map.slice offset size = .error (.notOpen .file)) ∧
    (∀ mapping, LastMapped calls mapping → ∀ offset size,
      mapping.bytes.size < offset.toNat + size.toNat →
      ∃ cause, map.slice offset size = .error (.mapping cause)) ∧
    (∀ offset size, map.read offset size = map.slice offset size) ∧
    (∀ offset first second whole, first.toNat + second.toNat < UInt64.size →
      map.slice offset (first + second) = .ok whole →
      (offset + first).toNat = offset.toNat + first.toNat ∧
      ∃ left right, map.slice offset first = .ok left ∧
        map.slice (offset + first) second = .ok right ∧ left ++ right = whole) := by
  intro map
  have coherent : map.Coherent := coherent_new.after calls
  have handled : map.handle?.isSome = map.isOpen := by
    rw [coherent.handle, Option.isSome_map]
    rfl
  have mapped {mapping : Mapping} : LastMapped calls mapping ↔ map = ofMapping mapping :=
    lastMapped_iff
  simp only [mapped] at fits ⊢
  refine ⟨⟨coherent.size, handled, coherent.path⟩, ?_⟩
  -- From here on it does not matter how the fields came about.
  clear_value map
  rcases coherent.eq_new_or_ofMapping with rfl | ⟨mapping, rfl⟩
  · exact ⟨⟨nofun, nofun⟩, nofun, fun offset size bytes => ⟨nofun, nofun⟩, fun _ _ _ => rfl, nofun,
      fun _ _ => rfl, nofun⟩
  · have short := fits mapping rfl
    have only {other : Mapping} (same : ofMapping mapping = ofMapping other) : mapping = other := by
      cases mapping
      cases other
      cases same
      rfl
    refine ⟨⟨fun _ => ⟨mapping, rfl⟩, fun _ => rfl⟩, ?_, ?_, nofun, ?_, fun _ _ => rfl, ?_⟩
    · intro other same
      rw [only same]
      exact ⟨rfl, rfl, rfl⟩
    · intro offset size bytes
      refine (MappedFile.slice_ofMapping_eq_ok_iff short).trans
        ⟨fun cut => ⟨mapping, rfl, cut⟩, ?_⟩
      rintro ⟨other, same, cut⟩
      rwa [only same]
    · intro other same offset size
      rw [← only same]
      exact MappedFile.slice_ofMapping_beyond
    · intro offset first second whole
      exact MappedFile.slice_ofMapping_add short

/-- A file is mapped, gets new bytes, is given up by an opening that fails, and is mapped again. -/
def remapping : List Call := [
  .openFile (.ofFiles [("a", Binary.pack [49, 115, 116])]) "a",
  .openFile (.ofFiles [("a", Binary.pack [50, 110, 100])]) "b",
  .close,
  .openFile (.ofFiles [("a", Binary.pack [50, 110, 100])]) "a"]

theorem slices_of_lastMapped_remapping :
    let map := after {} remapping
    let second := Binary.pack [50, 110, 100]
    (∀ mapping, LastMapped remapping mapping → mapping.bytes.size < UInt64.size) ∧
    LastMapped remapping ⟨"a", second⟩ ∧
    map.bytes? = some second ∧ map.path? = some "a" ∧ map.size = second.size ∧
    map.slice 1 2 = .ok (second.extract 1 3) ∧
    (∃ cause, map.slice 4 0 = .error (.mapping cause)) ∧
    ∃ left right, map.slice 1 1 = .ok left ∧ map.slice 2 1 = .ok right ∧
      left ++ right = second.extract 1 3 := by
  intro map second
  have held : map = ofMapping ⟨"a", second⟩ := by decide +kernel
  have mapped : LastMapped remapping ⟨"a", second⟩ := lastMapped_iff.mpr held
  have fits (mapping : Mapping) (last : LastMapped remapping mapping) :
      mapping.bytes.size < UInt64.size := by
    have bytes : second = mapping.bytes :=
      Option.some.inj (congrArg bytes? (held.symm.trans (lastMapped_iff.mp last)))
    rw [← bytes]
    decide
  obtain ⟨_, _, fields, cut, _, beyond, _, split⟩ := slices_of_lastMapped remapping fits
  obtain ⟨bytes, path, size⟩ := fields _ mapped
  have whole : map.slice 1 2 = .ok (second.extract 1 3) :=
    (cut 1 2 _).mpr ⟨_, mapped, by decide, rfl⟩
  obtain ⟨_, parts⟩ := split 1 1 1 _ (by decide) whole
  exact ⟨fits, mapped, bytes, path, size, whole, beyond _ mapped 4 0 (by decide), parts⟩

end MemoryMap

namespace Session

def mapCall? (session : Session MappedFile) : MappedFileCall → Option MemoryMap.Call
  | .openFile path => some (.openFile session.store path)
  | .close => some .close
  | .files _ | .selectBackend _ | .startScan _ _ _ _ | .useScan _ _ | .query _ => none

def mapCalls (session : Session MappedFile) : List MappedFileCall → List MemoryMap.Call
  | [] => []
  | call :: rest => (session.mapCall? call).toList ++ (session.callFile call).state.mapCalls rest

theorem toMemoryMap_callFile (session : Session MappedFile) (call : MappedFileCall) :
    (session.callFile call).state.source.toMemoryMap =
      session.source.toMemoryMap.after (session.mapCall? call).toList := by
  cases call with
  | startScan id indexOffset count request =>
    exact congrArg MappedFile.toMemoryMap (session.source_startScan id _)
  | useScan id call => exact congrArg MappedFile.toMemoryMap (session.source_useScan id call)
  | _ => rfl

/-- The fields behind a session are those behind its openings and closings. -/
theorem toMemoryMap_after (session : Session MappedFile) (calls : List MappedFileCall) :
    (session.after callFile calls).source.toMemoryMap =
      session.source.toMemoryMap.after (session.mapCalls calls) := by
  induction calls generalizing session with
  | nil => rfl
  | cons call rest ih =>
    rw [after_cons, ih, toMemoryMap_callFile, mapCalls, MemoryMap.after_append]

end Session

end TraceContainer
