import TraceContainer.FileStore
import TraceContainer.LogEvent

/-! Read access to the bytes of at most one file at a time. The bytes are those that the file had
when it was opened, and every access is checked against their number, which is kept beside them. -/
namespace TraceContainer

/-- Access to a file as it is kept. Opening and closing write each of the fields by itself. -/
structure MemoryMap where
  bytes? : Option ByteArray := none
  handle? : Option FileHandle := none
  path? : Option String := none
  size : Nat := 0
  deriving DecidableEq

structure Mapping where
  path : String
  bytes : ByteArray
  deriving DecidableEq

namespace MemoryMap

def isOpen (map : MemoryMap) : Bool :=
  map.bytes?.isSome

/-- Gives the bytes up; reported only if there were any. -/
def close (map : MemoryMap) : Outcome MemoryMap Unit where
  answer := ()
  state := { bytes? := none, handle? := none, path? := none, size := 0 }
  events := match map.bytes?, map.path? with
    | some _, some path => [.unmapped path]
    | _, _ => []

/-- The file that a path leads to. One without any bytes is refused. -/
def load (store : FileStore) (path : String) : Except Error FileHandle :=
  match store.read path with
  | .error cause => .error (.file path cause)
  | .ok bytes => if bytes.size = 0 then .error (.mapping (.emptyFile path)) else .ok ⟨bytes⟩

/-- Gives up the bytes held so far, then takes those of another file. -/
def openFile (map : MemoryMap) (store : FileStore) (path : String) :
    Outcome MemoryMap (Except Error Unit) :=
  let closing := map.close
  match load store path with
  | .error error => { closing with answer := .error error }
  | .ok file => {
      answer := .ok ()
      state := { closing.state with
        size := file.bytes.size
        bytes? := some file.bytes
        handle? := some file
        path? := some path }
      events := closing.events ++ [.mapped path file.bytes.size] }

def slice (map : MemoryMap) (offset size : UInt64) : Except Error ByteArray :=
  match map.bytes? with
  | none => .error (.notOpen .file)
  | some bytes =>
    match Binary.sum? offset size with
    | none => .error (.mapping .rangeOverflow)
    | some stop =>
      if map.size < stop.toNat then
        .error (.mapping (.outOfRange offset.toNat stop.toNat map.size))
      else .ok (bytes.extract offset.toNat stop.toNat)

def read (map : MemoryMap) (offset size : UInt64) : Except Error ByteArray :=
  map.slice offset size

/-- How the fields belong together: they are about one file, or about none. -/
structure Coherent (map : MemoryMap) : Prop where
  size : map.size = (map.bytes?.map ByteArray.size).getD 0
  handle : map.handle? = map.bytes?.map FileHandle.mk
  path : map.path?.isSome = map.bytes?.isSome

theorem coherent_new : Coherent {} := ⟨rfl, rfl, rfl⟩

theorem coherent_close (map : MemoryMap) : map.close.state.Coherent := ⟨rfl, rfl, rfl⟩

theorem coherent_openFile (map : MemoryMap) (store : FileStore) (path : String) :
    (map.openFile store path).state.Coherent := by
  rw [openFile]
  cases load store path with
  | error error => exact map.coherent_close
  | ok file => exact ⟨rfl, rfl, rfl⟩

theorem Coherent.size_eq {map : MemoryMap} {bytes : ByteArray} (coherent : map.Coherent)
    (held : map.bytes? = some bytes) : map.size = bytes.size := by
  rw [coherent.size, held]
  rfl

def ofMapping (mapping : Mapping) : MemoryMap where
  bytes? := some mapping.bytes
  handle? := some ⟨mapping.bytes⟩
  path? := some mapping.path
  size := mapping.bytes.size

theorem coherent_ofMapping (mapping : Mapping) : (ofMapping mapping).Coherent := ⟨rfl, rfl, rfl⟩

theorem load_eq_ok_iff {store : FileStore} {path : String} {handle : FileHandle} :
    load store path = .ok handle ↔ store.read path = .ok handle.bytes ∧ handle.bytes.size ≠ 0 := by
  rw [load]
  cases found : store.read path with
  | error cause => exact ⟨nofun, nofun⟩
  | ok bytes =>
    by_cases empty : bytes.size = 0
    · simp only [if_pos empty, reduceCtorEq, Except.ok.injEq, false_iff]
      rintro ⟨rfl, nonempty⟩
      exact nonempty empty
    · simp only [if_neg empty, Except.ok.injEq]
      constructor
      · rintro rfl
        exact ⟨rfl, empty⟩
      · rintro ⟨rfl, _⟩
        rfl

theorem openFile_of_load {store : FileStore} {path : String} {handle : FileHandle}
    (found : load store path = .ok handle) (map : MemoryMap) :
    map.openFile store path = {
      answer := .ok ()
      state := ofMapping ⟨path, handle.bytes⟩
      events := map.close.events ++ [.mapped path handle.bytes.size] } := by
  rw [openFile, found]
  rfl

theorem openFile_of_failure {store : FileStore} {path : String} {error : Error}
    (failure : load store path = .error error) (map : MemoryMap) :
    map.openFile store path = { answer := .error error, state := {}, events := map.close.events } := by
  rw [openFile, failure]
  rfl

theorem Coherent.eq_new_or_ofMapping {map : MemoryMap} (coherent : map.Coherent) :
    map = {} ∨ ∃ mapping, map = ofMapping mapping := by
  obtain ⟨bytes?, handle?, path?, size⟩ := map
  obtain ⟨counted, handled, named⟩ := coherent
  dsimp only at counted handled named
  cases bytes? with
  | none =>
    have noPath : path? = none := by
      cases path? with
      | none => rfl
      | some path => cases named
    rw [counted, handled, noPath]
    exact .inl rfl
  | some bytes =>
    obtain ⟨path, rfl⟩ := Option.isSome_iff_exists.mp named
    rw [counted, handled]
    exact .inr ⟨⟨path, bytes⟩, rfl⟩

end MemoryMap

/-- Access to a file whose fields belong together, as every call leaves them. -/
structure MappedFile extends MemoryMap where
  coherent : toMemoryMap.Coherent
  deriving DecidableEq

namespace MappedFile

def closed : MappedFile := ⟨{}, MemoryMap.coherent_new⟩

def ofMapping (mapping : Mapping) : MappedFile :=
  ⟨.ofMapping mapping, MemoryMap.coherent_ofMapping mapping⟩

def mapping? (file : MappedFile) : Option Mapping :=
  match file.path?, file.bytes? with
  | some path, some bytes => some { path, bytes }
  | _, _ => none

def close (file : MappedFile) : Outcome MappedFile Unit :=
  let outcome := file.toMemoryMap.close
  { outcome with state := ⟨outcome.state, file.toMemoryMap.coherent_close⟩ }

def openFile (file : MappedFile) (store : FileStore) (path : String) :
    Outcome MappedFile (Except Error Unit) :=
  let outcome := file.toMemoryMap.openFile store path
  { outcome with state := ⟨outcome.state, file.toMemoryMap.coherent_openFile store path⟩ }

theorem openFile_of_load {store : FileStore} {path : String} {handle : FileHandle}
    (found : MemoryMap.load store path = .ok handle) (file : MappedFile) :
    file.openFile store path = {
      answer := .ok ()
      state := ofMapping ⟨path, handle.bytes⟩
      events := file.close.events ++ [.mapped path handle.bytes.size] } := by
  simp only [openFile, MemoryMap.openFile_of_load found]
  rfl

theorem openFile_of_failure {store : FileStore} {path : String} {error : Error}
    (failure : MemoryMap.load store path = .error error) (file : MappedFile) :
    file.openFile store path = {
      answer := .error error
      state := closed
      events := file.close.events } := by
  simp only [openFile, MemoryMap.openFile_of_failure failure]
  rfl

theorem eq_closed_or_ofMapping (file : MappedFile) :
    file = closed ∨ ∃ mapping, file = ofMapping mapping := by
  obtain ⟨map, coherent⟩ := file
  rcases coherent.eq_new_or_ofMapping with rfl | ⟨mapping, rfl⟩
  · exact .inl rfl
  · exact .inr ⟨mapping, rfl⟩

theorem eq_closed {file : MappedFile} (nothing : file.mapping? = none) : file = closed := by
  rcases file.eq_closed_or_ofMapping with same | ⟨mapping, rfl⟩
  · exact same
  · cases nothing

theorem eq_ofMapping {file : MappedFile} {mapping : Mapping}
    (opened : file.mapping? = some mapping) : file = ofMapping mapping := by
  rcases file.eq_closed_or_ofMapping with rfl | ⟨other, rfl⟩
  · cases opened
  · exact congrArg ofMapping (Option.some.inj opened)

end MappedFile

end TraceContainer
