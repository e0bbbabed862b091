import TraceContainer.Reader
import TraceContainer.Proofs.Layout
import TraceContainer.Proofs.Slices

namespace TraceContainer

/-- What the bytes of a file hold; only they decide it. -/
def Contents.read (decoder : Json.Decoder) (bytes : ByteArray) : Except Error Contents := do
  let layout ← (Layout.read bytes).mapError .header
  let payload := bytes.extract 40 (40 + layout.manifestLength.toNat)
  let manifest ← (Manifest.decode decoder payload).mapError .manifest
  return { layout, manifest := manifest.withCount layout.indexCount }

theorem Contents.read_eq_ok_iff {decoder : Json.Decoder} {bytes : ByteArray} {contents : Contents} :
    read decoder bytes = .ok contents ↔ ∃ layout manifest, layout.Matches bytes ∧
      Manifest.decode decoder (bytes.extract 40 (40 + layout.manifestLength.toNat)) = .ok manifest ∧
      contents = { layout, manifest := manifest.withCount layout.indexCount } := by
  rw [read, bind_eq_ok_iff]
  constructor
  · rintro ⟨layout, sections, later⟩
    obtain ⟨manifest, decoded, same⟩ := bind_eq_ok_iff.mp later
    exact ⟨layout, manifest, Layout.read_eq_ok_iff.mp (mapError_eq_ok_iff.mp sections),
      mapError_eq_ok_iff.mp decoded, (Except.ok.inj same).symm⟩
  · rintro ⟨layout, manifest, same, decoded, rfl⟩
    refine ⟨layout, mapError_eq_ok_iff.mpr (Layout.read_eq_ok_iff.mpr same), ?_⟩
    exact bind_eq_ok_iff.mpr ⟨manifest, mapError_eq_ok_iff.mpr decoded, rfl⟩

theorem MappedFile.slice_header (mapping : Mapping) :
    (ofMapping mapping).slice 0 (.ofNat (min Format.headerSize.toNat mapping.bytes.size)) =
      .ok (mapping.bytes.extract 0 (min Format.headerSize.toNat mapping.bytes.size)) := by
  have size : Format.headerSize.toNat = 40 := rfl
  have first : (UInt64.ofNat (min 40 mapping.bytes.size)).toNat = min 40 mapping.bytes.size :=
    UInt64.toNat_ofNat_of_lt' (by simp only [UInt64.size]; omega)
  have inside : (0 : UInt64).toNat + (UInt64.ofNat (min 40 mapping.bytes.size)).toNat ≤
      mapping.bytes.size := by
    rw [first, UInt64.toNat_zero]
    omega
  have small : (0 : UInt64).toNat + (UInt64.ofNat (min 40 mapping.bytes.size)).toNat <
      UInt64.size := by
    rw [first, UInt64.toNat_zero, UInt64.size]
    omega
  rw [size, slice_ofMapping small inside, first, UInt64.toNat_zero, Nat.zero_add]

theorem MappedFile.slice_manifest {mapping : Mapping} {layout : Layout}
    (same : layout.Matches mapping.bytes) :
    (ofMapping mapping).slice layout.manifestOffset layout.manifestLength =
      .ok (mapping.bytes.extract 40 (40 + layout.manifestLength.toNat)) := by
  have offset := same.manifestOffset
  have follows := same.indexFollows
  have details := same.detailsFollow
  have inside := same.inside
  have bound := layout.indexOffset.toNat_lt
  rw [slice_ofMapping (by rw [UInt64.size]; omega) (by omega), offset]

namespace Reader

variable {decoder : Json.Decoder}

theorem readContents_ofMapping (mapping : Mapping) :
    readContents decoder (.ofMapping mapping) = Contents.read decoder mapping.bytes := by
  rw [readContents, MappedFile.size_ofMapping, MappedFile.slice_header, Contents.read, Layout.read]
  cases decoded : Header.decode
      (mapping.bytes.extract 0 (min Format.headerSize.toNat mapping.bytes.size)) with
  | error cause => simp only [bind_ok, bind_error, mapError_error, decoded]
  | ok header =>
    cases valid : header.validate mapping.bytes.size with
    | error cause => simp only [bind_ok, bind_error, mapError_ok, mapError_error, decoded, valid]
    | ok layout =>
      have accepted : Layout.read mapping.bytes = .ok layout := by
        rw [Layout.read, decoded]
        exact valid
      have manifest := MappedFile.slice_manifest (Layout.read_eq_ok_iff.mp accepted)
      simp only [bind_ok, mapError_ok, decoded, valid, manifest]

/-- The reader that a file gives when it is opened, whatever was open before. -/
def opened (decoder : Json.Decoder) (store : FileStore) (path : String) : Except Error Reader := do
  let file ← MemoryMap.load store path
  let contents ← Contents.read decoder file.bytes
  return ⟨.ofMapping ⟨path, file.bytes⟩, some contents⟩

private theorem openFile_eq (reader : Reader) (decoder : Json.Decoder) (store : FileStore)
    (path : String) :
    (reader.openFile decoder store path).answer = (opened decoder store path).map (fun _ => ()) ∧
      (reader.openFile decoder store path).state =
        (opened decoder store path).toOption.getD closed := by
  cases loaded : MemoryMap.load store path with
  | error error =>
    simp only [openFile, opened, MappedFile.openFile_of_failure loaded, loaded]
    exact ⟨rfl, rfl⟩
  | ok file =>
    simp only [openFile, opened, MappedFile.openFile_of_load loaded, loaded,
      readContents_ofMapping, bind_ok]
    cases Contents.read decoder file.bytes with
    | error error => exact ⟨rfl, rfl⟩
    | ok contents => exact ⟨rfl, rfl⟩

theorem openFile_of_ok {store : FileStore} {path : String} {after : Reader}
    (success : opened decoder store path = .ok after) (reader : Reader) :
    (reader.openFile decoder store path).answer = .ok () ∧
      (reader.openFile decoder store path).state = after := by
  obtain ⟨answer, state⟩ := openFile_eq reader decoder store path
  rw [success] at answer state
  exact ⟨answer, state⟩

theorem openFile_of_error {store : FileStore} {path : String} {error : Error}
    (failure : opened decoder store path = .error error) (reader : Reader) :
    (reader.openFile decoder store path).answer = .error error ∧
      (reader.openFile decoder store path).state = closed := by
  obtain ⟨answer, state⟩ := openFile_eq reader decoder store path
  rw [failure] at answer state
  exact ⟨answer, state⟩

theorem opened_of_answer {reader : Reader} {store : FileStore} {path : String}
    (success : (reader.openFile decoder store path).answer = .ok ()) :
    opened decoder store path = .ok (reader.openFile decoder store path).state := by
  cases result : opened decoder store path with
  | error error =>
    rw [(openFile_of_error result reader).1] at success
    cases success
  | ok after => rw [(openFile_of_ok result reader).2]

theorem opened_of_unreadable {store : FileStore} {path : String} {cause : FileError}
    (unreadable : store.read path = .error cause) (decoder : Json.Decoder) :
    opened decoder store path = .error (.file path cause) := by
  rw [opened, MemoryMap.load, unreadable]
  rfl

theorem opened_of_empty {store : FileStore} {path : String} {bytes : ByteArray}
    (found : store.read path = .ok bytes) (empty : bytes = .empty) (decoder : Json.Decoder) :
    opened decoder store path = .error (.mapping (.emptyFile path)) := by
  rw [opened, MemoryMap.load, found, empty]
  rfl

private theorem opened_of_nonempty {store : FileStore} {path : String} {bytes : ByteArray}
    (found : store.read path = .ok bytes) (nonempty : bytes ≠ .empty) :
    opened decoder store path =
      (Contents.read decoder bytes).map fun contents =>
        ⟨.ofMapping ⟨path, bytes⟩, some contents⟩ := by
  have size : bytes.size ≠ 0 := fun zero => nonempty (ByteArray.size_eq_zero_iff.mp zero)
  have loaded : MemoryMap.load store path = .ok ⟨bytes⟩ :=
    MemoryMap.load_eq_ok_iff.mpr ⟨found, size⟩
  rw [opened, loaded]
  rfl

theorem opened_of_malformed {store : FileStore} {path : String} {bytes : ByteArray}
    (found : store.read path = .ok bytes) (nonempty : bytes ≠ .empty)
    (malformed : ∀ layout : Layout, ¬ layout.Matches bytes) (decoder : Json.Decoder) :
    ∃ cause, opened decoder store path = .error (.header cause) := by
  rw [opened_of_nonempty found nonempty, Contents.read]
  cases sections : Layout.read bytes with
  | error cause => exact ⟨cause, rfl⟩
  | ok layout => exact False.elim (malformed layout (Layout.read_eq_ok_iff.mp sections))

theorem opened_of_matches {store : FileStore} {path : String} {bytes : ByteArray} {layout : Layout}
    (found : store.read path = .ok bytes) (same : layout.Matches bytes) (decoder : Json.Decoder) :
    opened decoder store path =
      match Manifest.decode decoder (bytes.extract 40 (40 + layout.manifestLength.toNat)) with
      | .error cause => .error (.manifest cause)
      | .ok manifest =>
        .ok ⟨.ofMapping ⟨path, bytes⟩,
          some { layout, manifest := manifest.withCount layout.indexCount }⟩ := by
  have sections := Layout.read_eq_ok_iff.mpr same
  rw [opened_of_nonempty found same.nonempty, Contents.read, sections]
  simp only [bind_ok, mapError_ok]
  cases Manifest.decode decoder (bytes.extract 40 (40 + layout.manifestLength.toNat)) with
  | error cause => rfl
  | ok manifest => rfl

def holding (path : String) (bytes : ByteArray) (contents : Contents) : Reader :=
  ⟨.ofMapping ⟨path, bytes⟩, some contents⟩

theorem opened_eq_ok_iff {store : FileStore} {path : String} {bytes : ByteArray}
    (found : store.read path = .ok bytes) {after : Reader} :
    opened decoder store path = .ok after ↔
      ∃ contents, Contents.read decoder bytes = .ok contents ∧
        after = holding path bytes contents := by
  by_cases empty : bytes = .empty
  · rw [opened_of_empty found empty]
    refine ⟨nofun, ?_⟩
    rintro ⟨contents, read, _⟩
    obtain ⟨layout, manifest, same, _⟩ := Contents.read_eq_ok_iff.mp read
    exact False.elim (same.nonempty empty)
  · rw [opened_of_nonempty found empty]
    cases Contents.read decoder bytes with
    | error error => exact ⟨nofun, nofun⟩
    | ok contents => simp [Except.map, holding, eq_comm]

theorem openFile_of_read {store : FileStore} {path : String} {bytes : ByteArray}
    {contents : Contents} (found : store.read path = .ok bytes)
    (read : Contents.read decoder bytes = .ok contents) (prior : Reader) :
    (prior.openFile decoder store path).answer = .ok () ∧
      (prior.openFile decoder store path).state = holding path bytes contents :=
  openFile_of_ok ((opened_eq_ok_iff found).mpr ⟨contents, read, rfl⟩) prior

theorem eq_of_opened {store : FileStore} {path : String} {bytes : ByteArray} {after : Reader}
    (found : store.read path = .ok bytes) (success : opened decoder store path = .ok after) :
    ∃ layout manifest, layout.Matches bytes ∧
      Manifest.decode decoder (bytes.extract 40 (40 + layout.manifestLength.toNat)) = .ok manifest ∧
      after = ⟨.ofMapping ⟨path, bytes⟩,
        some { layout, manifest := manifest.withCount layout.indexCount }⟩ := by
  obtain ⟨contents, read, state⟩ := (opened_eq_ok_iff found).mp success
  obtain ⟨layout, manifest, same, decoded, rfl⟩ := Contents.read_eq_ok_iff.mp read
  exact ⟨layout, manifest, same, decoded, state⟩

end Reader

end TraceContainer
