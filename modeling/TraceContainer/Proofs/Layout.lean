import TraceContainer.Header
import TraceContainer.Proofs.Bytes

/-! What the bytes of a file must say for its sections to be accepted. All sums and products are
those of the natural numbers, so nothing here can wrap around. -/
namespace TraceContainer

/-- A file whose first 40 bytes name the sections of a layout, which lie in it one after the other
and do not overlap. -/
structure Layout.Matches (layout : Layout) (bytes : ByteArray) : Prop where
  long : 40 ≤ bytes.size
  tag : Binary.window? bytes 0 4 = some (Binary.pack Format.tag)
  version : Binary.number? bytes 4 2 = some 1
  manifestOffset : layout.manifestOffset.toNat = 40
  manifestLength : Binary.number? bytes 8 8 = some layout.manifestLength.toNat
  indexOffset : Binary.number? bytes 16 8 = some layout.indexOffset.toNat
  indexCount : Binary.number? bytes 24 8 = some layout.indexCount.toNat
  detailOffset : Binary.number? bytes 32 8 = some layout.detailOffset.toNat
  hasManifest : 0 < layout.manifestLength.toNat
  indexFollows : layout.indexOffset.toNat = 40 + layout.manifestLength.toNat
  detailsFollow :
    layout.indexOffset.toNat + 32 * layout.indexCount.toNat ≤ layout.detailOffset.toNat
  inside : layout.detailOffset.toNat ≤ bytes.size

namespace Header

/-- The conditions on the fields of a header. -/
structure Accepted (header : Header) (fileSize : Nat) : Prop where
  magic : header.magic = Format.magic
  version : header.version = Format.version
  hasManifest : 0 < header.manifestLength.toNat
  indexFollows : header.indexOffset.toNat = 40 + header.manifestLength.toNat
  detailsFollow :
    header.indexOffset.toNat + 32 * header.indexCount.toNat ≤ header.detailOffset.toNat
  inside : header.detailOffset.toNat ≤ fileSize

def sections (header : Header) : Layout where
  manifestOffset := Format.headerSize
  manifestLength := header.manifestLength
  indexOffset := header.indexOffset
  indexCount := header.indexCount
  detailOffset := header.detailOffset

theorem indexEnd?_eq_some_iff (header : Header) (stop : UInt64) :
    header.indexEnd? = some stop ↔
      stop.toNat = header.indexOffset.toNat + 32 * header.indexCount.toNat := by
  exact Binary.position_eq_some_iff header.indexOffset header.indexCount Format.recordSize stop

theorem validate_of_accepted {header : Header} {fileSize : Nat}
    (accepted : header.Accepted fileSize) : header.validate fileSize = .ok header.sections := by
  have hasManifest := accepted.hasManifest
  have nonzero : header.manifestLength ≠ 0 := by
    intro zero
    simp [zero] at hasManifest
  have manifestEnd : Binary.sum? Format.headerSize header.manifestLength =
      some header.indexOffset := by
    rw [Binary.sum?_eq_some_iff]
    exact accepted.indexFollows
  have indexBound := accepted.detailsFollow
  have detailBound := header.detailOffset.toNat_lt
  obtain ⟨stop, indexEnd⟩ : ∃ stop : UInt64,
      stop.toNat = header.indexOffset.toNat + 32 * header.indexCount.toNat :=
    ⟨.ofNat (header.indexOffset.toNat + 32 * header.indexCount.toNat),
      UInt64.toNat_ofNat_of_lt' (by simp only [UInt64.size]; omega)⟩
  have apart : ¬ header.detailOffset < stop := by
    rw [UInt64.lt_iff_toNat_lt]
    omega
  simp only [validate, accepted.magic, accepted.version, nonzero, manifestEnd,
    (indexEnd?_eq_some_iff header stop).mpr indexEnd, apart, accepted.inside, ne_eq,
    not_true_eq_false, if_false, Nat.not_lt.mpr]
  rfl

theorem accepted_of_validate {header : Header} {fileSize : Nat} {layout : Layout}
    (valid : header.validate fileSize = .ok layout) :
    header.Accepted fileSize ∧ layout = header.sections := by
  unfold validate at valid
  split at valid
  · cases valid
  rename_i magic
  split at valid
  · cases valid
  rename_i version
  split at valid
  · cases valid
  rename_i nonzero
  split at valid
  · cases valid
  rename_i manifestEnd manifestSum
  split at valid
  · cases valid
  rename_i follows
  split at valid
  · cases valid
  rename_i indexEnd indexSum
  split at valid
  · cases valid
  rename_i apart
  split at valid
  · cases valid
  rename_i inside
  cases valid
  rw [Binary.sum?_eq_some_iff] at manifestSum
  rw [indexEnd?_eq_some_iff] at indexSum
  rw [UInt64.lt_iff_toNat_lt] at apart
  have size : Format.headerSize.toNat = 40 := rfl
  have positive : header.manifestLength.toNat ≠ 0 := fun zero =>
    nonzero (UInt64.toNat_inj.mp zero)
  refine ⟨⟨Decidable.of_not_not magic, Decidable.of_not_not version, by omega, ?_, by omega,
    by omega⟩, rfl⟩
  rw [Decidable.of_not_not follows, manifestSum, size]

theorem read?_eq_some_iff {bytes : ByteArray} {header : Header} :
    read? bytes = some header ↔
      Binary.number? bytes 0 4 = some header.magic.toNat ∧
      Binary.number? bytes 4 2 = some header.version.toNat ∧
      Binary.number? bytes 6 2 = some header.flags.toNat ∧
      Binary.number? bytes 8 8 = some header.manifestLength.toNat ∧
      Binary.number? bytes 16 8 = some header.indexOffset.toNat ∧
      Binary.number? bytes 24 8 = some header.indexCount.toNat ∧
      Binary.number? bytes 32 8 = some header.detailOffset.toNat := by
  simp only [read?, Option.bind_eq_bind, Option.bind_eq_some_iff, Option.pure_def,
    Option.some.injEq]
  constructor
  · rintro ⟨magic, atMagic, version, atVersion, flags, atFlags, manifestLength, atManifestLength,
      indexOffset, atIndexOffset, indexCount, atIndexCount, detailOffset, atDetailOffset, rfl⟩
    exact ⟨Binary.number?_word32 atMagic, Binary.number?_word16 atVersion,
      Binary.number?_word16 atFlags, Binary.number?_word64 atManifestLength,
      Binary.number?_word64 atIndexOffset, Binary.number?_word64 atIndexCount,
      Binary.number?_word64 atDetailOffset⟩
  · rintro ⟨magic, version, flags, manifestLength, indexOffset, indexCount, detailOffset⟩
    refine ⟨_, magic, _, version, _, flags, _, manifestLength, _, indexOffset, _, indexCount, _,
      detailOffset, ?_⟩
    simp only [UInt32.ofNat_toNat, UInt16.ofNat_toNat, UInt64.ofNat_toNat]

theorem decode_eq_ok_iff {bytes : ByteArray} {header : Header} :
    decode bytes = .ok header ↔ read? bytes = some header := by
  unfold decode
  split
  · rename_i absent
    simp [absent]
  · rename_i found
    simp [found]

theorem size_of_read? {bytes : ByteArray} {header : Header} (found : read? bytes = some header) :
    40 ≤ bytes.size := by
  obtain ⟨_, _, _, _, _, _, detailOffset⟩ := read?_eq_some_iff.mp found
  exact (Binary.number?_isSome_iff bytes 32 8).mp (by rw [detailOffset]; rfl)

theorem exists_read? {bytes : ByteArray} (long : 40 ≤ bytes.size) :
    ∃ header, read? bytes = some header := by
  have field (start width : Nat) (inside : start + width ≤ 40) :
      ∃ number, Binary.number? bytes start width = some number :=
    Binary.exists_number? (Nat.le_trans inside long)
  obtain ⟨magic, atMagic⟩ := field 0 4 (by decide)
  obtain ⟨version, atVersion⟩ := field 4 2 (by decide)
  obtain ⟨flags, atFlags⟩ := field 6 2 (by decide)
  obtain ⟨manifestLength, atManifestLength⟩ := field 8 8 (by decide)
  obtain ⟨indexOffset, atIndexOffset⟩ := field 16 8 (by decide)
  obtain ⟨indexCount, atIndexCount⟩ := field 24 8 (by decide)
  obtain ⟨detailOffset, atDetailOffset⟩ := field 32 8 (by decide)
  exact ⟨⟨.ofNat magic, .ofNat version, .ofNat flags, .ofNat manifestLength, .ofNat indexOffset,
    .ofNat indexCount, .ofNat detailOffset⟩, read?_eq_some_iff.mpr ⟨Binary.number?_word32 atMagic,
    Binary.number?_word16 atVersion, Binary.number?_word16 atFlags,
    Binary.number?_word64 atManifestLength, Binary.number?_word64 atIndexOffset,
    Binary.number?_word64 atIndexCount, Binary.number?_word64 atDetailOffset⟩⟩

theorem size_encode (header : Header) : header.encode.size = 40 := by
  simp [encode]

theorem read?_encode (header : Header) (back : ByteArray) :
    read? (header.encode ++ back) = some header := by
  rw [read?_eq_some_iff]
  simp only [encode, Binary.pack_append]
  simp (disch := simp) only [Binary.number?_append, Binary.number?_last, Binary.number?_pack,
    Binary.word16_mod, Binary.word32_mod, Binary.word64_mod, and_self]

/-- The header is in the first 40 bytes. -/
theorem read?_extract {bytes : ByteArray} (long : 40 ≤ bytes.size) :
    read? (bytes.extract 0 40) = read? bytes := by
  have field (start width : Nat) (fits : start + width ≤ 40) :
      Binary.number? (bytes.extract 0 40) start width = Binary.number? bytes start width := by
    rw [Binary.number?_extract (Nat.zero_le 40) long (by omega), Nat.zero_add]
  simp only [read?, field 0 4 (by omega), field 4 2 (by omega), field 6 2 (by omega),
    field 8 8 (by omega), field 16 8 (by omega), field 24 8 (by omega), field 32 8 (by omega)]

end Header

namespace Layout

def read (bytes : ByteArray) : Except HeaderError Layout := do
  let header ← Header.decode (bytes.extract 0 (min Format.headerSize.toNat bytes.size))
  header.validate bytes.size

/-- The tag is the magic number, byte by byte. -/
theorem tag_iff (bytes : ByteArray) :
    Binary.window? bytes 0 4 = some (Binary.pack Format.tag) ↔
      Binary.number? bytes 0 4 = some Format.magic.toNat := by
  have value : Format.magic.toNat = LittleEndian.value Format.tag := by decide
  rw [value, Binary.number?, Option.map_eq_some_iff]
  constructor
  · intro found
    exact ⟨_, found, by rw [Binary.toList_pack]⟩
  · rintro ⟨window, found, same⟩
    have length : window.data.toList.length = 4 := by
      rw [Array.length_toList, ByteArray.size_data, Binary.size_of_window? found]
    have digits := LittleEndian.bytes_value window.data.toList
    rw [same, length] at digits
    have tag : Binary.pack window.data.toList = window := rfl
    rw [found, ← tag, ← digits]
    rfl

theorem read_eq_ok_iff_header {bytes : ByteArray} {layout : Layout} :
    read bytes = .ok layout ↔ ∃ header, Header.read? bytes = some header ∧
      header.Accepted bytes.size ∧ layout = header.sections := by
  have size : Format.headerSize.toNat = 40 := rfl
  rw [read, size]
  constructor
  · intro success
    cases decoded : Header.decode (bytes.extract 0 (min 40 bytes.size)) with
    | error cause => rw [decoded] at success; cases success
    | ok header =>
      rw [decoded] at success
      obtain ⟨accepted, same⟩ := Header.accepted_of_validate success
      have found := Header.decode_eq_ok_iff.mp decoded
      have long := Header.size_of_read? found
      rw [ByteArray.size_extract] at long
      rw [Nat.min_eq_left (by omega), Header.read?_extract (by omega)] at found
      exact ⟨header, found, accepted, same⟩
  · rintro ⟨header, found, accepted, rfl⟩
    have long := Header.size_of_read? found
    rw [← Header.read?_extract long] at found
    rw [Nat.min_eq_left long, Header.decode_eq_ok_iff.mpr found]
    exact Header.validate_of_accepted accepted

theorem read_eq_ok_iff {bytes : ByteArray} {layout : Layout} :
    read bytes = .ok layout ↔ layout.Matches bytes := by
  rw [read_eq_ok_iff_header]
  constructor
  · rintro ⟨header, found, accepted, rfl⟩
    have long := Header.size_of_read? found
    obtain ⟨magic, version, _, manifestLength, indexOffset, indexCount, detailOffset⟩ :=
      Header.read?_eq_some_iff.mp found
    rw [accepted.magic] at magic
    rw [accepted.version] at version
    exact {
      long
      tag := (tag_iff bytes).mpr magic
      version
      manifestOffset := rfl
      manifestLength
      indexOffset
      indexCount
      detailOffset
      hasManifest := accepted.hasManifest
      indexFollows := accepted.indexFollows
      detailsFollow := accepted.detailsFollow
      inside := accepted.inside }
  · intro same
    have long := same.long
    obtain ⟨flags, atFlags⟩ : ∃ flags, Binary.number? bytes 6 2 = some flags :=
      Binary.exists_number? (by omega)
    refine ⟨{
      magic := Format.magic
      version := Format.version
      flags := .ofNat flags
      manifestLength := layout.manifestLength
      indexOffset := layout.indexOffset
      indexCount := layout.indexCount
      detailOffset := layout.detailOffset }, ?_, ?_, ?_⟩
    · rw [Header.read?_eq_some_iff]
      exact ⟨(tag_iff bytes).mp same.tag, same.version, Binary.number?_word16 atFlags,
        same.manifestLength, same.indexOffset, same.indexCount, same.detailOffset⟩
    · exact ⟨rfl, rfl, same.hasManifest, same.indexFollows, same.detailsFollow, same.inside⟩
    · have offset : layout.manifestOffset = Format.headerSize :=
        UInt64.toNat_inj.mp same.manifestOffset
      cases layout
      simp only at offset
      rw [offset]
      rfl

theorem Matches.unique {bytes : ByteArray} {left right : Layout} (one : left.Matches bytes)
    (other : right.Matches bytes) : left = right := by
  have sections := (read_eq_ok_iff.mpr one).symm.trans (read_eq_ok_iff.mpr other)
  exact Except.ok.inj sections

theorem Matches.nonempty {bytes : ByteArray} {layout : Layout} (same : layout.Matches bytes) :
    bytes ≠ .empty := by
  intro empty
  have long := same.long
  rw [empty] at long
  exact absurd long (by decide)

end Layout

end TraceContainer
