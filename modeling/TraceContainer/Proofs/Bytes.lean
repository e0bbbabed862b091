import TraceContainer.Binary

namespace TraceContainer.Binary

/-- The position behind records of one size, unless it needs more than 64 bits. -/
theorem position_eq_some_iff (start count size stop : UInt64) :
    ((product? count size).bind fun length => sum? length start) = some stop ↔
      stop.toNat = start.toNat + size.toNat * count.toNat := by
  rw [Option.bind_eq_some_iff]
  constructor
  · rintro ⟨length, product, sum⟩
    rw [product?_eq_some_iff] at product
    rw [sum?_eq_some_iff] at sum
    rw [sum, product, Nat.mul_comm, Nat.add_comm]
  · intro total
    have bound := stop.toNat_lt
    have length : (UInt64.ofNat (size.toNat * count.toNat)).toNat = size.toNat * count.toNat :=
      UInt64.toNat_ofNat_of_lt' (by simp only [UInt64.size]; omega)
    refine ⟨.ofNat (size.toNat * count.toNat), ?_, ?_⟩
    · rw [product?_eq_some_iff, length, Nat.mul_comm]
    · rw [sum?_eq_some_iff, length, total, Nat.add_comm]

@[simp] theorem size_pack (bytes : List UInt8) : (pack bytes).size = bytes.length := by
  simp [pack, ← ByteArray.size_data]

@[simp] theorem toList_pack (bytes : List UInt8) : (pack bytes).data.toList = bytes := rfl

theorem pack_append (left right : List UInt8) : pack (left ++ right) = pack left ++ pack right := by
  apply ByteArray.ext
  simp [pack]

theorem window?_of_le {source : ByteArray} {start stop : Nat} (ordered : start ≤ stop)
    (inside : stop ≤ source.size) : window? source start stop = some (source.extract start stop) :=
  if_pos ⟨ordered, inside⟩

theorem window?_of_lt {source : ByteArray} {start stop : Nat} (outside : source.size < stop) :
    window? source start stop = none :=
  if_neg fun both => Nat.not_le.mpr outside both.2

theorem number?_of_lt {source : ByteArray} {start width : Nat}
    (outside : source.size < start + width) : number? source start width = none := by
  rw [number?, window?_of_lt outside, Option.map_none]

theorem window?_eq_some_iff {source bytes : ByteArray} {start stop : Nat} :
    window? source start stop = some bytes ↔
      start ≤ stop ∧ stop ≤ source.size ∧ source.extract start stop = bytes := by
  unfold window?
  split
  · rename_i fits
    simp [fits]
  · rename_i outside
    simp only [reduceCtorEq, false_iff]
    intro ⟨ordered, inside, _⟩
    exact outside ⟨ordered, inside⟩

theorem size_of_window? {source bytes : ByteArray} {start stop : Nat}
    (found : window? source start stop = some bytes) : bytes.size = stop - start := by
  obtain ⟨_, inside, rfl⟩ := window?_eq_some_iff.mp found
  rw [ByteArray.size_extract, Nat.min_eq_left inside]

theorem window?_extract {source : ByteArray} {first last start stop : Nat}
    (ordered : first ≤ last) (inside : last ≤ source.size) (fits : first + stop ≤ last) :
    window? (source.extract first last) start stop =
      window? source (first + start) (first + stop) := by
  have size : (source.extract first last).size = last - first := by
    rw [ByteArray.size_extract, Nat.min_eq_left inside]
  unfold window?
  by_cases forward : start ≤ stop
  · rw [if_pos ⟨forward, by omega⟩, if_pos ⟨by omega, by omega⟩, ByteArray.extract_extract,
      Nat.min_eq_left fits]
  · rw [if_neg (fun both => forward both.1), if_neg (fun both => forward (by omega))]

theorem number?_extract {source : ByteArray} {first last start width : Nat}
    (ordered : first ≤ last) (inside : last ≤ source.size) (fits : first + start + width ≤ last) :
    number? (source.extract first last) start width = number? source (first + start) width := by
  rw [number?, number?, window?_extract ordered inside (by omega), Nat.add_assoc]

theorem number?_lt {source : ByteArray} {start width number : Nat}
    (found : number? source start width = some number) : number < 256 ^ width := by
  obtain ⟨bytes, window, rfl⟩ := Option.map_eq_some_iff.mp found
  have size := size_of_window? window
  have bound := LittleEndian.value_lt bytes.data.toList
  rw [Array.length_toList, ByteArray.size_data, size, Nat.add_sub_cancel_left] at bound
  exact bound

theorem exists_number? {source : ByteArray} {start width : Nat}
    (inside : start + width ≤ source.size) : ∃ number, number? source start width = some number :=
  Option.isSome_iff_exists.mp ((number?_isSome_iff source start width).mpr inside)

theorem number?_word16 {source : ByteArray} {start number : Nat}
    (found : number? source start 2 = some number) :
    number? source start 2 = some (UInt16.ofNat number).toNat := by
  rw [UInt16.toNat_ofNat_of_lt' (number?_lt found), found]

theorem number?_word32 {source : ByteArray} {start number : Nat}
    (found : number? source start 4 = some number) :
    number? source start 4 = some (UInt32.ofNat number).toNat := by
  rw [UInt32.toNat_ofNat_of_lt' (number?_lt found), found]

theorem number?_word64 {source : ByteArray} {start number : Nat}
    (found : number? source start 8 = some number) :
    number? source start 8 = some (UInt64.ofNat number).toNat := by
  rw [UInt64.toNat_ofNat_of_lt' (number?_lt found), found]

theorem extract_append_of_le {source : ByteArray} (back : ByteArray) {start stop : Nat}
    (inside : stop ≤ source.size) :
    (source ++ back).extract start stop = source.extract start stop := by
  have empty : back.extract (start - source.size) (stop - source.size) = .empty := by
    rw [ByteArray.extract_eq_empty_iff]
    omega
  rw [ByteArray.extract_append, empty, ByteArray.append_empty]

/-- What stands behind a window is not seen through it. -/
theorem window?_append {source : ByteArray} (back : ByteArray) {start stop : Nat}
    (inside : stop ≤ source.size) :
    window? (source ++ back) start stop = window? source start stop := by
  by_cases ordered : start ≤ stop
  · have within : stop ≤ (source ++ back).size := by
      rw [ByteArray.size_append]
      exact Nat.le_add_right_of_le inside
    rw [window?_of_le ordered within, window?_of_le ordered inside,
      extract_append_of_le back inside]
  · rw [window?, window?, if_neg (fun both => ordered both.1), if_neg (fun both => ordered both.1)]

theorem number?_append {source : ByteArray} (back : ByteArray) {start width : Nat}
    (inside : start + width ≤ source.size) :
    number? (source ++ back) start width = number? source start width := by
  rw [number?, number?, window?_append back inside]

theorem window?_middle (front middle back : ByteArray) {start stop : Nat}
    (starts : start = front.size) (stops : stop = front.size + middle.size) :
    window? (front ++ middle ++ back) start stop = some middle := by
  have inside : stop ≤ (front ++ middle).size := by rw [ByteArray.size_append]; omega
  rw [window?_append back inside, window?_of_le (by omega) inside,
    ByteArray.extract_append_eq_right starts stops]

/-- A number at the end of other bytes is read back, as far as the width holds it. -/
theorem number?_last (front : ByteArray) {start width : Nat} (number : Nat)
    (starts : start = front.size) :
    number? (front ++ pack (LittleEndian.bytes width number)) start width =
      some (number % 256 ^ width) := by
  have window := window?_middle front (pack (LittleEndian.bytes width number)) .empty starts rfl
  rw [ByteArray.append_empty, ← starts, size_pack, LittleEndian.length_bytes] at window
  rw [number?, window, Option.map_some, toList_pack, LittleEndian.value_bytes]

theorem number?_pack (width number : Nat) :
    number? (pack (LittleEndian.bytes width number)) 0 width = some (number % 256 ^ width) := by
  have last : number? (.empty ++ pack (LittleEndian.bytes width number)) 0 width =
      some (number % 256 ^ width) := number?_last .empty number rfl
  rwa [ByteArray.empty_append] at last

theorem word16_mod (word : UInt16) : word.toNat % 256 ^ 2 = word.toNat :=
  Nat.mod_eq_of_lt word.toNat_lt

theorem word32_mod (word : UInt32) : word.toNat % 256 ^ 4 = word.toNat :=
  Nat.mod_eq_of_lt word.toNat_lt

theorem word64_mod (word : UInt64) : word.toNat % 256 ^ 8 = word.toNat :=
  Nat.mod_eq_of_lt word.toNat_lt

/-- A number is written as the bytes that it was read from. -/
theorem pack_of_number? {source : ByteArray} {start width number : Nat}
    (found : number? source start width = some number) :
    pack (LittleEndian.bytes width number) = source.extract start (start + width) := by
  obtain ⟨part, window, same⟩ := Option.map_eq_some_iff.mp found
  obtain ⟨_, _, cut⟩ := window?_eq_some_iff.mp window
  have length : part.data.toList.length = width := by
    rw [Array.length_toList, ByteArray.size_data, size_of_window? window, Nat.add_sub_cancel_left]
  have digits := LittleEndian.bytes_value part.data.toList
  rw [length, same] at digits
  rw [digits, cut]
  rfl

theorem extract_whole {bytes : ByteArray} {size : Nat} (long : bytes.size = size) :
    bytes.extract 0 size = bytes := by
  rw [← long]
  exact ByteArray.extract_zero_size

end TraceContainer.Binary
