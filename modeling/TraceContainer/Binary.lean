/-! Words, their bytes, and windows into byte strings. Sums and products of 64-bit words refuse to
wrap around; a window that leaves its byte string is `none`, never shortened, so that a read out of
range stays visible to its caller. -/

-- Powers of numbers and equality of byte strings are those of the core library, whatever else is
-- known of them where they are used.
attribute [instance (100000), default_instance (100000)] instPowNat

attribute [instance (10000)] ByteArray.instDecidableEq

namespace TraceContainer.Binary

def sum? (left right : UInt64) : Option UInt64 :=
  if left.toNat + right.toNat < UInt64.size then some (left + right) else none

def product? (left right : UInt64) : Option UInt64 :=
  if left.toNat * right.toNat < UInt64.size then some (left * right) else none

theorem sum?_eq_some_iff (left right total : UInt64) :
    sum? left right = some total ↔ total.toNat = left.toNat + right.toNat := by
  have bound := total.toNat_lt
  unfold sum?
  split
  · rename_i fits
    rw [Option.some.injEq, ← UInt64.toNat_inj, UInt64.toNat_add, Nat.mod_eq_of_lt fits]
    exact eq_comm
  · rename_i large
    simp only [UInt64.size] at large
    constructor
    · intro impossible; cases impossible
    · intro same; omega

theorem product?_eq_some_iff (left right total : UInt64) :
    product? left right = some total ↔ total.toNat = left.toNat * right.toNat := by
  have bound := total.toNat_lt
  unfold product?
  split
  · rename_i fits
    rw [Option.some.injEq, ← UInt64.toNat_inj, UInt64.toNat_mul, Nat.mod_eq_of_lt fits]
    exact eq_comm
  · rename_i large
    simp only [UInt64.size] at large
    constructor
    · intro impossible; cases impossible
    · intro same; omega

end TraceContainer.Binary

namespace TraceContainer.LittleEndian

/-- The number whose digits in base 256 are the given bytes, the lowest first. -/
def value : List UInt8 → Nat
  | [] => 0
  | low :: rest => low.toNat + 256 * value rest

/-- The lowest digits of a number in base 256, as many as the width asks for. -/
def bytes : Nat → Nat → List UInt8
  | 0, _ => []
  | width + 1, number => UInt8.ofNat number :: bytes width (number / 256)

@[simp] theorem length_bytes (width number : Nat) : (bytes width number).length = width := by
  induction width generalizing number with
  | zero => rfl
  | succ width ih => simp [bytes, ih]

theorem value_lt (digits : List UInt8) : value digits < 256 ^ digits.length := by
  induction digits with
  | nil => simp [value]
  | cons low rest ih =>
    have bound := low.toNat_lt
    simp only [value, List.length_cons, Nat.pow_succ]
    omega

theorem value_bytes (width number : Nat) : value (bytes width number) = number % 256 ^ width := by
  induction width generalizing number with
  | zero => simp [bytes, value, Nat.mod_one]
  | succ width ih =>
    have lowest : (UInt8.ofNat number).toNat = number % 256 := by simp
    rw [bytes, value, ih, lowest, Nat.pow_succ, Nat.mul_comm (256 ^ width), Nat.mod_mul]

theorem bytes_value (digits : List UInt8) : bytes digits.length (value digits) = digits := by
  induction digits with
  | nil => rfl
  | cons low rest ih =>
    have bound := low.toNat_lt
    have quotient : (low.toNat + 256 * value rest) / 256 = value rest := by omega
    have first : UInt8.ofNat (low.toNat + 256 * value rest) = low := by
      apply UInt8.toNat_inj.mp
      have lowest : (UInt8.ofNat (low.toNat + 256 * value rest)).toNat =
          (low.toNat + 256 * value rest) % 256 := by simp
      omega
    simp only [value, List.length_cons, bytes, quotient, first, ih]

end TraceContainer.LittleEndian

namespace TraceContainer.Binary

/-- The bytes from one position up to, and without, another. -/
def window? (source : ByteArray) (start stop : Nat) : Option ByteArray :=
  if start ≤ stop ∧ stop ≤ source.size then some (source.extract start stop) else none

/-- The little-endian number of a width that starts at a position. -/
def number? (source : ByteArray) (start width : Nat) : Option Nat :=
  (window? source start (start + width)).map (fun bytes => LittleEndian.value bytes.data.toList)

def pack (bytes : List UInt8) : ByteArray :=
  ⟨bytes.toArray⟩

theorem window?_isSome_iff (source : ByteArray) (start stop : Nat) :
    (window? source start stop).isSome ↔ start ≤ stop ∧ stop ≤ source.size := by
  unfold window?
  split <;> simp_all

theorem number?_isSome_iff (source : ByteArray) (start width : Nat) :
    (number? source start width).isSome ↔ start + width ≤ source.size := by
  simp [number?, window?_isSome_iff]

end TraceContainer.Binary
