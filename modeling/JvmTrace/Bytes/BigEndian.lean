/-!
# Big-endian words — numbers as the class-file format writes them

Every number of a class file is written most significant byte first, in one, two, four or eight
bytes. Both directions are here, over `Nat`: `toNat` reads any run of bytes, `ofNat` writes a fixed
width and drops what does not fit. The fixed-width writers below are `ofNat` at the format's four
widths.
-/

set_option autoImplicit false

namespace JvmTrace

/-- A run of bytes. -/
abbrev Bytes := List UInt8

namespace BigEndian

/-- The number that `bytes` spell, most significant byte first. -/
def toNat (bytes : Bytes) : Nat :=
  bytes.foldl (fun n b => 256 * n + b.toNat) 0

/-- How many numbers `width` bytes can spell. -/
def capacity : (width : Nat) → Nat
  | 0 => 1
  | width + 1 => 256 * capacity width

/-- The last `width` bytes of `n`, most significant byte first. -/
def ofNat : (width : Nat) → (n : Nat) → Bytes
  | 0, _ => []
  | width + 1, n => UInt8.ofNat (n / capacity width) :: ofNat width n

/-- One byte. -/
def u8 (n : UInt8) : Bytes := ofNat 1 n.toNat

/-- Two bytes. -/
def u16 (n : UInt16) : Bytes := ofNat 2 n.toNat

/-- Four bytes. -/
def u32 (n : UInt32) : Bytes := ofNat 4 n.toNat

/-- Eight bytes. -/
def u64 (n : UInt64) : Bytes := ofNat 8 n.toNat

/-! ## Reading undoes writing -/

@[simp] theorem length_ofNat (width n : Nat) : (ofNat width n).length = width := by
  induction width with
  | zero => rfl
  | succ width ih => simp [ofNat, ih]

/-- What is already read moves up by the width of what follows. -/
theorem foldl_eq (bytes : Bytes) (n : Nat) :
    bytes.foldl (fun n b => 256 * n + b.toNat) n = n * capacity bytes.length + toNat bytes := by
  induction bytes generalizing n with
  | nil => simp [toNat, capacity]
  | cons b rest ih =>
    simp only [toNat, List.foldl_cons, List.length_cons, capacity]
    rw [ih, ih (256 * 0 + b.toNat)]
    simp only [Nat.mul_zero, Nat.zero_add, Nat.add_mul]
    rw [Nat.mul_comm 256 n, Nat.mul_assoc, Nat.add_assoc]

/-- The first byte counts as many times as the others have values. -/
theorem toNat_cons (b : UInt8) (rest : Bytes) :
    toNat (b :: rest) = b.toNat * capacity rest.length + toNat rest := by
  have h := foldl_eq rest b.toNat
  simpa [toNat] using h

/-- A written number reads back as itself, up to the bytes that did not fit. -/
theorem toNat_ofNat (width n : Nat) : toNat (ofNat width n) = n % capacity width := by
  induction width with
  | zero => simp [ofNat, toNat, capacity, Nat.mod_one]
  | succ width ih =>
    have split : n % capacity (width + 1) =
        n % capacity width + capacity width * (n / capacity width % 256) := by
      rw [capacity, Nat.mul_comm, Nat.mod_mul]
    have high : (UInt8.ofNat (n / capacity width)).toNat = n / capacity width % 256 :=
      UInt8.toNat_ofNat'
    rw [ofNat, toNat_cons, ih, length_ofNat, high, split, Nat.mul_comm, Nat.add_comm]

end BigEndian

end JvmTrace
