import JvmTrace.Bytes.BigEndian
import JvmTrace.Error

/-!
# The cursor — reading forward, and knowing where a read failed

A `Cursor` is a place in a slice of bytes: how many bytes lie behind it and which lie ahead. A
`Reader` moves a cursor forward and produces a value, or fails and says where. Three rules hold for
every reader of this file:

- a read that needs `w` bytes succeeds exactly when `w` bytes are ahead;
- a success moves the cursor by exactly `w`;
- a failure reports the position at which the read *started* together with `w`, and leaves the cursor
  where it was.

The failing cursor is part of the outcome (`EStateM` keeps the state of an error), because a decoder
that stops on an error still has a position, and callers look at it.

`Reader.Forward` says that a reader never moves back. It is closed under sequencing, and that is what
lets a loop over readers end by counting the bytes ahead.
-/

set_option autoImplicit false

namespace JvmTrace

/-- A place in a slice of bytes. -/
structure Cursor where
  /-- How many bytes lie behind. -/
  position : Nat
  /-- The bytes ahead. -/
  rest : Bytes
  deriving DecidableEq

namespace Cursor

/-- The cursor in front of the first byte. -/
def start (bytes : Bytes) : Cursor := ⟨0, bytes⟩

/-- How many bytes can still be read. -/
def remaining (c : Cursor) : Nat := c.rest.length

/-- Whether every byte has been read. -/
def atEnd (c : Cursor) : Bool := c.rest.isEmpty

end Cursor

/-- A computation that reads forward from a cursor. -/
abbrev Reader (α : Type) := EStateM Error Cursor α

namespace Reader

variable {α β : Type}

/-! ## Reads -/

/-- The next `n` bytes. Only the bytes taken are counted, so that a short read in a long slice costs
no more than it returns. -/
def take (n : Nat) : Reader Bytes := fun c =>
  let taken := c.rest.take n
  if taken.length = n then .ok taken ⟨c.position + n, c.rest.drop n⟩
  else .error (.endOfInput c.position n) c

/-- Moves past `n` bytes. -/
def skip (n : Nat) : Reader Unit := do
  let _ ← take n

/-- The next byte, without moving. -/
def peek : Reader UInt8 := fun c =>
  match c.rest with
  | b :: _ => .ok b c
  | [] => .error (.endOfInput c.position 1) c

/-- The number in the next `width` bytes. -/
def word (width : Nat) : Reader Nat := do
  let bytes ← take width
  return BigEndian.toNat bytes

/-- An unsigned byte. -/
def u8 : Reader UInt8 := do return UInt8.ofNat (← word 1)

/-- An unsigned 16-bit word. -/
def u16 : Reader UInt16 := do return UInt16.ofNat (← word 2)

/-- An unsigned 32-bit word. -/
def u32 : Reader UInt32 := do return UInt32.ofNat (← word 4)

/-- An unsigned 64-bit word. -/
def u64 : Reader UInt64 := do return UInt64.ofNat (← word 8)

/-- A signed byte, in two's complement. -/
def i8 : Reader Int8 := do return (← u8).toInt8

/-- A signed 16-bit word, in two's complement. -/
def i16 : Reader Int16 := do return (← u16).toInt16

/-- A signed 32-bit word, in two's complement. -/
def i32 : Reader Int32 := do return (← u32).toInt32

/-- A signed 64-bit word, in two's complement. -/
def i64 : Reader Int64 := do return (← u64).toInt64

/-- How far `position` is from the next multiple of `alignment`. -/
def padding (alignment position : Nat) : Nat :=
  (alignment - position % alignment) % alignment

/-- Moves to the next multiple of `alignment`, counted from the start of the slice, and says how many
bytes that skipped. There is no next multiple of zero, so the alignment comes with a proof. -/
def align (alignment : Nat) (_positive : 0 < alignment) : Reader Nat := do
  let c ← get
  let n := padding alignment c.position
  skip n
  return n

/-! ## Combinators -/

/-- Runs `item` `n` more times and appends what it reads to `read`, which is in reverse order. -/
def timesFrom (item : Reader α) : (n : Nat) → (read : List α) → Reader (List α)
  | 0, read => pure read.reverse
  | n + 1, read => do
    let a ← item
    timesFrom item n (a :: read)

/-- Runs `item` `n` times, one after the other. Nothing is set aside in advance, so a count that the
bytes cannot honour costs no more than the items that are there. -/
def times (n : Nat) (item : Reader α) : Reader (List α) :=
  timesFrom item n []

/-- Replaces the error of a reader that fails; the cursor stays where the failure left it. -/
def mapError (f : Error → Error) (r : Reader α) : Reader α := fun c =>
  match r c with
  | .ok a c' => .ok a c'
  | .error e c' => .error (f e) c'

/-- Fails with an error that needs no bytes. -/
def lift : Except Error α → Reader α
  | .ok a => pure a
  | .error e => throw e

/-- What `r` reads from the start of `bytes`. -/
def run (r : Reader α) (bytes : Bytes) : Except Error α :=
  match r (Cursor.start bytes) with
  | .ok a _ => .ok a
  | .error e _ => .error e

/-! ## Readers move forward -/

/-- A reader that, when it succeeds, leaves no more bytes ahead than it found. -/
def Forward (r : Reader α) : Prop :=
  ∀ c a c', r c = .ok a c' → c'.rest.length ≤ c.rest.length

theorem forward_pure (a : α) : Forward (pure a : Reader α) := by
  intro c b c' h
  cases h
  exact Nat.le_refl _

theorem forward_throw (e : Error) : Forward (throw e : Reader α) := by
  intro c a c' h
  cases h

theorem forward_bind {r : Reader α} {f : α → Reader β} (hr : Forward r)
    (hf : ∀ a, Forward (f a)) : Forward (r >>= f) := by
  intro c b c'' h
  simp only [bind, EStateM.bind] at h
  split at h
  · next a c' hrc => exact Nat.le_trans (hf a c' b c'' h) (hr c a c' hrc)
  · cases h

theorem forward_get : Forward (get : Reader Cursor) := by
  intro c a c' h
  cases h
  exact Nat.le_refl _

/-- A successful `take n` leaves exactly `n` bytes fewer ahead. -/
theorem take_ok_length {n : Nat} {c c' : Cursor} {bytes : Bytes} (h : take n c = .ok bytes c') :
    c'.rest.length + n = c.rest.length := by
  simp only [take] at h
  split at h
  · next hlen =>
    cases h
    simp only [List.length_take] at hlen
    simp only [List.length_drop]
    omega
  · cases h

theorem forward_take (n : Nat) : Forward (take n) := by
  intro c bytes c' h
  have := take_ok_length h
  omega

theorem forward_skip (n : Nat) : Forward (skip n) :=
  forward_bind (forward_take n) fun _ => forward_pure _

theorem forward_word (width : Nat) : Forward (word width) :=
  forward_bind (forward_take width) fun _ => forward_pure _

theorem forward_u8 : Forward u8 := forward_bind (forward_word 1) fun _ => forward_pure _

theorem forward_u16 : Forward u16 := forward_bind (forward_word 2) fun _ => forward_pure _

theorem forward_u32 : Forward u32 := forward_bind (forward_word 4) fun _ => forward_pure _

theorem forward_i8 : Forward i8 := forward_bind forward_u8 fun _ => forward_pure _

theorem forward_i16 : Forward i16 := forward_bind forward_u16 fun _ => forward_pure _

theorem forward_i32 : Forward i32 := forward_bind forward_u32 fun _ => forward_pure _

theorem forward_align (alignment : Nat) (positive : 0 < alignment) :
    Forward (align alignment positive) :=
  forward_bind forward_get fun _ => forward_bind (forward_skip _) fun _ => forward_pure _

theorem forward_timesFrom {item : Reader α} (h : Forward item) (n : Nat) (read : List α) :
    Forward (timesFrom item n read) := by
  induction n generalizing read with
  | zero => exact forward_pure _
  | succ n ih => exact forward_bind h fun a => ih (a :: read)

theorem forward_times {item : Reader α} (h : Forward item) (n : Nat) : Forward (times n item) :=
  forward_timesFrom h n []

theorem forward_mapError (f : Error → Error) {r : Reader α} (h : Forward r) :
    Forward (mapError f r) := by
  intro c a c' hr
  simp only [mapError] at hr
  split at hr
  · next heq =>
    cases hr
    exact h c a c' heq
  · cases hr

theorem forward_lift (x : Except Error α) : Forward (lift x) := by
  cases x with
  | ok a => exact forward_pure a
  | error e => exact forward_throw e

/-- Reading one byte leaves one byte fewer ahead, so it strictly shortens what is to be read. -/
theorem u8_ok_length {c c' : Cursor} {b : UInt8} (h : u8 c = .ok b c') :
    c'.rest.length + 1 = c.rest.length := by
  simp only [u8, word, bind, EStateM.bind, pure, EStateM.pure] at h
  split at h
  · next heq =>
    split at heq
    · next htake =>
      cases heq
      cases h
      exact take_ok_length htake
    · cases heq
  · cases h

end Reader

end JvmTrace
