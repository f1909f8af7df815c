import JvmTrace.Constant.Format

/-!
# The constant pool — slots, indices and what they hold

A pool is a row of slots, addressed from one. A 64-bit number takes up two slots, the second of which
is a placeholder that nothing may refer to; only when such a number lands in the very last slot is
there no placeholder, because there is no room for one.

`Pool.get` is the one way in: it fails on index zero, past the end and on a placeholder, and always
with the same error. `Pool.entries` lists what `get` finds.
-/

set_option autoImplicit false

namespace JvmTrace

/-- A place in a pool: a constant, or the placeholder after a two-slot constant. -/
abbrev Slot := Option Constant

/-- A constant pool. The slot of index `i` stands at place `i - 1`. -/
structure Pool where
  /-- The slots, in index order. -/
  slots : Array Slot
  deriving DecidableEq

namespace Pool

/-- The pool without slots. -/
def empty : Pool := ⟨#[]⟩

/-- How many slots there are, placeholders included. -/
def size (p : Pool) : Nat := p.slots.size

/-- The constant at an index, if the index is usable. -/
def get? (p : Pool) (index : UInt16) : Option Constant :=
  match index.toNat with
  | 0 => none
  | place + 1 => (p.slots[place]?).join

/-- The constant at an index. -/
def get (p : Pool) (index : UInt16) : Except Error Constant :=
  match p.get? index with
  | some c => .ok c
  | none => .error (.invalidIndex index)

/-- Every constant with its index, in index order. -/
def entries (p : Pool) : List (UInt16 × Constant) :=
  p.slots.toList.zipIdx.filterMap fun (slot, place) => slot.map (UInt16.ofNat (place + 1), ·)

/-! ## The written form -/

/-- Fills `room` more slots from the bytes ahead. A two-slot constant is followed by its placeholder
as long as there is room for one. -/
def readSlots : (room : Nat) → (slots : Array Slot) → Reader (Array Slot)
  | 0, slots => pure slots
  | 1, slots => do
    let c ← Constant.read
    pure (slots.push (some c))
  | room + 2, slots => do
    let c ← Constant.read
    if c.isWide then readSlots room ((slots.push (some c)).push none)
    else readSlots (room + 1) (slots.push (some c))

/-- A pool whose count field is `count`: one more than its number of slots. A count of zero stands for
no slots as well. -/
def read (count : UInt16) : Reader Pool := do
  return ⟨← readSlots (count.toNat - 1) #[]⟩

/-- The constants of a pool, one after the other; placeholders are not written. -/
def encodeSlots (spell : List Char → Bytes) (p : Pool) : Bytes :=
  p.slots.toList.flatMap fun
    | some c => c.encode spell
    | none => []

end Pool

end JvmTrace
