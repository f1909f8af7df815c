import JvmTrace.Instruction.Operands

/-!
# Decoding — from a code array to instructions

Decoding goes over the code once. What one instruction hands to the next is only the cursor and
whether it was `wide`; that is the `Decoder`. `Decoder.next` decodes one instruction, `decodeAll` runs
it to the end, and `decode` is what a caller wants who has no use for half of a method.

The order of the checks on one instruction is fixed, and it decides which error a byte sequence with
several faults gives:

1. the opcode must be one of the table;
2. after `wide` it must be one that can be widened;
3. the operands must be readable and must lead somewhere (`Instruction/Operands.lean`);
4. operands that run past the end are reported as a truncated instruction, whatever read it was that
   ran short.

A `wide` with nothing behind it is truncated as well, and is noticed when the code ends.
-/

set_option autoImplicit false

namespace JvmTrace

/-- Within an instruction, a read that runs short means that the instruction is truncated. -/
def Error.asTruncated (offset : UInt32) (mnemonic : String) : Error → Error
  | .endOfInput _ _ => .truncatedInstruction offset mnemonic
  | e => e

/-- The offset of a position in the code, as a 32-bit word. -/
def Cursor.offset (c : Cursor) : UInt32 := UInt32.ofNat c.position

namespace Instruction

open Reader

/-- The instruction at `offset` that `opcode` announces, and whether it widens the next one. -/
def readOperands (pool : Pool) (widened : Bool) (offset : UInt32) (opcode : Opcode) :
    Reader (Instruction × Bool) := do
  let operands ← mapError (.asTruncated offset opcode.mnemonic)
    (Operand.readAll pool offset widened opcode.layout)
  return (⟨offset, opcode.mnemonic, operands⟩, opcode.layout == .wide)

/-- The instruction at `offset` that the byte `code` announces, and whether it widens the next one. -/
def readAfter (pool : Pool) (widened : Bool) (offset : UInt32) (code : UInt8) :
    Reader (Instruction × Bool) :=
  match Opcode.ofByte? code with
  | none => throw (.unknownOpcode code offset)
  | some opcode =>
    if widened && !opcode.layout.isWidenable then throw (.notWidenable code offset)
    else readOperands pool widened offset opcode

/-- The instruction at the cursor, and whether it widens the next one. -/
def read (pool : Pool) (widened : Bool) : Reader (Instruction × Bool) := do
  let c ← get
  let code ← u8
  readAfter pool widened c.offset code

end Instruction

/-! ## One instruction at a time -/

/-- What the next instruction is decoded under. -/
inductive Phase where
  /-- As it stands. -/
  | ready
  /-- With wider operands, because of the `wide` at `offset`. -/
  | widening (offset : UInt32)
  /-- Not at all: an error has been given. -/
  | stopped
  deriving DecidableEq

/-- A place in a code array. -/
structure Decoder where
  /-- Where the next instruction starts, or where reading stopped. -/
  cursor : Cursor
  /-- What it is decoded under. -/
  phase : Phase
  deriving DecidableEq

namespace Decoder

/-- The decoder in front of the first instruction. -/
def start (code : Bytes) : Decoder := ⟨Cursor.start code, .ready⟩

/-- The offset at which the decoder stands. -/
def offset (d : Decoder) : UInt32 := d.cursor.offset

/-- Decodes the instruction at the cursor. -/
def step (pool : Pool) (d : Decoder) (widened : Bool) : Except Error Instruction × Decoder :=
  match Instruction.read pool widened d.cursor with
  | .ok (instruction, widens) cursor =>
    (.ok instruction, ⟨cursor, if widens then .widening instruction.offset else .ready⟩)
  | .error e cursor => (.error e, ⟨cursor, .stopped⟩)

/-- The next instruction, or the error that ends decoding; nothing once the code has ended or an error
has been given. -/
def next (pool : Pool) (d : Decoder) : Option (Except Error Instruction) × Decoder :=
  match d.phase, d.cursor.atEnd with
  | .stopped, _ => (none, d)
  | .ready, true => (none, d)
  | .widening offset, true =>
    (some (.error (.truncatedInstruction offset "wide")), { d with phase := .stopped })
  | .ready, false => Prod.map some id (d.step pool false)
  | .widening _, false => Prod.map some id (d.step pool true)

end Decoder

/-! ## Every instruction takes at least one byte -/

namespace Instruction

open Reader

theorem forward_readAfter (pool : Pool) (widened : Bool) (offset : UInt32) (code : UInt8) :
    Forward (readAfter pool widened offset code) := by
  unfold readAfter
  split
  · exact forward_throw _
  · split
    · exact forward_throw _
    · exact forward_bind (forward_mapError _ (Operand.forward_readAll _ _ _ _)) fun _ =>
        forward_pure _

/-- A decoded instruction leaves fewer bytes ahead than there were. -/
theorem length_read_lt {pool : Pool} {widened : Bool} {c c' : Cursor}
    {result : Instruction × Bool} (h : Instruction.read pool widened c = .ok result c') :
    c'.rest.length < c.rest.length := by
  change EStateM.bind u8 (readAfter pool widened c.offset) c = .ok result c' at h
  simp only [EStateM.bind] at h
  split at h
  · next code c₁ hcode =>
    have hone := u8_ok_length hcode
    have hrest := forward_readAfter pool widened c.offset code c₁ result c' h
    omega
  · cases h

end Instruction

namespace Decoder

theorem length_step_lt {pool : Pool} {d d' : Decoder} {widened : Bool} {i : Instruction}
    (h : d.step pool widened = (.ok i, d')) : d'.cursor.rest.length < d.cursor.rest.length := by
  simp only [step] at h
  split at h
  · next hread =>
    cases h
    exact Instruction.length_read_lt hread
  · cases h

theorem length_next_lt {pool : Pool} {d d' : Decoder} {i : Instruction}
    (h : d.next pool = (some (.ok i), d')) : d'.cursor.rest.length < d.cursor.rest.length := by
  unfold next at h
  split at h
  · cases h
  · cases h
  · cases h
  · cases hstep : d.step pool false with
    | mk item e =>
      rw [hstep] at h
      cases h
      exact length_step_lt hstep
  · cases hstep : d.step pool true with
    | mk item e =>
      rw [hstep] at h
      cases h
      exact length_step_lt hstep

end Decoder

/-! ## Whole methods -/

/-- What came of decoding a code array: the instructions up to the end or up to the first fault, and
the fault. -/
structure Decoding where
  /-- The instructions that were decoded. -/
  instructions : List Instruction
  /-- The error that ended decoding early. -/
  failure : Option Error
  deriving DecidableEq

/-- Runs a decoder to its end; `decoded` holds the instructions before it, in reverse order. -/
def Decoder.runFrom (pool : Pool) (decoded : List Instruction) (d : Decoder) : Decoding :=
  match _h : d.next pool with
  | (some (.ok instruction), d') => runFrom pool (instruction :: decoded) d'
  | (some (.error e), _) => ⟨decoded.reverse, some e⟩
  | (none, _) => ⟨decoded.reverse, none⟩
termination_by d.cursor.rest.length
decreasing_by exact Decoder.length_next_lt _h

/-- Decodes a code array as far as it goes. -/
def decodeAll (pool : Pool) (code : Bytes) : Decoding :=
  (Decoder.start code).runFrom pool []

/-- The instructions of a code array, or the error of the first one that cannot be decoded. -/
def decode (pool : Pool) (code : Bytes) : Except Error (List Instruction) :=
  let decoding := decodeAll pool code
  match decoding.failure with
  | none => .ok decoding.instructions
  | some e => .error e

end JvmTrace
