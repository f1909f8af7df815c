import JvmTrace.Instruction.Basic

/-!
# Operands — from the bytes after an opcode

One reader for each layout. Operands are read in the order in which they are written. A constant is
resolved after *all* bytes of its instruction have been read, a branch is checked as soon as its
displacement has been; so of two faults in one instruction it is always the same one that is found.

The cases of a switch are counted by the instruction itself, with a 32-bit number that nothing vouches
for. They are read one by one, and the first that is not there ends it.
-/

set_option autoImplicit false

namespace JvmTrace

/-- The absolute target of a jump by `relative` from `offset`; it must be a 32-bit offset. -/
def branchTarget (offset : UInt32) (relative : Int32) : Except Error UInt32 :=
  let target : Int := offset.toNat + relative.toInt
  if 0 ≤ target ∧ target < UInt32.size then .ok (UInt32.ofNat target.toNat)
  else .error (.branchOutOfRange offset relative)

namespace Operand

open Reader

/-- A local variable. -/
def readSlot (widened : Bool) : Reader UInt16 := do
  if widened then u16 else return (← u8).toUInt16

/-- The increment of a local variable. -/
def readIncrement (widened : Bool) : Reader Int := do
  if widened then return (← i16).toInt else return (← i8).toInt

/-- The constant at an index. -/
def constant (pool : Pool) (index : UInt16) : Reader Operand := do
  return symbol (← lift (pool.resolve index))

/-- The target of the instruction at `offset` that jumps by `relative`. -/
def jump (offset : UInt32) (relative : Int32) : Reader Operand := do
  return target (← lift (branchTarget offset relative))

/-- One case of a table switch: a displacement. -/
def readTableCase (offset : UInt32) : Reader Operand := do
  jump offset (← i32)

/-- One case of a lookup switch: a key and a displacement. -/
def readLookupCase (offset : UInt32) : Reader (List Operand) := do
  let key ← i32
  let relative ← i32
  return [immediate key.toInt, ← jump offset relative]

/-- The alignment of the operands of a switch. -/
def switchAlignment : Nat := 4

/-- The operands of a table switch. The keys must not be in the wrong order, and the default is
checked before the first case is read. -/
def readTableSwitch (offset : UInt32) : Reader (List Operand) := do
  let _ ← align switchAlignment (by decide)
  let default ← i32
  let low ← i32
  let high ← i32
  if high.toInt < low.toInt then throw (.negativeCaseCount offset)
  let default ← jump offset default
  let cases ← times (high.toInt - low.toInt + 1).toNat (readTableCase offset)
  return immediate low.toInt :: immediate high.toInt :: default :: cases

/-- The operands of a lookup switch. The count must not be negative, and the default is checked
before the first case is read. -/
def readLookupSwitch (offset : UInt32) : Reader (List Operand) := do
  let _ ← align switchAlignment (by decide)
  let default ← i32
  let count ← i32
  if count.toInt < 0 then throw (.negativeCaseCount offset)
  let default ← jump offset default
  let cases ← times count.toInt.toNat (readLookupCase offset)
  return default :: cases.flatten

/-- The operands of an instruction at `offset` with the given layout. -/
def readAll (pool : Pool) (offset : UInt32) (widened : Bool) : Layout → Reader (List Operand)
  | .plain => return []
  | .wide => return []
  | .slot => return [slot (← readSlot widened)]
  | .increment => do
    let number ← readSlot widened
    let increment ← readIncrement widened
    return [slot number, immediate increment]
  | .shortConstant => do
    let index ← u8
    return [← constant pool index.toUInt16]
  | .constant => do
    let index ← u16
    return [← constant pool index]
  | .interfaceCall => do
    let index ← u16
    let count ← u8
    skip 1
    return [← constant pool index, immediate count.toNat]
  | .dynamicCall => do
    let index ← u16
    skip 2
    return [← constant pool index]
  | .arrayDimensions => do
    let index ← u16
    let dimensions ← u8
    return [← constant pool index, immediate dimensions.toNat]
  | .byte => return [immediate (← i8).toInt]
  | .short => return [immediate (← i16).toInt]
  | .elementType => return [immediate (← u8).toNat]
  | .branch => do
    let relative ← i16
    return [← jump offset relative.toInt32]
  | .farBranch => do
    let relative ← i32
    return [← jump offset relative]
  | .tableSwitch => readTableSwitch offset
  | .lookupSwitch => readLookupSwitch offset

/-! ## Operands are read forward -/

theorem forward_readSlot (widened : Bool) : Forward (readSlot widened) := by
  unfold readSlot
  split
  · exact forward_u16
  · exact forward_bind forward_u8 fun _ => forward_pure _

theorem forward_readIncrement (widened : Bool) : Forward (readIncrement widened) := by
  unfold readIncrement
  split
  · exact forward_bind forward_i16 fun _ => forward_pure _
  · exact forward_bind forward_i8 fun _ => forward_pure _

theorem forward_constant (pool : Pool) (index : UInt16) : Forward (constant pool index) :=
  forward_bind (forward_lift _) fun _ => forward_pure _

theorem forward_jump (offset : UInt32) (relative : Int32) : Forward (jump offset relative) :=
  forward_bind (forward_lift _) fun _ => forward_pure _

theorem forward_readTableCase (offset : UInt32) : Forward (readTableCase offset) :=
  forward_bind forward_i32 fun _ => forward_jump _ _

theorem forward_readLookupCase (offset : UInt32) : Forward (readLookupCase offset) :=
  forward_bind forward_i32 fun _ => forward_bind forward_i32 fun _ =>
    forward_bind (forward_jump _ _) fun _ => forward_pure _

theorem forward_readTableSwitch (offset : UInt32) : Forward (readTableSwitch offset) := by
  refine forward_bind (forward_align _ _) fun _ => forward_bind forward_i32 fun _ =>
    forward_bind forward_i32 fun _ => forward_bind forward_i32 fun _ => ?_
  have body : ∀ default count low high, Forward (do
      let default ← jump offset default
      let cases ← times count (readTableCase offset)
      return immediate low :: immediate high :: default :: cases) := fun _ _ _ _ =>
    forward_bind (forward_jump _ _) fun _ =>
      forward_bind (forward_times (forward_readTableCase offset) _) fun _ => forward_pure _
  split
  · exact forward_bind (forward_throw _) fun _ => body _ _ _ _
  · exact body _ _ _ _

theorem forward_readLookupSwitch (offset : UInt32) : Forward (readLookupSwitch offset) := by
  refine forward_bind (forward_align _ _) fun _ => forward_bind forward_i32 fun _ =>
    forward_bind forward_i32 fun _ => ?_
  have body : ∀ default count, Forward (do
      let default ← jump offset default
      let cases ← times count (readLookupCase offset)
      return default :: cases.flatten) := fun _ _ =>
    forward_bind (forward_jump _ _) fun _ =>
      forward_bind (forward_times (forward_readLookupCase offset) _) fun _ => forward_pure _
  split
  · exact forward_bind (forward_throw _) fun _ => body _ _
  · exact body _ _

theorem forward_readAll (pool : Pool) (offset : UInt32) (widened : Bool) (layout : Layout) :
    Forward (readAll pool offset widened layout) := by
  cases layout with
  | plain | wide => exact forward_pure _
  | slot => exact forward_bind (forward_readSlot _) fun _ => forward_pure _
  | increment =>
    exact forward_bind (forward_readSlot _) fun _ => forward_bind (forward_readIncrement _) fun _ =>
      forward_pure _
  | shortConstant =>
    exact forward_bind forward_u8 fun _ => forward_bind (forward_constant _ _) fun _ => forward_pure _
  | constant =>
    exact forward_bind forward_u16 fun _ => forward_bind (forward_constant _ _) fun _ =>
      forward_pure _
  | interfaceCall =>
    exact forward_bind forward_u16 fun _ => forward_bind forward_u8 fun _ =>
      forward_bind (forward_skip _) fun _ => forward_bind (forward_constant _ _) fun _ =>
        forward_pure _
  | dynamicCall =>
    exact forward_bind forward_u16 fun _ => forward_bind (forward_skip _) fun _ =>
      forward_bind (forward_constant _ _) fun _ => forward_pure _
  | arrayDimensions =>
    exact forward_bind forward_u16 fun _ => forward_bind forward_u8 fun _ =>
      forward_bind (forward_constant _ _) fun _ => forward_pure _
  | byte => exact forward_bind forward_i8 fun _ => forward_pure _
  | short => exact forward_bind forward_i16 fun _ => forward_pure _
  | elementType => exact forward_bind forward_u8 fun _ => forward_pure _
  | branch =>
    exact forward_bind forward_i16 fun _ => forward_bind (forward_jump _ _) fun _ => forward_pure _
  | farBranch =>
    exact forward_bind forward_i32 fun _ => forward_bind (forward_jump _ _) fun _ => forward_pure _
  | tableSwitch => exact forward_readTableSwitch offset
  | lookupSwitch => exact forward_readLookupSwitch offset

end Operand

end JvmTrace
