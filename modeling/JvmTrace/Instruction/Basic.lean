import JvmTrace.Opcode
import JvmTrace.Pool.Resolve

/-!
# Instructions — decoded, with every operand resolved

An instruction keeps the offset of its opcode, so that a selection of instructions still says where
each one stood. Its operands need nothing else to be read: constants are symbols, and branches are
absolute offsets.
-/

set_option autoImplicit false

namespace JvmTrace

/-- An operand of an instruction. -/
inductive Operand where
  | slot (number : UInt16)
  /-- A number that the instruction itself holds. -/
  | immediate (value : Int)
  | symbol (value : Symbol)
  /-- The offset of another instruction. -/
  | target (offset : UInt32)
  deriving DecidableEq

/-- An operand as it stands in a listing. -/
def Operand.text : Operand → String
  | slot number => "%" ++ toString number.toNat
  | immediate value => toString value
  | symbol s => s.text
  | target offset => "#" ++ toString offset.toNat

/-- A decoded instruction. -/
structure Instruction where
  /-- Where its opcode stands in the code. -/
  offset : UInt32
  /-- The name of the instruction. -/
  mnemonic : String
  /-- Its operands, in the order in which they are written. -/
  operands : List Operand
  deriving DecidableEq

/-- An instruction as a line of a listing. -/
def Instruction.text (i : Instruction) : String :=
  i.operands.foldl (fun line operand => line ++ " " ++ operand.text)
    (toString i.offset.toNat ++ ": " ++ i.mnemonic)

end JvmTrace
