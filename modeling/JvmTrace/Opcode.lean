/-!
# The instruction set — opcodes, mnemonics and operand layouts

Every instruction is one opcode byte and operands whose shape the opcode decides. There are only
sixteen shapes, the `Layout`s; an `Opcode` names an instruction and says which of them it has. The
table is grouped as the instruction set itself is. A byte that no entry carries is no instruction.
-/

set_option autoImplicit false

namespace JvmTrace

/-- The shape of the operand bytes that follow an opcode. -/
inductive Layout where
  | plain
  /-- A local variable: one byte, two after `wide`. -/
  | slot
  /-- A local variable and a signed increment: one byte each, two each after `wide`. -/
  | increment
  /-- A constant, by a one-byte index. -/
  | shortConstant
  /-- A constant, by a two-byte index. -/
  | constant
  /-- A constant by a two-byte index, a count of argument slots, and a byte without meaning. -/
  | interfaceCall
  /-- A constant by a two-byte index, and two bytes without meaning. -/
  | dynamicCall
  /-- A constant by a two-byte index, and a count of dimensions. -/
  | arrayDimensions
  | byte
  | short
  /-- A code for the element type of an array: one unsigned byte. -/
  | elementType
  /-- A signed 16-bit displacement from the start of the instruction. -/
  | branch
  /-- A signed 32-bit displacement from the start of the instruction. -/
  | farBranch
  /-- Padding; then a default displacement, the least and the greatest key, and a displacement for
  each key between them. -/
  | tableSwitch
  /-- Padding; then a default displacement, a count, and that many keys with their displacements. -/
  | lookupSwitch
  /-- No operands, but the next instruction has wider ones. -/
  | wide
  deriving DecidableEq

/-- Only local variables have a wider form. -/
def Layout.isWidenable : Layout → Bool
  | .slot => true
  | .increment => true
  | _ => false

/-- An instruction of the instruction set. -/
structure Opcode where
  /-- The byte that announces it. -/
  code : UInt8
  /-- Its name, in lower case. -/
  mnemonic : String
  /-- The shape of its operands. -/
  layout : Layout
  deriving DecidableEq

namespace Opcode

/-! ## The table -/

/-- Instructions of this group: push a value that the instruction itself holds or names. -/
def constants : List Opcode := [
  ⟨0x00, "nop", .plain⟩, ⟨0x01, "aconst_null", .plain⟩, ⟨0x02, "iconst_m1", .plain⟩,
  ⟨0x03, "iconst_0", .plain⟩, ⟨0x04, "iconst_1", .plain⟩, ⟨0x05, "iconst_2", .plain⟩,
  ⟨0x06, "iconst_3", .plain⟩, ⟨0x07, "iconst_4", .plain⟩, ⟨0x08, "iconst_5", .plain⟩,
  ⟨0x09, "lconst_0", .plain⟩, ⟨0x0a, "lconst_1", .plain⟩, ⟨0x0b, "fconst_0", .plain⟩,
  ⟨0x0c, "fconst_1", .plain⟩, ⟨0x0d, "fconst_2", .plain⟩, ⟨0x0e, "dconst_0", .plain⟩,
  ⟨0x0f, "dconst_1", .plain⟩, ⟨0x10, "bipush", .byte⟩, ⟨0x11, "sipush", .short⟩,
  ⟨0x12, "ldc", .shortConstant⟩, ⟨0x13, "ldc_w", .constant⟩, ⟨0x14, "ldc2_w", .constant⟩
  ]

/-- Instructions of this group: push a local variable or an array element. -/
def loads : List Opcode := [
  ⟨0x15, "iload", .slot⟩, ⟨0x16, "lload", .slot⟩, ⟨0x17, "fload", .slot⟩, ⟨0x18, "dload", .slot⟩,
  ⟨0x19, "aload", .slot⟩, ⟨0x1a, "iload_0", .plain⟩, ⟨0x1b, "iload_1", .plain⟩,
  ⟨0x1c, "iload_2", .plain⟩, ⟨0x1d, "iload_3", .plain⟩, ⟨0x1e, "lload_0", .plain⟩,
  ⟨0x1f, "lload_1", .plain⟩, ⟨0x20, "lload_2", .plain⟩, ⟨0x21, "lload_3", .plain⟩,
  ⟨0x22, "fload_0", .plain⟩, ⟨0x23, "fload_1", .plain⟩, ⟨0x24, "fload_2", .plain⟩,
  ⟨0x25, "fload_3", .plain⟩, ⟨0x26, "dload_0", .plain⟩, ⟨0x27, "dload_1", .plain⟩,
  ⟨0x28, "dload_2", .plain⟩, ⟨0x29, "dload_3", .plain⟩, ⟨0x2a, "aload_0", .plain⟩,
  ⟨0x2b, "aload_1", .plain⟩, ⟨0x2c, "aload_2", .plain⟩, ⟨0x2d, "aload_3", .plain⟩,
  ⟨0x2e, "iaload", .plain⟩, ⟨0x2f, "laload", .plain⟩, ⟨0x30, "faload", .plain⟩,
  ⟨0x31, "daload", .plain⟩, ⟨0x32, "aaload", .plain⟩, ⟨0x33, "baload", .plain⟩,
  ⟨0x34, "caload", .plain⟩, ⟨0x35, "saload", .plain⟩
  ]

/-- Instructions of this group: pop into a local variable or an array element. -/
def stores : List Opcode := [
  ⟨0x36, "istore", .slot⟩, ⟨0x37, "lstore", .slot⟩, ⟨0x38, "fstore", .slot⟩,
  ⟨0x39, "dstore", .slot⟩, ⟨0x3a, "astore", .slot⟩, ⟨0x3b, "istore_0", .plain⟩,
  ⟨0x3c, "istore_1", .plain⟩, ⟨0x3d, "istore_2", .plain⟩, ⟨0x3e, "istore_3", .plain⟩,
  ⟨0x3f, "lstore_0", .plain⟩, ⟨0x40, "lstore_1", .plain⟩, ⟨0x41, "lstore_2", .plain⟩,
  ⟨0x42, "lstore_3", .plain⟩, ⟨0x43, "fstore_0", .plain⟩, ⟨0x44, "fstore_1", .plain⟩,
  ⟨0x45, "fstore_2", .plain⟩, ⟨0x46, "fstore_3", .plain⟩, ⟨0x47, "dstore_0", .plain⟩,
  ⟨0x48, "dstore_1", .plain⟩, ⟨0x49, "dstore_2", .plain⟩, ⟨0x4a, "dstore_3", .plain⟩,
  ⟨0x4b, "astore_0", .plain⟩, ⟨0x4c, "astore_1", .plain⟩, ⟨0x4d, "astore_2", .plain⟩,
  ⟨0x4e, "astore_3", .plain⟩, ⟨0x4f, "iastore", .plain⟩, ⟨0x50, "lastore", .plain⟩,
  ⟨0x51, "fastore", .plain⟩, ⟨0x52, "dastore", .plain⟩, ⟨0x53, "aastore", .plain⟩,
  ⟨0x54, "bastore", .plain⟩, ⟨0x55, "castore", .plain⟩, ⟨0x56, "sastore", .plain⟩
  ]

/-- Instructions of this group: rearrange the operand stack. -/
def stack : List Opcode := [
  ⟨0x57, "pop", .plain⟩, ⟨0x58, "pop2", .plain⟩, ⟨0x59, "dup", .plain⟩, ⟨0x5a, "dup_x1", .plain⟩,
  ⟨0x5b, "dup_x2", .plain⟩, ⟨0x5c, "dup2", .plain⟩, ⟨0x5d, "dup2_x1", .plain⟩,
  ⟨0x5e, "dup2_x2", .plain⟩, ⟨0x5f, "swap", .plain⟩
  ]

/-- Instructions of this group: arithmetic and logic. -/
def arithmetic : List Opcode := [
  ⟨0x60, "iadd", .plain⟩, ⟨0x61, "ladd", .plain⟩, ⟨0x62, "fadd", .plain⟩, ⟨0x63, "dadd", .plain⟩,
  ⟨0x64, "isub", .plain⟩, ⟨0x65, "lsub", .plain⟩, ⟨0x66, "fsub", .plain⟩, ⟨0x67, "dsub", .plain⟩,
  ⟨0x68, "imul", .plain⟩, ⟨0x69, "lmul", .plain⟩, ⟨0x6a, "fmul", .plain⟩, ⟨0x6b, "dmul", .plain⟩,
  ⟨0x6c, "idiv", .plain⟩, ⟨0x6d, "ldiv", .plain⟩, ⟨0x6e, "fdiv", .plain⟩, ⟨0x6f, "ddiv", .plain⟩,
  ⟨0x70, "irem", .plain⟩, ⟨0x71, "lrem", .plain⟩, ⟨0x72, "frem", .plain⟩, ⟨0x73, "drem", .plain⟩,
  ⟨0x74, "ineg", .plain⟩, ⟨0x75, "lneg", .plain⟩, ⟨0x76, "fneg", .plain⟩, ⟨0x77, "dneg", .plain⟩,
  ⟨0x78, "ishl", .plain⟩, ⟨0x79, "lshl", .plain⟩, ⟨0x7a, "ishr", .plain⟩, ⟨0x7b, "lshr", .plain⟩,
  ⟨0x7c, "iushr", .plain⟩, ⟨0x7d, "lushr", .plain⟩, ⟨0x7e, "iand", .plain⟩, ⟨0x7f, "land", .plain⟩,
  ⟨0x80, "ior", .plain⟩, ⟨0x81, "lor", .plain⟩, ⟨0x82, "ixor", .plain⟩, ⟨0x83, "lxor", .plain⟩,
  ⟨0x84, "iinc", .increment⟩
  ]

/-- Instructions of this group: turn a number of one type into another. -/
def conversions : List Opcode := [
  ⟨0x85, "i2l", .plain⟩, ⟨0x86, "i2f", .plain⟩, ⟨0x87, "i2d", .plain⟩, ⟨0x88, "l2i", .plain⟩,
  ⟨0x89, "l2f", .plain⟩, ⟨0x8a, "l2d", .plain⟩, ⟨0x8b, "f2i", .plain⟩, ⟨0x8c, "f2l", .plain⟩,
  ⟨0x8d, "f2d", .plain⟩, ⟨0x8e, "d2i", .plain⟩, ⟨0x8f, "d2l", .plain⟩, ⟨0x90, "d2f", .plain⟩,
  ⟨0x91, "i2b", .plain⟩, ⟨0x92, "i2c", .plain⟩, ⟨0x93, "i2s", .plain⟩
  ]

/-- Instructions of this group: compare, and branch on the outcome. -/
def comparisons : List Opcode := [
  ⟨0x94, "lcmp", .plain⟩, ⟨0x95, "fcmpl", .plain⟩, ⟨0x96, "fcmpg", .plain⟩, ⟨0x97, "dcmpl", .plain⟩,
  ⟨0x98, "dcmpg", .plain⟩, ⟨0x99, "ifeq", .branch⟩, ⟨0x9a, "ifne", .branch⟩,
  ⟨0x9b, "iflt", .branch⟩, ⟨0x9c, "ifge", .branch⟩, ⟨0x9d, "ifgt", .branch⟩,
  ⟨0x9e, "ifle", .branch⟩, ⟨0x9f, "if_icmpeq", .branch⟩, ⟨0xa0, "if_icmpne", .branch⟩,
  ⟨0xa1, "if_icmplt", .branch⟩, ⟨0xa2, "if_icmpge", .branch⟩, ⟨0xa3, "if_icmpgt", .branch⟩,
  ⟨0xa4, "if_icmple", .branch⟩, ⟨0xa5, "if_acmpeq", .branch⟩, ⟨0xa6, "if_acmpne", .branch⟩
  ]

/-- Instructions of this group: jump, select a case, return. -/
def control : List Opcode := [
  ⟨0xa7, "goto", .branch⟩, ⟨0xa8, "jsr", .branch⟩, ⟨0xa9, "ret", .slot⟩,
  ⟨0xaa, "tableswitch", .tableSwitch⟩, ⟨0xab, "lookupswitch", .lookupSwitch⟩,
  ⟨0xac, "ireturn", .plain⟩, ⟨0xad, "lreturn", .plain⟩, ⟨0xae, "freturn", .plain⟩,
  ⟨0xaf, "dreturn", .plain⟩, ⟨0xb0, "areturn", .plain⟩, ⟨0xb1, "return", .plain⟩
  ]

/-- Instructions of this group: fields, methods, objects and arrays. -/
def references : List Opcode := [
  ⟨0xb2, "getstatic", .constant⟩, ⟨0xb3, "putstatic", .constant⟩, ⟨0xb4, "getfield", .constant⟩,
  ⟨0xb5, "putfield", .constant⟩, ⟨0xb6, "invokevirtual", .constant⟩,
  ⟨0xb7, "invokespecial", .constant⟩, ⟨0xb8, "invokestatic", .constant⟩,
  ⟨0xb9, "invokeinterface", .interfaceCall⟩, ⟨0xba, "invokedynamic", .dynamicCall⟩,
  ⟨0xbb, "new", .constant⟩, ⟨0xbc, "newarray", .elementType⟩, ⟨0xbd, "anewarray", .constant⟩,
  ⟨0xbe, "arraylength", .plain⟩, ⟨0xbf, "athrow", .plain⟩, ⟨0xc0, "checkcast", .constant⟩,
  ⟨0xc1, "instanceof", .constant⟩, ⟨0xc2, "monitorenter", .plain⟩, ⟨0xc3, "monitorexit", .plain⟩
  ]

/-- Instructions of this group: longer forms of other instructions. -/
def extended : List Opcode := [
  ⟨0xc4, "wide", .wide⟩, ⟨0xc5, "multianewarray", .arrayDimensions⟩, ⟨0xc6, "ifnull", .branch⟩,
  ⟨0xc7, "ifnonnull", .branch⟩, ⟨0xc8, "goto_w", .farBranch⟩, ⟨0xc9, "jsr_w", .farBranch⟩
  ]

/-- Instructions of this group: for debuggers and implementations; they do not occur in a compiled class. -/
def reserved : List Opcode := [
  ⟨0xca, "breakpoint", .plain⟩, ⟨0xfe, "impdep1", .plain⟩, ⟨0xff, "impdep2", .plain⟩
  ]

/-- Every instruction, in opcode order. -/
def all : List Opcode :=
  constants ++ loads ++ stores ++ stack ++ arithmetic ++ conversions ++ comparisons ++ control ++
    references ++ extended ++ reserved

/-- The instruction that a byte announces, if there is one. -/
def ofByte? (code : UInt8) : Option Opcode :=
  all.find? (·.code == code)

end Opcode

end JvmTrace
