import JvmTrace.Text.Quoted

/-!
# Errors — everything that can go wrong, by cause

One type for the whole library. A constructor names the *cause* and carries what locates it; the
wording lives in `Error.message` and nowhere else, so that callers can match on a cause without
reading prose.

Positions count bytes from the start of the slice that was being read. Offsets are 32-bit words,
because they are offsets into a code array.
-/

set_option autoImplicit false

namespace JvmTrace

/-- Why an operation failed. -/
inductive Error where
  /-- The image does not start with the class-file magic number. -/
  | notClassFile (magic : UInt32)
  /-- A read that started at `position` needed `needed` bytes, and fewer were left. -/
  | endOfInput (position needed : Nat)
  /-- The operands of the instruction at `offset` run past the end of the code. -/
  | truncatedInstruction (offset : UInt32) (mnemonic : String)
  /-- Index zero, an index past the end of the pool, or the slot after a two-slot constant. -/
  | invalidIndex (index : UInt16)
  /-- The constant at `index` is of another kind than the reference to it requires. -/
  | wrongKind (index : UInt16) (expected found : String)
  /-- The text that starts at `position` is in neither of the two accepted encodings. -/
  | invalidText (position : Nat)
  /-- No kind of constant has this tag. -/
  | unknownTag (tag : UInt8)
  /-- The byte at `offset` is no instruction. -/
  | unknownOpcode (opcode : UInt8) (offset : UInt32)
  /-- The instruction at `offset` follows `wide` and has nothing to widen. -/
  | notWidenable (opcode : UInt8) (offset : UInt32)
  /-- The instruction at `offset` jumps by `relative` to a target that is no code offset. -/
  | branchOutOfRange (offset : UInt32) (relative : Int32)
  /-- The switch at `offset` claims fewer than no cases. -/
  | negativeCaseCount (offset : UInt32)
  /-- The text does not follow the descriptor grammar. -/
  | malformedDescriptor (text : String)
  /-- `count` bytes follow the last attribute of the class. -/
  | trailingBytes (count : Nat)
  /-- The surrounding system refused to read or write, in its own words. -/
  | io (text : String)
  /-- The document could not be written out, in the words of whoever was to take it. -/
  | serialization (text : String)
  deriving DecidableEq

namespace Error

/-- `n` in lower-case hexadecimal after `0x`, with at least `width` digits. -/
def hex (width n : Nat) : String :=
  let digits := Nat.toDigits 16 n
  "0x" ++ String.ofList (List.replicate (width - digits.length) '0' ++ digits)

/-- The wording of an error. -/
def message : Error → String
  | notClassFile magic => "not a class file: found magic " ++ hex 8 magic.toNat
  | endOfInput position needed =>
    "unexpected end of input at byte " ++ toString position ++ ", needed " ++ toString needed ++
      " more bytes"
  | truncatedInstruction offset mnemonic =>
    "truncated " ++ mnemonic ++ " instruction at offset " ++ toString offset.toNat
  | invalidIndex index => toString index.toNat ++ " is not a valid constant pool index"
  | wrongKind index expected found =>
    "constant pool entry " ++ toString index.toNat ++ " should be " ++ expected ++ ", found " ++ found
  | invalidText position =>
    "invalid modified utf-8 in the constant starting at byte " ++ toString position
  | unknownTag tag => toString tag.toNat ++ " is not a known constant pool tag"
  | unknownOpcode opcode offset =>
    "unknown opcode " ++ hex 2 opcode.toNat ++ " at offset " ++ toString offset.toNat
  | notWidenable opcode offset =>
    "opcode " ++ hex 2 opcode.toNat ++ " at offset " ++ toString offset.toNat ++ " cannot follow wide"
  | branchOutOfRange offset relative =>
    "branch at offset " ++ toString offset.toNat ++ " jumps by " ++ toString relative.toInt ++
      " before the start of the code"
  | negativeCaseCount offset =>
    "switch at offset " ++ toString offset.toNat ++ " has a negative case count"
  | malformedDescriptor text => Text.quote text ++ " is not a valid descriptor"
  | trailingBytes count =>
    toString count ++ " unexpected bytes after the end of the class file"
  | io text => text
  | serialization text => text

/-- The wording of an error that ends a program. It closes with the place for a backtrace, which is
never captured. -/
def report (e : Error) : String :=
  e.message ++ " at\ndisabled backtrace"

/-! ## Refusals of the file system -/

/-- Nothing has the given name. -/
def noSuchFile : Error := io "No such file or directory (os error 2)"

/-- The node is there, but not for the user of the run. -/
def permissionDenied : Error := io "Permission denied (os error 13)"

/-- The path goes on below something that is not a directory. -/
def notDirectory : Error := io "Not a directory (os error 20)"

/-- The name is that of a directory. -/
def isDirectory : Error := io "Is a directory (os error 21)"

/-- The path, or a step of it, is longer than any there can be. -/
def nameTooLong : Error := io "File name too long (os error 36)"

/-- The path leads from link to link, as if without end. -/
def tooManyLinks : Error := io "Too many levels of symbolic links (os error 40)"

end Error

end JvmTrace
