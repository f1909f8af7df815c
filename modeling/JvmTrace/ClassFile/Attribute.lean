import JvmTrace.ClassFile.Format
import JvmTrace.Instruction.Decoder
import JvmTrace.Text.Shown

/-!
# Attributes — named contents, of which only code is looked into

An attribute is resolved by looking up its name; one that is called `Code` is then read as the body of
a method, and every other one keeps its bytes. Both steps can fail.

`findAttribute` looks for a name from the front and stops at the first match. What stands behind the
match is never resolved, so it cannot fail the search; what stands before it can.
-/

set_option autoImplicit false

namespace JvmTrace

/-- The body of a method. -/
structure Code where
  maxStack : UInt16
  maxLocals : UInt16
  /-- The instructions, as bytes. -/
  code : Bytes
  handlers : UInt16
  deriving DecidableEq

namespace Code

/-- How many bytes describe one exception handler. -/
def handlerSize : Nat := 8

open Reader

/-- Steps over an attribute of the code. -/
def skipAttribute : Reader Unit := do
  skip 2
  let length ← u32
  skip length.toNat

/-- The body of a method. The exception handlers and the attributes of the code are stepped over; they
have to be there all the same. -/
def read : Reader Code := do
  let maxStack ← u16
  let maxLocals ← u16
  let length ← u32
  let code ← take length.toNat
  let handlers ← u16
  skip (handlers.toNat * handlerSize)
  let attributes ← u16
  let _ ← times attributes.toNat skipAttribute
  return { maxStack, maxLocals, code, handlers }

/-- The code in the contents of an attribute. Bytes behind it mean nothing. -/
def parse (body : Bytes) : Except Error Code := Code.read.run body

/-- The contents of an attribute that holds `code` and nothing to step over. -/
def encodePlain (maxStack maxLocals : UInt16) (code : Bytes) : Bytes :=
  BigEndian.u16 maxStack ++ BigEndian.u16 maxLocals ++ BigEndian.ofNat 4 code.length ++ code ++
    BigEndian.u16 0 ++ BigEndian.u16 0

/-- A summary of the code, without its bytes. -/
def shown (c : Code) : Shown :=
  .record "Code" [
    ("max_stack", .number c.maxStack.toNat),
    ("max_locals", .number c.maxLocals.toNat),
    ("code_length", .number c.code.length),
    ("exception_handlers", .number c.handlers.toNat)]

end Code

/-- What an attribute holds. -/
inductive AttributeContent where
  | code (code : Code)
  /-- Bytes that are not looked into. -/
  | other (bytes : Bytes)
  deriving DecidableEq

/-- An attribute with its name resolved. -/
structure Attribute where
  name : String
  content : AttributeContent
  deriving DecidableEq

/-- The name of the attribute that is looked into. -/
def codeAttribute : String := "Code"

/-- Looks up the name of an attribute, and looks into it if it holds code. -/
def RawAttribute.resolve (pool : Pool) (a : RawAttribute) : Except Error Attribute := do
  let name ← pool.utf8 a.name
  if name = codeAttribute then return ⟨name, .code (← Code.parse a.body)⟩
  else return ⟨name, .other a.body⟩

/-- The first attribute of the given name. -/
def findAttribute (pool : Pool) (name : String) : List RawAttribute → Except Error (Option Attribute)
  | [] => .ok none
  | a :: rest => do
    let found ← a.resolve pool
    if found.name = name then return some found else findAttribute pool name rest

end JvmTrace
