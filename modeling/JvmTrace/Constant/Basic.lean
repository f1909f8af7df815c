import JvmTrace.Decimal.Binary

/-!
# Constants — the entries of a constant pool

A class file keeps every name, number and reference in one table, and everything else in it refers to
that table by 16-bit index. `Constant` is one entry as it is written: numbers by value or by bits,
references by index, none of them followed. `Constant/Format.lean` has the bytes of an entry,
`Pool/Resolve.lean` follows the references.

Three kinds of constant refer to a member of a class and share one shape, so they are one
constructor with a `MemberKind`.
-/

set_option autoImplicit false

namespace JvmTrace

/-- What kind of member a reference is to. -/
inductive MemberKind where
  | field
  | method
  | interfaceMethod
  deriving DecidableEq

/-- An entry of a constant pool, with its references unfollowed. -/
inductive Constant where
  | utf8 (text : String)
  | integer (value : Int32)
  /-- A 32-bit float, by its bits. -/
  | float (bits : UInt32)
  | long (value : Int64)
  /-- A 64-bit float, by its bits. -/
  | double (bits : UInt64)
  /-- A class, named by a text. -/
  | classRef (name : UInt16)
  /-- A string literal, spelled by a text. -/
  | string (text : UInt16)
  | member (kind : MemberKind) (owner signature : UInt16)
  | nameAndType (name descriptor : UInt16)
  | methodHandle (kind : UInt8) (reference : UInt16)
  /-- The type of a method, spelled by a text. -/
  | methodType (descriptor : UInt16)
  /-- A constant computed at run time. -/
  | dynamic (bootstrap signature : UInt16)
  /-- A call site linked at run time. -/
  | invokeDynamic (bootstrap signature : UInt16)
  /-- A module, named by a text. -/
  | moduleRef (name : UInt16)
  /-- A package, named by a text. -/
  | packageRef (name : UInt16)
  deriving DecidableEq

namespace Constant

/-- The name of a constant's kind in messages. -/
def kindName : Constant → String
  | utf8 _ => "Utf8"
  | integer _ => "Integer"
  | float _ => "Float"
  | long _ => "Long"
  | double _ => "Double"
  | classRef _ => "Class"
  | string _ => "String"
  | member .field _ _ => "Fieldref"
  | member .method _ _ => "Methodref"
  | member .interfaceMethod _ _ => "InterfaceMethodref"
  | nameAndType _ _ => "NameAndType"
  | methodHandle _ _ => "MethodHandle"
  | methodType _ => "MethodType"
  | dynamic _ _ => "Dynamic"
  | invokeDynamic _ _ => "InvokeDynamic"
  | moduleRef _ => "Module"
  | packageRef _ => "Package"

/-- The 64-bit numbers take up two slots of a pool. -/
def isWide : Constant → Bool
  | long _ => true
  | double _ => true
  | _ => false

/-- How many slots of a pool a constant takes up. -/
def slots (c : Constant) : Nat := if c.isWide then 2 else 1

/-- The symbolic name of a method handle's kind. -/
def handleKindName (kind : UInt8) : String :=
  match kind.toNat with
  | 1 => "REF_getField"
  | 2 => "REF_getStatic"
  | 3 => "REF_putField"
  | 4 => "REF_putStatic"
  | 5 => "REF_invokeVirtual"
  | 6 => "REF_invokeStatic"
  | 7 => "REF_invokeSpecial"
  | 8 => "REF_newInvokeSpecial"
  | 9 => "REF_invokeInterface"
  | _ => "REF_unknown"

/-! ## Sameness -/

/-- Whether two constants are the same value. Floats of 64 bits are compared as numbers, everything
else as it is written. -/
def same : Constant → Constant → Bool
  | double a, double b => Decimal.Format.double.sameNumber a.toNat b.toNat
  | a, b => a == b

end Constant

end JvmTrace
