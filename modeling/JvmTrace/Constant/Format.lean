import JvmTrace.Bytes.Cursor
import JvmTrace.Constant.Basic
import JvmTrace.Text.Utf8

/-!
# The written form of a constant

A constant is written as a tag byte and a payload whose shape the tag decides. `Constant.encode`
writes one and `Constant.read` reads one. The writer is told how to spell texts, because both UTF-8
and modified UTF-8 are read back; the reader takes either.
-/

set_option autoImplicit false

namespace JvmTrace

namespace Constant

/-! ## Writing -/

/-- The byte that announces a constant of this kind. -/
def tag : Constant → UInt8
  | utf8 _ => 1
  | integer _ => 3
  | float _ => 4
  | long _ => 5
  | double _ => 6
  | classRef _ => 7
  | string _ => 8
  | member .field _ _ => 9
  | member .method _ _ => 10
  | member .interfaceMethod _ _ => 11
  | nameAndType _ _ => 12
  | methodHandle _ _ => 15
  | methodType _ => 16
  | dynamic _ _ => 17
  | invokeDynamic _ _ => 18
  | moduleRef _ => 19
  | packageRef _ => 20

/-- A text with its length in front. A length that does not fit is cut to sixteen bits, and the bytes
are written all the same. -/
def encodeText (bytes : Bytes) : Bytes :=
  BigEndian.ofNat 2 bytes.length ++ bytes

/-- The bytes after the tag. `spell` chooses the encoding of texts. -/
def payload (spell : List Char → Bytes) : Constant → Bytes
  | utf8 text => encodeText (spell text.toList)
  | integer value => BigEndian.u32 value.toUInt32
  | float bits => BigEndian.u32 bits
  | long value => BigEndian.u64 value.toUInt64
  | double bits => BigEndian.u64 bits
  | classRef name => BigEndian.u16 name
  | string text => BigEndian.u16 text
  | member _ owner signature => BigEndian.u16 owner ++ BigEndian.u16 signature
  | nameAndType name descriptor => BigEndian.u16 name ++ BigEndian.u16 descriptor
  | methodHandle kind reference => BigEndian.u8 kind ++ BigEndian.u16 reference
  | methodType descriptor => BigEndian.u16 descriptor
  | dynamic bootstrap signature => BigEndian.u16 bootstrap ++ BigEndian.u16 signature
  | invokeDynamic bootstrap signature => BigEndian.u16 bootstrap ++ BigEndian.u16 signature
  | moduleRef name => BigEndian.u16 name
  | packageRef name => BigEndian.u16 name

/-- A constant as the format writes it. -/
def encode (spell : List Char → Bytes) (c : Constant) : Bytes :=
  c.tag :: c.payload spell

/-! ## Reading -/

open Reader in
/-- A text: its length, then its bytes. A text in neither encoding is reported where its bytes
start. -/
def readText : Reader Constant := do
  let length ← u16
  let position := (← get).position
  let bytes ← take length.toNat
  match Text.decode bytes with
  | some text => return utf8 text
  | none => throw (.invalidText position)

open Reader in
/-- Two indices, in the order in which they are written. -/
def readPair (make : UInt16 → UInt16 → Constant) : Reader Constant := do
  let first ← u16
  let second ← u16
  return make first second

open Reader in
/-- A constant: a tag, and the payload that the tag announces. -/
def read : Reader Constant := do
  let tag ← u8
  match tag.toNat with
  | 1 => readText
  | 3 => return integer (← i32)
  | 4 => return float (← u32)
  | 5 => return long (← i64)
  | 6 => return double (← u64)
  | 7 => return classRef (← u16)
  | 8 => return string (← u16)
  | 9 => readPair (member .field)
  | 10 => readPair (member .method)
  | 11 => readPair (member .interfaceMethod)
  | 12 => readPair nameAndType
  | 15 => return methodHandle (← u8) (← u16)
  | 16 => return methodType (← u16)
  | 17 => readPair dynamic
  | 18 => readPair invokeDynamic
  | 19 => return moduleRef (← u16)
  | 20 => return packageRef (← u16)
  | _ => throw (.unknownTag tag)

end Constant

end JvmTrace
