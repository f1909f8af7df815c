import JvmTrace.ClassFile.Basic

/-!
# The written form of a class file

The format is the same on every level: a count, and then that many items one after the other.
`ClassFile.read` reads an image and `ClassFile.encode` writes one.

An image ends where its last attribute ends. Bytes after that are an error, which is only looked for
once everything else has been read.
-/

set_option autoImplicit false

namespace JvmTrace

/-! ## Reading -/

/-- A 16-bit count, then that many items. -/
def Reader.counted {α : Type} (item : Reader α) : Reader (List α) := do
  let count ← u16
  times count.toNat item

open Reader

/-- An attribute: its name, its length, its bytes. -/
def RawAttribute.read : Reader RawAttribute := do
  let name ← u16
  let length ← u32
  let body ← take length.toNat
  return ⟨name, body⟩

/-- A field or a method. -/
def Member.read : Reader Member := do
  let access ← u16
  let name ← u16
  let descriptor ← u16
  let attributes ← counted RawAttribute.read
  return ⟨access, name, descriptor, attributes⟩

/-- The tables behind the pool. -/
def ClassTables.read : Reader ClassTables := do
  let access ← u16
  let this ← u16
  let super ← u16
  let interfaces ← counted u16
  let fields ← counted Member.read
  let methods ← counted Member.read
  let attributes ← counted RawAttribute.read
  return { access, this, super, interfaces, fields, methods, attributes }

/-- A whole class file, and nothing behind it. -/
def ClassFile.read : Reader ClassFile := do
  let magic ← u32
  if magic = classFileMagic then
    let minor ← u16
    let major ← u16
    let count ← u16
    let pool ← Pool.read count
    let tables ← ClassTables.read
    let c ← get
    if c.atEnd then return { tables with minor, major, pool }
    else throw (.trailingBytes c.remaining)
  else throw (.notClassFile magic)

/-- The class file of an image. -/
def ClassFile.parse (image : Bytes) : Except Error ClassFile := ClassFile.read.run image

/-! ## Writing -/

/-- A count, then the items one after the other. A count that does not fit is cut to sixteen bits. -/
def encodeCounted {α : Type} (item : α → Bytes) (items : List α) : Bytes :=
  BigEndian.ofNat 2 items.length ++ items.flatMap item

/-- An attribute as the format writes it. -/
def RawAttribute.encode (a : RawAttribute) : Bytes :=
  BigEndian.u16 a.name ++ BigEndian.ofNat 4 a.body.length ++ a.body

/-- A field or a method as the format writes it. -/
def Member.encode (m : Member) : Bytes :=
  BigEndian.u16 m.access ++ BigEndian.u16 m.name ++ BigEndian.u16 m.descriptor ++
    encodeCounted RawAttribute.encode m.attributes

/-- The tables as the format writes them. -/
def ClassTables.encode (t : ClassTables) : Bytes :=
  BigEndian.u16 t.access ++ BigEndian.u16 t.this ++ BigEndian.u16 t.super ++
    encodeCounted BigEndian.u16 t.interfaces ++ encodeCounted Member.encode t.fields ++
    encodeCounted Member.encode t.methods ++ encodeCounted RawAttribute.encode t.attributes

/-- An image, of which the pool is already written: `count` is its count field, which is one more than
its number of slots. -/
def encodeImage (minor major count : UInt16) (constants : Bytes) (tables : ClassTables) : Bytes :=
  BigEndian.u32 classFileMagic ++ BigEndian.u16 minor ++ BigEndian.u16 major ++ BigEndian.u16 count ++
    constants ++ tables.encode

/-- A class file as the format writes it. `spell` chooses the encoding of texts. -/
def ClassFile.encode (spell : List Char → Bytes) (f : ClassFile) : Bytes :=
  encodeImage f.minor f.major (UInt16.ofNat (f.pool.size + 1)) (f.pool.encodeSlots spell)
    f.toClassTables

end JvmTrace
