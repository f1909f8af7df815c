import JvmTrace.Pool.Basic

/-!
# Class files — the tables of a class, as they are written

A `ClassFile` holds everything that an image holds, and nothing is interpreted: names are indices into
the pool, attributes are bytes. `ClassFile/Format.lean` has the bytes of it, and `ClassFile/View.lean`
follows the indices.
-/

set_option autoImplicit false

namespace JvmTrace

/-- A named run of bytes that belongs to a class, a field, a method or some code. -/
structure RawAttribute where
  name : UInt16
  body : Bytes
  deriving DecidableEq

/-- A field or a method. -/
structure Member where
  access : UInt16
  name : UInt16
  descriptor : UInt16
  attributes : List RawAttribute
  deriving DecidableEq

/-- What a class says about itself, once its pool is known. -/
structure ClassTables where
  access : UInt16
  this : UInt16
  /-- The index of the class that this one extends, or zero. -/
  super : UInt16
  /-- The indices of the interfaces that this class implements. -/
  interfaces : List UInt16
  fields : List Member
  methods : List Member
  /-- What else belongs to the class. -/
  attributes : List RawAttribute
  deriving DecidableEq

/-- A class file. -/
structure ClassFile extends ClassTables where
  minor : UInt16
  major : UInt16
  /-- The constants that everything else refers to. -/
  pool : Pool
  deriving DecidableEq

/-- The number that every class file starts with. -/
def classFileMagic : UInt32 := 0xCAFEBABE

end JvmTrace
