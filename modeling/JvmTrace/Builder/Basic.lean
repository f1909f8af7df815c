import JvmTrace.ClassFile.Attribute

/-!
# The builder — class files from scratch

A builder assembles an image step by step, so that one can be had without a compiler. Constants are
shared: asking for one that is already there gives its index again, and a new one gets the next free
index. A composite constant asks for its parts first, so its parts always have an index when it is
written.

A builder may also be asked for things that no compiler would write (constants given as bytes,
references to indices that hold something else), because that is what readers have to be tried on.
Indices and counts are 16-bit words, and what does not fit is cut.
-/

set_option autoImplicit false

namespace JvmTrace

/-- A constant of a builder. -/
inductive BuilderConstant where
  | constant (value : Constant)
  /-- Bytes that are written as they are, and count as one slot. -/
  | raw (bytes : Bytes)

namespace BuilderConstant

/-- How many slots it takes up. -/
def slots : BuilderConstant → Nat
  | constant value => value.slots
  | raw _ => 1

/-- Its bytes. Texts are spelled in standard UTF-8. -/
def encode : BuilderConstant → Bytes
  | constant value => value.encode Text.Utf8.encode
  | raw bytes => bytes

/-- Whether two of them can share an index. -/
def same : BuilderConstant → BuilderConstant → Bool
  | constant a, constant b => a.same b
  | raw a, raw b => a == b
  | _, _ => false

end BuilderConstant

/-- A class file in the making. -/
structure Builder where
  minor : UInt16
  major : UInt16
  /-- The constants so far with their indices, in index order. -/
  constants : Array (UInt16 × BuilderConstant)
  /-- The next free index. -/
  next : UInt16
  /-- Everything else so far. -/
  tables : ClassTables

/-- A step that may add constants and gives something in return. -/
abbrev BuilderM := StateM Builder

namespace Builder

/-! ## Constants -/

/-- The index of a constant, which is added unless it is there. -/
def share (c : BuilderConstant) : BuilderM UInt16 := do
  let b ← get
  match b.constants.find? (fun (_, there) => there.same c) with
  | some (index, _) => return index
  | none =>
    set { b with
      constants := b.constants.push (b.next, c)
      next := b.next + UInt16.ofNat c.slots }
    return b.next

/-- The index of a constant that needs no others. -/
def constant (c : Constant) : BuilderM UInt16 := share (.constant c)

/-- The index of a text. -/
def utf8 (text : String) : BuilderM UInt16 := constant (.utf8 text)

/-- The index of a class. -/
def classRef (name : String) : BuilderM UInt16 := do
  constant (.classRef (← utf8 name))

/-- The index of a string literal. -/
def string (text : String) : BuilderM UInt16 := do
  constant (.string (← utf8 text))

/-- The index of a name with a descriptor. -/
def nameAndType (name descriptor : String) : BuilderM UInt16 := do
  let name ← utf8 name
  let descriptor ← utf8 descriptor
  constant (.nameAndType name descriptor)

/-- The index of a member of a class. -/
def memberRef (kind : MemberKind) (owner name descriptor : String) : BuilderM UInt16 := do
  let owner ← classRef owner
  let signature ← nameAndType name descriptor
  constant (.member kind owner signature)

/-- The index of a constant given as bytes. -/
def raw (bytes : Bytes) : BuilderM UInt16 := share (.raw bytes)

/-! ## The class -/

/-- Changes the tables. -/
def modifyTables (f : ClassTables → ClassTables) : BuilderM Unit :=
  modify fun b => { b with tables := f b.tables }

/-- Sets the version. -/
def version (major minor : UInt16) : BuilderM Unit :=
  modify fun b => { b with major, minor }

/-- Sets the class that this one extends. -/
def superClass (name : String) : BuilderM Unit := do
  let index ← classRef name
  modifyTables fun t => { t with super := index }

/-- Makes the class extend none. -/
def noSuperClass : BuilderM Unit :=
  modifyTables fun t => { t with super := 0 }

/-- Adds an interface. -/
def interface (name : String) : BuilderM Unit := do
  let index ← classRef name
  modifyTables fun t => { t with interfaces := t.interfaces ++ [index] }

/-- Adds a private field that is marked as deprecated. -/
def field (name descriptor : String) : BuilderM Unit := do
  let name ← utf8 name
  let descriptor ← utf8 descriptor
  let deprecated ← utf8 "Deprecated"
  let member : Member := ⟨0x0002, name, descriptor, [⟨deprecated, []⟩]⟩
  modifyTables fun t => { t with fields := t.fields ++ [member] }

/-- The depth of the stack and the number of local variables of every method. -/
def room : UInt16 := 16

/-- The attributes of a method with the given body. -/
def codeAttributes : Option Bytes → BuilderM (List RawAttribute)
  | none => return []
  | some code => return [⟨← utf8 codeAttribute, Code.encodePlain room room code⟩]

/-- Adds a public method; one without a body is abstract. -/
def method (name descriptor : String) (code : Option Bytes) : BuilderM Unit := do
  let access : UInt16 := if code.isSome then 0x0001 else 0x0401
  let name ← utf8 name
  let descriptor ← utf8 descriptor
  let attributes ← codeAttributes code
  let member : Member := ⟨access, name, descriptor, attributes⟩
  modifyTables fun t => { t with methods := t.methods ++ [member] }

/-- Adds an attribute of the class. -/
def addAttribute (name : String) (body : Bytes) : BuilderM Unit := do
  let name ← utf8 name
  modifyTables fun t => { t with attributes := t.attributes ++ [⟨name, body⟩] }

/-! ## Start and end -/

/-- A builder that knows nothing yet, not even the name of the class. -/
def blank : Builder where
  minor := 0
  major := 52
  constants := #[]
  next := 1
  tables := {
    access := 0x0021, this := 0, super := 0, interfaces := [], fields := [], methods := [],
    attributes := [] }

/-- Names the class, and makes it extend the root of the hierarchy. -/
def name (this : String) : BuilderM Unit := do
  let this ← classRef this
  modifyTables fun t => { t with this := this }
  superClass "java/lang/Object"

/-- A builder for a public class of the given name. -/
def new (this : String) : Builder := ((name this).run blank).2

/-- The image of the class so far. -/
def build (b : Builder) : Bytes :=
  encodeImage b.minor b.major b.next (b.constants.toList.flatMap fun (_, c) => c.encode) b.tables

end Builder

end JvmTrace
