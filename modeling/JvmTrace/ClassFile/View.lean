import JvmTrace.ClassFile.Attribute
import JvmTrace.Descriptor.Parser

/-!
# The view of a class — its tables with every index followed

Each part of a class is resolved on its own and only when asked for: a class whose third method has a
malformed descriptor still has a name. A list is resolved from the front, and its first failure is the
failure of the whole list.

A member is its name, its descriptor as text (the *signature*) and its descriptor as a type, looked up
in that order.
-/

set_option autoImplicit false

namespace JvmTrace

/-- A field with its indices followed. -/
structure Field where
  name : String
  signature : String
  access : UInt16
  /-- The type that the descriptor spells. -/
  type : FieldType
  attributes : List RawAttribute
  deriving DecidableEq

/-- A method with its indices followed. -/
structure Method where
  name : String
  signature : String
  access : UInt16
  /-- The types that the descriptor spells. -/
  descriptor : MethodDescriptor
  attributes : List RawAttribute
  deriving DecidableEq

/-- Follows the indices of a field. -/
def Member.toField (pool : Pool) (m : Member) : Except Error Field := do
  let name ← pool.utf8 m.name
  let signature ← pool.utf8 m.descriptor
  let type ← FieldType.parse signature
  return ⟨name, signature, m.access, type, m.attributes⟩

/-- Follows the indices of a method. -/
def Member.toMethod (pool : Pool) (m : Member) : Except Error Method := do
  let name ← pool.utf8 m.name
  let signature ← pool.utf8 m.descriptor
  let descriptor ← MethodDescriptor.parse signature
  return ⟨name, signature, m.access, descriptor, m.attributes⟩

namespace Method

/-- The body of a method, from its first attribute of that name; abstract and native methods have
none. -/
def code (pool : Pool) (m : Method) : Except Error (Option Code) := do
  match ← findAttribute pool codeAttribute m.attributes with
  | some ⟨_, .code code⟩ => return some code
  | _ => return none

/-- The instructions of a method; one without a body has none. -/
def instructions (pool : Pool) (m : Method) : Except Error (List Instruction) := do
  match ← m.code pool with
  | some code => decode pool code.code
  | none => return []

end Method

namespace ClassFile

/-- The name of the class. -/
def thisName (f : ClassFile) : Except Error ClassName := do
  return ⟨← f.pool.className f.this⟩

/-- The name of the class that this one extends. Only the root of the hierarchy extends none. -/
def superName (f : ClassFile) : Except Error (Option ClassName) := do
  if f.super = 0 then return none
  else return some ⟨← f.pool.className f.super⟩

/-- The names of the interfaces that the class implements. -/
def interfaceNames (f : ClassFile) : Except Error (List ClassName) :=
  f.interfaces.mapM fun index => do return ⟨← f.pool.className index⟩

/-- The fields that the class declares. -/
def fieldViews (f : ClassFile) : Except Error (List Field) :=
  f.fields.mapM (Member.toField f.pool)

/-- The methods that the class declares. -/
def methodViews (f : ClassFile) : Except Error (List Method) :=
  f.methods.mapM (Member.toMethod f.pool)

/-! ## Display -/

/-- A part of the class, or the message of what is wrong with it. -/
def shownPart {α : Type} (present : α → Shown) : Except Error α → Shown
  | .ok a => present a
  | .error e => .plain ("<" ++ e.message ++ ">")

/-- A summary of the class: its names and its methods. A part that cannot be resolved says why. -/
def shown (f : ClassFile) : Shown :=
  let className (n : ClassName) : Shown := .quoted n.internal
  .record "JavaClass" [
    ("this", shownPart className f.thisName),
    ("super", shownPart (fun n => .option (n.map className)) f.superName),
    ("interfaces", shownPart (fun ns => .list (ns.map className)) f.interfaceNames),
    ("methods", shownPart (fun ms => .list (ms.map fun m => .quoted (m.name ++ m.signature)))
      f.methodViews)]

end ClassFile

end JvmTrace
