import JvmTrace.Decimal.Shortest
import JvmTrace.Pool.Basic

/-!
# Resolution — following references to their texts

A reference is followed from index to index until only texts are left: at most four steps, so it
takes no loop and no cyclic pool can make it run on. Each accessor states the kind that it requires;
the first index that is unusable or holds another kind is the one that is reported, and references
are followed in the order in which they are written.

A resolved constant is a `Symbol`: an owner, a name and a descriptor, of which only the name is always
there. Literals have their text for a name, and string literals are quoted, so that a literal cannot
be taken for a class of the same name.
-/

set_option autoImplicit false

namespace JvmTrace

/-- A constant with all of its references followed. -/
structure Symbol where
  /-- The index that was resolved. -/
  index : UInt16
  /-- The class that a member belongs to. -/
  owner : Option String
  /-- The name, or the text of a literal. -/
  name : String
  /-- The descriptor of a member. -/
  descriptor : Option String
  deriving DecidableEq

namespace Symbol

/-- A symbol that is only a name. -/
def named (index : UInt16) (name : String) : Symbol := ⟨index, none, name, none⟩

/-- The name with the owner in front. -/
def qualifiedName (s : Symbol) : String :=
  match s.owner with
  | some owner => owner ++ "." ++ s.name
  | none => s.name

/-- The qualified name with the descriptor behind it. -/
def text (s : Symbol) : String :=
  match s.descriptor with
  | some descriptor => s.qualifiedName ++ ":" ++ descriptor
  | none => s.qualifiedName

end Symbol

namespace Pool

/-- The error for a reference to `index`, which should lead to `expected` and leads to `found`. -/
def mismatch (index : UInt16) (expected : String) (found : Constant) : Error :=
  .wrongKind index expected found.kindName

/-- The text at an index. -/
def utf8 (p : Pool) (index : UInt16) : Except Error String := do
  match ← p.get index with
  | .utf8 text => return text
  | c => throw (mismatch index "Utf8" c)

/-- The name of the class at an index. -/
def className (p : Pool) (index : UInt16) : Except Error String := do
  match ← p.get index with
  | .classRef name => p.utf8 name
  | c => throw (mismatch index "Class" c)

/-- The name and the descriptor that are paired at an index. -/
def nameAndType (p : Pool) (index : UInt16) : Except Error (String × String) := do
  match ← p.get index with
  | .nameAndType name descriptor => return (← p.utf8 name, ← p.utf8 descriptor)
  | c => throw (mismatch index "NameAndType" c)

/-- The member at an index. -/
def member (p : Pool) (index : UInt16) : Except Error Symbol := do
  match ← p.get index with
  | .member _ owner signature =>
    let owner ← p.className owner
    let (name, descriptor) ← p.nameAndType signature
    return ⟨index, some owner, name, some descriptor⟩
  | c => throw (mismatch index "member reference" c)

/-- The symbol at `index`, whose name and descriptor are paired at `signature`. -/
def unowned (p : Pool) (index signature : UInt16) : Except Error Symbol := do
  let (name, descriptor) ← p.nameAndType signature
  return ⟨index, none, name, some descriptor⟩

/-- The symbol at an index, whatever the kind of constant. The owner of a handle's member carries the
handle's kind in front. -/
def resolve (p : Pool) (index : UInt16) : Except Error Symbol := do
  match ← p.get index with
  | .utf8 text => return .named index text
  | .integer value => return .named index (toString value.toInt)
  | .float bits => return .named index (Decimal.singleText bits)
  | .long value => return .named index (toString value.toInt)
  | .double bits => return .named index (Decimal.doubleText bits)
  | .classRef _ => return .named index (← p.className index)
  | .string text => return .named index (Text.quote (← p.utf8 text))
  | .member _ _ _ => p.member index
  | .nameAndType _ _ => p.unowned index index
  | .methodHandle kind reference =>
    let target ← p.member reference
    let owner := target.owner.map (Constant.handleKindName kind ++ " " ++ ·)
    return ⟨index, owner, target.name, target.descriptor⟩
  | .methodType descriptor => return .named index (← p.utf8 descriptor)
  | .dynamic _ signature => p.unowned index signature
  | .invokeDynamic _ signature => p.unowned index signature
  | .moduleRef name => return .named index (← p.utf8 name)
  | .packageRef name => return .named index (← p.utf8 name)

end Pool

end JvmTrace
