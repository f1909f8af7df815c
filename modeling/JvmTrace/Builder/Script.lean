import JvmTrace.Builder.Basic

/-!
# Build scripts — the steps of a builder as data

Everything that can be asked of a builder is a `Step`, and a script is a list of them. A step that asks
for a constant answers with its index; the others change the class and answer nothing. What a script
does is what its steps do one after the other, so a statement about every use of a builder is a
statement about every script.
-/

set_option autoImplicit false

namespace JvmTrace.Builder

/-- Something that is asked of a builder. -/
inductive Step where
  | utf8 (text : String)
  | integer (value : Int32)
  | long (value : Int64)
  /-- A 64-bit float, by its bits. -/
  | double (bits : UInt64)
  | classRef (name : String)
  | string (text : String)
  | nameAndType (name descriptor : String)
  | memberRef (kind : MemberKind) (owner name descriptor : String)
  /-- A reference to a method by indices that need not lead anywhere. -/
  | methodAt (owner signature : UInt16)
  /-- A constant given as bytes. -/
  | raw (bytes : Bytes)
  | version (major minor : UInt16)
  | superClass (name : String)
  | noSuperClass
  | interface (name : String)
  | field (name descriptor : String)
  /-- Declare a method, with or without a body. -/
  | method (name descriptor : String) (code : Option Bytes)
  | addAttribute (name : String) (body : Bytes)
  deriving DecidableEq

/-- The answer of a step that asks for a constant. -/
def indexed (step : BuilderM UInt16) : BuilderM (Option UInt16) := do
  return some (← step)

/-- The answer of a step that changes the class. -/
def quiet (step : BuilderM Unit) : BuilderM (Option UInt16) := do
  step
  return none

/-- Does a step. -/
def Step.perform : Step → BuilderM (Option UInt16)
  | .utf8 text => indexed (Builder.utf8 text)
  | .integer value => indexed (constant (.integer value))
  | .long value => indexed (constant (.long value))
  | .double bits => indexed (constant (.double bits))
  | .classRef name => indexed (Builder.classRef name)
  | .string text => indexed (Builder.string text)
  | .nameAndType name descriptor => indexed (Builder.nameAndType name descriptor)
  | .memberRef kind owner name descriptor => indexed (Builder.memberRef kind owner name descriptor)
  | .methodAt owner signature => indexed (constant (.member .method owner signature))
  | .raw bytes => indexed (Builder.raw bytes)
  | .version major minor => quiet (Builder.version major minor)
  | .superClass name => quiet (Builder.superClass name)
  | .noSuperClass => quiet Builder.noSuperClass
  | .interface name => quiet (Builder.interface name)
  | .field name descriptor => quiet (Builder.field name descriptor)
  | .method name descriptor code => quiet (Builder.method name descriptor code)
  | .addAttribute name body => quiet (Builder.addAttribute name body)

/-- What a step answers, and how big the image then is. -/
structure StepAnswer where
  /-- The index of the constant that was asked for. -/
  index : Option UInt16
  /-- The length of the image so far. -/
  size : Nat
  deriving DecidableEq

/-- Does the steps of a script one after the other. -/
def runScript (b : Builder) : List Step → List StepAnswer × Builder
  | [] => ([], b)
  | step :: rest =>
    let (index, b) := step.perform.run b
    let (answers, last) := b.runScript rest
    (⟨index, b.build.length⟩ :: answers, last)

end JvmTrace.Builder
