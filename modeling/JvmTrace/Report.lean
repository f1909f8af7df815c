import JvmTrace.Bytes.Stream
import JvmTrace.Json
import JvmTrace.Trace.Basic

/-!
# The report — a trace as a document

A document is what is left of a trace for another program to read: of each instruction its mnemonic
and the one thing it operates on, which is the first operand that is a local variable or a constant.
Offsets, immediate numbers and branch targets are not reported. A field that has no value is left out
of the object; there is no null in a report.
-/

set_option autoImplicit false

namespace JvmTrace

/-- What an instruction operates on. -/
inductive Variable where
  | slot (number : UInt16)
  /-- A constant, by its qualified name. -/
  | name (text : String)
  deriving DecidableEq

/-- An instruction in a document. -/
structure OperationDocument where
  operation : String
  /-- What it operates on, if anything. -/
  subject : Option Variable
  /-- The descriptor of that, if it has one. -/
  descriptor : Option String
  deriving DecidableEq

/-- A method in a document. -/
structure MethodDocument where
  name : String
  signature : String
  input : List String
  output : String
  operations : List OperationDocument
  deriving DecidableEq

/-- A class in a document. -/
structure ClassDocument where
  kind : String
  className : String
  methods : List MethodDocument
  deriving DecidableEq

/-! ## From a trace -/

/-- What an operand says about the thing that an instruction operates on: the thing and its
descriptor. -/
def Operand.subject : Operand → Option (Variable × Option String)
  | .slot number => some (.slot number, none)
  | .symbol s => some (.name s.qualifiedName, s.descriptor)
  | .immediate _ => none
  | .target _ => none

/-- The report on an instruction. -/
def Instruction.document (i : Instruction) : OperationDocument :=
  match i.operands.findSome? Operand.subject with
  | some (v, descriptor) => ⟨i.mnemonic, some v, descriptor⟩
  | none => ⟨i.mnemonic, none, none⟩

/-- The report on a method. -/
def MethodTrace.document (t : MethodTrace) : MethodDocument where
  name := t.name
  signature := t.signature
  input := t.descriptor.arguments.map FieldType.descriptor
  output := t.descriptor.result.descriptor
  operations := t.instructions.map Instruction.document

/-- The report on a class. -/
def ClassTrace.document (t : ClassTrace) : ClassDocument :=
  ⟨t.kind, t.className, t.methods.map MethodTrace.document⟩

/-! ## To JSON -/

/-- A local variable is its number, a constant is its name. -/
def Variable.toJson : Variable → Json
  | slot number => .num number.toNat
  | name text => .str text

/-- A field that is there if its value is. -/
def optionalField (name : String) : Option Json → List (String × Json)
  | some value => [(name, value)]
  | none => []

/-- The object of an instruction. -/
def OperationDocument.toJson (d : OperationDocument) : Json :=
  .obj (("op", .str d.operation) :: optionalField "var" (d.subject.map Variable.toJson) ++
    optionalField "type" (d.descriptor.map .str))

/-- The object of a method. -/
def MethodDocument.toJson (d : MethodDocument) : Json :=
  .obj [("method", .str d.name), ("signature", .str d.signature), ("input", .arr (d.input.map .str)),
    ("output", .str d.output), ("ops", .arr (d.operations.map OperationDocument.toJson))]

/-- The object of a class. -/
def ClassDocument.toJson (d : ClassDocument) : Json :=
  .obj [("kind", .str d.kind), ("clazz", .str d.className),
    ("method", .arr (d.methods.map MethodDocument.toJson))]

/-- The text of the report on a class. -/
def ClassTrace.json (t : ClassTrace) : String := t.document.toJson.pretty

/-- Writes the text of the report into a sink. -/
def ClassTrace.writeJson (t : ClassTrace) (sink : Sink) : Except Error Sink := sink.write t.json

end JvmTrace
