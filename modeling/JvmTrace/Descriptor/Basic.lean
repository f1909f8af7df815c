import JvmTrace.ClassName

/-!
# Descriptors — the types of fields and methods

A field type is a base type under some number of array dimensions. Counting the dimensions instead of
nesting one type in another makes a type of any depth as small as any other, and nothing that walks
over a type can run deep.

Each type has two texts: its *descriptor*, which is how a class file spells it, and its *display*,
which is how source code does. `Descriptor/Parser.lean` reads descriptors.
-/

set_option autoImplicit false

namespace JvmTrace

/-- A type that is not an array. -/
inductive BaseType where
  | boolean
  | byte
  | char
  | short
  | int
  | long
  | float
  | double
  /-- A class, by its internal name. -/
  | object (name : String)
  deriving DecidableEq

namespace BaseType

/-- The characters that spell the type in a class file. -/
def descriptor : BaseType → List Char
  | boolean => ['Z']
  | byte => ['B']
  | char => ['C']
  | short => ['S']
  | int => ['I']
  | long => ['J']
  | float => ['F']
  | double => ['D']
  | object name => 'L' :: name.toList ++ [';']

/-- The name of the type in source code. -/
def display : BaseType → String
  | boolean => "boolean"
  | byte => "byte"
  | char => "char"
  | short => "short"
  | int => "int"
  | long => "long"
  | float => "float"
  | double => "double"
  | object name => Text.dotted name

end BaseType

/-- The type of a field, an argument or a local variable. -/
structure FieldType where
  /-- What the elements are, once every dimension is gone. -/
  base : BaseType
  /-- How many array dimensions there are; none if this is no array. -/
  dimensions : Nat
  deriving DecidableEq

namespace FieldType

/-- The characters that spell the type in a class file: a bracket for each dimension in front. -/
def descriptorChars (t : FieldType) : List Char :=
  List.replicate t.dimensions '[' ++ t.base.descriptor

/-- The text that spells the type in a class file. -/
def descriptor (t : FieldType) : String := String.ofList t.descriptorChars

/-- The name of the type in source code: a pair of brackets for each dimension behind. -/
def display (t : FieldType) : String :=
  t.base.display ++ String.ofList (List.replicate t.dimensions ['[', ']']).flatten

end FieldType

/-- What a method returns. -/
inductive ReturnType where
  | void
  | value (type : FieldType)
  deriving DecidableEq

namespace ReturnType

/-- The characters that spell the type in a class file. -/
def descriptorChars : ReturnType → List Char
  | void => ['V']
  | value type => type.descriptorChars

/-- The text that spells the type in a class file. -/
def descriptor (t : ReturnType) : String := String.ofList t.descriptorChars

/-- The name of the type in source code. -/
def display : ReturnType → String
  | void => "void"
  | value type => type.display

end ReturnType

/-- The types of a method's arguments and of its result. -/
structure MethodDescriptor where
  arguments : List FieldType
  result : ReturnType
  deriving DecidableEq

namespace MethodDescriptor

/-- The characters that spell the descriptor: the arguments between parentheses, then the result. -/
def descriptorChars (d : MethodDescriptor) : List Char :=
  '(' :: d.arguments.flatMap FieldType.descriptorChars ++ ')' :: d.result.descriptorChars

/-- The text that spells the descriptor in a class file. -/
def descriptor (d : MethodDescriptor) : String := String.ofList d.descriptorChars

/-- The result, then the arguments between parentheses, as in source code. -/
def display (d : MethodDescriptor) : String :=
  d.result.display ++ " (" ++ String.intercalate ", " (d.arguments.map FieldType.display) ++ ")"

end MethodDescriptor

end JvmTrace
