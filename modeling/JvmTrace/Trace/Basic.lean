import JvmTrace.ClassFile.View
import JvmTrace.Trace.Config

/-!
# Traces — the methods of a class and what they execute

Tracing a class resolves its name, then the headers of *all* its methods, and only then decodes the
methods one by one. Every method is decoded to its end, whatever the settings: they select from what
was decoded, so a class that cannot be decoded has no trace under any settings.
-/

set_option autoImplicit false

namespace JvmTrace

/-- The trace of a method. -/
structure MethodTrace where
  name : String
  signature : String
  /-- The types that the descriptor spells. -/
  descriptor : MethodDescriptor
  /-- The instructions that were kept, in code order. -/
  instructions : List Instruction
  deriving DecidableEq

/-- The trace of a class. -/
structure ClassTrace where
  kind : String
  /-- The name of the class, with dots between its packages. -/
  className : String
  methods : List MethodTrace
  deriving DecidableEq

/-- Traces a method. -/
def Method.trace (config : Config) (pool : Pool) (m : Method) : Except Error MethodTrace := do
  let instructions ← m.instructions pool
  return ⟨m.name, m.signature, m.descriptor, config.select instructions⟩

/-- Traces a class. -/
def ClassFile.trace (config : Config) (f : ClassFile) : Except Error ClassTrace := do
  let this ← f.thisName
  let methods ← f.methodViews
  let traces ← methods.mapM (Method.trace config f.pool)
  return ⟨config.kind, this.binary, traces⟩

/-- Traces a class from its image. -/
def traceImage (config : Config) (image : Bytes) : Except Error ClassTrace := do
  (← ClassFile.parse image).trace config

end JvmTrace
