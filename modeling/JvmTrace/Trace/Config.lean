import JvmTrace.Instruction.Basic
import JvmTrace.Text.Shown

/-!
# Trace settings — which instructions are kept

A trace is labelled, filtered and cut by its `Config`. The limit counts decoded instructions and comes
first; the filter then drops some of those that are left. Neither changes what is decoded.
-/

set_option autoImplicit false

namespace JvmTrace

/-- Which instructions make it into a trace. -/
inductive Filter where
  | keepAll
  /-- Those whose mnemonic starts with none of these texts. -/
  | suppress (starts : List String)
  /-- Those for which the predicate holds. -/
  | custom (keep : Instruction → Bool)

namespace Filter

/-- Whether `text` starts with `start`. -/
def startsWith (text start : String) : Bool := start.toList.isPrefixOf text.toList

/-- Whether an instruction is kept. -/
def retains : Filter → Instruction → Bool
  | keepAll, _ => true
  | suppress starts, i => !starts.any (startsWith i.mnemonic)
  | custom keep, i => keep i

/-- Loads of the first local variables are so common that they are dropped unless asked for. -/
def standard : Filter := suppress ["iload_", "aload_"]

/-- The filter as a value to be shown. A predicate has nothing to show. -/
def shown : Filter → Shown
  | keepAll => .plain "KeepAll"
  | suppress starts => .tuple "SuppressPrefixes" [.list (starts.map .quoted)]
  | custom _ => .plain "Custom(..)"

end Filter

/-- The settings of a trace. -/
structure Config where
  kind : String := "Controller"
  /-- Which instructions are kept. -/
  filter : Filter := .standard
  /-- How many instructions of each method are looked at, if not all. -/
  limit : Option Nat := none

namespace Config

/-- The instructions of a method that are kept. -/
def select (c : Config) (instructions : List Instruction) : List Instruction :=
  let considered :=
    match c.limit with
    | some n => instructions.take n
    | none => instructions
  considered.filter c.filter.retains

/-- The settings as a value to be shown. -/
def shown (c : Config) : Shown :=
  .record "TraceConfig" [
    ("kind", .quoted c.kind),
    ("filter", c.filter.shown),
    ("max_instructions", .option (c.limit.map .number))]

end Config

end JvmTrace
