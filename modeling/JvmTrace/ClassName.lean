import JvmTrace.Text.Quoted

/-!
# Class names — internal form, and the parts of it

A class file names a class with `/` between its packages. `ClassName` is such a name as written; the
functions take it apart at its last `/` or turn it into the dotted form that source code uses.
-/

set_option autoImplicit false

namespace JvmTrace

namespace Text

/-- `text` with every `/` replaced by a dot. -/
def dotted (text : String) : String :=
  String.ofList (text.toList.map fun c => if c = '/' then '.' else c)

end Text

/-- The name of a class in internal form. -/
structure ClassName where
  /-- The name as written. -/
  internal : String
  deriving DecidableEq

namespace ClassName

/-- The name with dots between its packages. -/
def binary (n : ClassName) : String := Text.dotted n.internal

/-- The last identifier: what follows the last `/`, or the whole name. -/
def simple (n : ClassName) : String :=
  String.ofList (n.internal.toList.reverse.takeWhile (· ≠ '/')).reverse

/-- What stands before the last `/`, if there is one. -/
def package (n : ClassName) : Option String :=
  match n.internal.toList.reverse.dropWhile (· ≠ '/') with
  | [] => none
  | _ :: before => some (String.ofList before.reverse)

/-- The name as it stands in messages. -/
def quoted (n : ClassName) : String := Text.quote n.internal

end ClassName

end JvmTrace
