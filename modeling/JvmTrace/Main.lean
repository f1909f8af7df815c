import JvmTrace.Command.Run

/-!
# The command line

The outer layer: the system as a host of the command. What is done, and in which order, is decided by
`Command.Run`.
-/

set_option autoImplicit false

namespace JvmTrace.Command

/-- What a refusal of the system is called in the library. The system gives its number with either
sign. -/
def refusal (e : IO.Error) : Error :=
  match e with
  | .noFileOrDirectory .. => .noSuchFile
  | .permissionDenied _ number _ =>
    if number = 13 ∨ number = -13 then .permissionDenied else .io (toString e)
  | .inappropriateType _ number _ => if number = 21 ∨ number = -21 then .isDirectory else .notDirectory
  | .invalidArgument _ number _ =>
    if number = 36 ∨ number = -36 then .nameTooLong
    else if number = 40 ∨ number = -40 then .tooManyLinks
    else .io (toString e)
  | e => .io (toString e)

/-- Takes a step in the system, and keeps what it has to say against it. -/
def attempt {α : Type} (step : IO α) : ExceptT Error IO α :=
  .mk do
    try
      return .ok (← step)
    catch e =>
      return .error (refusal e)

/-- The system as a host. -/
def system : Host IO IO.FS.Handle where
  read path := attempt do
    return (← IO.FS.readBinFile path).toList
  create path := attempt (IO.FS.Handle.mk path .write)
  write file bytes := attempt do
    file.write ⟨bytes.toArray⟩
    file.flush
  print text := attempt (IO.print text)
  say text := IO.eprint text

end JvmTrace.Command

open JvmTrace.Command in
/-- The command. -/
def main (arguments : List String) : IO UInt32 := do
  let exit ← command system arguments (← IO.getEnv "RUST_LOG")
  return UInt32.ofNat exit
