import JvmTrace.Command.FileSystem

/-!
# Hosts — what a run does to the world around it

What a run does beyond computing is one of five things, and each is done in one go: it reads a file,
creates one, writes to the one it has created, prints, or says something on standard error. A `Host` does
them in a monad of its own. The executable has the host of the system, and `World.host` is the one that
reasoning is about: it keeps the files and both outputs as a state.

A step that fails gives an error instead of its result. What was done before it stays done: the state is
not part of what an error replaces.
-/

set_option autoImplicit false

namespace JvmTrace.Command

/-- What a run needs from its surroundings. A file that was created is known by its `Handle`. -/
structure Host (m : Type → Type) (Handle : Type) where
  /-- The contents of the file at a path. -/
  read (path : String) : ExceptT Error m Bytes
  /-- Creates the file at a path, or empties the one that is there. -/
  create (path : String) : ExceptT Error m Handle
  /-- Writes to the end of a file. -/
  write (file : Handle) (bytes : Bytes) : ExceptT Error m Unit
  /-- Writes to standard output. -/
  print (text : String) : ExceptT Error m Unit
  /-- Writes to standard error. -/
  say (text : String) : m Unit

/-- The surroundings of a run, as far as it can see or change them. -/
structure World where
  files : FileSystem
  /-- What has been written to standard output. -/
  stdout : String := ""
  /-- What has been written to standard error. -/
  stderr : String := ""
  deriving DecidableEq

/-- A step in a world. The world it leaves is there whether it fails or not. -/
abbrev Action (α : Type) := ExceptT Error (StateM World) α

/-- The world as a host. A file is known by its number, and one that was created can be written to. -/
def World.host : Host (StateM World) Nat where
  read path := do
    (← get).files.read path
  create path := do
    let (file, files) ← (← get).files.create path
    modify fun w => { w with files }
    return file
  write file bytes := modify fun w => { w with files := w.files.append file bytes }
  print text := modify fun w => { w with stdout := w.stdout ++ text }
  say text := modify fun w => { w with stderr := w.stderr ++ text }

end JvmTrace.Command
