import JvmTrace.Error

/-!
# Paths — the way to a file, one step at a time

A path is a text. What it says is where to start and which steps to take from there. Slashes in a row
count as one. A dot and two dots are steps like others: they are taken when the path is followed, and
what they lead to depends on what is there. A slash behind the last step is a step too, one that leads
nowhere and can only be taken in a directory.

A path has a greatest length, and so has a name in it. The length of the path is looked at before the
first step is taken, the length of a name when it is.
-/

set_option autoImplicit false

namespace JvmTrace.Command

/-- A step of a path. -/
inductive Step where
  /-- A dot. -/
  | stay
  /-- Two dots. -/
  | up
  | down (name : String)
  /-- A slash with no name behind it. -/
  | slash
  deriving DecidableEq

/-- A path, taken apart. -/
structure Path where
  /-- Whether it starts at the root, and not where the run does. -/
  absolute : Bool
  steps : List Step
  deriving DecidableEq

namespace Path

/-- The longest path, in bytes. -/
def maxBytes : Nat := 4095

/-- The longest name, in bytes. -/
def maxNameBytes : Nat := 255

/-- What stands between the slashes of a text, from the first to the last. -/
def parts : List Char → List (List Char)
  | [] => [[]]
  | c :: rest =>
    if c = '/' then [] :: parts rest
    else
      match parts rest with
      | [] => [[c]]
      | part :: others => (c :: part) :: others

/-- The step that a part of a path stands for. -/
def stepOf (part : List Char) : Step :=
  match part with
  | ['.'] => .stay
  | ['.', '.'] => .up
  | name => .down (String.ofList name)

/-- The steps of a text. -/
def stepsOf (text : List Char) : List Step :=
  let steps := ((parts text).filter fun part => part ≠ []).map stepOf
  if steps ≠ [] ∧ text.getLast? = some '/' then steps ++ [.slash] else steps

/-- Takes a path apart. Nothing has the empty text for a path. -/
def parse (text : String) : Except Error Path :=
  if text.isEmpty then .error .noSuchFile
  else if maxBytes < text.utf8ByteSize then .error .nameTooLong
  else .ok { absolute := text.toList.head? = some '/', steps := stepsOf text.toList }

end Path

end JvmTrace.Command
