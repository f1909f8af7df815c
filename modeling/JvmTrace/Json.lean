/-!
# JSON — values, and their pretty-printed text

Only what a report needs: numbers are natural, and there is no null. An object keeps its fields in the
order in which they were given, and a list its items.

The text has an item or a field to a line, indented by two spaces for each level, and ends without a
line break. An empty list or object has nothing between its brackets. A string escapes the quotation
mark, the backslash and the control characters below the space, and nothing else.
-/

set_option autoImplicit false

namespace JvmTrace

/-- A JSON value. -/
inductive Json where
  | num (n : Nat)
  | str (text : String)
  | arr (items : List Json)
  /-- An object, with its fields in order. -/
  | obj (fields : List (String × Json))

namespace Json

/-! ## Strings -/

/-- The characters that stand for `c` in a string. -/
def escape (c : Char) : List Char :=
  match c with
  | '"' => ['\\', '"']
  | '\\' => ['\\', '\\']
  | '\x08' => ['\\', 'b']
  | '\x0c' => ['\\', 'f']
  | '\n' => ['\\', 'n']
  | '\r' => ['\\', 'r']
  | '\t' => ['\\', 't']
  | c =>
    if c.toNat < 0x20 then
      ['\\', 'u', '0', '0', Nat.digitChar (c.toNat / 16), Nat.digitChar (c.toNat % 16)]
    else [c]

/-- A string between quotation marks. -/
def quote (text : String) : String :=
  String.ofList ('"' :: text.toList.flatMap escape ++ ['"'])

/-! ## Text -/

/-- A line break, and the start of a line at a depth. -/
def newline (depth : Nat) : String :=
  String.ofList ('\n' :: List.replicate (2 * depth) ' ')

mutual

/-- Appends the text of a value whose first line stands at `depth`. -/
def write (depth : Nat) (out : String) : Json → String
  | num n => out ++ toString n
  | str text => out ++ quote text
  | arr [] => out ++ "[]"
  | arr items => writeItems (depth + 1) (out ++ "[") true items ++ newline depth ++ "]"
  | obj [] => out ++ "\x7b\x7d"
  | obj fields => writeFields (depth + 1) (out ++ "\x7b") true fields ++ newline depth ++ "\x7d"

/-- Appends items, each on a line of its own, with commas between them. -/
def writeItems (depth : Nat) (out : String) (first : Bool) : List Json → String
  | [] => out
  | item :: rest =>
    let out := (if first then out else out ++ ",") ++ newline depth
    writeItems depth (write depth out item) false rest

/-- Appends fields, each on a line of its own, with commas between them. -/
def writeFields (depth : Nat) (out : String) (first : Bool) : List (String × Json) → String
  | [] => out
  | (name, value) :: rest =>
    let out := (if first then out else out ++ ",") ++ newline depth ++ quote name ++ ": "
    writeFields depth (write depth out value) false rest

end

/-- The text of a value. -/
def pretty (value : Json) : String := value.write 0 ""

end Json

end JvmTrace
