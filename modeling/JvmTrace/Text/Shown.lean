import JvmTrace.Text.Quoted

/-!
# Shown values — records and lists as a person reads them

Some values are shown for inspection rather than for another program. `Shown` is the tree of such a
value: records and tuples with a name, lists, and text that is already as it should be. It has two
layouts, one for a line and one for a page; in the latter every item has a line of its own, ends in a
comma, and is indented by four spaces for each level. An empty list is written the same way in both.
-/

set_option autoImplicit false

namespace JvmTrace

/-- A value to be shown. -/
inductive Shown where
  /-- Text that is shown as it is. -/
  | plain (text : String)
  /-- Named fields, under a name. -/
  | record (name : String) (fields : List (String × Shown))
  /-- Items, under a name. -/
  | tuple (name : String) (items : List Shown)
  | list (items : List Shown)

namespace Shown

/-- A number. -/
def number (n : Nat) : Shown := plain (toString n)

/-- A text between quotation marks. -/
def quoted (text : String) : Shown := plain (Text.quote text)

/-- A value that may be missing. -/
def option : Option Shown → Shown
  | some value => tuple "Some" [value]
  | none => plain "None"

/-! ## On one line -/

mutual

/-- The value on one line. -/
def line : Shown → String
  | plain text => text
  | record name fields => name ++ " \x7b " ++ lineFields fields ++ " \x7d"
  | tuple name items => name ++ "(" ++ lineItems items ++ ")"
  | list items => "[" ++ lineItems items ++ "]"

/-- Items on one line, with commas between them. -/
def lineItems : List Shown → String
  | [] => ""
  | [item] => item.line
  | item :: rest => item.line ++ ", " ++ lineItems rest

/-- Fields on one line, with commas between them. -/
def lineFields : List (String × Shown) → String
  | [] => ""
  | [(name, value)] => name ++ ": " ++ value.line
  | (name, value) :: rest => name ++ ": " ++ value.line ++ ", " ++ lineFields rest

end

/-! ## On a page -/

/-- The start of a line at a depth. -/
def margin (depth : Nat) : String := String.ofList (List.replicate (4 * depth) ' ')

mutual

/-- The value on a page, its first line standing at `depth`. -/
def pageAt (depth : Nat) : Shown → String
  | plain text => text
  | record name fields =>
    name ++ " \x7b\n" ++ pageFields (depth + 1) fields ++ margin depth ++ "\x7d"
  | tuple name items => name ++ "(\n" ++ pageItems (depth + 1) items ++ margin depth ++ ")"
  | list [] => "[]"
  | list items => "[\n" ++ pageItems (depth + 1) items ++ margin depth ++ "]"

/-- Items on a page, each on a line of its own. -/
def pageItems (depth : Nat) : List Shown → String
  | [] => ""
  | item :: rest => margin depth ++ pageAt depth item ++ ",\n" ++ pageItems depth rest

/-- Fields on a page, each on a line of its own. -/
def pageFields (depth : Nat) : List (String × Shown) → String
  | [] => ""
  | (name, value) :: rest =>
    margin depth ++ name ++ ": " ++ pageAt depth value ++ ",\n" ++ pageFields depth rest

end

/-- The value on a page. -/
def page (s : Shown) : String := s.pageAt 0

end Shown

end JvmTrace
