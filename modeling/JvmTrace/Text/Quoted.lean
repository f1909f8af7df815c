import JvmTrace.Text.DefaultIgnorable
import JvmTrace.Text.GraphemeExtend
import JvmTrace.Text.Unprintable

/-!
# Quoted text — a string a person can read back from a message

Names and descriptors come out of untrusted files, so wherever one stands inside a sentence it is
*quoted*: put between quotation marks, with every character that would not be seen for what it is
written as an escape.

- NUL, tab, carriage return, line feed, the quotation mark and the backslash have two-character
  escapes.
- A character that is drawn on its neighbour, that is drawn as nothing, or that is unprintable is
  written as its code point in lower-case hexadecimal, without padding, between braces.
- Everything else stands for itself; an apostrophe needs no escape, because the quotation mark is
  double.
-/

set_option autoImplicit false

namespace JvmTrace.Text

/-- Whether `n` lies in one of the closed ranges of `table`. -/
def inRanges (table : List (Nat × Nat)) (n : Nat) : Bool :=
  table.any fun range => range.1 ≤ n && n ≤ range.2

/-- Whether the code point `n` is drawn on the character before it. -/
def drawnOnNeighbour (n : Nat) : Bool :=
  inRanges graphemeExtendRanges n && !inRanges soundMarkRanges n

/-- Characters that quoted text may not hold bare. Printable ASCII is decided first, because the
tables hold none of it and almost every character of a class file is one. -/
def needsCodePoint (c : Char) : Bool :=
  if 0x20 ≤ c.toNat ∧ c.toNat < 0x7f then false
  else
    drawnOnNeighbour c.toNat || inRanges defaultIgnorableRanges c.toNat ||
      inRanges unprintableRanges c.toNat

/-- The characters that stand for `c` between quotation marks. -/
def escape (c : Char) : List Char :=
  match c with
  | '\x00' => ['\\', '0']
  | '\t' => ['\\', 't']
  | '\r' => ['\\', 'r']
  | '\n' => ['\\', 'n']
  | '"' => ['\\', '"']
  | '\\' => ['\\', '\\']
  | c =>
    if needsCodePoint c then
      ['\\', 'u', '\x7b'] ++ Nat.toDigits 16 c.toNat ++ ['\x7d']
    else [c]

/-- `text` between quotation marks, with every character visible. -/
def quote (text : String) : String :=
  String.ofList ('"' :: text.toList.flatMap escape ++ ['"'])

end JvmTrace.Text
