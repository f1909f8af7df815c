import JvmTrace.Descriptor.Basic
import JvmTrace.Error

/-!
# Reading descriptors

The grammar is unambiguous after one character, so a reader never has to go back: it either takes a
whole type from the front of the text or takes nothing. A text is a descriptor only if nothing is left
over, and whatever is wrong with it, the error carries the whole text unchanged.

- A base type is one letter, or `L`, a name of at least one character other than `;`, and `;`.
- A field type is at most 255 brackets and a base type.
- A method descriptor is `(`, any number of field types, `)` and a return type; `V` is a return type
  and nothing else.
-/

set_option autoImplicit false

namespace JvmTrace

/-- The greatest number of dimensions an array may have. -/
def maxDimensions : Nat := 255

/-- A class name up to its semicolon, and what follows that. -/
def BaseType.readName (cs : List Char) : Option (BaseType × List Char) :=
  let name := cs.takeWhile (· ≠ ';')
  match name, cs.dropWhile (· ≠ ';') with
  | _ :: _, _ :: rest => some (.object (String.ofList name), rest)
  | _, _ => none

/-- A base type at the front of a text, and what follows it. -/
def BaseType.read : List Char → Option (BaseType × List Char)
  | 'Z' :: rest => some (.boolean, rest)
  | 'B' :: rest => some (.byte, rest)
  | 'C' :: rest => some (.char, rest)
  | 'S' :: rest => some (.short, rest)
  | 'I' :: rest => some (.int, rest)
  | 'J' :: rest => some (.long, rest)
  | 'F' :: rest => some (.float, rest)
  | 'D' :: rest => some (.double, rest)
  | 'L' :: rest => readName rest
  | _ => none

/-- A field type at the front of a text, and what follows it. -/
def FieldType.read (cs : List Char) : Option (FieldType × List Char) :=
  let dimensions := (cs.takeWhile (· = '[')).length
  if dimensions ≤ maxDimensions then
    (BaseType.read (cs.dropWhile (· = '['))).map fun (base, rest) => (⟨base, dimensions⟩, rest)
  else none

/-! ## A type takes at least one character -/

theorem BaseType.length_read_lt {cs rest : List Char} {t : BaseType}
    (h : BaseType.read cs = some (t, rest)) : rest.length < cs.length := by
  unfold BaseType.read at h
  split at h
  case h_9 tail =>
    simp only [readName] at h
    split at h
    · next hdrop =>
      have hle := (List.dropWhile_sublist (l := tail) (· ≠ ';')).length_le
      simp only [hdrop, List.length_cons] at hle
      simp only [Option.some.injEq, Prod.mk.injEq] at h
      obtain ⟨_, rfl⟩ := h
      simp only [List.length_cons]
      omega
    · cases h
  case h_10 => cases h
  all_goals
    simp only [Option.some.injEq, Prod.mk.injEq] at h
    obtain ⟨_, rfl⟩ := h
    simp

theorem FieldType.length_read_lt {cs rest : List Char} {t : FieldType}
    (h : FieldType.read cs = some (t, rest)) : rest.length < cs.length := by
  simp only [FieldType.read] at h
  split at h
  · simp only [Option.map_eq_some_iff] at h
    obtain ⟨⟨base, rest'⟩, hbase, heq⟩ := h
    cases heq
    have hlt := BaseType.length_read_lt hbase
    have hle := (List.dropWhile_sublist (l := cs) (· = '[')).length_le
    exact Nat.lt_of_lt_of_le hlt hle
  · cases h

/-! ## Whole descriptors -/

/-- As many field types as the text starts with; `read` holds those already taken, in reverse
order. -/
def FieldType.readManyFrom (read : List FieldType) (cs : List Char) : List FieldType × List Char :=
  match _h : FieldType.read cs with
  | some (t, rest) => readManyFrom (t :: read) rest
  | none => (read.reverse, cs)
termination_by cs.length
decreasing_by exact FieldType.length_read_lt _h

/-- As many field types as the text starts with, and what follows them. -/
def FieldType.readMany (cs : List Char) : List FieldType × List Char := readManyFrom [] cs

/-- A return type at the front of a text, and what follows it. -/
def ReturnType.read : List Char → Option (ReturnType × List Char)
  | 'V' :: rest => some (.void, rest)
  | cs => (FieldType.read cs).map fun (type, rest) => (.value type, rest)

/-- A method descriptor at the front of a text, and what follows it. -/
def MethodDescriptor.read : List Char → Option (MethodDescriptor × List Char)
  | '(' :: cs =>
    match FieldType.readMany cs with
    | (arguments, ')' :: rest) =>
      (ReturnType.read rest).map fun (result, rest) => (⟨arguments, result⟩, rest)
    | _ => none
  | _ => none

/-- The field type that a text spells. -/
def FieldType.parse (text : String) : Except Error FieldType :=
  match FieldType.read text.toList with
  | some (type, []) => .ok type
  | _ => .error (.malformedDescriptor text)

/-- The method descriptor that a text spells. -/
def MethodDescriptor.parse (text : String) : Except Error MethodDescriptor :=
  match MethodDescriptor.read text.toList with
  | some (descriptor, []) => .ok descriptor
  | _ => .error (.malformedDescriptor text)

end JvmTrace
