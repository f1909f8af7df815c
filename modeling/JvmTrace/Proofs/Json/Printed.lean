import JvmTrace.Json
import JvmTrace.Proofs.Json.Grammar

/-!
# Printed JSON says what was printed

The text of a value is a text of the grammar, and it says that value (`text_pretty`). The printer is
given what comes before and appends to it, so the lemmas about it are of the form "what was there, and
then characters with a property" (`Appends`).

The printer writes an item and goes on with the rest of the list, where the grammar has the rest as a
list of its own. `Continues` is what joins them: characters after which an item has become a list.
-/

set_option autoImplicit false

namespace JvmTrace.Json

open JsonGrammar

mutual

/-- What a printed text is to say. -/
def value : Json → Value
  | num n => .number (Rat.ofInt n)
  | str text => .string text
  | arr items => .array (itemValues items)
  | obj fields => .object (fieldValues fields)

def itemValues : List Json → List Value
  | [] => []
  | item :: rest => item.value :: itemValues rest

def fieldValues : List (String × Json) → List (String × Value)
  | [] => []
  | (name, v) :: rest => (name, v.value) :: fieldValues rest

end

/-! ## Numbers -/

theorem head?_toDigits_ne_zero {n : Nat} (h : n ≠ 0) :
    (Nat.toDigits 10 n).head? ≠ some '0' := by
  induction n using Nat.strongRecOn with
  | ind n ih =>
    rcases Nat.lt_or_ge n 10 with hlt | hge
    · rw [Nat.toDigits_of_lt_base hlt]
      have hdigit : ∀ m < 10, m ≠ 0 → Nat.digitChar m ≠ '0' := by decide
      simpa using hdigit n hlt h
    · rw [Nat.toDigits_of_base_le (by decide) hge, List.head?_append_of_ne_nil _ Nat.toDigits_ne_nil]
      exact ih (n / 10) (by omega) (by omega)

theorem number_toString (n : Nat) : Number (Rat.ofInt n) (toString n).toList := by
  have hdigits : Digits (Nat.toDigits 10 n) :=
    ⟨Nat.toDigits_ne_nil, fun c hc => Nat.isDigit_of_mem_toDigits (by decide) (by decide) hc⟩
  have hzero : (Nat.toDigits 10 n).head? = some '0' → Nat.toDigits 10 n = ['0'] := by
    intro hhead
    by_cases h : n = 0
    · rw [h, Nat.toDigits_zero]
    · exact absurd hhead (head?_toDigits_ne_zero h)
  have hvalue : decimal false (digitsValue (Nat.toDigits 10 n ++ [])) (0 - 0) = Rat.ofInt n := by
    rw [List.append_nil, digitsValue, Nat.ofDigitChars_ten_toDigits]
    change mkRat (n * 1) 1 = Rat.ofInt n
    rw [Int.mul_one]
    exact Rat.mkRat_one n
  have htext : sign false ++ (Nat.toDigits 10 n ++ ([] ++ [])) = (toString n).toList := by
    rw [Nat.toString_eq_repr, Nat.toList_repr]
    simp [sign]
  rw [← hvalue, ← htext]
  exact Number.mk hdigits hzero .none .none

/-! ## Strings -/

theorem hexDigit?_digitChar {n : Nat} (h : n < 16) : hexDigit? (Nat.digitChar n) = some n := by
  have hall : ∀ m < 16, hexDigit? (Nat.digitChar m) = some m := by decide
  exact hall n h

theorem spelling_escape (c : Char) : Spelling c (escape c) := by
  unfold escape
  split
  case h_8 hquote hescape _ _ _ _ _ =>
    split
    case isTrue hcontrol =>
      have hcode := Hex.mk (hexDigit?_digitChar (n := 0) (by decide))
        (hexDigit?_digitChar (n := 0) (by decide))
        (hexDigit?_digitChar (n := c.toNat / 16) (by omega))
        (hexDigit?_digitChar (n := c.toNat % 16) (by omega))
      have hvalue : ((0 * 16 + 0) * 16 + c.toNat / 16) * 16 + c.toNat % 16 = c.toNat := by omega
      rw [hvalue] at hcode
      exact .code hcode
    case isFalse hcontrol => exact .plain (by omega) hquote hescape
  all_goals exact .short (by decide)

theorem quoted_quote (text : String) : Quoted text (quote text).toList := by
  have h : List.Forall₂ Spelling text.toList (text.toList.map escape) := by
    rw [List.forall₂_map_right_iff, List.forall₂_same]
    exact fun c _ => spelling_escape c
  simpa [quote, List.flatMap_def] using Quoted.mk h

/-! ## Values -/

/-- The printer adds characters for which `P` holds. -/
def Appends (P : List Char → Prop) (before after : String) : Prop :=
  ∃ cs, after.toList = before.toList ++ cs ∧ P cs

theorem appends_of {P : List Char → Prop} {text : String} (h : P text.toList) (out : String) :
    Appends P out (out ++ text) :=
  ⟨text.toList, String.toList_append, h⟩

theorem blank_nil : Blank [] := List.forall_mem_nil _

theorem blank_newline (depth : Nat) : Blank (newline depth).toList := by
  simp [Blank, newline, isBlank]

section Lists

variable {α : Type} {Item : α → List Char → Prop} {x : α} {xs : List α} {out written done : String}

/-- With `cs` after it, an item is a list that goes on with `xs`. -/
def Continues (Item : α → List Char → Prop) (xs : List α) (cs : List Char) : Prop :=
  ∀ {x : α} {text : List Char}, Item x text → Separated Item (x :: xs) (text ++ cs)

theorem continues_nil : Continues Item [] [] := by
  intro x text h
  rw [List.append_nil]
  exact .one h

theorem Appends.continues {depth : Nat} (hx : Appends (Item x) (out ++ "," ++ newline depth) written)
    (hxs : Appends (Continues Item xs) written done) : Appends (Continues Item (x :: xs)) out done := by
  obtain ⟨text, htext, hx⟩ := hx
  obtain ⟨tail, htail, hxs⟩ := hxs
  refine ⟨',' :: ((newline depth).toList ++ (text ++ tail)), by simp [htail, htext], ?_⟩
  intro y text' hy
  exact .more hy blank_nil (blank_newline depth) (hxs hx)

theorem Appends.enclosed {opening closing : Char} {left right : String} {inner depth : Nat}
    (hleft : left.toList = [opening]) (hright : right.toList = [closing])
    (hx : Appends (Item x) (out ++ left ++ newline inner) written)
    (hxs : Appends (Continues Item xs) written done) :
    Appends (Enclosed opening closing Item (x :: xs)) out (done ++ newline depth ++ right) := by
  obtain ⟨text, htext, hx⟩ := hx
  obtain ⟨tail, htail, hxs⟩ := hxs
  refine ⟨_, ?_, .full (blank_newline inner) (hxs hx) (blank_newline depth)⟩
  simp [htail, htext, hleft, hright]

end Lists

theorem Appends.member {name : String} {v : Value} {out written : String}
    (h : Appends (Spells v) (out ++ quote name ++ ": ") written) :
    Appends (Member Spells (name, v)) out written := by
  obtain ⟨text, htext, h⟩ := h
  have hspace : Blank [' '] := by simp [Blank, isBlank]
  refine ⟨_, ?_, .mk (quoted_quote name) blank_nil hspace h⟩
  simp [htext]

theorem Appends.spells {P : List Char → Prop} {v : Value} {out written : String}
    (h : Appends P out written) (hP : ∀ {cs}, P cs → Spells v cs) : Appends (Spells v) out written := by
  obtain ⟨cs, hcs, h⟩ := h
  exact ⟨cs, hcs, hP h⟩

theorem write_arr_cons (depth : Nat) (out : String) (item : Json) (rest : List Json) :
    write depth out (arr (item :: rest)) =
      writeItems (depth + 1) (item.write (depth + 1) (out ++ "[" ++ newline (depth + 1))) false rest ++
        newline depth ++ "]" := by
  simp [write, writeItems]

theorem write_obj_cons (depth : Nat) (out name : String) (v : Json) (rest : List (String × Json)) :
    write depth out (obj ((name, v) :: rest)) =
      writeFields (depth + 1) (v.write (depth + 1)
          (out ++ "\x7b" ++ newline (depth + 1) ++ quote name ++ ": ")) false rest ++
        newline depth ++ "\x7d" := by
  simp [write, writeFields]

-- The recursion is the printer's own: a value, the items after one item, the fields after one field.
mutual

theorem write_appends : (v : Json) → (depth : Nat) → (out : String) →
    Appends (Spells v.value) out (v.write depth out)
  | num n, _, out => by
    rw [write]
    exact appends_of (.number (number_toString n)) out
  | str text, _, out => by
    rw [write]
    exact appends_of (.string (quoted_quote text)) out
  | arr [], _, out => by
    rw [write]
    exact appends_of (.array (.empty blank_nil)) out
  | obj [], _, out => by
    rw [write]
    exact appends_of (.object (.empty blank_nil)) out
  | arr (item :: rest), depth, out => by
    have hitem := write_appends item (depth + 1) (out ++ "[" ++ newline (depth + 1))
    rw [write_arr_cons]
    exact (hitem.enclosed rfl rfl (writeItems_appends rest _ _)).spells .array
  | obj ((name, v) :: rest), depth, out => by
    have hvalue := write_appends v (depth + 1) (out ++ "\x7b" ++ newline (depth + 1) ++ quote name ++ ": ")
    rw [write_obj_cons]
    exact (hvalue.member.enclosed rfl rfl (writeFields_appends rest _ _)).spells .object

theorem writeItems_appends : (items : List Json) → (depth : Nat) → (out : String) →
    Appends (Continues Spells (itemValues items)) out (writeItems depth out false items)
  | [], depth, out => ⟨[], by simp [writeItems], continues_nil⟩
  | item :: rest, depth, out => by
    rw [writeItems]
    exact (write_appends item _ _).continues (writeItems_appends rest _ _)

theorem writeFields_appends : (fields : List (String × Json)) → (depth : Nat) → (out : String) →
    Appends (Continues (Member Spells) (fieldValues fields)) out (writeFields depth out false fields)
  | [], depth, out => ⟨[], by simp [writeFields], continues_nil⟩
  | (name, v) :: rest, depth, out => by
    rw [writeFields]
    exact (write_appends v _ _).member.continues (writeFields_appends rest _ _)

end

/-- **A printed text says what was printed.** -/
theorem text_pretty (v : Json) : Text v.value v.pretty.toList := by
  obtain ⟨cs, hcs, h⟩ := write_appends v 0 ""
  have htext : v.pretty.toList = [] ++ (cs ++ []) := by simpa [pretty] using hcs
  rw [htext]
  exact .mk blank_nil h blank_nil

end JvmTrace.Json
