import Mathlib.Data.List.Forall2

/-!
# The grammar of JSON

What a JSON text says, without a program that reads it: `Text v cs` holds if the grammar derives the
characters `cs` for the value `v`. All of the grammar is here, whether or not a report makes use of it:
the three literals, numbers with fractions and exponents, every escape in a string, and blanks wherever
they may stand. A text that is not in the grammar says nothing.

**A text says one thing only** (`Text.unique`). So a reader of JSON, any reader, that accepts a text can
only get this value from it. Nothing in a text ends by itself, though: a number ends where something
else begins. The lemmas are therefore about a piece with what follows it, and they assume that the
piece is followed by something that cannot belong to a number (`Ends`). In a text that always holds.

A character beyond the sixteen-bit ones may be escaped by its two surrogates. A surrogate by itself is
not a character, and an escape for one has no meaning here.
-/

set_option autoImplicit false

namespace JvmTrace.JsonGrammar

/-- What a JSON text says. An object keeps its fields in order. -/
inductive Value where
  | null
  | bool (b : Bool)
  | number (value : Rat)
  | string (text : String)
  | array (items : List Value)
  | object (fields : List (String × Value))

/-! ## Runs of characters -/

/-- A text that does not start with a character for which `p` holds. -/
def StartsWithout (p : Char → Bool) (cs : List Char) : Prop := ∀ c ∈ cs.head?, p c = false

theorem startsWithout_nil (p : Char → Bool) : StartsWithout p [] := by
  intro c hc
  cases hc

theorem startsWithout_cons {p : Char → Bool} {c : Char} (h : p c = false) (cs : List Char) :
    StartsWithout p (c :: cs) := by
  intro d hd
  cases hd
  exact h

/-- A run of characters ends where the first other character stands. -/
theorem run_unique {p : Char → Bool} {xs ys r s : List Char} (hxs : ∀ c ∈ xs, p c = true)
    (hys : ∀ c ∈ ys, p c = true) (hr : StartsWithout p r) (hs : StartsWithout p s)
    (h : xs ++ r = ys ++ s) : xs = ys ∧ r = s := by
  induction xs generalizing ys with
  | nil =>
    cases ys with
    | nil => exact ⟨rfl, h⟩
    | cons y ys =>
      have hy := hys y List.mem_cons_self
      rw [hr y (by rw [← List.nil_append r, h]; rfl)] at hy
      cases hy
  | cons x xs ih =>
    cases ys with
    | nil =>
      have hx := hxs x List.mem_cons_self
      rw [hs x (by rw [← List.nil_append s, ← h]; rfl)] at hx
      cases hx
    | cons y ys =>
      rw [List.cons_append, List.cons_append, List.cons.injEq] at h
      rw [List.forall_mem_cons] at hxs hys
      obtain ⟨rfl, h⟩ := h
      obtain ⟨rfl, rfl⟩ := ih hxs.2 hys.2 h
      exact ⟨rfl, rfl⟩

def isBlank (c : Char) : Bool := c = ' ' || c = '\t' || c = '\n' || c = '\r'

def Blank (cs : List Char) : Prop := ∀ c ∈ cs, isBlank c = true

/-! ## Numbers -/

def Digits (cs : List Char) : Prop := cs ≠ [] ∧ ∀ c ∈ cs, c.isDigit = true

def digitsValue (cs : List Char) : Nat := Nat.ofDigitChars 10 cs 0

/-- Nothing, or a point and digits. -/
inductive Fraction : List Char → List Char → Prop where
  | none : Fraction [] []
  | some {ds : List Char} (h : Digits ds) : Fraction ds ('.' :: ds)

/-- Digits that may have a sign. -/
inductive Signed : List Char → Prop where
  | unsigned {ds : List Char} (h : Digits ds) : Signed ds
  | plus {ds : List Char} (h : Digits ds) : Signed ('+' :: ds)
  | minus {ds : List Char} (h : Digits ds) : Signed ('-' :: ds)

def signedValue : List Char → Int
  | '-' :: ds => -(digitsValue ds : Int)
  | '+' :: ds => digitsValue ds
  | ds => digitsValue ds

/-- Nothing, or a mark and digits that may have a sign. -/
inductive Exponent : Int → List Char → Prop where
  | none : Exponent 0 []
  | some {mark : Char} {ds : List Char} (hmark : mark = 'e' ∨ mark = 'E') (h : Signed ds) :
      Exponent (signedValue ds) (mark :: ds)

/-- The number `digits · 10^exponent`, or its opposite. -/
def decimal (negative : Bool) (digits : Nat) (exponent : Int) : Rat :=
  let signed : Int := if negative then -(digits : Int) else digits
  mkRat (signed * (Nat.pow 10 exponent.toNat : Nat)) (Nat.pow 10 (-exponent).toNat)

def sign (negative : Bool) : List Char := if negative then ['-'] else []

/-- A sign, an integer without needless zeros in front, a fraction and an exponent. -/
inductive Number : Rat → List Char → Prop where
  | mk {negative : Bool} {integer fraction fractionText exponentText : List Char} {exponent : Int}
      (hinteger : Digits integer) (hzero : integer.head? = some '0' → integer = ['0'])
      (hfraction : Fraction fraction fractionText) (hexponent : Exponent exponent exponentText) :
      Number (decimal negative (digitsValue (integer ++ fraction)) (exponent - fraction.length))
        (sign negative ++ (integer ++ (fractionText ++ exponentText)))

/-- The characters that a number is made of. -/
def isNumeric (c : Char) : Bool :=
  c.isDigit || c = '-' || c = '+' || c = '.' || c = 'e' || c = 'E'

theorem Digits.isNumeric {ds : List Char} (h : Digits ds) : ∀ c ∈ ds, isNumeric c = true := by
  intro c hc
  simp [JsonGrammar.isNumeric, h.2 c hc]

theorem Fraction.isNumeric {ds cs : List Char} (h : Fraction ds cs) :
    ∀ c ∈ cs, isNumeric c = true := by
  cases h with
  | none => exact List.forall_mem_nil _
  | some h => exact List.forall_mem_cons.mpr ⟨rfl, h.isNumeric⟩

theorem Exponent.isNumeric {e : Int} {cs : List Char} (h : Exponent e cs) :
    ∀ c ∈ cs, isNumeric c = true := by
  cases h with
  | none => exact List.forall_mem_nil _
  | some hmark h =>
    refine List.forall_mem_cons.mpr ⟨by rcases hmark with rfl | rfl <;> rfl, ?_⟩
    cases h with
    | unsigned h => exact h.isNumeric
    | plus h => exact List.forall_mem_cons.mpr ⟨rfl, h.isNumeric⟩
    | minus h => exact List.forall_mem_cons.mpr ⟨rfl, h.isNumeric⟩

theorem Number.isNumeric {q : Rat} {cs : List Char} (h : Number q cs) :
    ∀ c ∈ cs, isNumeric c = true := by
  cases h with
  | @mk negative _ _ _ _ _ hinteger _ hfraction hexponent =>
    have hsign : ∀ c ∈ sign negative, JsonGrammar.isNumeric c = true := by
      cases negative <;> simp [sign, JsonGrammar.isNumeric]
    exact List.forall_mem_append.mpr ⟨hsign, List.forall_mem_append.mpr ⟨hinteger.isNumeric,
      List.forall_mem_append.mpr ⟨hfraction.isNumeric, hexponent.isNumeric⟩⟩⟩

theorem Number.ne_nil {q : Rat} {cs : List Char} (h : Number q cs) : cs ≠ [] := by
  cases h with
  | mk hinteger => simp [hinteger.1]

theorem Exponent.startsWithout_digit {e : Int} {cs : List Char} (h : Exponent e cs) :
    StartsWithout Char.isDigit cs := by
  cases h with
  | none => exact startsWithout_nil _
  | some hmark => rcases hmark with rfl | rfl <;> exact startsWithout_cons rfl _

theorem Exponent.unique {e e' : Int} {cs : List Char} (h : Exponent e cs) (h' : Exponent e' cs) :
    e = e' := by
  cases h <;> cases h' <;> rfl

theorem Exponent.ne_point {e : Int} {xs r : List Char} (h : Exponent e xs) : '.' :: r ≠ xs := by
  intro heq
  cases h with
  | none => cases heq
  | some hmark =>
    cases heq
    rcases hmark with hmark | hmark <;> cases hmark

/-- A fraction and an exponent are told apart by what they start with. -/
theorem Fraction.unique {ds ds' cs cs' xs xs' : List Char} {e e' : Int} (h : Fraction ds cs)
    (h' : Fraction ds' cs') (hx : Exponent e xs) (hx' : Exponent e' xs')
    (heq : cs ++ xs = cs' ++ xs') : ds = ds' ∧ e = e' := by
  cases h with
  | none =>
    cases h' with
    | none =>
      obtain rfl : xs = xs' := heq
      exact ⟨rfl, hx.unique hx'⟩
    | some => exact absurd heq.symm hx.ne_point
  | some h =>
    cases h' with
    | none => exact absurd heq hx'.ne_point
    | some h' =>
      obtain ⟨rfl, rfl⟩ := run_unique h.2 h'.2 hx.startsWithout_digit hx'.startsWithout_digit
        (List.cons.inj heq).2
      exact ⟨rfl, hx.unique hx'⟩

theorem Fraction.startsWithout_digit {ds cs xs : List Char} {e : Int} (h : Fraction ds cs)
    (hx : Exponent e xs) : StartsWithout Char.isDigit (cs ++ xs) := by
  cases h with
  | none => exact hx.startsWithout_digit
  | some => exact startsWithout_cons rfl _

theorem sign_unique {negative negative' : Bool} {ds ds' r r' : List Char} (hds : Digits ds)
    (hds' : Digits ds') (h : sign negative ++ (ds ++ r) = sign negative' ++ (ds' ++ r')) :
    negative = negative' ∧ ds ++ r = ds' ++ r' := by
  have hminus : ∀ {xs ys zs : List Char}, Digits xs → '-' :: ys ≠ xs ++ zs := by
    intro xs ys zs hxs heq
    obtain ⟨hne, hall⟩ := hxs
    cases xs with
    | nil => exact hne rfl
    | cons x xs =>
      cases heq
      exact absurd (hall '-' List.mem_cons_self) (by decide)
  cases negative <;> cases negative'
  · exact ⟨rfl, h⟩
  · have h : ds ++ r = '-' :: (ds' ++ r') := h
    exact absurd h.symm (hminus hds)
  · have h : '-' :: (ds ++ r) = ds' ++ r' := h
    exact absurd h (hminus hds')
  · exact ⟨rfl, (List.cons.inj h).2⟩

theorem Number.unique {q q' : Rat} {cs : List Char} (h : Number q cs) (h' : Number q' cs) :
    q = q' := by
  cases h with
  | mk hinteger _ hfraction hexponent =>
    generalize htext : sign _ ++ _ = text at h'
    cases h' with
    | mk hinteger' _ hfraction' hexponent' =>
      obtain ⟨rfl, hrest⟩ := sign_unique hinteger hinteger' htext
      obtain ⟨rfl, htail⟩ := run_unique hinteger.2 hinteger'.2
        (hfraction.startsWithout_digit hexponent) (hfraction'.startsWithout_digit hexponent') hrest
      obtain ⟨rfl, rfl⟩ := hfraction.unique hfraction' hexponent hexponent' htail
      rfl

/-! ## Strings -/

/-- The escapes of two characters, by the second. -/
def shortEscapes : List (Char × Char) :=
  [('"', '"'), ('\\', '\\'), ('/', '/'), ('b', '\x08'), ('f', '\x0c'), ('n', '\n'), ('r', '\r'),
    ('t', '\t')]

def hexDigit? (c : Char) : Option Nat :=
  if c.isDigit then some (c.toNat - 48)
  else if 'a' ≤ c ∧ c ≤ 'f' then some (c.toNat - 87)
  else if 'A' ≤ c ∧ c ≤ 'F' then some (c.toNat - 55)
  else none

/-- Four hexadecimal digits, and what they spell. -/
inductive Hex : Nat → List Char → Prop where
  | mk {a b c d : Char} {i j k l : Nat} (ha : hexDigit? a = some i) (hb : hexDigit? b = some j)
      (hc : hexDigit? c = some k) (hd : hexDigit? d = some l) :
      Hex (((i * 16 + j) * 16 + k) * 16 + l) [a, b, c, d]

/-- The ways to write a character in a string: as it is, by an escape of its own, by its code, or by
the codes of its two surrogates. -/
inductive Spelling : Char → List Char → Prop where
  | plain {c : Char} (hcontrol : 0x20 ≤ c.toNat) (hquote : c ≠ '"') (hescape : c ≠ '\\') :
      Spelling c [c]
  | short {c e : Char} (h : (e, c) ∈ shortEscapes) : Spelling c ['\\', e]
  | code {c : Char} {ds : List Char} (h : Hex c.toNat ds) : Spelling c ('\\' :: 'u' :: ds)
  | surrogates {c : Char} {ds es : List Char} {high low : Nat} (hds : Hex high ds) (hes : Hex low es)
      (hhigh : 0xD800 ≤ high ∧ high < 0xDC00) (hlow : 0xDC00 ≤ low ∧ low < 0xE000)
      (hc : c.toNat = 0x10000 + (high - 0xD800) * 0x400 + (low - 0xDC00)) :
      Spelling c ('\\' :: 'u' :: (ds ++ '\\' :: 'u' :: es))

theorem Hex.unique {m n : Nat} {ds es r s : List Char} (h : Hex m ds) (h' : Hex n es)
    (heq : ds ++ r = es ++ s) : m = n ∧ r = s := by
  cases h with
  | mk ha hb hc hd =>
    cases h' with
    | mk ha' hb' hc' hd' =>
      simp only [List.cons_append, List.nil_append, List.cons.injEq] at heq
      obtain ⟨rfl, rfl, rfl, rfl, rfl⟩ := heq
      simp_all

theorem shortEscapes_unique {e c c' : Char} (h : (e, c) ∈ shortEscapes)
    (h' : (e, c') ∈ shortEscapes) : c = c' := by
  have hall : ∀ p ∈ shortEscapes, ∀ q ∈ shortEscapes, p.1 = q.1 → p.2 = q.2 := by decide
  exact hall _ h _ h' rfl

theorem not_mem_shortEscapes (c : Char) : ('u', c) ∉ shortEscapes := by
  have hall : ∀ p ∈ shortEscapes, p.1 ≠ 'u' := by decide
  exact fun h => hall _ h rfl

theorem not_surrogate (c : Char) : ¬(0xD800 ≤ c.toNat ∧ c.toNat < 0xE000) := by
  have hvalid : c.toNat < 0xD800 ∨ 0xDFFF < c.toNat ∧ c.toNat < 0x110000 := c.valid
  omega

theorem Spelling.unique {c c' : Char} {p p' r s : List Char} (h : Spelling c p)
    (h' : Spelling c' p') (heq : p ++ r = p' ++ s) : c = c' ∧ r = s := by
  cases h with
  | plain _ _ hescape =>
    cases h' with
    | plain => exact List.cons.inj heq
    | short | code | surrogates => exact absurd (List.cons.inj heq).1 hescape
  | short hshort =>
    cases h' with
    | plain _ _ hescape => exact absurd (List.cons.inj heq).1.symm hescape
    | short hshort' =>
      simp only [List.cons_append, List.nil_append, List.cons.injEq, true_and] at heq
      obtain ⟨rfl, rfl⟩ := heq
      exact ⟨shortEscapes_unique hshort hshort', rfl⟩
    | code | surrogates =>
      obtain rfl := (List.cons.inj (List.cons.inj heq).2).1
      exact absurd hshort (not_mem_shortEscapes _)
  | code hcode =>
    cases h' with
    | plain _ _ hescape => exact absurd (List.cons.inj heq).1.symm hescape
    | short hshort =>
      obtain rfl := (List.cons.inj (List.cons.inj heq).2).1
      exact absurd hshort (not_mem_shortEscapes _)
    | code hcode' =>
      obtain ⟨hc, hrest⟩ := hcode.unique hcode' (List.cons.inj (List.cons.inj heq).2).2
      exact ⟨Char.toNat_inj.mp hc, hrest⟩
    | surrogates hds _ hhigh =>
      simp only [List.cons_append, List.append_assoc, List.cons.injEq, true_and] at heq
      obtain ⟨hc, -⟩ := hcode.unique hds heq
      exact absurd ⟨by omega, by omega⟩ (not_surrogate c)
  | surrogates hds hes hhigh hlow hc =>
    cases h' with
    | plain _ _ hescape => exact absurd (List.cons.inj heq).1.symm hescape
    | short hshort =>
      obtain rfl := (List.cons.inj (List.cons.inj heq).2).1
      exact absurd hshort (not_mem_shortEscapes _)
    | code hcode =>
      simp only [List.cons_append, List.append_assoc, List.cons.injEq, true_and] at heq
      obtain ⟨hc', -⟩ := hds.unique hcode heq
      exact absurd ⟨by omega, by omega⟩ (not_surrogate c')
    | surrogates hds' hes' _ _ hc' =>
      simp only [List.cons_append, List.append_assoc, List.cons.injEq, true_and] at heq
      obtain ⟨rfl, heq⟩ := hds.unique hds' heq
      simp only [List.cons.injEq, true_and] at heq
      obtain ⟨rfl, rfl⟩ := hes.unique hes' heq
      exact ⟨Char.toNat_inj.mp (hc.trans hc'.symm), rfl⟩

theorem Spelling.ne_quote {c : Char} {p r s : List Char} (h : Spelling c p) :
    '"' :: r ≠ p ++ s := by
  intro heq
  cases h with
  | plain _ hquote => exact hquote (List.cons.inj heq).1.symm
  | short | code | surrogates => cases heq

theorem spellings_unique {xs ys r s : List Char} {ps qs : List (List Char)}
    (h : List.Forall₂ Spelling xs ps) (h' : List.Forall₂ Spelling ys qs)
    (heq : ps.flatten ++ '"' :: r = qs.flatten ++ '"' :: s) : xs = ys ∧ r = s := by
  induction h generalizing ys qs with
  | nil =>
    cases h' with
    | nil => exact ⟨rfl, (List.cons.inj heq).2⟩
    | cons hq =>
      rw [List.flatten_cons, List.append_assoc] at heq
      exact absurd heq hq.ne_quote
  | cons hp _ ih =>
    cases h' with
    | nil =>
      rw [List.flatten_cons, List.append_assoc] at heq
      exact absurd heq.symm hp.ne_quote
    | cons hq h' =>
      rw [List.flatten_cons, List.flatten_cons, List.append_assoc, List.append_assoc] at heq
      obtain ⟨rfl, heq⟩ := hp.unique hq heq
      obtain ⟨rfl, rfl⟩ := ih h' heq
      exact ⟨rfl, rfl⟩

/-- Characters, each in some spelling, between quotation marks. -/
inductive Quoted : String → List Char → Prop where
  | mk {s : String} {pieces : List (List Char)} (h : List.Forall₂ Spelling s.toList pieces) :
      Quoted s ('"' :: (pieces.flatten ++ ['"']))

theorem Quoted.unique {s s' : String} {cs ds r r' : List Char} (h : Quoted s cs)
    (h' : Quoted s' ds) (heq : cs ++ r = ds ++ r') : s = s' ∧ r = r' := by
  cases h with
  | mk h =>
    cases h' with
    | mk h' =>
      simp only [List.cons_append, List.append_assoc, List.nil_append, List.cons.injEq,
        true_and] at heq
      obtain ⟨htext, hrest⟩ := spellings_unique h h' heq
      exact ⟨String.toList_inj.mp htext, hrest⟩

/-! ## Values -/

/-- One thing or more, with commas between them. -/
inductive Separated {α : Type} (Item : α → List Char → Prop) : List α → List Char → Prop where
  | one {x : α} {text : List Char} (h : Item x text) : Separated Item [x] text
  | more {x : α} {xs : List α} {text before after rest : List Char} (h : Item x text)
      (hbefore : Blank before) (hafter : Blank after) (hrest : Separated Item xs rest) :
      Separated Item (x :: xs) (text ++ (before ++ ',' :: (after ++ rest)))

/-- Things between two brackets, if there are any. -/
inductive Enclosed {α : Type} (opening closing : Char) (Item : α → List Char → Prop) :
    List α → List Char → Prop where
  | empty {blank : List Char} (h : Blank blank) :
      Enclosed opening closing Item [] (opening :: (blank ++ [closing]))
  | full {xs : List α} {before text after : List Char} (hbefore : Blank before)
      (h : Separated Item xs text) (hafter : Blank after) :
      Enclosed opening closing Item xs (opening :: (before ++ (text ++ (after ++ [closing]))))

/-- A name, a colon and a value. -/
inductive Member (Item : Value → List Char → Prop) : String × Value → List Char → Prop where
  | mk {name : String} {value : Value} {key before after text : List Char} (hkey : Quoted name key)
      (hbefore : Blank before) (hafter : Blank after) (h : Item value text) :
      Member Item (name, value) (key ++ (before ++ ':' :: (after ++ text)))

def boolText : Bool → List Char
  | true => ['t', 'r', 'u', 'e']
  | false => ['f', 'a', 'l', 's', 'e']

/-- The texts for a value, without blanks around them. -/
inductive Spells : Value → List Char → Prop where
  | null : Spells .null ['n', 'u', 'l', 'l']
  | bool (b : Bool) : Spells (.bool b) (boolText b)
  | number {q : Rat} {cs : List Char} (h : Number q cs) : Spells (.number q) cs
  | string {s : String} {cs : List Char} (h : Quoted s cs) : Spells (.string s) cs
  | array {items : List Value} {cs : List Char} (h : Enclosed '[' ']' Spells items cs) :
      Spells (.array items) cs
  | object {fields : List (String × Value)} {cs : List Char}
      (h : Enclosed '\x7b' '\x7d' (Member Spells) fields cs) : Spells (.object fields) cs

/-- A whole text: a value, and blanks around it. -/
inductive Text : Value → List Char → Prop where
  | mk {v : Value} {before text after : List Char} (hbefore : Blank before) (h : Spells v text)
      (hafter : Blank after) : Text v (before ++ (text ++ after))

/-! ## One text, one value -/

/-- What may follow a number. -/
def Ends (cs : List Char) : Prop := StartsWithout isNumeric cs

/-- A text for `x` is a text for nothing else, whatever comes after it, and the end of it can be told. -/
def Determines {α : Type} (Item : α → List Char → Prop) (x : α) : Prop :=
  ∀ {y : α} {cs ds r s : List Char}, Item x cs → Item y ds → Ends r → Ends s →
    cs ++ r = ds ++ s → x = y ∧ r = s

theorem isNumeric_of_isBlank {c : Char} (h : isBlank c = true) : isNumeric c = false := by
  simp only [isBlank, Bool.or_eq_true, decide_eq_true_eq] at h
  rcases h with ((rfl | rfl) | rfl) | rfl <;> rfl

theorem Blank.ends {b r : List Char} (hb : Blank b) (hr : Ends r) : Ends (b ++ r) := by
  cases b with
  | nil => exact hr
  | cons c b => exact startsWithout_cons (isNumeric_of_isBlank (hb c List.mem_cons_self)) _

theorem Blank.unique {b b' r s : List Char} {c d : Char} (hb : Blank b) (hb' : Blank b')
    (hc : isBlank c = false) (hd : isBlank d = false) (h : b ++ c :: r = b' ++ d :: s) :
    c = d ∧ r = s := by
  obtain ⟨-, h⟩ := run_unique hb hb' (startsWithout_cons hc r) (startsWithout_cons hd s) h
  exact List.cons.inj h

/-- A text that starts neither with a blank nor with the end of a list. -/
def Begins (cs : List Char) : Prop :=
  ∃ c rest, cs = c :: rest ∧ isBlank c = false ∧ c ≠ ']' ∧ c ≠ '\x7d'

theorem Blank.unique_of_begins {b b' cs ds r s : List Char} (hb : Blank b) (hb' : Blank b')
    (hcs : Begins cs) (hds : Begins ds) (h : b ++ (cs ++ r) = b' ++ (ds ++ s)) :
    cs ++ r = ds ++ s := by
  obtain ⟨c, cs, rfl, hc, -⟩ := hcs
  obtain ⟨d, ds, rfl, hd, -⟩ := hds
  exact (run_unique hb hb' (startsWithout_cons hc _) (startsWithout_cons hd _) h).2

section Lists

variable {α : Type} {Item : α → List Char → Prop}

theorem Separated.begins (hItem : ∀ {x cs}, Item x cs → Begins cs) {xs : List α} {cs : List Char}
    (h : Separated Item xs cs) : Begins cs := by
  cases h with
  | one h => exact hItem h
  | more h =>
    obtain ⟨c, rest, rfl, hc⟩ := hItem h
    exact ⟨c, _, rfl, hc⟩

theorem Separated.unique (hItem : ∀ {x cs}, Item x cs → Begins cs) {closing : Char}
    (hclosing : closing = ']' ∨ closing = '\x7d') {xs ys : List α}
    (hxs : ∀ x ∈ xs, Determines Item x) {cs ds b b' r s : List Char} (h : Separated Item xs cs)
    (h' : Separated Item ys ds) (hb : Blank b) (hb' : Blank b')
    (heq : cs ++ (b ++ closing :: r) = ds ++ (b' ++ closing :: s)) : xs = ys ∧ r = s := by
  have hnumeric : isNumeric closing = false := by rcases hclosing with rfl | rfl <;> rfl
  have hblank : isBlank closing = false := by rcases hclosing with rfl | rfl <;> rfl
  have hcomma : closing ≠ ',' := by rcases hclosing with rfl | rfl <;> decide
  have hends : Ends (closing :: r) ∧ Ends (closing :: s) :=
    ⟨startsWithout_cons hnumeric r, startsWithout_cons hnumeric s⟩
  have hends_comma : ∀ t, Ends (',' :: t) := startsWithout_cons rfl
  induction h generalizing ys ds with
  | one h =>
    cases h' with
    | one h' =>
      obtain ⟨rfl, heq⟩ := hxs _ List.mem_cons_self h h' (hb.ends hends.1) (hb'.ends hends.2) heq
      exact ⟨rfl, (hb.unique hb' hblank hblank heq).2⟩
    | more h' hbefore' =>
      simp only [List.append_assoc, List.cons_append] at heq
      obtain ⟨-, heq⟩ :=
        hxs _ List.mem_cons_self h h' (hb.ends hends.1) (hbefore'.ends (hends_comma _)) heq
      exact absurd (hb.unique hbefore' hblank rfl heq).1 hcomma
  | more h hbefore hafter hrest ih =>
    cases h' with
    | one h' =>
      simp only [List.append_assoc, List.cons_append] at heq
      obtain ⟨-, heq⟩ :=
        hxs _ List.mem_cons_self h h' (hbefore.ends (hends_comma _)) (hb'.ends hends.2) heq
      exact absurd (hbefore.unique hb' rfl hblank heq).1.symm hcomma
    | more h' hbefore' hafter' hrest' =>
      simp only [List.append_assoc, List.cons_append] at heq
      obtain ⟨rfl, heq⟩ := hxs _ List.mem_cons_self h h' (hbefore.ends (hends_comma _))
        (hbefore'.ends (hends_comma _)) heq
      obtain ⟨-, heq⟩ := hbefore.unique hbefore' rfl rfl heq
      have heq := hafter.unique_of_begins hafter' (hrest.begins hItem) (hrest'.begins hItem) heq
      obtain ⟨rfl, rfl⟩ := ih (fun x hx => hxs x (List.mem_cons_of_mem _ hx)) hrest' heq
      exact ⟨rfl, rfl⟩

theorem Enclosed.unique (hItem : ∀ {x cs}, Item x cs → Begins cs) {opening closing : Char}
    (hclosing : closing = ']' ∨ closing = '\x7d') {xs ys : List α}
    (hxs : ∀ x ∈ xs, Determines Item x) {cs ds r s : List Char}
    (h : Enclosed opening closing Item xs cs) (h' : Enclosed opening closing Item ys ds)
    (heq : cs ++ r = ds ++ s) : xs = ys ∧ r = s := by
  have hblank : isBlank closing = false := by rcases hclosing with rfl | rfl <;> rfl
  -- A list that is empty is told from one that is not by the first thing after the blanks.
  have hmixed : ∀ {b b' text t u : List Char} {zs : List α}, Blank b → Blank b' →
      Separated Item zs text → b ++ closing :: t ≠ b' ++ (text ++ u) := by
    intro b b' text t u zs hb hb' htext heq
    obtain ⟨c, rest, rfl, hc, hne⟩ := htext.begins hItem
    obtain ⟨rfl, -⟩ := hb.unique hb' hblank hc heq
    rcases hclosing with rfl | rfl
    · exact hne.1 rfl
    · exact hne.2 rfl
  cases h with
  | empty hb =>
    cases h' with
    | empty hb' =>
      simp only [List.cons_append, List.append_assoc, List.cons.injEq, true_and] at heq
      exact ⟨rfl, (hb.unique hb' hblank hblank heq).2⟩
    | full hb' htext =>
      simp only [List.cons_append, List.append_assoc, List.cons.injEq, true_and] at heq
      exact absurd heq (hmixed hb hb' htext)
  | full hb htext hafter =>
    cases h' with
    | empty hb' =>
      simp only [List.cons_append, List.append_assoc, List.cons.injEq, true_and] at heq
      exact absurd heq.symm (hmixed hb' hb htext)
    | full hb' htext' hafter' =>
      simp only [List.cons_append, List.append_assoc, List.nil_append, List.cons.injEq,
        true_and] at heq
      have heq := hb.unique_of_begins hb' (htext.begins hItem) (htext'.begins hItem) heq
      exact htext.unique hItem hclosing hxs htext' hafter hafter' heq

end Lists

theorem Member.begins {Item : Value → List Char → Prop} {field : String × Value} {cs : List Char}
    (h : Member Item field cs) : Begins cs := by
  cases h with
  | mk hkey =>
    cases hkey
    exact ⟨'"', _, rfl, rfl, by decide, by decide⟩

theorem Member.determines {Item : Value → List Char → Prop} {name : String} {value : Value}
    (hItem : ∀ {v cs}, Item v cs → Begins cs) (hvalue : Determines Item value) :
    Determines (Member Item) (name, value) := by
  intro field cs ds r s h h' hr hs heq
  cases h with
  | mk hkey hbefore hafter h =>
    cases h' with
    | mk hkey' hbefore' hafter' h' =>
      simp only [List.append_assoc, List.cons_append] at heq
      obtain ⟨rfl, heq⟩ := hkey.unique hkey' heq
      obtain ⟨-, heq⟩ := hbefore.unique hbefore' rfl rfl heq
      have heq := hafter.unique_of_begins hafter' (hItem h) (hItem h') heq
      obtain ⟨rfl, rfl⟩ := hvalue h h' hr hs heq
      exact ⟨rfl, rfl⟩

/-- The kinds of values, each with first characters of its own. -/
inductive Kind where
  | null | bool | number | string | array | object

def Value.kind : Value → Kind
  | null => .null
  | bool _ => .bool
  | number _ => .number
  | string _ => .string
  | array _ => .array
  | object _ => .object

def kindOf (c : Char) : Kind :=
  if isNumeric c then .number
  else if c = '"' then .string
  else if c = '[' then .array
  else if c = '\x7b' then .object
  else if c = 'n' then .null
  else .bool

theorem Spells.kind {v : Value} {cs : List Char} (h : Spells v cs) :
    ∃ c rest, cs = c :: rest ∧ kindOf c = v.kind ∧ isBlank c = false ∧ c ≠ ']' ∧ c ≠ '\x7d' := by
  cases h with
  | null => exact ⟨'n', _, rfl, rfl, by decide⟩
  | bool b =>
    cases b
    · exact ⟨'f', _, rfl, rfl, by decide⟩
    · exact ⟨'t', _, rfl, rfl, by decide⟩
  | string h =>
    cases h
    exact ⟨'"', _, rfl, rfl, by decide⟩
  | array h => cases h <;> exact ⟨'[', _, rfl, rfl, by decide⟩
  | object h => cases h <;> exact ⟨'\x7b', _, rfl, rfl, by decide⟩
  | number h =>
    obtain ⟨c, rest, rfl⟩ := List.exists_cons_of_ne_nil h.ne_nil
    have hc := h.isNumeric c List.mem_cons_self
    refine ⟨c, rest, rfl, by simp [kindOf, hc, Value.kind], ?_, ?_, ?_⟩
    · cases hblank : isBlank c with
      | false => rfl
      | true =>
        rw [isNumeric_of_isBlank hblank] at hc
        cases hc
    · rintro rfl
      cases hc
    · rintro rfl
      cases hc

theorem Spells.begins {v : Value} {cs : List Char} (h : Spells v cs) : Begins cs := by
  obtain ⟨c, rest, hcs, -, hc⟩ := h.kind
  exact ⟨c, rest, hcs, hc⟩

theorem Spells.kind_eq {v w : Value} {cs ds r s : List Char} (hv : Spells v cs) (hw : Spells w ds)
    (heq : cs ++ r = ds ++ s) : v.kind = w.kind := by
  obtain ⟨c, cs, rfl, hc, -⟩ := hv.kind
  obtain ⟨d, ds, rfl, hd, -⟩ := hw.kind
  rw [← hc, ← hd, (List.cons.inj heq).1]

theorem determines_null : Determines Spells .null := by
  intro w cs ds r s hv hw _ _ heq
  have hkind := hv.kind_eq hw heq
  cases hv
  cases hw with
  | null => exact ⟨rfl, List.append_cancel_left heq⟩
  | _ => cases hkind

theorem determines_bool (b : Bool) : Determines Spells (.bool b) := by
  intro w cs ds r s hv hw _ _ heq
  have hkind := hv.kind_eq hw heq
  cases hv
  cases hw with
  | bool b' =>
    cases b <;> cases b'
    · exact ⟨rfl, List.append_cancel_left heq⟩
    · cases heq
    · cases heq
    · exact ⟨rfl, List.append_cancel_left heq⟩
  | _ => cases hkind

theorem determines_number (q : Rat) : Determines Spells (.number q) := by
  intro w cs ds r s hv hw hr hs heq
  have hkind := hv.kind_eq hw heq
  obtain _ | _ | hv := hv
  cases hw with
  | number hw =>
    obtain ⟨rfl, rfl⟩ := run_unique hv.isNumeric hw.isNumeric hr hs heq
    exact ⟨congrArg Value.number (hv.unique hw), rfl⟩
  | _ => cases hkind

theorem determines_string (text : String) : Determines Spells (.string text) := by
  intro w cs ds r s hv hw _ _ heq
  have hkind := hv.kind_eq hw heq
  obtain _ | _ | _ | hv := hv
  cases hw with
  | string hw =>
    obtain ⟨rfl, rfl⟩ := hv.unique hw heq
    exact ⟨rfl, rfl⟩
  | _ => cases hkind

theorem determines_array {items : List Value} (hitems : ∀ v ∈ items, Determines Spells v) :
    Determines Spells (.array items) := by
  intro w cs ds r s hv hw _ _ heq
  have hkind := hv.kind_eq hw heq
  obtain _ | _ | _ | _ | hv := hv
  cases hw with
  | array hw =>
    obtain ⟨rfl, rfl⟩ := hv.unique Spells.begins (.inl rfl) hitems hw heq
    exact ⟨rfl, rfl⟩
  | _ => cases hkind

theorem determines_object {fields : List (String × Value)}
    (hfields : ∀ field ∈ fields, Determines (Member Spells) field) :
    Determines Spells (.object fields) := by
  intro w cs ds r s hv hw _ _ heq
  have hkind := hv.kind_eq hw heq
  obtain _ | _ | _ | _ | _ | hv := hv
  cases hw with
  | object hw =>
    obtain ⟨rfl, rfl⟩ := hv.unique Member.begins (.inr rfl) hfields hw heq
    exact ⟨rfl, rfl⟩
  | _ => cases hkind

mutual

theorem determines_spells : (v : Value) → Determines Spells v
  | .null => determines_null
  | .bool b => determines_bool b
  | .number q => determines_number q
  | .string text => determines_string text
  | .array items => determines_array (determines_items items)
  | .object fields => determines_object (determines_fields fields)

theorem determines_items : (items : List Value) → ∀ v ∈ items, Determines Spells v
  | [] => List.forall_mem_nil _
  | v :: items => List.forall_mem_cons.mpr ⟨determines_spells v, determines_items items⟩

theorem determines_fields : (fields : List (String × Value)) →
    ∀ field ∈ fields, Determines (Member Spells) field
  | [] => List.forall_mem_nil _
  | (_, v) :: fields => List.forall_mem_cons.mpr
      ⟨Member.determines Spells.begins (determines_spells v), determines_fields fields⟩

end

/-- **A text says one thing only.** -/
theorem Text.unique {v w : Value} {cs : List Char} (hv : Text v cs) (hw : Text w cs) : v = w := by
  cases hv with
  | @mk before text after hbefore hv hafter =>
    generalize htext : before ++ (text ++ after) = cs at hw
    cases hw with
    | mk hbefore' hw hafter' =>
      have heq := hbefore.unique_of_begins hbefore' hv.begins hw.begins htext
      have hends : ∀ {b : List Char}, Blank b → Ends b := fun hb => by
        simpa using hb.ends (startsWithout_nil isNumeric)
      exact (determines_spells v hv hw (hends hafter) (hends hafter') heq).1

end JvmTrace.JsonGrammar
