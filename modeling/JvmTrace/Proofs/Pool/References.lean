import JvmTrace.Proofs.Pool.Resolve
import Mathlib.Data.List.Forall2
import Mathlib.Logic.Relation

/-!
# The reference graph of a pool

`Pool.resolve` is written accessor by accessor, and each accessor states the kind that it wants. This
file says the same thing as one table: `Constant.references` lists where a constant refers to, in the
order in which it is written, and what each reference has to lead to. The rest is a graph. Nothing in
the table forbids a pool to refer to itself; what ends a walk is that every kind refers to lesser
kinds only (`depth_lt`), so that a walk along references that lead where they should is never more
than four steps long.

What things are called in symbols and messages is a second table: the kinds of constants (`IsKind`), the
kinds of method handles (`handleKinds`), and the way strings are quoted (`quotation`).

`Pool.trail` is that walk, depth first and from left to right. It does not go on behind a reference
that leads astray. Resolution succeeds exactly if nothing that can be reached leads astray, and
otherwise it blames the first reference of the trail that does (`resolve_walks`).
-/

set_option autoImplicit false

namespace JvmTrace

/-! ## The table -/

/-- What a reference has to lead to. -/
inductive Expected where
  /-- Any constant at all: what is asked of the index that is resolved. -/
  | anything
  | utf8
  | classRef
  | nameAndType
  | member
  deriving DecidableEq

namespace Expected

/-- What messages say was expected. Nothing is said about `anything`, which no constant fails. -/
def label : Expected → String
  | anything => "constant"
  | utf8 => "Utf8"
  | classRef => "Class"
  | nameAndType => "NameAndType"
  | member => "member reference"

def admits : Expected → Constant → Bool
  | anything, _ => true
  | utf8, .utf8 _ => true
  | classRef, .classRef _ => true
  | nameAndType, .nameAndType _ _ => true
  | member, .member _ _ _ => true
  | _, _ => false

/-- The number of steps that can follow. -/
def depth : Expected → Nat
  | anything => 3
  | member => 2
  | classRef => 1
  | nameAndType => 1
  | utf8 => 0

end Expected

/-- A step from one constant to another. -/
structure Reference where
  index : UInt16
  expected : Expected
  deriving DecidableEq

namespace Constant

/-- What a constant refers to, in the order in which it is written. -/
def references : Constant → List Reference
  | utf8 _ | integer _ | float _ | long _ | double _ => []
  | classRef name => [⟨name, .utf8⟩]
  | string text => [⟨text, .utf8⟩]
  | member _ owner signature => [⟨owner, .classRef⟩, ⟨signature, .nameAndType⟩]
  | nameAndType name descriptor => [⟨name, .utf8⟩, ⟨descriptor, .utf8⟩]
  | methodHandle _ reference => [⟨reference, .member⟩]
  | methodType descriptor => [⟨descriptor, .utf8⟩]
  | dynamic _ signature => [⟨signature, .nameAndType⟩]
  | invokeDynamic _ signature => [⟨signature, .nameAndType⟩]
  | moduleRef name => [⟨name, .utf8⟩]
  | packageRef name => [⟨name, .utf8⟩]

/-- The texts that a constant holds by itself. -/
def ownTexts : Constant → List String
  | utf8 text => [text]
  | _ => []

/-- What messages call a kind of constant. -/
inductive IsKind : Constant → String → Prop where
  | utf8 {text : String} : IsKind (utf8 text) "Utf8"
  | integer {value : Int32} : IsKind (integer value) "Integer"
  | float {bits : UInt32} : IsKind (float bits) "Float"
  | long {value : Int64} : IsKind (long value) "Long"
  | double {bits : UInt64} : IsKind (double bits) "Double"
  | classRef {name : UInt16} : IsKind (classRef name) "Class"
  | string {text : UInt16} : IsKind (string text) "String"
  | field {owner signature : UInt16} : IsKind (member .field owner signature) "Fieldref"
  | method {owner signature : UInt16} : IsKind (member .method owner signature) "Methodref"
  | interfaceMethod {owner signature : UInt16} :
    IsKind (member .interfaceMethod owner signature) "InterfaceMethodref"
  | nameAndType {name descriptor : UInt16} : IsKind (nameAndType name descriptor) "NameAndType"
  | methodHandle {kind : UInt8} {reference : UInt16} :
    IsKind (methodHandle kind reference) "MethodHandle"
  | methodType {descriptor : UInt16} : IsKind (methodType descriptor) "MethodType"
  | dynamic {bootstrap signature : UInt16} : IsKind (dynamic bootstrap signature) "Dynamic"
  | invokeDynamic {bootstrap signature : UInt16} :
    IsKind (invokeDynamic bootstrap signature) "InvokeDynamic"
  | moduleRef {name : UInt16} : IsKind (moduleRef name) "Module"
  | packageRef {name : UInt16} : IsKind (packageRef name) "Package"

theorem isKind_iff {c : Constant} {name : String} : c.IsKind name ↔ name = c.kindName := by
  constructor
  · rintro ⟨⟩ <;> rfl
  · rintro rfl
    cases c with
    | member kind => cases kind <;> constructor
    | _ => constructor

/-- What the kinds of method handles are called. -/
def handleKinds : List (UInt8 × String) := [
  (1, "REF_getField"), (2, "REF_getStatic"), (3, "REF_putField"), (4, "REF_putStatic"),
  (5, "REF_invokeVirtual"), (6, "REF_invokeStatic"), (7, "REF_invokeSpecial"),
  (8, "REF_newInvokeSpecial"), (9, "REF_invokeInterface")]

/-- A kind that there is not is unknown. -/
theorem handleKindName_eq (kind : UInt8) :
    handleKindName kind = (handleKinds.lookup kind).getD "REF_unknown" := by
  have hall : ∀ n : Fin 256, handleKindName (.ofNat n) =
      (handleKinds.lookup (.ofNat n)).getD "REF_unknown" := by decide +kernel
  simpa using hall ⟨kind.toNat, kind.toNat_lt⟩

/-- The characters that are written as a backslash and a letter, with the letter. -/
def shortEscapes : List (Char × Char) := [
  ('\x00', '0'), ('\t', 't'), ('\r', 'r'), ('\n', 'n'), ('"', '"'), ('\\', '\\')]

/-- How a character is written between quotation marks. -/
def spelling (c : Char) : List Char :=
  match shortEscapes.lookup c with
  | some letter => ['\\', letter]
  | none =>
    if Text.needsCodePoint c then "\\u\x7b".toList ++ Nat.toDigits 16 c.toNat ++ "\x7d".toList
    else [c]

theorem escape_eq (c : Char) : Text.escape c = spelling c := by
  unfold Text.escape
  split
  case h_7 hnul htab hreturn hfeed hquote hbackslash =>
    have hnone : shortEscapes.lookup c = none := by
      simpa [shortEscapes, List.lookup_eq_none_iff] using
        ⟨hnul, htab, hreturn, hfeed, hquote, hbackslash⟩
    rw [spelling, hnone]
    rfl
  all_goals rfl

/-- A text between quotation marks. -/
def quotation (text : String) : String :=
  String.ofList (['"'] ++ text.toList.flatMap spelling ++ ['"'])

theorem quote_eq (text : String) : Text.quote text = quotation text := by
  rw [Text.quote, quotation, funext escape_eq]
  rfl

/-- The symbol that a constant at `index` makes of the texts that it leads to. -/
def symbol (index : UInt16) : Constant → List String → Option Symbol
  | utf8 _, [text] => some ⟨index, none, text, none⟩
  | integer value, [] => some ⟨index, none, toString value.toInt, none⟩
  | float bits, [] => some ⟨index, none, Decimal.singleText bits, none⟩
  | long value, [] => some ⟨index, none, toString value.toInt, none⟩
  | double bits, [] => some ⟨index, none, Decimal.doubleText bits, none⟩
  | classRef _, [name] => some ⟨index, none, name, none⟩
  | string _, [text] => some ⟨index, none, quotation text, none⟩
  | member _ _ _, [owner, name, descriptor] => some ⟨index, some owner, name, some descriptor⟩
  | nameAndType _ _, [name, descriptor] => some ⟨index, none, name, some descriptor⟩
  | methodHandle kind _, [owner, name, descriptor] =>
    some ⟨index, some ((handleKinds.lookup kind).getD "REF_unknown" ++ " " ++ owner), name,
      some descriptor⟩
  | methodType _, [descriptor] => some ⟨index, none, descriptor, none⟩
  | dynamic _ _, [name, descriptor] => some ⟨index, none, name, some descriptor⟩
  | invokeDynamic _ _, [name, descriptor] => some ⟨index, none, name, some descriptor⟩
  | moduleRef _, [name] => some ⟨index, none, name, none⟩
  | packageRef _, [name] => some ⟨index, none, name, none⟩
  | _, _ => none

end Constant

/-- Where a reference leads to what it should, the next ones ask for less. -/
theorem Expected.depth_lt {e : Expected} {c : Constant} {next : Reference}
    (hadmits : e.admits c = true) (hnext : next ∈ c.references) : next.expected.depth < e.depth := by
  have hall : ∀ r ∈ c.references, r.expected.depth < e.depth := by
    cases c <;> cases e <;> simp_all [admits, Constant.references, depth]
  exact hall next hnext

namespace Pool

variable {p : Pool} {r : Reference} {c : Constant}

/-! ## Walking along references -/

/-- The constant that a reference leads to, if that is what it should lead to. -/
def landing? (p : Pool) (r : Reference) : Option Constant :=
  (p.get? r.index).filter r.expected.admits

/-- Whether a reference leads to a usable slot of the kind that it asks for. -/
def Lands (p : Pool) (r : Reference) : Prop :=
  ∃ c, p.get? r.index = some c ∧ r.expected.admits c = true

theorem landing?_eq_some : p.landing? r = some c ↔
    p.get? r.index = some c ∧ r.expected.admits c = true := by
  simp [landing?, Option.filter_eq_some_iff]

theorem lands_iff : p.Lands r ↔ (p.landing? r).isSome = true := by
  simp [Lands, Option.isSome_iff_exists, landing?_eq_some]

instance (p : Pool) (r : Reference) : Decidable (p.Lands r) := decidable_of_iff _ lands_iff.symm

theorem not_lands_iff : ¬ p.Lands r ↔ p.landing? r = none := by
  simp [lands_iff]

/-- One step through the pool, whether or not it was right to come here. -/
def RefersTo (p : Pool) (r next : Reference) : Prop :=
  ∃ c, p.get? r.index = some c ∧ next ∈ c.references

/-- Any number of steps. -/
def Reaches (p : Pool) : Reference → Reference → Prop := Relation.ReflTransGen p.RefersTo

/-- The references that are met from `r` on, depth first and from left to right. -/
def trail (p : Pool) (r : Reference) : List Reference :=
  match _h : p.landing? r with
  | none => [r]
  | some c => r :: c.references.attach.flatMap fun ⟨next, _⟩ => trail p next
termination_by r.expected.depth
decreasing_by exact Expected.depth_lt (landing?_eq_some.mp _h).2 ‹_›

theorem trail_of_none (h : p.landing? r = none) : p.trail r = [r] := by
  rw [trail]
  split
  · rfl
  · next heq => simp [h] at heq

theorem trail_of_some (h : p.landing? r = some c) :
    p.trail r = r :: c.references.flatMap p.trail := by
  rw [trail]
  split
  · next heq => simp [h] at heq
  · next d heq =>
    obtain rfl : d = c := Option.some.inj (heq.symm.trans h)
    simp

theorem mem_trail_self (p : Pool) (r : Reference) : r ∈ p.trail r := by
  cases h : p.landing? r with
  | none => simp [trail_of_none h]
  | some c => simp [trail_of_some h]

/-- Going on from a place on the trail never leaves the trail. -/
theorem trail_subset {x y : Reference} (hx : x ∈ p.trail r) (hy : y ∈ p.trail x) :
    y ∈ p.trail r := by
  induction r using trail.induct p with
  | case1 r hr =>
    obtain rfl : x = r := by simpa [trail_of_none hr] using hx
    exact hy
  | case2 r c hr ih =>
    rw [trail_of_some hr, List.mem_cons, List.mem_flatMap] at hx
    rcases hx with rfl | ⟨next, hnext, hx⟩
    · exact hy
    · rw [trail_of_some hr, List.mem_cons, List.mem_flatMap]
      exact Or.inr ⟨next, hnext, ih next hnext hx⟩

theorem reaches_of_mem_trail {x : Reference} (hx : x ∈ p.trail r) : p.Reaches r x := by
  induction r using trail.induct p with
  | case1 r hr =>
    obtain rfl : x = r := by simpa [trail_of_none hr] using hx
    exact Relation.ReflTransGen.refl
  | case2 r c hr ih =>
    rw [trail_of_some hr, List.mem_cons, List.mem_flatMap] at hx
    rcases hx with rfl | ⟨next, hnext, hx⟩
    · exact Relation.ReflTransGen.refl
    · exact Relation.ReflTransGen.head ⟨c, (landing?_eq_some.mp hr).1, hnext⟩ (ih next hnext hx)

/-- A trail on which nothing leads astray misses nothing. -/
theorem mem_trail_of_reaches (h : ∀ x ∈ p.trail r, p.Lands x) {x : Reference}
    (hx : p.Reaches r x) : x ∈ p.trail r := by
  induction hx with
  | refl => exact mem_trail_self p r
  | @tail x y _ hstep ih =>
    obtain ⟨c, hget, hnext⟩ := hstep
    obtain ⟨d, hget', hadmits⟩ := h x ih
    obtain rfl : d = c := Option.some.inj (hget'.symm.trans hget)
    have hy : y ∈ p.trail x := by
      rw [trail_of_some (landing?_eq_some.mpr ⟨hget, hadmits⟩), List.mem_cons, List.mem_flatMap]
      exact Or.inr ⟨y, hnext, mem_trail_self p y⟩
    exact trail_subset ih hy

/-- **What a walk meets is all there is**, unless it meets something wrong. -/
theorem forall_mem_trail_lands :
    (∀ x ∈ p.trail r, p.Lands x) ↔ ∀ x, p.Reaches r x → p.Lands x := by
  constructor
  · intro h x hx
    exact h x (mem_trail_of_reaches h hx)
  · intro h x hx
    exact h x (reaches_of_mem_trail hx)

/-! ## Collecting texts on the way -/

/-- An index that leads to no constant. -/
def Unusable (p : Pool) (index : UInt16) : Prop :=
  index = 0 ∨ p.size < index.toNat ∨ p.slots[index.toNat - 1]? = some none

theorem get?_eq_none {index : UInt16} : p.get? index = none ↔ p.Unusable index := by
  unfold get? Unusable
  have hzero : index = 0 ↔ index.toNat = 0 := UInt16.toNat_inj.symm
  cases hindex : index.toNat with
  | zero => simp [hzero, hindex]
  | succ place =>
    simp only [hzero, hindex, Nat.succ_ne_zero, false_or, Nat.add_sub_cancel]
    cases hslot : p.slots[place]? with
    | none =>
      rw [Array.getElem?_eq_none_iff] at hslot
      simp [size, Nat.lt_succ_of_le hslot]
    | some slot =>
      have hlt : place < p.slots.size := (Array.getElem?_eq_some_iff.mp hslot).1
      simp [size, Nat.not_lt.mpr (Nat.succ_le_of_lt hlt)]

/-- What is said about a reference that leads astray. -/
inductive Blames (p : Pool) (r : Reference) : Error → Prop where
  | unusable (h : p.Unusable r.index) : Blames p r (.invalidIndex r.index)
  | otherKind {c : Constant} {found : String} (hget : p.get? r.index = some c)
      (hkind : r.expected.admits c = false) (hfound : c.IsKind found) :
      Blames p r (.wrongKind r.index r.expected.label found)

/-- The same, as a function. -/
def fault (p : Pool) (r : Reference) : Error :=
  match p.get? r.index with
  | none => .invalidIndex r.index
  | some c => mismatch r.index r.expected.label c

theorem blames_iff (h : ¬ p.Lands r) {e : Error} : p.Blames r e ↔ e = p.fault r := by
  unfold fault
  cases hget : p.get? r.index with
  | none =>
    constructor
    · rintro (_ | ⟨hget', -⟩)
      · rfl
      · simp [hget] at hget'
    · rintro rfl
      exact .unusable (get?_eq_none.mp hget)
  | some c =>
    constructor
    · rintro (hunusable | ⟨hget', -, hfound⟩)
      · simp [get?_eq_none.mpr hunusable] at hget
      · obtain rfl := Option.some.inj (hget.symm.trans hget')
        rw [Constant.isKind_iff.mp hfound]
        rfl
    · rintro rfl
      refine .otherKind hget ?_ (Constant.isKind_iff.mpr rfl)
      cases hadmits : r.expected.admits c with
      | false => rfl
      | true => exact absurd ⟨c, hget, hadmits⟩ h

/-- The text that a reference leads to directly. -/
def textAt (p : Pool) (r : Reference) : List String :=
  match p.get? r.index with
  | some c => c.ownTexts
  | none => []

/-- The texts along a trail, up to the first reference that leads astray. -/
def follow (p : Pool) : List Reference → Except Error (List String)
  | [] => .ok []
  | r :: rest =>
    if p.Lands r then (p.follow rest).map (p.textAt r ++ ·) else .error (p.fault r)

theorem follow_append (xs ys : List Reference) :
    p.follow (xs ++ ys) = p.follow xs >>= fun texts => (p.follow ys).map (texts ++ ·) := by
  induction xs with
  | nil => cases h : p.follow ys <;> simp [follow, h, bind, Except.bind, Except.map]
  | cons r xs ih =>
    by_cases h : p.Lands r
    · simp only [List.cons_append, follow, if_pos h, ih]
      cases p.follow xs <;> cases p.follow ys <;> simp [bind, Except.bind, Except.map]
    · simp [follow, h, bind, Except.bind]

theorem follow_eq_ok {xs : List Reference} {texts : List String} :
    p.follow xs = .ok texts ↔ (∀ r ∈ xs, p.Lands r) ∧ texts = xs.flatMap p.textAt := by
  induction xs generalizing texts with
  | nil => simp [follow, eq_comm]
  | cons r xs ih =>
    by_cases h : p.Lands r
    · simp only [follow, List.forall_mem_cons, h, if_true, true_and, List.flatMap_cons]
      cases hrest : p.follow xs with
      | error e =>
        have hnone : ¬ ∀ r ∈ xs, p.Lands r := by
          intro hall
          have hok : p.follow xs = .ok (xs.flatMap p.textAt) := ih.mpr ⟨hall, rfl⟩
          rw [hrest] at hok
          cases hok
        simp [Except.map, hnone]
      | ok rest =>
        obtain ⟨hall, rfl⟩ := ih.mp hrest
        simp only [Except.map, Except.ok.injEq, eq_comm (a := texts)]
        exact (and_iff_right hall).symm
    · simp [follow, h]

theorem follow_eq_error {xs : List Reference} {e : Error} :
    p.follow xs = .error e ↔ ∃ r, xs.find? (¬ p.Lands ·) = some r ∧ p.Blames r e := by
  induction xs with
  | nil => simp [follow]
  | cons r xs ih =>
    by_cases h : p.Lands r
    · rw [List.find?_cons_of_neg (by simpa using h), ← ih]
      simp only [follow, if_pos h]
      cases p.follow xs <;> simp [Except.map]
    · rw [List.find?_cons_of_pos (by simpa using h)]
      simp [follow, h, blames_iff, eq_comm]

/-! ## The accessors walk -/

theorem get_of_none {index : UInt16} (h : p.get? index = none) :
    p.get index = .error (.invalidIndex index) := by
  simp [get, h]

theorem get_of_some {index : UInt16} (h : p.get? index = some c) : p.get index = .ok c := by
  simp [get, h]

theorem follow_trail_of_none (h : p.get? r.index = none) :
    p.follow (p.trail r) = .error (.invalidIndex r.index) := by
  have hlands : ¬ p.Lands r := by simp [Lands, h]
  simp [trail_of_none (not_lands_iff.mp hlands), follow, hlands, fault, h]

theorem follow_trail_of_mismatch (h : p.get? r.index = some c) (hkind : r.expected.admits c = false) :
    p.follow (p.trail r) = .error (mismatch r.index r.expected.label c) := by
  have hlands : ¬ p.Lands r := by simp [Lands, h, hkind]
  simp [trail_of_none (not_lands_iff.mp hlands), follow, hlands, fault, h]

theorem follow_trail_of_some (h : p.get? r.index = some c) (hkind : r.expected.admits c = true) :
    p.follow (p.trail r) = (p.follow (c.references.flatMap p.trail)).map (c.ownTexts ++ ·) := by
  have hlands : p.Lands r := ⟨c, h, hkind⟩
  simp [trail_of_some (landing?_eq_some.mpr ⟨h, hkind⟩), follow, hlands, textAt, h]

theorem utf8_of_some {index : UInt16} {text : String} (h : p.get? index = some (.utf8 text)) :
    p.utf8 index = .ok text := by
  rw [utf8, get_of_some h]
  rfl

theorem utf8_eq_ok {index : UInt16} {text : String} :
    p.utf8 index = .ok text ↔ p.get? index = some (.utf8 text) := by
  refine ⟨fun h => ?_, utf8_of_some⟩
  obtain ⟨c, hc, h⟩ := Except.bind_eq_ok.mp h
  cases hget : p.get? index with
  | none =>
    rw [get_of_none hget] at hc
    cases hc
  | some found =>
    rw [get_of_some hget] at hc
    cases hc
    cases c with
    | utf8 text => cases h; rfl
    | _ => cases h

theorem className_of_some {index name : UInt16} (h : p.get? index = some (.classRef name)) :
    p.className index = p.utf8 name := by
  rw [className, get_of_some h]
  rfl

theorem nameAndType_of_some {index name descriptor : UInt16}
    (h : p.get? index = some (.nameAndType name descriptor)) :
    p.nameAndType index = do return (← p.utf8 name, ← p.utf8 descriptor) := by
  rw [nameAndType, get_of_some h]
  rfl

theorem member_of_some {kind : MemberKind} {index owner signature : UInt16}
    (h : p.get? index = some (.member kind owner signature)) :
    p.member index = do
      let owner ← p.className owner
      let (name, descriptor) ← p.nameAndType signature
      return ⟨index, some owner, name, some descriptor⟩ := by
  rw [member, get_of_some h]
  rfl

theorem follow_utf8 (index : UInt16) :
    p.follow (p.trail ⟨index, .utf8⟩) = (p.utf8 index).map ([·]) := by
  cases h : p.get? index with
  | none =>
    rw [follow_trail_of_none h, utf8, get_of_none h]
    rfl
  | some c =>
    cases c with
    | utf8 text =>
      rw [follow_trail_of_some h rfl, utf8_of_some h]
      rfl
    | _ =>
      rw [follow_trail_of_mismatch h rfl, utf8, get_of_some h]
      rfl

theorem follow_className (index : UInt16) :
    p.follow (p.trail ⟨index, .classRef⟩) = (p.className index).map ([·]) := by
  cases h : p.get? index with
  | none =>
    rw [follow_trail_of_none h, className, get_of_none h]
    rfl
  | some c =>
    cases c with
    | classRef name =>
      rw [follow_trail_of_some h rfl, className_of_some h]
      simp only [Constant.references, List.flatMap_singleton, follow_utf8]
      cases p.utf8 name <;> rfl
    | _ =>
      rw [follow_trail_of_mismatch h rfl, className, get_of_some h]
      rfl

theorem follow_nameAndType (index : UInt16) :
    p.follow (p.trail ⟨index, .nameAndType⟩) =
      (p.nameAndType index).map fun (name, descriptor) => [name, descriptor] := by
  cases h : p.get? index with
  | none =>
    rw [follow_trail_of_none h, nameAndType, get_of_none h]
    rfl
  | some c =>
    cases c with
    | nameAndType name descriptor =>
      rw [follow_trail_of_some h rfl, nameAndType_of_some h]
      simp only [Constant.references, List.flatMap_cons, List.flatMap_nil, List.append_nil,
        follow_append, follow_utf8]
      cases p.utf8 name with
      | error e => rfl
      | ok name => cases p.utf8 descriptor <;> rfl
    | _ =>
      rw [follow_trail_of_mismatch h rfl, nameAndType, get_of_some h]
      rfl

/-- A member is an owner, a name and a descriptor, as the walk meets them. -/
theorem exists_member (p : Pool) (index : UInt16) :
    ∃ x : Except Error (String × String × String),
      p.follow (p.trail ⟨index, .member⟩) = x.map (fun (o, n, d) => [o, n, d]) ∧
      p.member index = x.map fun (o, n, d) => ⟨index, some o, n, some d⟩ := by
  cases h : p.get? index with
  | none =>
    refine ⟨.error (.invalidIndex index), follow_trail_of_none h, ?_⟩
    rw [member, get_of_none h]
    rfl
  | some c =>
    cases c with
    | member kind owner signature =>
      refine ⟨p.className owner >>= fun o => (p.nameAndType signature).map fun (n, d) => (o, n, d),
        ?_, ?_⟩
      · rw [follow_trail_of_some h rfl]
        simp only [Constant.references, List.flatMap_cons, List.flatMap_nil, List.append_nil,
          follow_append, follow_className, follow_nameAndType]
        cases p.className owner with
        | error e => rfl
        | ok o => cases p.nameAndType signature <;> rfl
      · rw [member_of_some h]
        cases p.className owner with
        | error e => rfl
        | ok o => cases p.nameAndType signature <;> rfl
    | _ =>
      refine ⟨.error (mismatch index "member reference" _), follow_trail_of_mismatch h rfl, ?_⟩
      rw [member, get_of_some h]
      rfl

/-! ## Resolution walks -/

/-- A resolution that comes out as the texts of a walk say. -/
def Mirrors (walk : Except Error (List String)) (make : List String → Option Symbol)
    (x : Except Error Symbol) : Prop :=
  match walk with
  | .ok texts => ∃ s, make texts = some s ∧ x = .ok s
  | .error e => x = .error e

/-- A text that is all there is to a constant. -/
theorem mirrors_named {index target : UInt16} {make : List String → Option Symbol}
    {f : String → String} (hmake : ∀ text, make [text] = some (.named index (f text))) :
    Mirrors (p.follow (p.trail ⟨target, .utf8⟩)) make
      (p.utf8 target >>= fun text => pure (.named index (f text))) := by
  rw [follow_utf8]
  cases p.utf8 target with
  | error e => rfl
  | ok text => exact ⟨_, hmake text, rfl⟩

theorem mirrors_unowned {index signature : UInt16} {make : List String → Option Symbol}
    (hmake : ∀ name descriptor, make [name, descriptor] = some ⟨index, none, name, some descriptor⟩) :
    Mirrors (p.follow (p.trail ⟨signature, .nameAndType⟩)) make (p.unowned index signature) := by
  rw [follow_nameAndType, unowned]
  cases p.nameAndType signature with
  | error e => rfl
  | ok pair => exact ⟨_, hmake pair.1 pair.2, rfl⟩

/-- **Resolution makes its symbol of the texts along the trail, or fails where the trail does.** -/
theorem mirrors_resolve {index : UInt16} (h : p.get? index = some c) :
    Mirrors (p.follow (p.trail ⟨index, .anything⟩)) (c.symbol index) (p.resolve index) := by
  -- What comes behind the first constant does not depend on how it was asked for.
  have hbelow : ∀ e : Expected, e.admits c = true →
      p.follow (p.trail ⟨index, .anything⟩) = p.follow (p.trail ⟨index, e⟩) := by
    intro e he
    rw [follow_trail_of_some h rfl, follow_trail_of_some h he]
  have honly : ∀ next, c.ownTexts = [] → c.references = [next] →
      p.follow (p.trail ⟨index, .anything⟩) = p.follow (p.trail next) := by
    intro next htexts hnext
    rw [follow_trail_of_some h rfl, htexts, hnext, List.flatMap_singleton]
    cases p.follow (p.trail next) <;> rfl
  rw [resolve, get_of_some h]
  cases c with
  | utf8 | integer | float | long | double =>
    rw [follow_trail_of_some h rfl]
    exact ⟨_, rfl, rfl⟩
  | classRef name =>
    rw [honly _ rfl rfl]
    show Mirrors _ _ (p.className index >>= fun name => pure (.named index name))
    rw [className_of_some h]
    exact mirrors_named (f := id) fun _ => rfl
  | string text =>
    rw [honly _ rfl rfl]
    exact mirrors_named fun text => by rw [Constant.quote_eq]; rfl
  | member kind owner signature =>
    obtain ⟨x, hfollow, hmember⟩ := exists_member p index
    rw [hbelow .member rfl, hfollow]
    show Mirrors _ _ (p.member index)
    rw [hmember]
    cases x with
    | error e => rfl
    | ok texts => exact ⟨_, rfl, rfl⟩
  | nameAndType name descriptor =>
    rw [hbelow .nameAndType rfl]
    exact mirrors_unowned fun _ _ => rfl
  | methodHandle kind reference =>
    obtain ⟨x, hfollow, hmember⟩ := exists_member p reference
    rw [honly _ rfl rfl, hfollow]
    show Mirrors _ _ (p.member reference >>= fun target => pure ⟨index,
      target.owner.map (Constant.handleKindName kind ++ " " ++ ·), target.name, target.descriptor⟩)
    rw [hmember]
    cases x with
    | error e => rfl
    | ok texts =>
      rw [Constant.handleKindName_eq]
      exact ⟨_, rfl, rfl⟩
  | methodType descriptor =>
    rw [honly _ rfl rfl]
    exact mirrors_named (f := id) fun _ => rfl
  | dynamic bootstrap signature =>
    rw [honly _ rfl rfl]
    exact mirrors_unowned fun _ _ => rfl
  | invokeDynamic bootstrap signature =>
    rw [honly _ rfl rfl]
    exact mirrors_unowned fun _ _ => rfl
  | moduleRef name =>
    rw [honly _ rfl rfl]
    exact mirrors_named (f := id) fun _ => rfl
  | packageRef name =>
    rw [honly _ rfl rfl]
    exact mirrors_named (f := id) fun _ => rfl

/-- Resolution and the walk fail together, or both succeed. -/
theorem resolve_cases (p : Pool) (index : UInt16) :
    (∃ e, p.follow (p.trail ⟨index, .anything⟩) = .error e ∧ p.resolve index = .error e) ∨
    ∃ c texts s, p.get? index = some c ∧ p.follow (p.trail ⟨index, .anything⟩) = .ok texts ∧
      c.symbol index texts = some s ∧ p.resolve index = .ok s := by
  cases h : p.get? index with
  | none =>
    refine Or.inl ⟨_, follow_trail_of_none h, ?_⟩
    rw [resolve, get_of_none h]
    rfl
  | some c =>
    have hmirrors := mirrors_resolve h
    cases hwalk : p.follow (p.trail ⟨index, .anything⟩) with
    | error e =>
      rw [hwalk] at hmirrors
      exact Or.inl ⟨e, rfl, hmirrors⟩
    | ok texts =>
      rw [hwalk] at hmirrors
      obtain ⟨s, hmake, hs⟩ := hmirrors
      exact Or.inr ⟨c, texts, s, rfl, rfl, hmake, hs⟩

/-- **Resolution succeeds exactly if every reference that can be reached leads to a constant of the
kind that it asks for**, and then the symbol is made of the texts that are reached. Otherwise it fails
with what is wrong with the first reference, depth first and from left to right, that does not. -/
theorem resolve_walks (p : Pool) (index : UInt16) :
    ((∃ s, p.resolve index = .ok s) ↔ ∀ r, p.Reaches ⟨index, .anything⟩ r → p.Lands r) ∧
    (∀ s, p.resolve index = .ok s → s.index = index ∧ ∃ c, p.get? index = some c ∧
      c.symbol index ((p.trail ⟨index, .anything⟩).flatMap p.textAt) = some s) ∧
    ∀ e, p.resolve index = .error e ↔
      ∃ r, (p.trail ⟨index, .anything⟩).find? (¬ p.Lands ·) = some r ∧ p.Blames r e := by
  rw [← forall_mem_trail_lands]
  simp only [← follow_eq_error]
  rcases resolve_cases p index with ⟨e, hwalk, hresolve⟩ | ⟨c, texts, s, hget, hwalk, hmake, hresolve⟩
  · rw [hwalk, hresolve]
    refine ⟨⟨nofun, ?_⟩, nofun, fun _ => Iff.of_eq (by simp)⟩
    -- Were everything on the trail as it should be, the walk would have come to its end.
    intro hall
    rw [follow_eq_ok.mpr ⟨hall, rfl⟩] at hwalk
    cases hwalk
  · obtain ⟨hall, rfl⟩ := follow_eq_ok.mp hwalk
    rw [hwalk]
    refine ⟨⟨fun _ => hall, fun _ => ⟨s, hresolve⟩⟩, ?_, ?_⟩
    · intro s' hs'
      obtain rfl := Except.ok.inj (hresolve.symm.trans hs')
      exact ⟨index_of_resolve hresolve, c, hget, hmake⟩
    · intro e
      simp [hresolve]

/-- A handle of a method, a string with characters that are not written as they are, a handle that leads
to a name with a type where a method should be, and numbers. -/
def handlePool : Pool := ⟨#[
  some (.utf8 "a/B"), some (.classRef 1), some (.utf8 "run"), some (.utf8 "()V"),
  some (.nameAndType 3 4), some (.member .method 2 5), some (.methodHandle 6 6),
  some (.utf8 "\"\\\u200B\n"), some (.string 8), some (.methodHandle 9 5),
  some (.integer (-7)), some (.float 0x3F000000), some (.long 8), none,
  some (.double 0x3FF8000000000000), none]⟩

theorem resolve_walks_sample :
    (∀ r, handlePool.Reaches ⟨7, .anything⟩ r → handlePool.Lands r) ∧
    handlePool.resolve 7 = .ok ⟨7, some "REF_invokeStatic a/B", "run", some "()V"⟩ ∧
    handlePool.resolve 9 = .ok ⟨9, none, "\"\\\"\\\\\\u\x7b200b\x7d\\n\"", none⟩ ∧
    (handlePool.resolve 11 = .ok ⟨11, none, "-7", none⟩ ∧
      handlePool.resolve 12 = .ok ⟨12, none, "0.5", none⟩ ∧
      handlePool.resolve 13 = .ok ⟨13, none, "8", none⟩ ∧
      handlePool.resolve 15 = .ok ⟨15, none, "1.5", none⟩) ∧
    handlePool.resolve 10 = .error (.wrongKind 5 "member reference" "NameAndType") ∧
    ∃ r, (handlePool.trail ⟨10, .anything⟩).find? (¬ handlePool.Lands ·) = some r ∧
      handlePool.Blames r (.wrongKind 5 "member reference" "NameAndType") := by
  have hhandle : handlePool.resolve 7 = .ok ⟨7, some "REF_invokeStatic a/B", "run", some "()V"⟩ := by
    decide +kernel
  have hwrong : handlePool.resolve 10 =
      .error (.wrongKind 5 "member reference" "NameAndType") := by decide +kernel
  exact ⟨(resolve_walks handlePool 7).1.mp ⟨_, hhandle⟩, hhandle, by decide +kernel,
    by decide +kernel, hwrong,
    ((resolve_walks handlePool 10).2.2 _).mp hwrong⟩

-- A class that is named by itself.
example : Pool.resolve ⟨#[some (.classRef 1)]⟩ 1 = .error (.wrongKind 1 "Utf8" "Class") := rfl

end Pool

end JvmTrace
