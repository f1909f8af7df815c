import JvmTrace.Descriptor.Parser
import Mathlib.Data.List.TakeWhile

/-!
# The descriptor grammar

A descriptor is read exactly from the text that spells it. Each reader has one equation, of the same
shape: it takes `t` from the front of a text and leaves `rest` **exactly when** `t` is well formed and
the text is the spelling of `t` followed by `rest`. So a type can be cut off a text in one way only,
whatever follows it, and that is why a list of arguments needs no separators.

No reader goes back, and none has to: what a type starts with tells it from a closing parenthesis and
from `V` (`descriptorChars_eq_cons`).
-/

set_option autoImplicit false

namespace JvmTrace

/-! ## Well-formed types -/

/-- A class has a name, and the name does not end before its end. -/
def BaseType.WellFormed : BaseType → Prop
  | .object name => name ≠ "" ∧ ';' ∉ name.toList
  | _ => True

/-- An array has no more dimensions than a class file allows. -/
def FieldType.WellFormed (t : FieldType) : Prop :=
  t.dimensions ≤ 255 ∧ t.base.WellFormed

/-- Nothing can be wrong with `void`. -/
def ReturnType.WellFormed : ReturnType → Prop
  | .void => True
  | .value type => type.WellFormed

/-- The types of a method, one by one. -/
def MethodDescriptor.WellFormed (d : MethodDescriptor) : Prop :=
  (∀ t ∈ d.arguments, t.WellFormed) ∧ d.result.WellFormed

/-! ## Base types -/

namespace BaseType

variable {cs rest : List Char} {t : BaseType}

/-- What a base type starts with, nothing else that may stand in its place starts with. -/
theorem descriptor_eq_cons (t : BaseType) :
    ∃ c cs, t.descriptor = c :: cs ∧ c ≠ '[' ∧ c ≠ ')' ∧ c ≠ 'V' := by
  cases t <;> exact ⟨_, _, rfl, by decide, by decide, by decide⟩

theorem readName_eq_some_iff :
    readName cs = some (t, rest) ↔
      ∃ name : String, t = .object name ∧ t.WellFormed ∧ cs = name.toList ++ ';' :: rest := by
  constructor
  · intro h
    simp only [readName] at h
    split at h
    · next first tail last after htake hdrop =>
      simp only [Option.some.injEq, Prod.mk.injEq] at h
      obtain ⟨rfl, rfl⟩ := h
      have hsplit := List.takeWhile_append_dropWhile (p := (· ≠ ';')) (l := cs)
      have hclean : ';' ∉ cs.takeWhile (· ≠ ';') := by
        intro hmem
        exact absurd (List.mem_takeWhile_imp hmem) (by decide)
      -- What ends the name is a semicolon.
      have hlast : last = ';' := by
        have hstop := List.head?_dropWhile_not (· ≠ ';') cs
        rw [hdrop] at hstop
        simpa using hstop
      rw [htake] at hclean hsplit ⊢
      rw [hdrop, hlast] at hsplit
      refine ⟨String.ofList (first :: tail), rfl, ⟨?_, ?_⟩, ?_⟩
      · rw [Ne, ← String.toList_eq_nil_iff, String.toList_ofList]
        exact List.cons_ne_nil _ _
      · rwa [String.toList_ofList]
      · rw [String.toList_ofList, hsplit]
    · cases h
  · intro h
    obtain ⟨name, rfl, ⟨hname, hclean⟩, rfl⟩ := h
    have hbefore : ∀ c ∈ name.toList, decide (c ≠ ';') = true := by
      intro c hc
      exact decide_eq_true fun heq => hclean (heq ▸ hc)
    have htake : (name.toList ++ ';' :: rest).takeWhile (· ≠ ';') = name.toList := by
      rw [List.takeWhile_append_of_pos hbefore]
      simp
    have hdrop : (name.toList ++ ';' :: rest).dropWhile (· ≠ ';') = ';' :: rest := by
      rw [List.dropWhile_append_of_pos hbefore]
      simp
    simp only [readName, htake, hdrop]
    cases hchars : name.toList with
    | nil => exact absurd (String.toList_eq_nil_iff.mp hchars) hname
    | cons first tail => simp [← hchars]

theorem read_eq_some_iff : read cs = some (t, rest) ↔ t.WellFormed ∧ cs = t.descriptor ++ rest := by
  constructor
  · intro h
    unfold read at h
    split at h
    case h_9 tail =>
      obtain ⟨name, rfl, hname, rfl⟩ := readName_eq_some_iff.mp h
      exact ⟨hname, by simp [descriptor]⟩
    case h_10 => cases h
    all_goals
      cases h
      exact ⟨trivial, rfl⟩
  · intro h
    obtain ⟨hformed, rfl⟩ := h
    cases t with
    | object name =>
      refine readName_eq_some_iff.mpr ⟨name, rfl, hformed, ?_⟩
      simp
    | _ => rfl

end BaseType

/-! ## Field types -/

namespace FieldType

variable {cs rest : List Char} {t : FieldType}

theorem descriptorChars_eq_cons (t : FieldType) :
    ∃ c cs, t.descriptorChars = c :: cs ∧ c ≠ ')' ∧ c ≠ 'V' := by
  unfold descriptorChars
  cases t.dimensions with
  | zero =>
    obtain ⟨c, cs, hdescriptor, -, hparen, hvoid⟩ := t.base.descriptor_eq_cons
    exact ⟨c, cs, hdescriptor, hparen, hvoid⟩
  | succ n => exact ⟨'[', _, rfl, by decide, by decide⟩

/-- The brackets in front of a type are its dimensions, because no base type starts with one. -/
theorem takeWhile_dropWhile_descriptorChars (t : FieldType) (rest : List Char) :
    (t.descriptorChars ++ rest).takeWhile (· = '[') = List.replicate t.dimensions '[' ∧
      (t.descriptorChars ++ rest).dropWhile (· = '[') = t.base.descriptor ++ rest := by
  obtain ⟨c, cs, hbase, hbracket, -, -⟩ := t.base.descriptor_eq_cons
  have hall : ∀ c ∈ List.replicate t.dimensions '[', decide (c = '[') = true := by
    intro c hc
    exact decide_eq_true (List.eq_of_mem_replicate hc)
  unfold descriptorChars
  rw [List.append_assoc, List.takeWhile_append_of_pos hall, List.dropWhile_append_of_pos hall, hbase]
  simp [hbracket]

theorem read_eq_some_iff :
    read cs = some (t, rest) ↔ t.WellFormed ∧ cs = t.descriptorChars ++ rest := by
  constructor
  · intro h
    simp only [read] at h
    split at h
    · next hdimensions =>
      simp only [Option.map_eq_some_iff, Prod.mk.injEq] at h
      obtain ⟨⟨base, after⟩, hbase, rfl, rfl⟩ := h
      obtain ⟨hformed, hafter⟩ := BaseType.read_eq_some_iff.mp hbase
      refine ⟨⟨hdimensions, hformed⟩, ?_⟩
      have hbrackets : cs.takeWhile (· = '[') =
          List.replicate (cs.takeWhile (· = '[')).length '[' := by
        refine List.eq_replicate_iff.mpr ⟨rfl, fun c hc => ?_⟩
        simpa using List.mem_takeWhile_imp hc
      calc cs = cs.takeWhile (· = '[') ++ cs.dropWhile (· = '[') :=
            List.takeWhile_append_dropWhile.symm
        _ = List.replicate (cs.takeWhile (· = '[')).length '[' ++ (base.descriptor ++ after) := by
            rw [← hbrackets, hafter]
        _ = _ := (List.append_assoc _ _ _).symm
    · cases h
  · intro h
    obtain ⟨⟨hdimensions, hformed⟩, rfl⟩ := h
    obtain ⟨htake, hdrop⟩ := takeWhile_dropWhile_descriptorChars t rest
    have hbase : BaseType.read (t.base.descriptor ++ rest) = some (t.base, rest) :=
      BaseType.read_eq_some_iff.mpr ⟨hformed, rfl⟩
    simp only [read, maxDimensions, htake, hdrop, List.length_replicate, if_pos hdimensions, hbase,
      Option.map_some]

theorem read_close (rest : List Char) : read (')' :: rest) = none := by
  cases hread : read (')' :: rest) with
  | none => rfl
  | some result =>
    obtain ⟨t, after⟩ := result
    obtain ⟨-, htext⟩ := read_eq_some_iff.mp hread
    obtain ⟨c, cs, hchars, hclose, -⟩ := t.descriptorChars_eq_cons
    rw [hchars] at htext
    cases htext
    exact absurd rfl hclose

/-- Reading as many types as there are splits the text after the last one that can be read. The types
already taken are kept in reverse, so the statement is about any of them. -/
theorem readManyFrom_eq_iff {taken out : List FieldType} :
    readManyFrom taken cs = (out, rest) ↔
      ∃ ts, out = taken.reverse ++ ts ∧ (∀ t ∈ ts, t.WellFormed) ∧
        cs = ts.flatMap descriptorChars ++ rest ∧ read rest = none := by
  fun_induction readManyFrom taken cs with
  | case1 taken cs t after hread ih =>
    obtain ⟨hformed, rfl⟩ := read_eq_some_iff.mp hread
    rw [ih]
    constructor
    · intro h
      obtain ⟨ts, rfl, hts, rfl, hnone⟩ := h
      refine ⟨t :: ts, by simp, List.forall_mem_cons.mpr ⟨hformed, hts⟩, by simp, hnone⟩
    · intro h
      obtain ⟨ts, rfl, hts, hsplit, hnone⟩ := h
      cases ts with
      | nil =>
        -- Then nothing could have been read.
        rw [List.flatMap_nil, List.nil_append] at hsplit
        rw [hsplit, hnone] at hread
        cases hread
      | cons u ts =>
        rw [List.forall_mem_cons] at hts
        rw [List.flatMap_cons, List.append_assoc] at hsplit
        rw [hsplit, read_eq_some_iff.mpr ⟨hts.1, rfl⟩] at hread
        cases hread
        exact ⟨ts, by simp, hts.2, rfl, hnone⟩
  | case2 taken cs hread =>
    simp only [Prod.mk.injEq]
    constructor
    · intro h
      obtain ⟨rfl, rfl⟩ := h
      exact ⟨[], by simp, by simp, rfl, hread⟩
    · intro h
      obtain ⟨ts, rfl, hts, rfl, hnone⟩ := h
      cases ts with
      | nil => simp
      | cons t ts =>
        rw [List.forall_mem_cons] at hts
        rw [List.flatMap_cons, List.append_assoc, read_eq_some_iff.mpr ⟨hts.1, rfl⟩] at hread
        cases hread

theorem readMany_eq_iff {ts : List FieldType} :
    readMany cs = (ts, rest) ↔
      (∀ t ∈ ts, t.WellFormed) ∧ cs = ts.flatMap descriptorChars ++ rest ∧ read rest = none := by
  rw [readMany, readManyFrom_eq_iff]
  simp

end FieldType

/-! ## Methods -/

theorem ReturnType.read_eq_some_iff {cs rest : List Char} {t : ReturnType} :
    ReturnType.read cs = some (t, rest) ↔ t.WellFormed ∧ cs = t.descriptorChars ++ rest := by
  constructor
  · intro h
    unfold ReturnType.read at h
    split at h
    · cases h
      exact ⟨trivial, rfl⟩
    · simp only [Option.map_eq_some_iff, Prod.mk.injEq] at h
      obtain ⟨⟨type, after⟩, htype, rfl, rfl⟩ := h
      exact FieldType.read_eq_some_iff.mp htype
  · intro h
    obtain ⟨hformed, rfl⟩ := h
    cases t with
    | void => rfl
    | value type =>
      have htype : FieldType.read (type.descriptorChars ++ rest) = some (type, rest) :=
        FieldType.read_eq_some_iff.mpr ⟨hformed, rfl⟩
      obtain ⟨c, cs, hchars, -, hvoid⟩ := type.descriptorChars_eq_cons
      unfold ReturnType.read
      split
      · next after htext =>
        rw [ReturnType.descriptorChars, hchars] at htext
        cases htext
        exact absurd rfl hvoid
      · rw [ReturnType.descriptorChars, htype]
        rfl

theorem MethodDescriptor.read_eq_some_iff {cs rest : List Char} {d : MethodDescriptor} :
    MethodDescriptor.read cs = some (d, rest) ↔ d.WellFormed ∧ cs = d.descriptorChars ++ rest := by
  constructor
  · intro h
    unfold MethodDescriptor.read at h
    split at h
    · split at h
      · next arguments after hmany =>
        simp only [Option.map_eq_some_iff, Prod.mk.injEq] at h
        obtain ⟨⟨result, last⟩, hresult, rfl, rfl⟩ := h
        obtain ⟨harguments, rfl, -⟩ := FieldType.readMany_eq_iff.mp hmany
        obtain ⟨hformed, rfl⟩ := ReturnType.read_eq_some_iff.mp hresult
        exact ⟨⟨harguments, hformed⟩, by simp [descriptorChars]⟩
      · cases h
    · cases h
  · intro h
    obtain ⟨⟨harguments, hformed⟩, rfl⟩ := h
    have hresult : ReturnType.read (d.result.descriptorChars ++ rest) = some (d.result, rest) :=
      ReturnType.read_eq_some_iff.mpr ⟨hformed, rfl⟩
    have hmany := FieldType.readMany_eq_iff.mpr ⟨harguments, rfl,
      FieldType.read_close (d.result.descriptorChars ++ rest)⟩
    simp only [descriptorChars, List.cons_append, List.append_assoc, MethodDescriptor.read, hmany,
      hresult, Option.map_some]

/-! ## Whole texts -/

/-- A parser that accepts exactly the spellings of well-formed values, each as that value, and
complains about every other text as a whole. -/
structure ParsesExactly {α : Type} (parse : String → Except Error α) (WellFormed : α → Prop)
    (spell : α → String) : Prop where
  accepts : ∀ text a, parse text = .ok a ↔ WellFormed a ∧ text = spell a
  refuses : ∀ text, (¬ ∃ a, WellFormed a ∧ text = spell a) →
    parse text = .error (.malformedDescriptor text)

/-- Reading from the front and looking that nothing is left parses whole texts. -/
theorem parsesExactly_of_read {α : Type} {parse : String → Except Error α} {WellFormed : α → Prop}
    {read : List Char → Option (α × List Char)} {spell : α → List Char}
    (hread : ∀ cs a rest, read cs = some (a, rest) ↔ WellFormed a ∧ cs = spell a ++ rest)
    (hparse : ∀ text, (∃ a, read text.toList = some (a, []) ∧ parse text = .ok a) ∨
      (∀ a, read text.toList ≠ some (a, [])) ∧ parse text = .error (.malformedDescriptor text)) :
    ParsesExactly parse WellFormed fun a => String.ofList (spell a) := by
  have hwhole : ∀ text a,
      WellFormed a ∧ text = String.ofList (spell a) ↔ read text.toList = some (a, []) := by
    intro text a
    rw [hread, List.append_nil, ← String.toList_inj, String.toList_ofList]
  constructor
  · intro text a
    rw [hwhole]
    rcases hparse text with ⟨b, hb, hok⟩ | ⟨hnone, herror⟩
    · simp [hb, hok]
    · simp [hnone, herror]
  · intro text hnone
    simp only [hwhole, not_exists] at hnone
    rcases hparse text with ⟨b, hb, -⟩ | ⟨-, herror⟩
    · exact absurd hb (hnone b)
    · exact herror

theorem FieldType.parse_cases (text : String) :
    (∃ t, FieldType.read text.toList = some (t, []) ∧ FieldType.parse text = .ok t) ∨
      (∀ t, FieldType.read text.toList ≠ some (t, [])) ∧
        FieldType.parse text = .error (.malformedDescriptor text) := by
  unfold FieldType.parse
  split
  · next t ht => exact Or.inl ⟨t, ht, rfl⟩
  · next hnone => exact Or.inr ⟨hnone, rfl⟩

theorem MethodDescriptor.parse_cases (text : String) :
    (∃ d, MethodDescriptor.read text.toList = some (d, []) ∧ MethodDescriptor.parse text = .ok d) ∨
      (∀ d, MethodDescriptor.read text.toList ≠ some (d, [])) ∧
        MethodDescriptor.parse text = .error (.malformedDescriptor text) := by
  unfold MethodDescriptor.parse
  split
  · next d hd => exact Or.inl ⟨d, hd, rfl⟩
  · next hnone => exact Or.inr ⟨hnone, rfl⟩

/-- **Descriptors are parsed exactly from what spells them**, for fields and for methods. -/
theorem descriptors_parse_exactly :
    ParsesExactly FieldType.parse FieldType.WellFormed FieldType.descriptor ∧
      ParsesExactly MethodDescriptor.parse MethodDescriptor.WellFormed
        MethodDescriptor.descriptor :=
  ⟨parsesExactly_of_read (fun _ _ _ => FieldType.read_eq_some_iff) FieldType.parse_cases,
    parsesExactly_of_read (fun _ _ _ => MethodDescriptor.read_eq_some_iff)
      MethodDescriptor.parse_cases⟩

-- A class name may hold any character but the one that ends it, even those that mean something
-- elsewhere.
example : MethodDescriptor.parse "(L)V[;[[I)V" = .ok ⟨[⟨.object ")V[", 0⟩, ⟨.int, 2⟩], .void⟩ := by
  cbv

end JvmTrace
