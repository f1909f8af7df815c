import JvmTrace.Proofs.Builder.Outline

/-!
# Every index denotes what was asked for

`Constants.lean` says what an index leads to once all references are followed. This file says which
constant stands at it, part by part, and that a constant stands at one index only, however often and
through whatever other constants it is asked for.

Both come from one fact about the table of a builder. It only grows at its end, so the first entry
that is taken for a constant stays the first one (`Table.Lists.of_isPrefix`): the answer to a request
is a function of the constant and of the *final* table. `Lasts` packs that up for a step, and composes.
The pool has what the table lists (`Table.Lists.get`), so what is said about the table is said about
the pool.

Floats are left out. They can be taken for the same without being equal, and are dealt with in
`Doubles.lean`.
-/

set_option autoImplicit false

namespace JvmTrace

namespace BuilderConstant

variable {there bc : BuilderConstant}

def IsFloat (bc : BuilderConstant) : Prop := ∃ bits, bc = .constant (.double bits)

theorem same_self (h : ¬ bc.IsFloat) : bc.same bc = true := by
  cases bc with
  | raw bytes => simp [same]
  | constant c =>
    cases c with
    | double bits => exact absurd ⟨bits, rfl⟩ h
    | _ => simp [same, Constant.same]

theorem eq_of_same (h : there.same bc = true) (hfloat : ¬ bc.IsFloat) : there = bc := by
  cases there <;> cases bc
  · next d c =>
    rw [Constant.eq_of_same h fun bits hc => hfloat ⟨bits, by rw [hc]⟩]
  · cases h
  · cases h
  · next a b => rw [eq_of_beq (show (a == b) = true from h)]

end BuilderConstant

namespace Builder

/-! ## The table -/

/-- The constants of a builder with their indices, in index order. -/
abbrev Table := List (UInt16 × BuilderConstant)

def table (b : Builder) : Table := b.constants.toList

/-- The entry that a request for `bc` is answered with, if there is one. -/
def Table.entry? (t : Table) (bc : BuilderConstant) : Option (UInt16 × BuilderConstant) :=
  t.find? fun entry => entry.2.same bc

/-- Whether a request for `bc` is answered with `index`, because `bc` itself is listed there. -/
def Table.Lists (t : Table) (index : UInt16) (bc : BuilderConstant) : Prop :=
  t.entry? bc = some (index, bc)

section Table

variable {t later : Table} {i j : UInt16} {bc : BuilderConstant}

theorem Table.Lists.of_isPrefix (h : t.Lists i bc) (hlater : t <+: later) : later.Lists i bc :=
  hlater.find?_eq_some h

theorem Table.Lists.index_unique (h : t.Lists i bc) (h' : t.Lists j bc) : i = j := by
  rw [Lists, h] at h'
  cases h'
  rfl

theorem Table.get_of_mem {pool : Pool} {c : Constant} (hpool : pool.Has t)
    (h : (i, .constant c) ∈ t) : pool.get i = .ok c := by
  obtain ⟨k, ⟨-, rfl⟩, hget⟩ := hpool _ h
  exact hget

theorem Table.Lists.get {pool : Pool} {c : Constant} (h : t.Lists i (.constant c))
    (hpool : pool.Has t) : pool.get i = .ok c :=
  get_of_mem hpool (List.mem_of_find?_eq_some h)

end Table

theorem table_push (b : Builder) (bc : BuilderConstant) :
    (b.push bc).table = b.table ++ [(b.next, bc)] := Array.toList_push

/-- A request is answered from the table, or adds to it. -/
theorem run_share_cases (b : Builder) (bc : BuilderConstant) :
    (∃ entry, b.table.entry? bc = some entry ∧ (share bc).run b = (entry.1, b)) ∨
      b.table.entry? bc = none ∧ (share bc).run b = (b.next, b.push bc) := by
  rw [run_share, Table.entry?, table, Array.find?_toList]
  cases b.constants.find? fun entry => entry.2.same bc with
  | some entry => exact Or.inl ⟨entry, rfl, rfl⟩
  | none => exact Or.inr ⟨rfl, rfl⟩

/-! ## Answers that last -/

/-- A step that adds constants to the table, no floats among them, with an answer of which `Answer`
holds in that table and in all that it can grow into. -/
def Lasts {α : Type} (step : BuilderM α) (Answer : α → Table → Prop) : Prop :=
  ∀ b : Builder,
    (∃ added : Table, (step.run b).2.table = b.table ++ added ∧ ∀ entry ∈ added, ¬ entry.2.IsFloat) ∧
    ∀ later, (step.run b).2.table <+: later → Answer (step.run b).1 later

section Lasts

variable {α β : Type} {step : BuilderM α} {P Q : α → Table → Prop}

theorem Lasts.grows (h : Lasts step P) (b : Builder) : b.table <+: (step.run b).2.table := by
  obtain ⟨added, hadded, -⟩ := (h b).1
  rw [hadded]
  exact List.prefix_append _ _

theorem Lasts.imp (h : Lasts step P) (himp : ∀ a t, P a t → Q a t) : Lasts step Q :=
  fun b => ⟨(h b).1, fun later hlater => himp _ _ ((h b).2 later hlater)⟩

theorem lasts_of_table (h : ∀ b, (step.run b).2.table = b.table) :
    Lasts step fun _ _ => True :=
  fun b => ⟨⟨[], by rw [h, List.append_nil], List.forall_mem_nil _⟩, fun _ _ => trivial⟩

theorem lasts_pure (a : α) : Lasts (pure a) fun answer _ => answer = a :=
  fun _ => ⟨⟨[], (List.append_nil _).symm, List.forall_mem_nil _⟩, fun _ _ => rfl⟩

theorem Lasts.bind {f : α → BuilderM β} {R : α → β → Table → Prop} (h : Lasts step P)
    (hf : ∀ a, Lasts (f a) (R a)) :
    Lasts (step >>= f) fun answer t => ∃ a, P a t ∧ R a answer t := by
  intro b
  obtain ⟨⟨added, hadded, hfloats⟩, hfirst⟩ := h b
  have hsecond := hf (step.run b).1 (step.run b).2
  obtain ⟨⟨added', hadded', hfloats'⟩, hanswer⟩ := hsecond
  refine ⟨⟨added ++ added', ?_, List.forall_mem_append.mpr ⟨hfloats, hfloats'⟩⟩, ?_⟩
  · rw [← List.append_assoc, ← hadded]
    exact hadded'
  · intro later hlater
    exact ⟨_, hfirst later (((hf _).grows _).trans hlater), hanswer later hlater⟩

end Lasts

theorem lasts_share {bc : BuilderConstant} (hfloat : ¬ bc.IsFloat) :
    Lasts (share bc) fun index t => t.Lists index bc := by
  intro b
  rcases run_share_cases b bc with ⟨⟨index, there⟩, hfind, hrun⟩ | ⟨hnone, hrun⟩
  · have hsame : there.same bc = true := by simpa using List.find?_some hfind
    rw [BuilderConstant.eq_of_same hsame hfloat] at hfind
    rw [hrun]
    refine ⟨⟨[], (List.append_nil _).symm, List.forall_mem_nil _⟩, fun later hlater => ?_⟩
    exact Table.Lists.of_isPrefix hfind hlater
  · have hnew : (b.push bc).table.Lists b.next bc := by
      rw [Table.Lists, Table.entry?, table_push, List.find?_append, ← Table.entry?, hnone]
      simp [BuilderConstant.same_self hfloat]
    rw [hrun]
    refine ⟨⟨_, table_push b bc, List.forall_mem_singleton.mpr hfloat⟩, fun later hlater => ?_⟩
    exact hnew.of_isPrefix hlater

theorem lasts_constant {c : Constant} (hfloat : ∀ bits, c ≠ .double bits) :
    Lasts (constant c) fun index t => t.Lists index (.constant c) :=
  lasts_share fun ⟨bits, hbits⟩ => hfloat bits (BuilderConstant.constant.inj hbits)

theorem lasts_utf8 (text : String) :
    Lasts (utf8 text) fun index t => t.Lists index (.constant (.utf8 text)) :=
  lasts_constant (by simp)

/-! ## What a step asks for -/

/-- `Asks At s c`: the step `s` asks for the constant `c`, where `At` says which constant stands at an
index. A part that the step gives as a text has to stand where `c` refers to; a part that it gives as
an index has to be that index. -/
inductive Step.Asks (At : UInt16 → Constant → Prop) : Step → Constant → Prop where
  | utf8 {text : String} : Asks At (.utf8 text) (.utf8 text)
  | integer {value : Int32} : Asks At (.integer value) (.integer value)
  | long {value : Int64} : Asks At (.long value) (.long value)
  | classRef {name : String} {i : UInt16} (hname : At i (.utf8 name)) :
      Asks At (.classRef name) (.classRef i)
  | string {text : String} {i : UInt16} (htext : At i (.utf8 text)) :
      Asks At (.string text) (.string i)
  | nameAndType {name descriptor : String} {i j : UInt16} (hname : At i (.utf8 name))
      (hdescriptor : At j (.utf8 descriptor)) :
      Asks At (.nameAndType name descriptor) (.nameAndType i j)
  | memberRef {kind : MemberKind} {owner name descriptor : String} {i j k l m : UInt16}
      (hclass : At i (.classRef k)) (howner : At k (.utf8 owner))
      (hsignature : At j (.nameAndType l m)) (hname : At l (.utf8 name))
      (hdescriptor : At m (.utf8 descriptor)) :
      Asks At (.memberRef kind owner name descriptor) (.member kind i j)
  | methodAt {i j : UInt16} : Asks At (.methodAt i j) (.member .method i j)

/-- The steps that ask for a constant by its kind and payload, if it is no float. -/
def Step.IsExact : Step → Prop
  | .utf8 _ | .integer _ | .long _ | .classRef _ | .string _ | .nameAndType _ _
  | .memberRef _ _ _ _ | .methodAt _ _ => True
  | _ => False

/-- The steps that give the parts of a constant by their indices. -/
def Step.IsIndexed : Step → Prop
  | .methodAt _ _ => True
  | _ => False

section Asks

variable {At At' : UInt16 → Constant → Prop} {s t : Step} {c d : Constant}

theorem Step.Asks.mono (h : s.Asks At c) (hle : ∀ i k, At i k → At' i k) : s.Asks At' c := by
  cases h with
  | utf8 => exact .utf8
  | integer => exact .integer
  | long => exact .long
  | classRef hname => exact .classRef (hle _ _ hname)
  | string htext => exact .string (hle _ _ htext)
  | nameAndType hname hdescriptor => exact .nameAndType (hle _ _ hname) (hle _ _ hdescriptor)
  | memberRef hclass howner hsignature hname hdescriptor =>
    exact .memberRef (hle _ _ hclass) (hle _ _ howner) (hle _ _ hsignature) (hle _ _ hname)
      (hle _ _ hdescriptor)
  | methodAt => exact .methodAt

/-- Where a constant stands at one index only, a step asks for one constant only. -/
theorem Step.Asks.constant_unique (hAt : ∀ i j k, At i k → At j k → i = j) (hc : s.Asks At c)
    (hd : s.Asks At d) : c = d := by
  cases hc with
  | utf8 | integer | long | methodAt =>
    cases hd
    rfl
  | classRef hname =>
    cases hd with
    | classRef hname' => rw [hAt _ _ _ hname hname']
  | string htext =>
    cases hd with
    | string htext' => rw [hAt _ _ _ htext htext']
  | nameAndType hname hdescriptor =>
    cases hd with
    | nameAndType hname' hdescriptor' =>
      rw [hAt _ _ _ hname hname', hAt _ _ _ hdescriptor hdescriptor']
  | memberRef hclass howner hsignature hname hdescriptor =>
    cases hd with
    | memberRef hclass' howner' hsignature' hname' hdescriptor' =>
      -- The texts first: only then is it the same class, and the same signature.
      obtain rfl := hAt _ _ _ howner howner'
      obtain rfl := hAt _ _ _ hname hname'
      obtain rfl := hAt _ _ _ hdescriptor hdescriptor'
      rw [hAt _ _ _ hclass hclass', hAt _ _ _ hsignature hsignature']

/-- Where one constant stands at an index, a constant is asked for by one step only, but for the
choice between giving its parts as texts and as indices. -/
theorem Step.Asks.step_unique (hAt : ∀ i k l, At i k → At i l → k = l) (hs : s.Asks At c)
    (ht : t.Asks At c) (hindexed : s.IsIndexed ↔ t.IsIndexed) : s = t := by
  cases hs with
  | utf8 | integer | long =>
    cases ht
    rfl
  | classRef hname =>
    cases ht with
    | classRef hname' =>
      cases hAt _ _ _ hname hname'
      rfl
  | string htext =>
    cases ht with
    | string htext' =>
      cases hAt _ _ _ htext htext'
      rfl
  | nameAndType hname hdescriptor =>
    cases ht with
    | nameAndType hname' hdescriptor' =>
      cases hAt _ _ _ hname hname'
      cases hAt _ _ _ hdescriptor hdescriptor'
      rfl
  | memberRef hclass howner hsignature hname hdescriptor =>
    cases ht with
    | memberRef hclass' howner' hsignature' hname' hdescriptor' =>
      cases hAt _ _ _ hclass hclass'
      cases hAt _ _ _ hsignature hsignature'
      cases hAt _ _ _ howner howner'
      cases hAt _ _ _ hname hname'
      cases hAt _ _ _ hdescriptor hdescriptor'
      rfl
    | methodAt => exact (hindexed.mpr trivial).elim
  | methodAt =>
    cases ht with
    | memberRef => exact (hindexed.mp trivial).elim
    | methodAt => rfl

end Asks

/-! ## Every step -/

/-- Which constant a table lists at an index. -/
def Table.At (t : Table) (index : UInt16) (c : Constant) : Prop := t.Lists index (.constant c)

theorem lasts_classRef (name : String) :
    Lasts (classRef name) fun index t => ∃ i, t.At i (.utf8 name) ∧ t.At index (.classRef i) :=
  (lasts_utf8 name).bind fun i => lasts_constant (c := .classRef i) (by simp)

theorem lasts_nameAndType (name descriptor : String) :
    Lasts (nameAndType name descriptor) fun index t => ∃ i, t.At i (.utf8 name) ∧
      ∃ j, t.At j (.utf8 descriptor) ∧ t.At index (.nameAndType i j) :=
  (lasts_utf8 name).bind fun i => (lasts_utf8 descriptor).bind fun j =>
    lasts_constant (c := .nameAndType i j) (by simp)

theorem lasts_indexed {ask : BuilderM UInt16} {P : UInt16 → Table → Prop} (h : Lasts ask P) :
    Lasts (indexed ask) fun answer t => ∃ index, answer = some index ∧ P index t := by
  refine (h.bind fun index => lasts_pure (some index)).imp ?_
  rintro answer t ⟨index, hindex, rfl⟩
  exact ⟨index, rfl, hindex⟩

/-- Nothing is said about an answer that is no index, so anything holds of it. -/
theorem lasts_quiet {step : BuilderM Unit} {P : Unit → Table → Prop} (h : Lasts step P)
    {Answer : Option UInt16 → Table → Prop} :
    Lasts (quiet step) fun answer t => False → Answer answer t :=
  (h.bind fun _ => lasts_pure none).imp fun _ _ _ => False.elim

theorem Lasts.then_modifyTables {α : Type} {ask : BuilderM α} {P : α → Table → Prop}
    (h : Lasts ask P) (change : α → ClassTables → ClassTables) :
    Lasts (ask >>= fun a => modifyTables (change a)) fun _ _ => True :=
  (h.bind fun _ => lasts_of_table fun _ => rfl).imp fun _ _ _ => trivial

theorem lasts_field (name descriptor : String) :
    Lasts (field name descriptor) fun _ _ => True := by
  rw [field_eq]
  exact ((lasts_utf8 name).bind fun _ => (lasts_utf8 descriptor).bind fun _ =>
    (lasts_utf8 "Deprecated").bind fun _ => lasts_pure _).then_modifyTables _

theorem lasts_codeAttributes (code : Option Bytes) :
    Lasts (codeAttributes code) fun _ _ => True := by
  cases code with
  | none => exact (lasts_pure []).imp fun _ _ _ => trivial
  | some bytes =>
    exact ((lasts_utf8 codeAttribute).bind fun _ => lasts_pure _).imp fun _ _ _ => trivial

theorem lasts_method (name descriptor : String) (code : Option Bytes) :
    Lasts (method name descriptor code) fun _ _ => True := by
  rw [method_eq]
  exact ((lasts_utf8 name).bind fun _ => (lasts_utf8 descriptor).bind fun _ =>
    (lasts_codeAttributes code).bind fun _ => lasts_pure _).then_modifyTables _

/-- A step that asks for a constant is answered with its index. -/
def Step.Answered (step : Step) (answer : Option UInt16) (t : Table) : Prop :=
  step.IsExact → ∃ index c, answer = some index ∧ t.At index c ∧ step.Asks t.At c

/-- **What a step is answered with lasts**, if it does not ask for a float. -/
theorem Step.lasts_perform (step : Step) (hfloat : ∀ bits, step ≠ .double bits) :
    Lasts step.perform step.Answered := by
  cases step with
  | utf8 text =>
    refine (lasts_indexed (lasts_utf8 text)).imp ?_
    rintro _ t ⟨index, rfl, hindex⟩ -
    exact ⟨index, _, rfl, hindex, .utf8⟩
  | integer value =>
    refine (lasts_indexed (lasts_constant (c := .integer value) (by simp))).imp ?_
    rintro _ t ⟨index, rfl, hindex⟩ -
    exact ⟨index, _, rfl, hindex, .integer⟩
  | long value =>
    refine (lasts_indexed (lasts_constant (c := .long value) (by simp))).imp ?_
    rintro _ t ⟨index, rfl, hindex⟩ -
    exact ⟨index, _, rfl, hindex, .long⟩
  | double bits => exact absurd rfl (hfloat bits)
  | classRef name =>
    refine (lasts_indexed (lasts_classRef name)).imp ?_
    rintro _ t ⟨index, rfl, i, hname, hindex⟩ -
    exact ⟨index, _, rfl, hindex, .classRef hname⟩
  | string text =>
    refine (lasts_indexed ((lasts_utf8 text).bind fun i =>
      lasts_constant (c := .string i) (by simp))).imp ?_
    rintro _ t ⟨index, rfl, i, htext, hindex⟩ -
    exact ⟨index, _, rfl, hindex, .string htext⟩
  | nameAndType name descriptor =>
    refine (lasts_indexed (lasts_nameAndType name descriptor)).imp ?_
    rintro _ t ⟨index, rfl, i, hname, j, hdescriptor, hindex⟩ -
    exact ⟨index, _, rfl, hindex, .nameAndType hname hdescriptor⟩
  | memberRef kind owner name descriptor =>
    refine (lasts_indexed ((lasts_classRef owner).bind fun i =>
      (lasts_nameAndType name descriptor).bind fun j =>
      lasts_constant (c := .member kind i j) (by simp))).imp ?_
    rintro _ t ⟨index, rfl, i, ⟨k, howner, hclass⟩, j, ⟨l, hname, m, hdescriptor, hsignature⟩,
      hindex⟩ -
    exact ⟨index, _, rfl, hindex, .memberRef hclass howner hsignature hname hdescriptor⟩
  | methodAt owner signature =>
    refine (lasts_indexed (lasts_constant (c := .member .method owner signature) (by simp))).imp ?_
    rintro _ t ⟨index, rfl, hindex⟩ -
    exact ⟨index, _, rfl, hindex, .methodAt⟩
  | raw bytes =>
    have hraw : ¬ (BuilderConstant.raw bytes).IsFloat := by simp [BuilderConstant.IsFloat]
    exact (lasts_indexed (lasts_share hraw)).imp fun _ _ _ => False.elim
  | version major minor => exact lasts_quiet (lasts_of_table fun _ => rfl)
  | superClass name => exact lasts_quiet ((lasts_classRef name).then_modifyTables _)
  | noSuperClass => exact lasts_quiet (lasts_of_table fun _ => rfl)
  | interface name => exact lasts_quiet ((lasts_classRef name).then_modifyTables _)
  | field name descriptor => exact lasts_quiet (lasts_field name descriptor)
  | method name descriptor code => exact lasts_quiet (lasts_method name descriptor code)
  | addAttribute name body => exact lasts_quiet ((lasts_utf8 name).then_modifyTables _)

/-! ## Whole scripts -/

theorem share_grows (b : Builder) (bc : BuilderConstant) : b.table <+: ((share bc).run b).2.table := by
  rcases run_share_cases b bc with ⟨entry, -, hrun⟩ | ⟨-, hrun⟩
  · have hsame : b.table = ((share bc).run b).2.table := by rw [hrun]
    exact hsame ▸ List.prefix_refl _
  · rw [hrun, table_push]
    exact List.prefix_append _ _

theorem perform_grows (step : Step) (b : Builder) : b.table <+: (step.perform.run b).2.table := by
  cases step with
  | double bits => exact share_grows b _
  | _ => exact (Step.lasts_perform _ (by simp)).grows b

theorem runScript_grows (script : List Step) (b : Builder) :
    b.table <+: (b.runScript script).2.table := by
  induction script generalizing b with
  | nil => exact List.prefix_refl _
  | cons step rest ih => exact (perform_grows step b).trans (ih _)

/-- The index that the `n`-th step of a script is answered with. -/
def indexAt (this : String) (script : List Step) (n : Nat) : Option UInt16 :=
  (((new this).runScript script).1[n]?).bind StepAnswer.index

/-- The `n`-th step finds the builder that the steps before it have left, and leaves a builder whose
table the final one has grown from. -/
theorem runScript_at {script : List Step} {n : Nat} {step : Step} (h : script[n]? = some step)
    (b : Builder) :
    ((b.runScript script).1[n]?).bind StepAnswer.index =
        (step.perform.run (b.runScript (script.take n)).2).1 ∧
      (step.perform.run (b.runScript (script.take n)).2).2.table <+: (b.runScript script).2.table := by
  induction script generalizing b n with
  | nil => cases h
  | cons first rest ih =>
    cases n with
    | zero =>
      cases h
      exact ⟨rfl, runScript_grows rest _⟩
    | succ n => exact ih h _

theorem exists_answer (this : String) {script : List Step} {n : Nat} {step : Step}
    (h : script[n]? = some step) (hexact : step.IsExact) :
    ∃ index c, indexAt this script n = some index ∧
      ((new this).runScript script).2.table.At index c ∧
      step.Asks ((new this).runScript script).2.table.At c := by
  obtain ⟨hindex, hgrown⟩ := runScript_at h (new this)
  have hfloat : ∀ bits, step ≠ .double bits := by
    rintro bits rfl
    exact hexact
  obtain ⟨index, c, hanswer, hc⟩ := (step.lasts_perform hfloat _).2 _ hgrown hexact
  exact ⟨index, c, hindex.trans hanswer, hc⟩

theorem Within.exists_pool {this : String} {script : List Step} (h : Within this script) :
    ∃ f, ClassFile.parse ((new this).runScript script).2.build = .ok f ∧
      f.pool.Has ((new this).runScript script).2.table := by
  have hreflects := (reflects_new h.name).runScript h.steps
  obtain ⟨pool, hpool, hparse⟩ := hreflects.sound.exists_pool h.constants
  exact ⟨_, hparse ((hreflects.describes pool hpool).fits h), hpool⟩

/-- What the indices that a script is answered with say about a pool. -/
structure AnswersDenote (this : String) (script : List Step) (pool : Pool) : Prop where
  /-- At the index is the constant that was asked for, and behind a long there is nothing. -/
  denotes : ∀ n s, script[n]? = some s → s.IsExact → ∃ i c, indexAt this script n = some i ∧
    pool.get i = .ok c ∧ s.Asks (fun index k => pool.get index = .ok k) c ∧
    ∀ value, s = .long value → pool.get (i + 1) = .error (.invalidIndex (i + 1))
  /-- The same index means the same constant. That is the same step, unless one gives as indices what
  the other gives as texts. -/
  distinct : ∀ m n s t i j, script[m]? = some s → script[n]? = some t → s.IsExact → t.IsExact →
    indexAt this script m = some i → indexAt this script n = some j →
    (i = j ↔ pool.get i = pool.get j) ∧ ((s.IsIndexed ↔ t.IsIndexed) → (i = j ↔ s = t))

/-- **Every index denotes what was asked for**, in the pool that is parsed from the final image,
whatever was asked for before and after. -/
theorem answers_denote {this : String} {script : List Step} (h : Within this script) :
    ∃ f, ClassFile.parse ((new this).runScript script).2.build = .ok f ∧
      AnswersDenote this script f.pool := by
  obtain ⟨f, hparse, hpool⟩ := h.exists_pool
  refine ⟨f, hparse, ?_, ?_⟩
  · intro n s hs hexact
    obtain ⟨i, c, hi, hlisted, hasks⟩ := exists_answer this hs hexact
    have hget := hlisted.get hpool
    refine ⟨i, c, hi, hget, hasks.mono fun _ _ hat => hat.get hpool, ?_⟩
    rintro value rfl
    cases hasks
    exact ClassFile.get_succ_of_wide hparse hget rfl
  · intro m n s t i j hs ht hexact hexact' hi hj
    obtain ⟨i', c, hi', hlisted, hasks⟩ := exists_answer this hs hexact
    obtain ⟨j', d, hj', hlisted', hasks'⟩ := exists_answer this ht hexact'
    cases hi.symm.trans hi'
    cases hj.symm.trans hj'
    have hget := hlisted.get hpool
    have hget' := hlisted'.get hpool
    have hsame : c = d → i = j := by
      rintro rfl
      exact hlisted.index_unique hlisted'
    constructor
    · refine ⟨fun hij => by rw [hij], fun heq => hsame ?_⟩
      rw [hget, hget'] at heq
      exact Except.ok.inj heq
    · intro hindexed
      constructor
      · rintro rfl
        rw [hget] at hget'
        cases hget'
        -- One constant stands at an index of the pool, so it was asked for in one way.
        have hone : ∀ index k l, f.pool.get index = .ok k → f.pool.get index = .ok l → k = l := by
          intro index k l hk hl
          exact Except.ok.inj (hk.symm.trans hl)
        exact Step.Asks.step_unique hone (hasks.mono fun _ _ hat => hat.get hpool)
          (hasks'.mono fun _ _ hat => hat.get hpool) hindexed
      · rintro rfl
        refine hsame (hasks.constant_unique ?_ hasks')
        intro index index' k hk hk'
        exact hk.index_unique hk'

/-- A second text that says what the name of the class says, constants that are asked for again, and a
method that is asked for by its texts and by their indices. -/
def repeatingScript : List Step := [
  .raw [0x01, 0x00, 0x01, 0x41], .long (-1), .memberRef .method "A" "run" "()V",
  .double 0x8000000000000000, .methodAt 2 10, .classRef "A", .nameAndType "run" "()V",
  .methodAt 0 0xFFFF, .string "A", .long (-1)
  ]

theorem answers_denote_repeating :
    Within "A" repeatingScript ∧
    ∃ f, ClassFile.parse ((new "A").runScript repeatingScript).2.build = .ok f ∧
      AnswersDenote "A" repeatingScript f.pool := by
  have hraw : ∃ c : Constant, c.WrittenAs [0x01, 0x00, 0x01, 0x41] ∧ c.isWide = false :=
    ⟨.utf8 "A", ⟨Text.Utf8.encode, ⟨by decide, Text.decode_standard _⟩, by decide⟩, rfl⟩
  have hsteps : ∀ step ∈ repeatingScript, step.Fits := by
    simp only [repeatingScript, List.forall_mem_cons, Step.Fits]
    exact ⟨hraw, trivial, by decide, trivial, trivial, by decide, by decide, trivial, by decide,
      trivial, List.forall_mem_nil _⟩
  have h : Within "A" repeatingScript :=
    ⟨by decide, hsteps, by decide +kernel, by decide, by decide, by decide, by decide⟩
  exact ⟨h, answers_denote h⟩

-- The method has one index, whichever way it is asked for.
example : indexAt "A" repeatingScript 2 = some 11 ∧ indexAt "A" repeatingScript 4 = some 11 := by
  decide +kernel

end Builder

end JvmTrace
