import JvmTrace.Proofs.ClassFile.Lookup
import JvmTrace.Proofs.Trace.Selection

/-!
# What a trace depends on

Of a class file, a trace looks at the pool, at the name of the class, and of each method at the name,
the descriptor and the attributes up to the first one called `Code`. Two classes that agree so far
(`ClassFile.Alike`) have the same trace or fail with the same error, whatever else they hold: flags,
fields, interfaces, versions, and attributes that may be beyond repair.

Both runs are followed together. Their methods differ, in flags and in what is behind the code, so
they cannot be equal half-way; `Except.Related` is the relation that each step keeps instead.
-/

set_option autoImplicit false

namespace JvmTrace

/-! ## Two runs -/

/-- Both runs fail, with the same error, or both have results, and these are related. -/
inductive Except.Related {ε α β : Type} (R : α → β → Prop) : Except ε α → Except ε β → Prop
  | ok {a : α} {b : β} (related : R a b) : Related R (.ok a) (.ok b)
  | error (e : ε) : Related R (.error e) (.error e)

namespace Except.Related

variable {ε α β γ δ : Type} {P : α → β → Prop} {Q : γ → δ → Prop}

theorem eq {x y : Except ε α} (h : Related Eq x y) : x = y := by
  cases h with
  | ok related => rw [related]
  | error e => rfl

theorem of_eq {x y : Except ε α} (h : x = y) : Related Eq x y := by
  subst h
  cases x with
  | ok a => exact .ok rfl
  | error e => exact .error e

theorem bind {x : Except ε α} {y : Except ε β} {f : α → Except ε γ} {g : β → Except ε δ}
    (h : Related P x y) (hstep : ∀ a b, P a b → Related Q (f a) (g b)) :
    Related Q (x >>= f) (y >>= g) := by
  cases h with
  | ok related => exact hstep _ _ related
  | error e => exact .error e

/-- Two runs that start with the same step may differ in what they do next. -/
theorem bind_same {x : Except ε α} {f : α → Except ε γ} {g : α → Except ε δ}
    (hstep : ∀ a, Related Q (f a) (g a)) : Related Q (x >>= f) (x >>= g) := by
  refine (of_eq rfl).bind ?_
  intro a b hab
  rw [hab]
  exact hstep b

theorem mapM {f : α → Except ε γ} {g : β → Except ε δ} {xs : List α} {ys : List β}
    (h : List.Forall₂ P xs ys) (hstep : ∀ x y, P x y → Related Q (f x) (g y)) :
    Related (List.Forall₂ Q) (xs.mapM f) (ys.mapM g) := by
  induction h with
  | nil => exact .ok .nil
  | cons hxy _ ih =>
    rw [List.mapM_cons, List.mapM_cons]
    refine (hstep _ _ hxy).bind ?_
    intro a b hab
    refine ih.bind ?_
    intro as bs habs
    exact .ok (.cons hab habs)

end Except.Related

/-! ## Methods and classes that a trace cannot tell apart -/

variable {pool : Pool}

/-- The entries have the same names, and the same attributes up to the code. -/
structure Member.Alike (pool : Pool) (m n : Member) : Prop where
  name : m.name = n.name
  descriptor : m.descriptor = n.descriptor
  attributes : AlikeUpTo pool codeAttribute m.attributes n.attributes

structure Method.Alike (pool : Pool) (m n : Method) : Prop where
  header : m.header = n.header
  attributes : AlikeUpTo pool codeAttribute m.attributes n.attributes

/-- The classes have the same pool, the same name, and methods that are alike in the same order. -/
structure ClassFile.Alike (f g : ClassFile) : Prop where
  pool : f.pool = g.pool
  this : f.this = g.this
  methods : List.Forall₂ (Member.Alike f.pool) f.methods g.methods

theorem Member.Alike.toMethod {m n : Member} (h : Alike pool m n) :
    Except.Related (Method.Alike pool) (m.toMethod pool) (n.toMethod pool) := by
  unfold Member.toMethod
  rw [h.name, h.descriptor]
  refine .bind_same fun name => .bind_same fun signature => .bind_same fun descriptor => ?_
  exact .ok ⟨rfl, h.attributes⟩

theorem Method.Alike.trace_eq {m n : Method} (h : Alike pool m n) (config : Config) :
    m.trace config pool = n.trace config pool := by
  have hname : m.name = n.name := congrArg (·.1) h.header
  have hsignature : m.signature = n.signature := congrArg (·.2.1) h.header
  have hdescriptor : m.descriptor = n.descriptor := congrArg (·.2.2) h.header
  unfold Method.trace
  rw [Method.instructions_congr h.attributes, hname, hsignature, hdescriptor]

/-- **Classes that are alike have the same trace**, or fail with the same error. -/
theorem ClassFile.Alike.trace_eq {f g : ClassFile} (h : f.Alike g) (config : Config) :
    f.trace config = g.trace config := by
  have hthis : f.thisName = g.thisName := by
    unfold thisName
    rw [h.pool, h.this]
  have hviews : Except.Related (List.Forall₂ (Method.Alike f.pool)) f.methodViews g.methodViews := by
    unfold methodViews
    rw [← h.pool]
    exact .mapM h.methods fun m n hmn => hmn.toMethod
  unfold trace
  rw [hthis, ← h.pool]
  refine Except.Related.eq (.bind_same fun this => hviews.bind fun ms ns hms => ?_)
  have htraces : Except.Related (List.Forall₂ Eq) (ms.mapM (Method.trace config f.pool))
      (ns.mapM (Method.trace config f.pool)) :=
    .mapM hms fun m n hmn => .of_eq (hmn.trace_eq config)
  rw [List.forall₂_eq_eq_eq] at htraces
  rw [htraces.eq]
  exact .of_eq rfl

/-! ## The whole of it -/

/-- **The first match, and nothing behind it.** A search ends at the first attribute that has the name
or fails, with that attribute or that error, and without one if it runs out; what is behind changes
nothing. A method has no body exactly when all its attributes resolve and none is called `Code`; the
first of that name always holds the code that its instructions are decoded from, and without one there
are none. So a trace is the same for all classes that are alike up to there. -/
theorem findAttribute_looks_no_further (pool : Pool) :
    (∀ name attributes outcome,
      findAttribute pool name attributes = outcome ↔ Search pool name attributes outcome) ∧
    (∀ name xs ys, AlikeUpTo pool name xs ys →
      findAttribute pool name xs = findAttribute pool name ys) ∧
    (∀ m : Method,
      (m.code pool = .ok none ↔ ∀ a ∈ m.attributes, a.Passed pool codeAttribute) ∧
      (m.code pool = .ok none → m.instructions pool = .ok []) ∧
      (∀ found, Search pool codeAttribute m.attributes (.ok (some found)) →
        ∃ code, found.content = .code code ∧ m.code pool = .ok (some code) ∧
          m.instructions pool = decode pool code.code) ∧
      (∀ e, Search pool codeAttribute m.attributes (.error e) →
        m.code pool = .error e ∧ m.instructions pool = .error e)) ∧
    (∀ f g : ClassFile, f.Alike g → ∀ config, f.trace config = g.trace config) := by
  refine ⟨?_, ?_, ?_, ?_⟩
  · intro name attributes outcome
    exact findAttribute_eq_iff
  · intro name xs ys h
    exact h.findAttribute_eq
  · intro m
    refine ⟨Method.code_eq_none_iff, Method.instructions_of_none, ?_, ?_⟩
    · intro found h
      obtain ⟨code, rfl⟩ := h.exists_code
      have hcode := Method.code_of_search h
      exact ⟨code, rfl, hcode, Method.instructions_of_some hcode⟩
    · intro e h
      have hcode := Method.code_of_failed h
      exact ⟨hcode, Method.instructions_of_error hcode⟩
  · intro f g h config
    exact h.trace_eq config

/-- One method that returns, with an attribute before its code. -/
def tidy : ClassFile where
  access := 0x0021
  this := 5
  super := 0
  interfaces := []
  fields := []
  methods := [⟨0x0001, 2, 3, [⟨6, []⟩, ⟨1, Code.encodePlain 0 1 [0xB1]⟩]⟩]
  attributes := []
  minor := 0
  major := 52
  pool := ⟨#[some (.utf8 "Code"), some (.utf8 "run"), some (.utf8 "()V"), some (.utf8 "app/Probe"),
    some (.classRef 4), some (.utf8 "Deprecated")]⟩

/-- The same to a trace. Its superclass, its interface and its field lead nowhere, and behind the code
come more code, which is cut short, and an attribute without a name. -/
def cluttered : ClassFile :=
  { tidy with
    access := 0, super := 77, interfaces := [78], fields := [⟨0, 79, 80, []⟩], major := 61
    methods := [⟨0x0009, 2, 3, [⟨6, []⟩, ⟨1, Code.encodePlain 0 1 [0xB1]⟩, ⟨1, [0]⟩, ⟨99, []⟩]⟩] }

theorem findAttribute_looks_no_further_cluttered :
    tidy.Alike cluttered ∧ tidy.trace {} = cluttered.trace {} ∧
      cluttered.trace {} = .ok ⟨"Controller", "app.Probe",
        [⟨"run", "()V", ⟨[], .void⟩, [⟨0, "return", []⟩]⟩]⟩ := by
  have halike : tidy.Alike cluttered := ⟨rfl, rfl, .cons ⟨rfl, rfl, .cons (.named rfl)⟩ .nil⟩
  have hsame := (findAttribute_looks_no_further tidy.pool).2.2.2 tidy cluttered halike {}
  exact ⟨halike, hsame, by decide +kernel⟩

end JvmTrace
