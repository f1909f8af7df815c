import JvmTrace.Builder.Script
import JvmTrace.Proofs.ClassFile.Lookup
import JvmTrace.Trace.Basic

/-!
# Settings only select

A trace under any settings can be computed from the trace under those that leave nothing out, without
looking at the image again (`traceImage_eq`). That one equation holds for failures as well, and it is
all there is to know about what settings do: they cannot make a class traceable or untraceable, nor
change the error, nor what an instruction says.

What two runs under different settings have in common follows from it (`traceImage_selects`). Offsets
increase in every trace, because a method has no more code than 32-bit offsets can tell apart.
-/

set_option autoImplicit false

namespace JvmTrace

/-! ## What settings do to a trace that is there -/

/-- The settings that leave nothing out. -/
def Config.everything : Config := { filter := .keepAll, limit := none }

/-- The part of a method's trace that settings keep. -/
def MethodTrace.under (c : Config) (t : MethodTrace) : MethodTrace :=
  { t with instructions := c.select t.instructions }

/-- The part of a trace that settings keep. -/
def ClassTrace.under (c : Config) (t : ClassTrace) : ClassTrace :=
  { t with kind := c.kind, methods := t.methods.map (MethodTrace.under c) }

@[simp] theorem Config.select_everything (is : List Instruction) : everything.select is = is :=
  List.filter_eq_self.mpr fun _ _ => rfl

/-- Selecting is cutting and then filtering. -/
theorem Config.select_eq (c : Config) (is : List Instruction) :
    c.select is = (is.take (c.limit.getD is.length)).filter c.filter.retains := by
  unfold select
  cases c.limit with
  | none => simp
  | some n => rfl

/-- Of two settings with the same filter, the one with the lower limit keeps a first part of what the
other keeps. -/
theorem Config.select_of_limit_le {a b : Config} (hfilter : a.filter.retains = b.filter.retains)
    (hlimit : ∀ m ∈ b.limit, ∃ n ∈ a.limit, n ≤ m) (is : List Instruction) :
    a.select is <+: b.select is := by
  rw [select_eq, select_eq, hfilter]
  refine List.IsPrefix.filter _ ?_
  cases hb : b.limit with
  | none =>
    rw [Option.getD_none, List.take_length]
    exact List.take_prefix _ _
  | some m =>
    obtain ⟨n, hn, hle⟩ := hlimit m hb
    rw [Option.mem_def.mp hn]
    exact List.take_prefix_take_left hle

/-! ## One equation for each level -/

theorem Method.trace_eq (c : Config) (pool : Pool) (m : Method) :
    m.trace c pool = (m.trace .everything pool).map (MethodTrace.under c) := by
  unfold Method.trace
  cases m.instructions pool with
  | error e => rfl
  | ok is =>
    simp only [Config.select_everything]
    rfl

/-- What is done to every item of a list can be done to the list afterwards. -/
theorem Except.mapM_map {ε α β γ : Type} {f : α → Except ε β} {g : α → Except ε γ} {k : β → γ}
    (h : ∀ x, g x = (f x).map k) (xs : List α) : xs.mapM g = (xs.mapM f).map (List.map k) := by
  induction xs with
  | nil => rfl
  | cons x xs ih =>
    rw [List.mapM_cons, List.mapM_cons, ih, h]
    cases f x with
    | error e => rfl
    | ok y => cases xs.mapM f <;> rfl

theorem ClassFile.trace_eq (c : Config) (f : ClassFile) :
    f.trace c = (f.trace .everything).map (ClassTrace.under c) := by
  unfold ClassFile.trace
  cases f.thisName with
  | error e => rfl
  | ok this =>
    cases f.methodViews with
    | error e => rfl
    | ok methods =>
      simp only [bind, Except.bind, Except.mapM_map (Method.trace_eq c f.pool) methods]
      cases methods.mapM (Method.trace .everything f.pool) <;> rfl

/-- **A trace under any settings is what they keep of the whole trace**, and fails where that does.
-/
theorem traceImage_eq (c : Config) (image : Bytes) :
    traceImage c image = (traceImage .everything image).map (ClassTrace.under c) := by
  unfold traceImage
  cases ClassFile.parse image with
  | error e => rfl
  | ok f => exact ClassFile.trace_eq c f

/-! ## What the whole trace is made of -/

/-- What a trace says about a method besides its instructions. -/
def MethodTrace.header (t : MethodTrace) : String × String × MethodDescriptor :=
  (t.name, t.signature, t.descriptor)

def Method.header (m : Method) : String × String × MethodDescriptor :=
  (m.name, m.signature, m.descriptor)

theorem Method.trace_eq_ok {c : Config} {pool : Pool} {m : Method} {t : MethodTrace}
    (h : m.trace c pool = .ok t) :
    t.header = m.header ∧ ∃ is, m.instructions pool = .ok is ∧ t.instructions = c.select is := by
  unfold Method.trace at h
  obtain ⟨is, his, ht⟩ := Except.bind_eq_ok.mp h
  cases ht
  exact ⟨rfl, is, his, rfl⟩

/-- A trace has the name of the class and one entry for each method that the class declares, in the
order of the class. -/
theorem ClassFile.trace_eq_ok {c : Config} {f : ClassFile} {t : ClassTrace}
    (h : f.trace c = .ok t) :
    ∃ this methods, f.thisName = .ok this ∧ f.methodViews = .ok methods ∧
      t.className = this.binary ∧
      List.Forall₂ (fun m entry => Method.trace c f.pool m = .ok entry) methods t.methods := by
  unfold ClassFile.trace at h
  obtain ⟨this, hthis, h⟩ := Except.bind_eq_ok.mp h
  obtain ⟨methods, hmethods, h⟩ := Except.bind_eq_ok.mp h
  obtain ⟨entries, hentries, h⟩ := Except.bind_eq_ok.mp h
  cases h
  exact ⟨this, methods, hthis, hmethods, rfl, Except.mapM_eq_ok_iff.mp hentries⟩

theorem traceImage_eq_ok {c : Config} {image : Bytes} {t : ClassTrace}
    (h : traceImage c image = .ok t) :
    ∃ f methods, ClassFile.parse image = .ok f ∧ f.methodViews = .ok methods ∧
      List.Forall₂ (fun m entry => Method.trace c f.pool m = .ok entry) methods t.methods := by
  unfold traceImage at h
  obtain ⟨f, hf, h⟩ := Except.bind_eq_ok.mp h
  obtain ⟨_, methods, -, hmethods, -, hentries⟩ := ClassFile.trace_eq_ok h
  exact ⟨f, methods, hf, hmethods, hentries⟩

/-! ## Two runs -/

/-- `t` is what settings `c` keep of the trace `whole` of a class with the given methods. -/
structure ClassTrace.SelectedBy (t : ClassTrace) (c : Config) (methods : List Method)
    (whole : ClassTrace) : Prop where
  className : t.className = whole.className
  headers : t.methods.map MethodTrace.header = methods.map Method.header
  instructions : List.Forall₂ (fun kept entry => kept.instructions =
    (entry.instructions.take (c.limit.getD entry.instructions.length)).filter c.filter.retains)
    t.methods whole.methods
  offsets : ∀ kept ∈ t.methods, kept.instructions.Pairwise fun i j => i.offset < j.offset

theorem ClassTrace.selectedBy_under {methods : List Method} {pool : Pool} {whole : ClassTrace}
    (h : List.Forall₂ (fun m entry => Method.trace .everything pool m = .ok entry) methods
      whole.methods) (c : Config) : (whole.under c).SelectedBy c methods whole where
  className := rfl
  headers := by
    have hsame : methods.map Method.header = whole.methods.map MethodTrace.header := by
      rw [← List.forall₂_eq_eq_eq, List.forall₂_map_left_iff, List.forall₂_map_right_iff]
      exact h.imp fun m entry hentry => (Method.trace_eq_ok hentry).1.symm
    rw [hsame]
    exact List.map_map
  instructions := by
    change List.Forall₂ _ (whole.methods.map (MethodTrace.under c)) whole.methods
    rw [List.forall₂_map_left_iff, List.forall₂_same]
    exact fun entry _ => c.select_eq entry.instructions
  offsets := by
    intro kept hkept
    obtain ⟨entry, hentry, rfl⟩ := List.mem_map.mp hkept
    -- The entry is that of a method, whose instructions are all there and in order.
    obtain ⟨i, hi, rfl⟩ := List.getElem_of_mem hentry
    obtain ⟨-, is, his, hall⟩ := Method.trace_eq_ok (h.get (h.length_eq ▸ hi) hi)
    rw [Config.select_everything] at hall
    have hsub : (c.select is).Sublist is := by
      rw [c.select_eq]
      exact List.filter_sublist.trans (List.take_sublist _ _)
    have hkept : (whole.methods[i].under c).instructions = c.select is := congrArg c.select hall
    rw [hkept]
    exact (Method.pairwise_offset his).sublist hsub

/-- **Settings only select.** Two runs over one image, under any settings, fail together and with the
same error, or succeed together; and then each keeps, of every method that the class declares, the
instructions of its whole decoding that the filter retains among the first so many, unchanged and in
order. With the same filter, the lower limit gives a first part of what the higher one gives. -/
theorem traceImage_selects (a b : Config) (image : Bytes) :
    (∃ e, traceImage a image = .error e ∧ traceImage b image = .error e) ∨
    ∃ f methods whole s t,
      ClassFile.parse image = .ok f ∧ f.methodViews = .ok methods ∧
      traceImage .everything image = .ok whole ∧
      List.Forall₂ (fun m entry => m.instructions f.pool = .ok entry.instructions ∧
        m.Executes f.pool entry.instructions) methods whole.methods ∧
      traceImage a image = .ok s ∧ traceImage b image = .ok t ∧
      s.SelectedBy a methods whole ∧ t.SelectedBy b methods whole ∧
      (a.filter.retains = b.filter.retains → (∀ m ∈ b.limit, ∃ n ∈ a.limit, n ≤ m) →
        List.Forall₂ (fun low high => low.instructions <+: high.instructions) s.methods
          t.methods) := by
  rw [traceImage_eq a, traceImage_eq b]
  cases hwhole : traceImage .everything image with
  | error e => exact Or.inl ⟨e, rfl, rfl⟩
  | ok whole =>
    obtain ⟨f, methods, hf, hmethods, hentries⟩ := traceImage_eq_ok hwhole
    refine Or.inr ⟨f, methods, whole, whole.under a, whole.under b, hf, hmethods, rfl, ?_, rfl, rfl,
      ClassTrace.selectedBy_under hentries a, ClassTrace.selectedBy_under hentries b, ?_⟩
    · refine hentries.imp fun m entry hentry => ?_
      obtain ⟨-, is, his, hall⟩ := Method.trace_eq_ok hentry
      rw [hall, Config.select_everything]
      exact ⟨his, Method.executes_of_instructions his⟩
    · intro hfilter hlimit
      change List.Forall₂ _ (whole.methods.map (MethodTrace.under a))
        (whole.methods.map (MethodTrace.under b))
      rw [List.forall₂_map_left_iff, List.forall₂_map_right_iff, List.forall₂_same]
      exact fun entry _ => Config.select_of_limit_le hfilter hlimit entry.instructions

/-- A class with a method that loads three numbers, two of them from local variables, and returns. -/
def loadingImage : Bytes :=
  ((Builder.new "A").runScript [.method "run" "()V" (some [0x1a, 0x03, 0x2a, 0xb1])]).2.build

theorem traceImage_selects_sample : ∃ s t : ClassTrace,
    traceImage { limit := some 3 } loadingImage = .ok s ∧ traceImage {} loadingImage = .ok t ∧
    s.methods.map MethodTrace.instructions = [[⟨1, "iconst_0", []⟩]] ∧
    t.methods.map MethodTrace.instructions = [[⟨1, "iconst_0", []⟩, ⟨3, "return", []⟩]] ∧
    List.Forall₂ (fun low high => low.instructions <+: high.instructions) s.methods t.methods := by
  have hlow : (traceImage { limit := some 3 } loadingImage).map
      (·.methods.map MethodTrace.instructions) = .ok [[⟨1, "iconst_0", []⟩]] := by decide +kernel
  have hhigh : (traceImage {} loadingImage).map (·.methods.map MethodTrace.instructions) =
      .ok [[⟨1, "iconst_0", []⟩, ⟨3, "return", []⟩]] := by decide +kernel
  obtain ⟨e, he, -⟩ | ⟨f, methods, whole, s, t, -, -, -, -, hs, ht, -, -, hprefix⟩ :=
    traceImage_selects { limit := some 3 } {} loadingImage
  · rw [he] at hlow
    cases hlow
  · rw [hs] at hlow
    rw [ht] at hhigh
    exact ⟨s, t, hs, ht, Except.ok.inj hlow, Except.ok.inj hhigh, hprefix rfl nofun⟩

end JvmTrace
