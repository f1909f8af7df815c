import JvmTrace.Command.Host

/-!
# Steps — what is left of a step that fails

A step in a world that fails leaves behind whatever it did before. So what a failing run leaves
behind is a question about the order of its steps, and it is answered step by step. A *quiet* step
changes nothing but what has been said on standard error. A *careful* one changes nothing else if it
fails, and a *sure* one does not fail. Quiet steps may come before a careful one, and sure steps
after it, and what comes of that is careful again (`Careful.after_quiet`, `Careful.before_sure`). The
other way round it is not: a file that was created stays empty when the next step fails.

The second question is about two runs: steps are the *same* if they do the same in worlds that differ
in nothing but what has been said.
-/

set_option autoImplicit false

namespace JvmTrace.Command

namespace World

/-- The worlds differ in nothing but what has been said on standard error. -/
structure Alike (w w' : World) : Prop where
  files : w.files = w'.files
  stdout : w.stdout = w'.stdout

theorem Alike.refl (w : World) : w.Alike w := ⟨rfl, rfl⟩

theorem Alike.trans {w₁ w₂ w₃ : World} (h : w₁.Alike w₂) (h' : w₂.Alike w₃) : w₁.Alike w₃ :=
  ⟨h.files.trans h'.files, h.stdout.trans h'.stdout⟩

variable {α β : Type} {w : World}

/-- What comes of a step, and the world that it leaves. -/
def step (w : World) (x : Action α) : Except Error α × World := x.run.run w

/-- A step that fails ends what it is part of, in the world that it leaves. -/
theorem step_bind (x : Action α) (f : α → Action β) : w.step (x >>= f) =
    match w.step x with
    | (.ok a, after) => after.step (f a)
    | (.error e, after) => (.error e, after) := by
  change (ExceptT.bindCont f (w.step x).1) (w.step x).2 = _
  obtain ⟨result, after⟩ := w.step x
  cases result with
  | ok a => rfl
  | error e => rfl

/-! ## The steps of a world -/

/-- A step that needs no world leaves it as it is. -/
theorem step_lift (x : Except Error α) : w.step (liftM x) = (x, w) := rfl

theorem step_read (path : String) : w.step (host.read path) = (w.files.read path, w) := by
  rfl

theorem step_create (path : String) : w.step (host.create path) =
    match w.files.create path with
    | .ok (file, files) => (.ok file, { w with files })
    | .error e => (.error e, w) := by
  change w.step (liftM (w.files.create path) >>= fun created => _) = _
  rw [step_bind, step_lift]
  cases w.files.create path with
  | ok created => rfl
  | error e => rfl

theorem step_write (file : Nat) (bytes : Bytes) : w.step (host.write file bytes) =
    (.ok (), { w with files := w.files.append file bytes }) :=
  rfl

theorem step_print (text : String) :
    w.step (host.print text) = (.ok (), { w with stdout := w.stdout ++ text }) :=
  rfl

theorem step_say (text : String) :
    w.step (liftM (host.say text)) = (.ok (), { w with stderr := w.stderr ++ text }) :=
  rfl

end World

/-! ## What a step that fails leaves behind -/

namespace Action

variable {α β : Type} {x x' : Action α} {f f' : α → Action β}

/-- The step changes nothing but what has been said. -/
def Quiet (x : Action α) : Prop := ∀ w : World, (w.step x).2.Alike w

/-- The step changes nothing but what has been said, if it fails. -/
def Careful (x : Action α) : Prop :=
  ∀ (w : World) (e : Error), (w.step x).1 = .error e → (w.step x).2.Alike w

/-- The step does not fail. -/
def Sure (x : Action α) : Prop := ∀ w : World, ∃ a, (w.step x).1 = .ok a

theorem quiet_lift (x : Except Error α) : Quiet (liftM x) := fun w => .refl w

theorem quiet_read (path : String) : Quiet (World.host.read path) := fun w => .refl w

theorem quiet_say (text : String) : Quiet (liftM (World.host.say text)) := fun _ => ⟨rfl, rfl⟩

theorem careful_create (path : String) : Careful (World.host.create path) := by
  intro w e h
  rw [World.step_create] at h ⊢
  split at h
  · cases h
  · exact .refl w

theorem sure_write (file : Nat) (bytes : Bytes) : Sure (World.host.write file bytes) :=
  fun _ => ⟨(), rfl⟩

theorem sure_print (text : String) : Sure (World.host.print text) := fun _ => ⟨(), rfl⟩

theorem Quiet.bind (hx : Quiet x) (hf : ∀ a, Quiet (f a)) : Quiet (x >>= f) := by
  intro w
  have hw := hx w
  rw [World.step_bind]
  split
  · next a after hstep =>
    rw [hstep] at hw
    exact (hf a after).trans hw
  · next e after hstep =>
    rw [hstep] at hw
    exact hw

theorem Sure.bind (hx : Sure x) (hf : ∀ a, Sure (f a)) : Sure (x >>= f) := by
  intro w
  obtain ⟨a, ha⟩ := hx w
  rw [World.step_bind]
  split
  · next b after _ => exact hf b after
  · next e after hstep =>
    rw [hstep] at ha
    cases ha

theorem Sure.careful (hx : Sure x) : Careful x := by
  intro w e h
  obtain ⟨a, ha⟩ := hx w
  cases ha.symm.trans h

/-- What is quiet may come before what is careful. -/
theorem Careful.after_quiet (hx : Quiet x) (hf : ∀ a, Careful (f a)) : Careful (x >>= f) := by
  intro w e h
  have hw := hx w
  rw [World.step_bind] at h ⊢
  split at h
  · next a after hstep =>
    rw [hstep] at hw
    exact (hf a after e h).trans hw
  · next e' after hstep =>
    rw [hstep] at hw
    exact hw

/-- What is sure may come after what is careful. -/
theorem Careful.before_sure (hx : Careful x) (hf : ∀ a, Sure (f a)) : Careful (x >>= f) := by
  intro w e h
  rw [World.step_bind] at h ⊢
  split at h
  · next a after _ =>
    obtain ⟨b, hb⟩ := hf a after
    cases hb.symm.trans h
  · next e' after hstep =>
    have hw := hx w e'
    rw [hstep] at hw
    exact hw rfl

-- A failure after the file was created leaves it empty.
example : ¬ Careful (World.host.create "A" >>= fun _ => liftM (.error .noSuchFile : Except Error Unit)) := by
  intro h
  have halike := h { files := .ofFiles [("A", [1])] } .noSuchFile rfl
  exact absurd halike.files (by decide +kernel)

/-! ## Two runs -/

/-- The steps do the same in worlds that differ in nothing but what has been said. -/
def Same (x x' : Action α) : Prop := ∀ w w' : World, w.Alike w' →
  (w.step x).1 = (w'.step x').1 ∧ (w.step x).2.Alike (w'.step x').2

theorem same_lift (x : Except Error α) : Same (liftM x) (liftM x) := fun _ _ h => ⟨rfl, h⟩

theorem same_say (text text' : String) :
    Same (liftM (World.host.say text)) (liftM (World.host.say text')) :=
  fun _ _ h => ⟨rfl, h.files, h.stdout⟩

theorem same_read (path : String) : Same (World.host.read path) (World.host.read path) := by
  intro w w' h
  rw [World.step_read, World.step_read, h.files]
  exact ⟨rfl, h⟩

theorem same_create (path : String) : Same (World.host.create path) (World.host.create path) := by
  intro w w' h
  rw [World.step_create, World.step_create, h.files]
  cases w'.files.create path with
  | ok created => exact ⟨rfl, rfl, h.stdout⟩
  | error e => exact ⟨rfl, h⟩

theorem same_write (file : Nat) (bytes : Bytes) :
    Same (World.host.write file bytes) (World.host.write file bytes) :=
  fun _ _ h => ⟨rfl, congrArg (·.append file bytes) h.files, h.stdout⟩

theorem same_print (text : String) : Same (World.host.print text) (World.host.print text) :=
  fun _ _ h => ⟨rfl, h.files, congrArg (· ++ text) h.stdout⟩

theorem Same.bind (hx : Same x x') (hf : ∀ a, Same (f a) (f' a)) : Same (x >>= f) (x' >>= f') := by
  intro w w' h
  obtain ⟨hresult, hworld⟩ := hx w w' h
  rw [World.step_bind, World.step_bind]
  revert hresult hworld
  obtain ⟨result, after⟩ := w.step x
  obtain ⟨result', after'⟩ := w'.step x'
  rintro rfl hworld
  cases result with
  | ok a => exact hf a after after' hworld
  | error e => exact ⟨rfl, hworld⟩

end Action

end JvmTrace.Command
