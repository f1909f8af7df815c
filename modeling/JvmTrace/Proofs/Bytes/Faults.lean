import JvmTrace.Proofs.Bytes.Reads

/-!
# Faults — the errors that a reader can fail with

`Reads` says what a reader makes of bytes that it accepts. This file is about the others. `Raises P r`
says that whenever `r` fails, wherever it stands, its error is one of `P`. A sequence raises what its
parts raise (`raises_bind`), so the errors of a reader can be collected along its definition.

The readers of numbers raise one kind of error, for want of bytes. They are *scarce*: bytes that are
there are never refused.
-/

set_option autoImplicit false

namespace JvmTrace

/-- A read that wanted more bytes than there were. -/
def Error.IsShort (e : Error) : Prop := ∃ position needed, e = .endOfInput position needed

namespace Reader

variable {α β : Type} {P Q : Error → Prop}

/-- The errors of `r` are among `P`. -/
def Raises (P : Error → Prop) (r : Reader α) : Prop := ∀ c e c', r c = .error e c' → P e

/-- A reader that fails for want of bytes only. -/
abbrev Scarce (r : Reader α) : Prop := Raises Error.IsShort r

/-- A sequence fails where its first part does, or behind it where the second part does. -/
theorem bind_eq_error {r : Reader α} {f : α → Reader β} {c c' : Cursor} {e : Error} :
    (r >>= f) c = .error e c' ↔
      r c = .error e c' ∨ ∃ a c₁, r c = .ok a c₁ ∧ f a c₁ = .error e c' := by
  rw [bind_eq]
  cases r c with
  | ok a c₁ =>
    simp only [reduceCtorEq, EStateM.Result.ok.injEq, false_or]
    constructor
    · intro h
      exact ⟨a, c₁, ⟨rfl, rfl⟩, h⟩
    · rintro ⟨_, _, ⟨rfl, rfl⟩, h⟩
      exact h
  | error e' c₁ => simp

theorem Raises.imp {r : Reader α} (h : Raises P r) (hPQ : ∀ e, P e → Q e) : Raises Q r :=
  fun c e c' herr => hPQ e (h c e c' herr)

theorem raises_bind {r : Reader α} {f : α → Reader β} (hr : Raises P r)
    (hf : ∀ a, Raises P (f a)) : Raises P (r >>= f) := by
  intro c e c' h
  rcases bind_eq_error.mp h with h | ⟨a, c₁, -, h⟩
  · exact hr c e c' h
  · exact hf a c₁ e c' h

theorem raises_pure (a : α) : Raises P (pure a : Reader α) := by
  intro c e c' h
  cases h

theorem raises_throw {e : Error} (he : P e) : Raises P (throw e : Reader α) := by
  intro c e' c' h
  cases h
  exact he

theorem raises_map {r : Reader α} (f : α → β) (hr : Raises P r) :
    Raises P (r >>= fun a => pure (f a)) :=
  raises_bind hr fun _ => raises_pure _

theorem raises_lift {x : Except Error α} (h : ∀ e, x = .error e → P e) : Raises P (lift x) := by
  cases x with
  | ok a => exact raises_pure a
  | error e => exact raises_throw (h e rfl)

/-- A check and what comes behind it. -/
theorem raises_unless {c : Prop} [Decidable c] {e : Error} {r : Reader α} (he : P e)
    (hr : Raises P r) : Raises P (if c then (throw e : Reader PUnit) >>= fun _ => r else r) := by
  split
  · exact raises_bind (raises_throw he) fun _ => hr
  · exact hr

theorem raises_timesFrom {item : Reader α} (h : Raises P item) (n : Nat) (read : List α) :
    Raises P (timesFrom item n read) := by
  induction n generalizing read with
  | zero => exact raises_pure _
  | succ n ih => exact raises_bind h fun a => ih (a :: read)

theorem raises_times {item : Reader α} (h : Raises P item) (n : Nat) : Raises P (times n item) :=
  raises_timesFrom h n []

/-! ### Scarce readers -/

theorem scarce_take (n : Nat) : Scarce (take n) := by
  intro c e c' h
  simp only [take] at h
  split at h
  · cases h
  · cases h
    exact ⟨_, _, rfl⟩

theorem scarce_skip (n : Nat) : Scarce (skip n) := raises_map _ (scarce_take n)

theorem scarce_word (width : Nat) : Scarce (word width) := raises_map _ (scarce_take width)

theorem scarce_u8 : Scarce u8 := raises_map _ (scarce_word 1)

theorem scarce_u16 : Scarce u16 := raises_map _ (scarce_word 2)

theorem scarce_u32 : Scarce u32 := raises_map _ (scarce_word 4)

theorem scarce_i8 : Scarce i8 := raises_map _ scarce_u8

theorem scarce_i16 : Scarce i16 := raises_map _ scarce_u16

theorem scarce_i32 : Scarce i32 := raises_map _ scarce_u32

theorem scarce_align (alignment : Nat) (positive : 0 < alignment) :
    Scarce (align alignment positive) := by
  intro c e c' h
  exact raises_map (fun _ => padding alignment c.position) (scarce_skip _) c e c' h

/-! ### What was read before a failure -/

/-- What a reader read stands at the front of the bytes. -/
theorem prefix_of_ok {r : Reader α} {c c' : Cursor} {a : α} {form : Bytes} (hr : Local r)
    (hform : ∀ bytes, Reads r c.position bytes a → bytes = form) (h : r c = .ok a c') :
    form <+: c.rest := by
  obtain ⟨used, hrest, -, hused⟩ := hr c.position c.rest a c' h
  exact ⟨c'.rest, by rw [hrest, hform used hused]⟩

end Reader

end JvmTrace
