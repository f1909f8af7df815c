import JvmTrace.Pool.Resolve

/-!
# Resolution — which index a symbol came from, and how it can fail

Following references forgets the indices on the way, but not the first one. That is all a listing
needs to be written back: two indices whose symbols are the same are the same index, whatever the
constants there say.

A reference that cannot be followed is broken in one of two ways, and resolution fails with nothing
else (`onlyBroken_resolve`).
-/

set_option autoImplicit false

namespace JvmTrace

theorem Except.bind_eq_ok {ε α β : Type} {x : Except ε α} {f : α → Except ε β} {b : β} :
    (x >>= f) = .ok b ↔ ∃ a, x = .ok a ∧ f a = .ok b := by
  cases x with
  | ok a => simp [bind, Except.bind]
  | error e => simp [bind, Except.bind]

namespace Pool

variable {p : Pool} {index signature : UInt16} {s : Symbol}

/-- A step that only names what it found keeps the index. -/
theorem index_of_named {x : Except Error String} {f : String → String}
    (h : (x >>= fun text => pure (Symbol.named index (f text))) = .ok s) : s.index = index := by
  obtain ⟨text, -, htext⟩ := Except.bind_eq_ok.mp h
  cases htext
  rfl

theorem index_of_unowned (h : p.unowned index signature = .ok s) : s.index = index := by
  obtain ⟨pair, -, hpair⟩ := Except.bind_eq_ok.mp h
  cases hpair
  rfl

theorem index_of_member (h : p.member index = .ok s) : s.index = index := by
  obtain ⟨c, -, hc⟩ := Except.bind_eq_ok.mp h
  cases c with
  | member kind owner signature =>
    obtain ⟨owner, -, howner⟩ := Except.bind_eq_ok.mp hc
    obtain ⟨pair, -, hpair⟩ := Except.bind_eq_ok.mp howner
    cases hpair
    rfl
  | _ => cases hc

/-- **A symbol keeps the index that it was resolved from.** -/
theorem index_of_resolve (h : p.resolve index = .ok s) : s.index = index := by
  obtain ⟨c, -, hc⟩ := Except.bind_eq_ok.mp h
  cases c with
  | utf8 | integer | float | long | double =>
    cases hc
    rfl
  | classRef name => exact index_of_named (f := id) hc
  | string text => exact index_of_named hc
  | member kind owner signature => exact index_of_member hc
  | nameAndType name descriptor => exact index_of_unowned hc
  | methodHandle kind reference =>
    obtain ⟨target, -, htarget⟩ := Except.bind_eq_ok.mp hc
    cases htarget
    rfl
  | methodType descriptor => exact index_of_named (f := id) hc
  | dynamic bootstrap signature => exact index_of_unowned hc
  | invokeDynamic bootstrap signature => exact index_of_unowned hc
  | moduleRef name => exact index_of_named (f := id) hc
  | packageRef name => exact index_of_named (f := id) hc

end Pool

/-! ## What a reference can fail with -/

/-- The two ways in which a reference can be broken: it leads to no constant, or to one of another
kind. -/
def Error.IsBrokenReference (e : Error) : Prop :=
  (∃ index, e = .invalidIndex index) ∨ ∃ index expected found, e = .wrongKind index expected found

theorem Except.bind_eq_error {ε α β : Type} {x : Except ε α} {f : α → Except ε β} {e : ε} :
    (x >>= f) = .error e ↔ x = .error e ∨ ∃ a, x = .ok a ∧ f a = .error e := by
  cases x with
  | ok a => simp [bind, Except.bind]
  | error e' => simp [bind, Except.bind]

namespace Pool

variable {α β : Type} {p : Pool}

/-- Whenever `x` fails, its error is one of a broken reference. -/
def OnlyBroken (x : Except Error α) : Prop := ∀ e, x = .error e → e.IsBrokenReference

theorem onlyBroken_bind {x : Except Error α} {f : α → Except Error β} (hx : OnlyBroken x)
    (hf : ∀ a, OnlyBroken (f a)) : OnlyBroken (x >>= f) := by
  intro e h
  rcases Except.bind_eq_error.mp h with h | ⟨a, -, h⟩
  · exact hx e h
  · exact hf a e h

theorem onlyBroken_ok (a : α) : OnlyBroken (pure a : Except Error α) := by
  intro e h
  cases h

theorem onlyBroken_mismatch (index : UInt16) (expected : String) (found : Constant) :
    OnlyBroken (throw (mismatch index expected found) : Except Error α) := by
  intro e h
  cases h
  exact Or.inr ⟨_, _, _, rfl⟩

theorem onlyBroken_get (index : UInt16) : OnlyBroken (p.get index) := by
  intro e h
  unfold get at h
  split at h
  · cases h
  · cases h
    exact Or.inl ⟨_, rfl⟩

theorem onlyBroken_utf8 (index : UInt16) : OnlyBroken (p.utf8 index) := by
  refine onlyBroken_bind (onlyBroken_get index) fun c => ?_
  cases c with
  | utf8 text => exact onlyBroken_ok _
  | _ => exact onlyBroken_mismatch _ _ _

theorem onlyBroken_className (index : UInt16) : OnlyBroken (p.className index) := by
  refine onlyBroken_bind (onlyBroken_get index) fun c => ?_
  cases c with
  | classRef name => exact onlyBroken_utf8 name
  | _ => exact onlyBroken_mismatch _ _ _

theorem onlyBroken_nameAndType (index : UInt16) : OnlyBroken (p.nameAndType index) := by
  refine onlyBroken_bind (onlyBroken_get index) fun c => ?_
  cases c with
  | nameAndType name descriptor =>
    exact onlyBroken_bind (onlyBroken_utf8 name) fun _ =>
      onlyBroken_bind (onlyBroken_utf8 descriptor) fun _ => onlyBroken_ok _
  | _ => exact onlyBroken_mismatch _ _ _

theorem onlyBroken_member (index : UInt16) : OnlyBroken (p.member index) := by
  refine onlyBroken_bind (onlyBroken_get index) fun c => ?_
  cases c with
  | member kind owner signature =>
    exact onlyBroken_bind (onlyBroken_className owner) fun _ =>
      onlyBroken_bind (onlyBroken_nameAndType signature) fun _ => onlyBroken_ok _
  | _ => exact onlyBroken_mismatch _ _ _

theorem onlyBroken_unowned (index signature : UInt16) : OnlyBroken (p.unowned index signature) :=
  onlyBroken_bind (onlyBroken_nameAndType signature) fun _ => onlyBroken_ok _

/-- **Resolution fails on a broken reference, and on nothing else.** -/
theorem onlyBroken_resolve (index : UInt16) : OnlyBroken (p.resolve index) := by
  refine onlyBroken_bind (onlyBroken_get index) fun c => ?_
  cases c with
  | utf8 | integer | float | long | double => exact onlyBroken_ok _
  | classRef name => exact onlyBroken_bind (onlyBroken_className index) fun _ => onlyBroken_ok _
  | string text => exact onlyBroken_bind (onlyBroken_utf8 text) fun _ => onlyBroken_ok _
  | member kind owner signature => exact onlyBroken_member index
  | nameAndType name descriptor => exact onlyBroken_unowned index index
  | methodHandle kind reference =>
    exact onlyBroken_bind (onlyBroken_member reference) fun _ => onlyBroken_ok _
  | methodType descriptor =>
    exact onlyBroken_bind (onlyBroken_utf8 descriptor) fun _ => onlyBroken_ok _
  | dynamic bootstrap signature => exact onlyBroken_unowned index signature
  | invokeDynamic bootstrap signature => exact onlyBroken_unowned index signature
  | moduleRef name => exact onlyBroken_bind (onlyBroken_utf8 name) fun _ => onlyBroken_ok _
  | packageRef name => exact onlyBroken_bind (onlyBroken_utf8 name) fun _ => onlyBroken_ok _

end Pool

end JvmTrace
