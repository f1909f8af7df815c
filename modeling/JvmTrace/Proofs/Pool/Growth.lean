import JvmTrace.Proofs.Pool.Resolve

/-!
# Growth — more slots behind a pool leave everything else as it was

A pool grows at its end: whoever took an index keeps it, goes on adding constants, and expects the
index to mean the same afterwards. It does, and an index that led nowhere or to the wrong kind does so
too, **with one exception**: a look past the end of the pool may find something later.

So two runs, one on the pool and one on the pool that has grown, agree unless the first ended in such
a look. `Outlasts` is that relation between their results. It is kept by `bind`, because the error of a
look past the end is never caught on the way, and so every accessor inherits it from `get`.
-/

set_option autoImplicit false

namespace JvmTrace

/-- The error of a look past the end of a pool that has `size` slots. -/
def Error.IsBeyond (size : Nat) (e : Error) : Prop :=
  ∃ index : UInt16, e = .invalidIndex index ∧ size < index.toNat

/-- The second run gives what the first one gave, unless that was a look past `size` slots. -/
def Except.Outlasts {α : Type} (size : Nat) (before after : Except Error α) : Prop :=
  after = before ∨ ∃ e, before = .error e ∧ e.IsBeyond size

namespace Except.Outlasts

variable {α β : Type} {size : Nat}

theorem refl (x : Except Error α) : Outlasts size x x := .inl rfl

theorem bind {x x' : Except Error α} {f f' : α → Except Error β} (h : Outlasts size x x')
    (hstep : ∀ a, Outlasts size (f a) (f' a)) : Outlasts size (x >>= f) (x' >>= f') := by
  rcases h with rfl | ⟨e, rfl, he⟩
  · cases x' with
    | ok a => exact hstep a
    | error e => exact refl _
  · exact .inr ⟨e, rfl, he⟩

theorem map {x x' : Except Error α} (f : α → β) (h : Outlasts size x x') :
    Outlasts size (x >>= fun a => pure (f a)) (x' >>= fun a => pure (f a)) :=
  h.bind fun _ => refl _

end Except.Outlasts

namespace Pool

open Except.Outlasts

/-- The pool with more slots behind its own. -/
def grow (p : Pool) (more : Array Slot) : Pool := ⟨p.slots ++ more⟩

variable (p : Pool) (more : Array Slot)

theorem get?_of_size_lt {index : UInt16} (h : p.size < index.toNat) : p.get? index = none := by
  unfold get?
  cases hplace : index.toNat with
  | zero => rfl
  | succ place =>
    rw [hplace] at h
    have hend : p.slots.size ≤ place := Nat.le_of_lt_succ h
    simp [Array.getElem?_eq_none hend]

theorem get?_grow {index : UInt16} (h : index.toNat ≤ p.size) :
    (p.grow more).get? index = p.get? index := by
  unfold get?
  cases hplace : index.toNat with
  | zero => rfl
  | succ place =>
    rw [hplace] at h
    have hlt : place < p.slots.size := h
    show ((p.slots ++ more)[place]?).join = (p.slots[place]?).join
    rw [Array.getElem?_append_left hlt]

theorem outlasts_get (index : UInt16) :
    Except.Outlasts p.size (p.get index) ((p.grow more).get index) := by
  by_cases hbeyond : p.size < index.toNat
  · refine .inr ⟨.invalidIndex index, ?_, index, rfl, hbeyond⟩
    rw [get, get?_of_size_lt p hbeyond]
  · left
    rw [get, get, get?_grow p more (Nat.le_of_not_lt hbeyond)]

theorem outlasts_utf8 (index : UInt16) :
    Except.Outlasts p.size (p.utf8 index) ((p.grow more).utf8 index) :=
  (outlasts_get p more index).bind fun _ => refl _

theorem outlasts_className (index : UInt16) :
    Except.Outlasts p.size (p.className index) ((p.grow more).className index) := by
  refine (outlasts_get p more index).bind fun c => ?_
  cases c with
  | classRef name => exact outlasts_utf8 p more name
  | _ => exact refl _

theorem outlasts_nameAndType (index : UInt16) :
    Except.Outlasts p.size (p.nameAndType index) ((p.grow more).nameAndType index) := by
  refine (outlasts_get p more index).bind fun c => ?_
  cases c with
  | nameAndType name descriptor =>
    exact (outlasts_utf8 p more name).bind fun _ => (outlasts_utf8 p more descriptor).map _
  | _ => exact refl _

theorem outlasts_member (index : UInt16) :
    Except.Outlasts p.size (p.member index) ((p.grow more).member index) := by
  refine (outlasts_get p more index).bind fun c => ?_
  cases c with
  | member kind owner signature =>
    exact (outlasts_className p more owner).bind fun _ => (outlasts_nameAndType p more signature).map _
  | _ => exact refl _

theorem outlasts_unowned (index signature : UInt16) :
    Except.Outlasts p.size (p.unowned index signature) ((p.grow more).unowned index signature) :=
  (outlasts_nameAndType p more signature).map _

/-- **What an index resolves to does not change when the pool grows.** -/
theorem outlasts_resolve (index : UInt16) :
    Except.Outlasts p.size (p.resolve index) ((p.grow more).resolve index) := by
  refine (outlasts_get p more index).bind fun c => ?_
  cases c with
  | utf8 | integer | float | long | double => exact refl _
  | classRef name => exact (outlasts_className p more index).map _
  | string text => exact (outlasts_utf8 p more text).map _
  | member kind owner signature => exact outlasts_member p more index
  | nameAndType name descriptor => exact outlasts_unowned p more index index
  | methodHandle kind reference => exact (outlasts_member p more reference).map _
  | methodType descriptor => exact (outlasts_utf8 p more descriptor).map _
  | dynamic bootstrap signature => exact outlasts_unowned p more index signature
  | invokeDynamic bootstrap signature => exact outlasts_unowned p more index signature
  | moduleRef name => exact (outlasts_utf8 p more name).map _
  | packageRef name => exact (outlasts_utf8 p more name).map _

end Pool

end JvmTrace
