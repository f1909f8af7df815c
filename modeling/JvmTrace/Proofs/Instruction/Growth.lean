import JvmTrace.Proofs.Instruction.Stream
import JvmTrace.Proofs.Pool.Growth

/-!
# Growth — code decodes as it did before its pool had more slots

A program is written against a pool that is still growing: an index is taken and put into the code, and
then more constants are added. `Pool/Growth.lean` says that the index goes on meaning the same. Here
that is carried through the decoder, from the one reader that looks into the pool (`Operand.constant`)
outwards, one level of the decoder at a time: operands, an instruction, a call, a run.

The relation is the same on every level. A run on the old pool that did not end in a look past the end
is a run on the new one, call for call. There is nothing to show about what lies behind such a look,
since it ends the run: an error is never passed over, and no level renames this one.
-/

set_option autoImplicit false

namespace JvmTrace

/-! ## Readers -/

/-- Wherever it stands, the second reader does what the first one does, unless that fails in a look
past `size` slots. -/
def Reader.Outlasts {α : Type} (size : Nat) (before after : Reader α) : Prop :=
  ∀ c, after c = before c ∨ ∃ e c', before c = .error e c' ∧ e.IsBeyond size

namespace Reader.Outlasts

variable {α β : Type} {size : Nat}

theorem refl (r : Reader α) : Outlasts size r r := fun _ => .inl rfl

theorem bind {r r' : Reader α} {f f' : α → Reader β} (h : Outlasts size r r')
    (hstep : ∀ a, Outlasts size (f a) (f' a)) : Outlasts size (r >>= f) (r' >>= f') := by
  intro c
  rw [bind_eq, bind_eq]
  rcases h c with hsame | ⟨e, c', hfails, he⟩
  · rw [hsame]
    cases r c with
    | ok a c₁ => exact hstep a c₁
    | error e c₁ => exact .inl rfl
  · rw [hfails]
    exact .inr ⟨e, c', rfl, he⟩

theorem bind_same {r : Reader α} {f f' : α → Reader β} (hstep : ∀ a, Outlasts size (f a) (f' a)) :
    Outlasts size (r >>= f) (r >>= f') :=
  (refl r).bind hstep

theorem map {r r' : Reader α} (f : α → β) (h : Outlasts size r r') :
    Outlasts size (r >>= fun a => pure (f a)) (r' >>= fun a => pure (f a)) :=
  h.bind fun _ => refl _

theorem lift {x x' : Except Error α} (h : Except.Outlasts size x x') :
    Outlasts size (Reader.lift x) (Reader.lift x') := by
  rcases h with rfl | ⟨e, rfl, he⟩
  · exact refl _
  · exact fun c => .inr ⟨e, c, rfl, he⟩

theorem asTruncated {offset : UInt32} {mnemonic : String} {r r' : Reader α}
    (h : Outlasts size r r') :
    Outlasts size (mapError (.asTruncated offset mnemonic) r)
      (mapError (.asTruncated offset mnemonic) r') := by
  intro c
  unfold mapError
  rcases h c with hsame | ⟨e, c', hfails, index, rfl, hbeyond⟩
  · rw [hsame]
    exact .inl rfl
  · rw [hfails]
    exact .inr ⟨.invalidIndex index, c', rfl, index, rfl, hbeyond⟩

end Reader.Outlasts

section

open Reader Outlasts

variable (p : Pool) (more : Array Slot)

theorem Operand.outlasts_constant (index : UInt16) :
    Outlasts p.size (constant p index) (constant (p.grow more) index) :=
  (lift (p.outlasts_resolve more index)).map _

theorem Operand.outlasts_readAll (offset : UInt32) (widened : Bool) (layout : Layout) :
    Outlasts p.size (readAll p offset widened layout)
      (readAll (p.grow more) offset widened layout) := by
  cases layout with
  | shortConstant => exact bind_same fun _ => (outlasts_constant p more _).map _
  | constant => exact bind_same fun _ => (outlasts_constant p more _).map _
  | interfaceCall =>
    exact bind_same fun _ => bind_same fun _ => bind_same fun _ => (outlasts_constant p more _).map _
  | dynamicCall =>
    exact bind_same fun _ => bind_same fun _ => (outlasts_constant p more _).map _
  | arrayDimensions =>
    exact bind_same fun _ => bind_same fun _ => (outlasts_constant p more _).map _
  -- The other layouts do not look into the pool.
  | _ => exact refl _

theorem Instruction.outlasts_read (widened : Bool) :
    Outlasts p.size (Instruction.read p widened) (Instruction.read (p.grow more) widened) := by
  refine bind_same fun c => bind_same fun code => ?_
  unfold readAfter
  cases Opcode.ofByte? code with
  | none => exact refl _
  | some opcode =>
    dsimp only
    split
    · exact refl _
    · exact (Operand.outlasts_readAll p more c.offset widened opcode.layout).asTruncated.map _

end

/-! ## Decoders -/

namespace Decoder

variable (p : Pool) (more : Array Slot) (d : Decoder)

theorem outlasts_step (widened : Bool) :
    d.step (p.grow more) widened = d.step p widened ∨
      ∃ e, (d.step p widened).1 = .error e ∧ e.IsBeyond p.size := by
  unfold step
  rcases Instruction.outlasts_read p more widened d.cursor with hsame | ⟨e, c, hfails, he⟩
  · rw [hsame]
    exact .inl rfl
  · rw [hfails]
    exact .inr ⟨e, rfl, he⟩

theorem outlasts_next :
    d.next (p.grow more) = d.next p ∨
      ∃ e, (d.next p).1 = some (.error e) ∧ e.IsBeyond p.size := by
  have hstep : ∀ widened, Prod.map some id (d.step (p.grow more) widened) =
      Prod.map some id (d.step p widened) ∨
      ∃ e, (Prod.map some id (d.step p widened)).1 = some (.error e) ∧ e.IsBeyond p.size := by
    intro widened
    rcases outlasts_step p more d widened with hsame | ⟨e, hfails, he⟩
    · exact .inl (by rw [hsame])
    · exact .inr ⟨e, congrArg some hfails, he⟩
  unfold next
  split
  · exact .inl rfl
  · exact .inl rfl
  · exact .inl rfl
  · exact hstep false
  · exact hstep true

/-- **A run on a pool is a run on the pool that has grown**, up to a look past the end. -/
theorem outlasts_runFrom (decoded : List Instruction) :
    d.runFrom (p.grow more) decoded = d.runFrom p decoded ∨
      ∃ e, (d.runFrom p decoded).failure = some e ∧ e.IsBeyond p.size := by
  induction decoded, d using runFrom.induct p with
  | case1 decoded d i d' hnext ih =>
    rcases outlasts_next p more d with hsame | ⟨e, hfails, he⟩
    · rw [runFrom_of_ok hnext, runFrom_of_ok (hsame.trans hnext)]
      exact ih
    · rw [hnext] at hfails
      cases hfails
  | case2 decoded d e d' hnext =>
    have herror : (d.next p).1 = some (.error e) := by rw [hnext]
    rcases outlasts_next p more d with hsame | ⟨e', hfails, he⟩
    · left
      rw [runFrom_of_error decoded herror, runFrom_of_error decoded (hsame ▸ herror)]
    · exact .inr ⟨e', by rw [runFrom_of_error decoded hfails], he⟩
  | case3 decoded d d' hnext =>
    rcases outlasts_next p more d with hsame | ⟨e, hfails, he⟩
    · left
      rw [runFrom_of_none hnext, runFrom_of_none (hsame.trans hnext)]
    · rw [hnext] at hfails
      cases hfails

end Decoder

theorem outlasts_decode (p : Pool) (more : Array Slot) (code : Bytes) :
    Except.Outlasts p.size (decode p code) (decode (p.grow more) code) := by
  have hrun := Decoder.outlasts_runFrom p more (Decoder.start code) []
  unfold decode decodeAll
  rcases hrun with hsame | ⟨e, hfails, he⟩
  · rw [hsame]
    exact .inl rfl
  · refine .inr ⟨e, ?_, he⟩
    simp only [hfails]

/-- **Growing the pool changes nothing that was settled.** An index resolves to what it did, and code
decodes to what it did, or fails with the same error; only a look past the end of the old pool may
come out otherwise. -/
theorem grow_keeps (p : Pool) (more : Array Slot) :
    (∀ index, (p.grow more).resolve index = p.resolve index ∨
      ∃ j : UInt16, p.resolve index = .error (.invalidIndex j) ∧ p.size < j.toNat) ∧
    (∀ code, decode (p.grow more) code = decode p code ∨
      ∃ j : UInt16, decode p code = .error (.invalidIndex j) ∧ p.size < j.toNat) := by
  have explicit : ∀ {α : Type} {x y : Except Error α}, Except.Outlasts p.size x y →
      y = x ∨ ∃ j : UInt16, x = .error (.invalidIndex j) ∧ p.size < j.toNat := by
    intro α x y h
    rcases h with hsame | ⟨e, hfails, j, rfl, hbeyond⟩
    · exact .inl hsame
    · exact .inr ⟨j, hfails, hbeyond⟩
  constructor
  · intro index
    exact explicit (p.outlasts_resolve more index)
  · intro code
    exact explicit (outlasts_decode p more code)

end JvmTrace
