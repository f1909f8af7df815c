import JvmTrace.Proofs.Instruction.Decode

/-!
# The stream of a decoder — instructions, and then nothing more

`Decoder.next` is called again and again. `Yields d is d'` says that the calls from `d` on give the
instructions `is`, one each, and leave the decoder at `d'`. It is what a run is made of, whether it
ends well or not, and it says nothing about how: `Program.Stands` is about code that decodes to its
end, `Yields` about any code, up to any point.

What one call does is said once, in `next_ok_cases`. Everything else here follows from it along the
derivation: where a decoder stands in the code, what phase it is in, and that a run goes on from
wherever the calls have left it.
-/

set_option autoImplicit false

namespace JvmTrace

/-- The cursor stands in `code`, with nothing lost or made up. -/
structure Cursor.In (code : Bytes) (c : Cursor) : Prop where
  position_le : c.position ≤ code.length
  rest_eq : c.rest = code.drop c.position

theorem Cursor.in_start (code : Bytes) : (Cursor.start code).In code := ⟨Nat.zero_le _, rfl⟩

/-- Moving over some of the bytes ahead does not leave the code. -/
theorem Cursor.In.advance {code used : Bytes} {c c' : Cursor} (h : c.In code)
    (hrest : c.rest = used ++ c'.rest) (hpos : c'.position = c.position + used.length) :
    c'.In code := by
  have hdrop : code.drop c.position = used ++ c'.rest := h.rest_eq.symm.trans hrest
  have hlen : code.length - c.position = used.length + c'.rest.length := by
    rw [← List.length_drop, hdrop, List.length_append]
  refine ⟨?_, ?_⟩
  · have := h.position_le
    omega
  · rw [hpos, ← List.drop_drop, hdrop, List.drop_left]

/-- The phase that an instruction leaves behind. -/
def Phase.after (i : Instruction) : Phase :=
  if i.mnemonic = "wide" then .widening i.offset else .ready

/-- The phase that a listing leaves behind, in a decoder that was in `phase` before it. -/
def Phase.afterAll (phase : Phase) (is : List Instruction) : Phase :=
  (is.getLast?.map Phase.after).getD phase

@[simp] theorem Phase.afterAll_nil (phase : Phase) : phase.afterAll [] = phase := rfl

@[simp] theorem Phase.afterAll_cons (phase : Phase) (i : Instruction) (is : List Instruction) :
    phase.afterAll (i :: is) = (Phase.after i).afterAll is := by
  unfold afterAll
  rw [List.getLast?_cons]
  cases is.getLast? <;> rfl

namespace Decoder

open Reader

variable {pool : Pool} {code : Bytes} {d d' : Decoder} {i : Instruction} {is : List Instruction}

/-- **What one call does when it gives an instruction.** It reads the instruction that stands at the
cursor, stops right behind it, and keeps of it only whether the next one is to be widened. -/
theorem next_ok_cases (h : d.next pool = (some (.ok i), d')) :
    i.offset = d.offset ∧ d'.phase = Phase.after i ∧
      ∃ used, d.cursor.rest = used ++ d'.cursor.rest ∧
        d'.cursor.position = d.cursor.position + used.length := by
  obtain ⟨widened, -, hstep⟩ := next_eq_ok.mp h
  obtain ⟨w, c, hread, rfl⟩ := step_eq_ok.mp hstep
  obtain ⟨used, hrest, hpos, hused⟩ :=
    Instruction.local_read pool widened d.cursor.position d.cursor.rest (i, w) c hread
  obtain ⟨opcode, ops, rest, hmem, -, -, -, rfl, rfl⟩ := Instruction.reads_read.mp hused
  refine ⟨rfl, ?_, used, hrest, hpos⟩
  simp only [Phase.after, beq_iff_eq, Opcode.layout_eq_wide_iff hmem]

/-- What a call that gives `i` found at the cursor: an opcode of the table, and behind it `bytes`, which
are a written form of the arguments. Nothing is said about how long the code is, so the start of the
instruction is what its offset says. -/
structure Found (pool : Pool) (d d' : Decoder) (i : Instruction) (opcode : Opcode) (args : Arguments)
    (bytes : Bytes) : Prop where
  listed : opcode ∈ Opcode.all
  shaped : args.layout = opcode.layout
  form : d.phase.expects = some args.isWidened
  rest : d.cursor.rest = opcode.code :: (bytes ++ d'.cursor.rest)
  mnemonic : i.mnemonic = opcode.mnemonic
  stands : args.Stands pool d.offset.toNat (d.cursor.position + 1) bytes i.operands

theorem exists_found (h : d.next pool = (some (.ok i), d')) :
    ∃ opcode args bytes, Found pool d d' i opcode args bytes := by
  obtain ⟨widened, hphase, hstep⟩ := next_eq_ok.mp h
  obtain ⟨w, c, hread, rfl⟩ := step_eq_ok.mp hstep
  obtain ⟨used, hrest, -, hused⟩ :=
    Instruction.local_read pool widened d.cursor.position d.cursor.rest (i, w) c hread
  obtain ⟨opcode, ops, bytes, hmem, rfl, hwiden, hops, rfl, rfl⟩ := Instruction.reads_read.mp hused
  obtain ⟨args, hlayout, rfl, hstands⟩ := Operand.exists_arguments hwiden hops
  exact ⟨opcode, args, bytes, hmem, hlayout, hphase, hrest, rfl, hstands⟩

/-- The calls from `d` on give `is`, and leave the decoder at the last place. -/
inductive Yields (pool : Pool) : Decoder → List Instruction → Decoder → Prop where
  | nil {d : Decoder} : Yields pool d [] d
  | cons {d d' d'' : Decoder} {i : Instruction} {is : List Instruction}
      (head : d.next pool = (some (.ok i), d')) (tail : Yields pool d' is d'') :
      Yields pool d (i :: is) d''

theorem Yields.inCode (h : Yields pool d is d') (hd : d.cursor.In code) : d'.cursor.In code := by
  induction h with
  | nil => exact hd
  | cons head _ ih =>
    obtain ⟨-, -, used, hrest, hpos⟩ := next_ok_cases head
    exact ih (hd.advance hrest hpos)

theorem Yields.phase_eq (h : Yields pool d is d') : d'.phase = d.phase.afterAll is := by
  induction h with
  | nil => rfl
  | cons head _ ih => rw [ih, (next_ok_cases head).2.1, Phase.afterAll_cons]

/-- A run goes on from where the calls have left it. -/
theorem Yields.runFrom_eq (h : Yields pool d is d') (decoded : List Instruction) :
    d.runFrom pool decoded = d'.runFrom pool (is.reverse ++ decoded) := by
  induction h generalizing decoded with
  | nil => rfl
  | cons head _ ih =>
    rw [runFrom_of_ok head, ih, List.reverse_cons, List.append_assoc, List.singleton_append]

theorem runFrom_of_error {e : Error} (decoded : List Instruction)
    (h : (d.next pool).1 = some (.error e)) :
    d.runFrom pool decoded = ⟨decoded.reverse, some e⟩ := by
  rw [runFrom]
  split <;> simp_all

/-- A call fails at the end of the code when a `wide` is left over, and before it when no instruction
can be read. -/
theorem next_eq_error {e : Error} :
    (d.next pool).1 = some (.error e) ↔
      (∃ offset, d.phase = .widening offset ∧ d.cursor.rest = [] ∧
        e = .truncatedInstruction offset "wide") ∨
      ∃ widened c, d.phase.expects = some widened ∧ d.cursor.rest ≠ [] ∧
        Instruction.read pool widened d.cursor = .error e c := by
  have hstep : ∀ widened, (d.step pool widened).1 = .error e ↔
      ∃ c, Instruction.read pool widened d.cursor = .error e c := by
    intro widened
    unfold step
    cases Instruction.read pool widened d.cursor <;> simp
  unfold next
  cases d.phase with
  | stopped => simp [Phase.expects]
  | ready =>
    cases hrest : d.cursor.rest with
    | nil => simp [Cursor.atEnd, hrest]
    | cons b rest => simp [Cursor.atEnd, hrest, Phase.expects, hstep]
  | widening offset =>
    cases hrest : d.cursor.rest with
    | nil => simp [Cursor.atEnd, hrest, eq_comm]
    | cons b rest => simp [Cursor.atEnd, hrest, Phase.expects, hstep]

/-- **Every decoder comes to an end**: after some instructions it gives no further one. -/
theorem exists_yields (pool : Pool) (d : Decoder) :
    ∃ is d', Yields pool d is d' ∧
      ((d'.next pool).1 = none ∨ ∃ e, (d'.next pool).1 = some (.error e)) := by
  induction [], d using runFrom.induct pool with
  | case1 decoded d i d' hnext ih =>
    obtain ⟨is, last, hyields, hend⟩ := ih
    exact ⟨i :: is, last, .cons hnext hyields, hend⟩
  | case2 decoded d e d' hnext => exact ⟨[], d, .nil, Or.inr ⟨e, by rw [hnext]⟩⟩
  | case3 decoded d d' hnext => exact ⟨[], d, .nil, Or.inl (by rw [hnext])⟩

end Decoder

/-! ## What comes of decoding, by how the stream ends -/

open Decoder in
theorem decode_of_yields {pool : Pool} {code : Bytes} {is : List Instruction} {d : Decoder}
    (h : Yields pool (Decoder.start code) is d) (hend : (d.next pool).1 = none) :
    decode pool code = .ok is := by
  have hrun : decodeAll pool code = ⟨is, none⟩ := by
    unfold decodeAll
    rw [h.runFrom_eq, runFrom_of_none (Prod.ext hend rfl)]
    simp
  simp only [decode, hrun]

open Decoder in
theorem decode_of_yields_error {pool : Pool} {code : Bytes} {is : List Instruction} {d : Decoder}
    {e : Error} (h : Yields pool (Decoder.start code) is d)
    (hend : (d.next pool).1 = some (.error e)) : decode pool code = .error e := by
  have hrun : decodeAll pool code = ⟨is, some e⟩ := by
    unfold decodeAll
    rw [h.runFrom_eq, runFrom_of_error _ hend]
    simp
  simp only [decode, hrun]

open Decoder in
theorem yields_of_decode {pool : Pool} {code : Bytes} {is : List Instruction}
    (h : decode pool code = .ok is) :
    ∃ d, Yields pool (Decoder.start code) is d ∧ (d.next pool).1 = none := by
  obtain ⟨is', d, hyields, hnone | ⟨e, herror⟩⟩ := exists_yields pool (Decoder.start code)
  · have hdecode := decode_of_yields hyields hnone
    rw [h] at hdecode
    cases hdecode
    exact ⟨d, hyields, hnone⟩
  · have hdecode := decode_of_yields_error hyields herror
    rw [h] at hdecode
    cases hdecode

/-! ## Increasing offsets -/

/-- The instructions of a program stand at increasing offsets, from its start on. -/
theorem Program.Stands.pairwise_offset {pool : Pool} {widened : Bool} {start : Nat}
    {items : List Item} {bytes : Bytes} {is : List Instruction}
    (h : Program.Stands pool widened start items bytes is) :
    (∀ i ∈ is, start ≤ i.offset.toNat) ∧ is.Pairwise fun i j => i.offset < j.offset := by
  induction h with
  | nil => exact ⟨by simp, .nil⟩
  | @cons start item items xs ys i is head _ ih =>
    obtain ⟨hfrom, hpairs⟩ := ih
    have hoffset : i.offset.toNat = start := head.means.offset
    have hsize := head.length_pos
    constructor
    · intro j hj
      rcases List.mem_cons.mp hj with rfl | hj
      · exact Nat.le_of_eq hoffset.symm
      · exact Nat.le_trans (Nat.le_add_right _ _) (hfrom j hj)
    · refine .cons (fun j hj => ?_) hpairs
      have hlater := hfrom j hj
      exact UInt32.lt_iff_toNat_lt.mpr (by omega)

theorem pairwise_offset_of_decode {pool : Pool} {code : Bytes} {is : List Instruction}
    (hlen : code.length < UInt32.size) (h : decode pool code = .ok is) :
    is.Pairwise fun i j => i.offset < j.offset := by
  obtain ⟨items, hstands⟩ := (decode_eq_ok_iff hlen).mp h
  exact hstands.pairwise_offset.2

end JvmTrace
