import JvmTrace.Proofs.Bytes.Faults
import JvmTrace.Proofs.Instruction.Stream
import JvmTrace.Proofs.Pool.Resolve

/-!
# Faults of code — what is wrong where a decoder stops

A decoder that is called again and again gives instructions, then at most one error, and then nothing
for ever (`exists_stream`). The error says what is wrong with the byte at which the decoder stood
before the call that failed, and nothing is reported from anywhere else: `Fault` lists what can be
wrong, each with what the code must look like for it. The one error about another place is that of a
`wide` with nothing behind it, which is noticed at the end.

The list is put together from the inside. The operands of an instruction have faults of four kinds
(`Operand.Fault`); an instruction adds those of its opcode, and turns a lack of bytes into one of
its own; a decoder adds the `wide` that is left over.
-/

set_option autoImplicit false

namespace JvmTrace

/-! ## Operands -/

/-- The instructions with a count of cases. -/
def Layout.isSwitch : Layout → Bool
  | .tableSwitch => true
  | .lookupSwitch => true
  | _ => false

/-- The instructions that jump. -/
def Layout.jumps : Layout → Bool
  | .branch => true
  | .farBranch => true
  | layout => layout.isSwitch

/-- The operands in `bytes` begin with the index of a constant, in the width of the layout. -/
def Layout.Indexes (bytes : Bytes) (index : UInt16) : Layout → Prop
  | .shortConstant => ∃ b : UInt8, [b] <+: bytes ∧ index = b.toUInt16
  | .constant => BigEndian.u16 index <+: bytes
  | .interfaceCall => BigEndian.u16 index <+: bytes
  | .dynamicCall => BigEndian.u16 index <+: bytes
  | .arrayDimensions => BigEndian.u16 index <+: bytes
  | _ => False

theorem branchTarget_eq_error {offset : UInt32} {relative : Int32} {e : Error}
    (h : branchTarget offset relative = .error e) :
    e = .branchOutOfRange offset relative ∧
      ¬ (0 ≤ offset.toNat + relative.toInt ∧ offset.toNat + relative.toInt < UInt32.size) := by
  unfold branchTarget at h
  dsimp only at h
  split at h
  · cases h
  · next hrange =>
    cases h
    exact ⟨rfl, hrange⟩

namespace Operand

open Reader

/-- What can be wrong with the operands in `bytes`, in an instruction at `offset`. -/
inductive Fault (pool : Pool) (offset : UInt32) (bytes : Bytes) (layout : Layout) : Error → Prop where
  | short {position needed : Nat} : Fault pool offset bytes layout (.endOfInput position needed)
  | count (switch : layout.isSwitch = true) :
    Fault pool offset bytes layout (.negativeCaseCount offset)
  | jump {relative : Int32} (jumps : layout.jumps = true)
      (range : ¬ (0 ≤ offset.toNat + relative.toInt ∧
        offset.toNat + relative.toInt < UInt32.size)) :
      Fault pool offset bytes layout (.branchOutOfRange offset relative)
  | constant {index : UInt16} {e : Error} (indexes : layout.Indexes bytes index)
      (broken : pool.resolve index = .error e) : Fault pool offset bytes layout e

variable {pool : Pool} {offset : UInt32} {widened : Bool} {bytes : Bytes} {layout : Layout}

theorem Fault.of_isShort {e : Error} (h : e.IsShort) : Fault pool offset bytes layout e := by
  obtain ⟨position, needed, rfl⟩ := h
  exact .short

theorem raises_of_scarce {α : Type} {r : Reader α} (h : Scarce r) :
    Raises (Fault pool offset bytes layout) r :=
  h.imp fun _ => .of_isShort

theorem raises_jump (hjumps : layout.jumps = true) (relative : Int32) :
    Raises (Fault pool offset bytes layout) (Operand.jump offset relative) := by
  refine raises_map _ (raises_lift fun e h => ?_)
  obtain ⟨rfl, hrange⟩ := branchTarget_eq_error h
  exact .jump hjumps hrange

theorem raises_constant {index : UInt16} (hindexes : layout.Indexes bytes index) :
    Raises (Fault pool offset bytes layout) (Operand.constant pool index) :=
  raises_map _ (raises_lift fun _ h => .constant hindexes h)

theorem scarce_readSlot (widened : Bool) : Scarce (readSlot widened) := by
  unfold readSlot
  split
  · exact scarce_u16
  · exact raises_map _ scarce_u8

theorem scarce_readIncrement (widened : Bool) : Scarce (readIncrement widened) := by
  unfold readIncrement
  split
  · exact raises_map _ scarce_i16
  · exact raises_map _ scarce_i8

theorem raises_readTableSwitch (hswitch : layout.isSwitch = true) (hjumps : layout.jumps = true) :
    Raises (Fault pool offset bytes layout) (readTableSwitch offset) := by
  refine raises_bind (raises_of_scarce (scarce_align _ _)) fun _ =>
    raises_bind (raises_of_scarce scarce_i32) fun _ =>
    raises_bind (raises_of_scarce scarce_i32) fun _ =>
    raises_bind (raises_of_scarce scarce_i32) fun _ => raises_unless (.count hswitch) ?_
  refine raises_bind (raises_jump hjumps _) fun _ => raises_map _ (raises_times ?_ _)
  exact raises_bind (raises_of_scarce scarce_i32) fun _ => raises_jump hjumps _

theorem raises_readLookupSwitch (hswitch : layout.isSwitch = true) (hjumps : layout.jumps = true) :
    Raises (Fault pool offset bytes layout) (readLookupSwitch offset) := by
  refine raises_bind (raises_of_scarce (scarce_align _ _)) fun _ =>
    raises_bind (raises_of_scarce scarce_i32) fun _ =>
    raises_bind (raises_of_scarce scarce_i32) fun _ => raises_unless (.count hswitch) ?_
  refine raises_bind (raises_jump hjumps _) fun _ => raises_map _ (raises_times ?_ _)
  exact raises_bind (raises_of_scarce scarce_i32) fun _ =>
    raises_bind (raises_of_scarce scarce_i32) fun _ => raises_map _ (raises_jump hjumps _)

/-- Operands that begin with a two-byte index: what comes behind it may look at the index. -/
theorem fault_of_index {α : Type} {f : UInt16 → Reader α} {c c' : Cursor} {e : Error}
    (hf : ∀ index, BigEndian.u16 index <+: c.rest →
      Raises (Fault pool offset c.rest layout) (f index))
    (h : (u16 >>= f) c = .error e c') : Fault pool offset c.rest layout e := by
  rcases bind_eq_error.mp h with h | ⟨index, c₁, hindex, h⟩
  · exact .of_isShort (scarce_u16 c e c' h)
  · exact hf index (prefix_of_ok local_u16 (fun _ => reads_u16.mp) hindex) c₁ e c' h

/-- **The operands of an instruction have no other faults.** -/
theorem fault_of_readAll {c c' : Cursor} {e : Error}
    (h : readAll pool offset widened layout c = .error e c') :
    Fault pool offset c.rest layout e := by
  cases layout with
  | plain | wide => cases h
  | slot => exact .of_isShort (raises_map _ (scarce_readSlot widened) c e c' h)
  | increment =>
    refine .of_isShort (raises_bind (scarce_readSlot widened) (fun _ => ?_) c e c' h)
    exact raises_map _ (scarce_readIncrement widened)
  | shortConstant =>
    rcases bind_eq_error.mp h with h | ⟨b, c₁, hb, h⟩
    · exact .of_isShort (scarce_u8 c e c' h)
    · have hindexes : Layout.Indexes c.rest b.toUInt16 .shortConstant :=
        ⟨b, prefix_of_ok local_u8 (fun _ => reads_u8.mp) hb, rfl⟩
      exact raises_map _ (raises_constant hindexes) c₁ e c' h
  | constant => exact fault_of_index (fun _ hindex => raises_map _ (raises_constant hindex)) h
  | interfaceCall =>
    refine fault_of_index (fun _ hindex => ?_) h
    exact raises_bind (raises_of_scarce scarce_u8) fun _ =>
      raises_bind (raises_of_scarce (scarce_skip 1)) fun _ =>
        raises_map _ (raises_constant hindex)
  | dynamicCall =>
    refine fault_of_index (fun _ hindex => ?_) h
    exact raises_bind (raises_of_scarce (scarce_skip 2)) fun _ =>
      raises_map _ (raises_constant hindex)
  | arrayDimensions =>
    refine fault_of_index (fun _ hindex => ?_) h
    exact raises_bind (raises_of_scarce scarce_u8) fun _ => raises_map _ (raises_constant hindex)
  | byte => exact .of_isShort (raises_map _ scarce_i8 c e c' h)
  | short => exact .of_isShort (raises_map _ scarce_i16 c e c' h)
  | elementType => exact .of_isShort (raises_map _ scarce_u8 c e c' h)
  | branch =>
    exact raises_bind (raises_of_scarce scarce_i16) (fun _ => raises_map _ (raises_jump rfl _))
      c e c' h
  | farBranch =>
    exact raises_bind (raises_of_scarce scarce_i32) (fun _ => raises_map _ (raises_jump rfl _))
      c e c' h
  | tableSwitch => exact raises_readTableSwitch rfl rfl c e c' h
  | lookupSwitch => exact raises_readLookupSwitch rfl rfl c e c' h

end Operand

/-! ## Instructions -/

/-- **An instruction that cannot be read** has no opcode, has one that cannot be widened and should
be, or has one and faulty operands. -/
theorem Instruction.read_eq_error {pool : Pool} {widened : Bool} {p : Nat} {b : UInt8}
    {bytes : Bytes} {e : Error} {c : Cursor}
    (h : Instruction.read pool widened ⟨p, b :: bytes⟩ = .error e c) :
    (Opcode.ofByte? b = none ∧ e = .unknownOpcode b (UInt32.ofNat p)) ∨
    ∃ opcode, Opcode.ofByte? b = some opcode ∧
      ((widened = true ∧ opcode.layout.isWidenable = false ∧
          e = .notWidenable b (UInt32.ofNat p)) ∨
        ∃ e', Operand.Fault pool (UInt32.ofNat p) bytes opcode.layout e' ∧
          e = e'.asTruncated (UInt32.ofNat p) opcode.mnemonic) := by
  have hopcode : Reader.u8 ⟨p, b :: bytes⟩ = .ok b ⟨p + 1, bytes⟩ :=
    Reader.reads_u8.mpr rfl bytes
  change (Reader.u8 >>= readAfter pool widened (UInt32.ofNat p)) ⟨p, b :: bytes⟩ = .error e c at h
  rw [Reader.bind_eq, hopcode] at h
  dsimp only at h
  unfold readAfter at h
  cases hcode : Opcode.ofByte? b with
  | none =>
    rw [hcode] at h
    cases h
    exact Or.inl ⟨rfl, rfl⟩
  | some opcode =>
    rw [hcode] at h
    dsimp only at h
    refine Or.inr ⟨opcode, rfl, ?_⟩
    split at h
    · next hrefused =>
      simp only [Bool.and_eq_true, Bool.not_eq_true'] at hrefused
      cases h
      exact Or.inl ⟨hrefused.1, hrefused.2, rfl⟩
    · unfold readOperands at h
      rcases Reader.bind_eq_error.mp h with h | ⟨ops, c₁, -, h⟩
      · unfold Reader.mapError at h
        split at h
        · cases h
        · next e' _ hread =>
          cases h
          exact Or.inr ⟨e', Operand.fault_of_readAll hread, rfl⟩
      · cases h

/-! ## Decoders -/

namespace Decoder

variable {pool : Pool} {code : Bytes} {d d' : Decoder} {is : List Instruction} {e : Error}

/-- The byte at a place is `b`, and announces `opcode`. -/
structure Announces (code : Bytes) (place : Nat) (b : UInt8) (opcode : Opcode) : Prop where
  byte : code[place]? = some b
  listed : Opcode.ofByte? b = some opcode

/-- The last of the instructions is a `wide`. -/
def EndsWide (is : List Instruction) (last : Instruction) : Prop :=
  is.getLast? = some last ∧ last.mnemonic = "wide"

/-- What an error says about `code`, given by a decoder that stood at `offset` and has given `is`. -/
inductive Fault (pool : Pool) (code : Bytes) (is : List Instruction) (offset : UInt32) :
    Error → Prop where
  | unknownOpcode {b : UInt8} (byte : code[offset.toNat]? = some b)
      (unlisted : Opcode.ofByte? b = none) : Fault pool code is offset (.unknownOpcode b offset)
  | notWidenable {b : UInt8} {opcode : Opcode} {last : Instruction}
      (announced : Announces code offset.toNat b opcode)
      (narrow : opcode.layout.isWidenable = false) (wide : EndsWide is last) :
      Fault pool code is offset (.notWidenable b offset)
  | truncated {b : UInt8} {opcode : Opcode} (announced : Announces code offset.toNat b opcode) :
      Fault pool code is offset (.truncatedInstruction offset opcode.mnemonic)
  | caseCount {b : UInt8} {opcode : Opcode} (announced : Announces code offset.toNat b opcode)
      (switch : opcode.layout.isSwitch = true) :
      Fault pool code is offset (.negativeCaseCount offset)
  | branch {b : UInt8} {opcode : Opcode} {relative : Int32}
      (announced : Announces code offset.toNat b opcode) (jumps : opcode.layout.jumps = true)
      (negative : offset.toNat + relative.toInt < 0) :
      Fault pool code is offset (.branchOutOfRange offset relative)
  | constant {b : UInt8} {opcode : Opcode} {index : UInt16} {e : Error}
      (announced : Announces code offset.toNat b opcode)
      (indexes : opcode.layout.Indexes (code.drop (offset.toNat + 1)) index)
      (unresolved : pool.resolve index = .error e) (broken : e.IsBrokenReference) :
      Fault pool code is offset e
  | danglingWide {last : Instruction} (ends : offset.toNat = code.length)
      (wide : EndsWide is last) :
      Fault pool code is offset (.truncatedInstruction last.offset "wide")

theorem endsWide_of_widening {offset : UInt32} (h : Yields pool (start code) is d)
    (hphase : d.phase = .widening offset) :
    ∃ last, EndsWide is last ∧ last.offset = offset := by
  have hlast : Phase.ready.afterAll is = .widening offset := h.phase_eq.symm.trans hphase
  unfold Phase.afterAll at hlast
  cases hl : is.getLast? with
  | none =>
    rw [hl] at hlast
    cases hlast
  | some last =>
    rw [hl] at hlast
    simp only [Option.map_some, Option.getD_some, Phase.after] at hlast
    split at hlast
    · next hwide => exact ⟨last, ⟨hl, hwide⟩, Phase.widening.inj hlast⟩
    · cases hlast

theorem widened_iff_endsWide {widened : Bool} (h : Yields pool (start code) is d)
    (hphase : d.phase.expects = some widened) :
    widened = true ↔ ∃ last, EndsWide is last := by
  constructor
  · rintro rfl
    cases hd : d.phase with
    | widening offset =>
      obtain ⟨last, hlast, -⟩ := endsWide_of_widening h hd
      exact ⟨last, hlast⟩
    | ready | stopped =>
      rw [hd] at hphase
      cases hphase
  · rintro ⟨last, hlast, hwide⟩
    rw [h.phase_eq, Phase.afterAll, hlast] at hphase
    simp only [Option.map_some, Option.getD_some, Phase.after, if_pos hwide, Phase.expects,
      Option.some.injEq] at hphase
    exact hphase.symm

/-- An operand's fault is one of the code, in an instruction that a jump can only leave at the
front. -/
theorem Fault.of_operands {offset : UInt32} {b : UInt8} {opcode : Opcode}
    (hoffset : offset.toNat < 0x80000000) (announced : Announces code offset.toNat b opcode)
    (h : Operand.Fault pool offset (code.drop (offset.toNat + 1)) opcode.layout e) :
    Fault pool code is offset (e.asTruncated offset opcode.mnemonic) := by
  cases h with
  | short => exact .truncated announced
  | count switch => exact .caseCount announced switch
  | @jump relative jumps range =>
    have hsize : (UInt32.size : Int) = 4294967296 := rfl
    have hreach : relative.toInt < 0x80000000 := relative.toInt_lt
    exact .branch announced jumps (by omega)
  | constant indexes unresolved =>
    have hbroken := Pool.onlyBroken_resolve _ _ unresolved
    have hsame : e.asTruncated offset opcode.mnemonic = e := by
      rcases hbroken with ⟨_, rfl⟩ | ⟨_, _, _, rfl⟩ <;> rfl
    rw [hsame]
    exact .constant announced indexes unresolved hbroken

/-- **The error that ends a stream is about the place where it ended.** -/
theorem Yields.fault (hlen : code.length ≤ 0x80000000) (h : Yields pool (start code) is d)
    (herror : (d.next pool).1 = some (.error e)) : Fault pool code is d.offset e := by
  have hin : d.cursor.In code := h.inCode (Cursor.in_start code)
  have hoffset : d.offset.toNat = d.cursor.position := by
    apply UInt32.toNat_ofNat_of_lt'
    have hsize : UInt32.size = 4294967296 := rfl
    have := hin.position_le
    omega
  rcases next_eq_error.mp herror with
    ⟨offset, hphase, hend, rfl⟩ | ⟨widened, c, hphase, hrest, hread⟩
  · obtain ⟨last, hwide, rfl⟩ := endsWide_of_widening h hphase
    refine .danglingWide ?_ hwide
    have hle : code.length ≤ d.cursor.position := List.drop_eq_nil_iff.mp (hin.rest_eq ▸ hend)
    rw [hoffset]
    exact Nat.le_antisymm hin.position_le hle
  · -- The byte ahead and those behind it are the byte at the offset and those behind that.
    obtain ⟨b, rest, hcons⟩ := List.exists_cons_of_ne_nil hrest
    have hdrop : code.drop d.offset.toNat = b :: rest := by
      rw [hoffset, ← hin.rest_eq, hcons]
    have hbyte : code[d.offset.toNat]? = some b := by
      rw [← List.head?_drop, hdrop, List.head?_cons]
    have hbehind : rest = code.drop (d.offset.toNat + 1) := by
      rw [← List.drop_drop, hdrop, List.drop_one, List.tail_cons]
    have hlt : d.offset.toNat < 0x80000000 := by
      have := (List.getElem?_eq_some_iff.mp hbyte).1
      omega
    have hcursor : d.cursor = ⟨d.cursor.position, b :: rest⟩ := by rw [← hcons]
    rw [hcursor] at hread
    rcases Instruction.read_eq_error hread with
      ⟨hunlisted, rfl⟩ | ⟨opcode, hlisted, ⟨rfl, hnarrow, rfl⟩ | ⟨e', hfault, rfl⟩⟩
    · exact .unknownOpcode hbyte hunlisted
    · cases hd : d.phase with
      | widening offset =>
        obtain ⟨last, hwide, -⟩ := endsWide_of_widening h hd
        exact .notWidenable ⟨hbyte, hlisted⟩ hnarrow hwide
      | ready =>
        rw [hd] at hphase
        cases hphase
      | stopped =>
        rw [hd] at hphase
        cases hphase
    · rw [hbehind] at hfault
      exact .of_operands hlt ⟨hbyte, hlisted⟩ hfault

/-! ### Calling again and again -/

/-- The decoder after `n` calls. -/
def afterCalls (pool : Pool) : (n : Nat) → Decoder → Decoder
  | 0, d => d
  | n + 1, d => afterCalls pool n (d.next pool).2

/-- What the call after `n` others gives. -/
def call (pool : Pool) (n : Nat) (d : Decoder) : Option (Except Error Instruction) :=
  ((d.afterCalls pool n).next pool).1

theorem afterCalls_add (m n : Nat) (d : Decoder) :
    d.afterCalls pool (m + n) = (d.afterCalls pool m).afterCalls pool n := by
  induction m generalizing d with
  | zero => rw [Nat.zero_add]; rfl
  | succ m ih =>
    rw [Nat.add_right_comm]
    exact ih _

theorem Yields.afterCalls_eq (h : Yields pool d is d') : d.afterCalls pool is.length = d' := by
  induction h with
  | nil => rfl
  | cons head _ ih =>
    rw [List.length_cons, afterCalls, head]
    exact ih

theorem Yields.call_eq (h : Yields pool d is d') {n : Nat} {i : Instruction}
    (hn : is[n]? = some i) :
    d.call pool n = some (.ok i) ∧ i.offset = (d.afterCalls pool n).offset := by
  induction h generalizing n with
  | nil => cases hn
  | @cons d d₁ d' j is head _ ih =>
    cases n with
    | zero =>
      cases hn
      exact ⟨congrArg Prod.fst head, (next_ok_cases head).1⟩
    | succ n =>
      have hstep : d.afterCalls pool (n + 1) = d₁.afterCalls pool n := by rw [afterCalls, head]
      unfold call
      rw [hstep]
      exact ih hn

/-- Before the call that gives an instruction, the calls have given those in front of it. -/
theorem Yields.before (h : Yields pool d is d') {n : Nat} {i : Instruction} (hn : is[n]? = some i) :
    Yields pool d (is.take n) (d.afterCalls pool n) ∧
      ∃ d₁, (d.afterCalls pool n).next pool = (some (.ok i), d₁) := by
  induction h generalizing n with
  | nil => cases hn
  | @cons d d₁ d' j is head _ ih =>
    cases n with
    | zero =>
      cases hn
      exact ⟨.nil, d₁, head⟩
    | succ n =>
      have hstep : d.afterCalls pool (n + 1) = d₁.afterCalls pool n := by rw [afterCalls, head]
      obtain ⟨hfront, hnext⟩ := ih hn
      rw [hstep]
      exact ⟨.cons head hfront, hnext⟩

/-- A decoder that gives nothing stays as it is. -/
theorem next_of_none (h : (d.next pool).1 = none) : d.next pool = (none, d) := by
  unfold next at h ⊢
  split at h
  · rfl
  · rfl
  · cases h
  · cases h
  · cases h

theorem silent_of_none (h : (d.next pool).1 = none) (n : Nat) : d.call pool n = none := by
  have hstays : ∀ n, d.afterCalls pool n = d := by
    intro n
    induction n with
    | zero => rfl
    | succ n ih => rw [afterCalls, next_of_none h, ih]
  rw [call, hstays, h]

theorem next_of_stopped (h : d.phase = .stopped) : (d.next pool).1 = none := by
  simp only [next, h]

theorem next_after_error (h : (d.next pool).1 = some (.error e)) :
    (((d.next pool).2).next pool).1 = none := by
  apply next_of_stopped
  have hstep : ∀ widened, (d.step pool widened).1 = .error e →
      (d.step pool widened).2.phase = .stopped := by
    intro widened hstep
    unfold step at hstep ⊢
    split at hstep
    · cases hstep
    · rfl
  unfold next at h ⊢
  split at h
  · cases h
  · cases h
  · rfl
  · exact hstep false (by simpa using h)
  · exact hstep true (by simpa using h)

/-- How the calls go on after those that give `is`. -/
inductive Ending (pool : Pool) (code : Bytes) (is : List Instruction) : Prop where
  /-- The code has ended, and no call gives anything more. -/
  | complete (decoded : decode pool code = .ok is)
      (silent : ∀ n, is.length ≤ n → (start code).call pool n = none)
  /-- One call gives an error, and no call behind it gives anything more. -/
  | failed {e : Error} (decoded : decode pool code = .error e)
      (error : (start code).call pool is.length = some (.error e))
      (silent : ∀ n, is.length < n → (start code).call pool n = none)
      (fault : Fault pool code is ((start code).afterCalls pool is.length).offset e)

end Decoder

open Decoder in
/-- **A stream gives instructions, then at most one error, then nothing**, and its batch is what
`decode` gives. Each instruction carries the offset at which the decoder stood before the call; the
error is about the byte at which it stood, or about a `wide` that the end of the code has left
over. -/
theorem exists_stream (pool : Pool) {code : Bytes} (hlen : code.length ≤ 0x80000000) :
    ∃ is : List Instruction,
      (∀ n i, is[n]? = some i → (start code).call pool n = some (.ok i) ∧
        i.offset = ((start code).afterCalls pool n).offset) ∧
      Ending pool code is := by
  obtain ⟨is, d, hyields, hend⟩ := exists_yields pool (start code)
  have hd := hyields.afterCalls_eq
  refine ⟨is, fun n i => hyields.call_eq, ?_⟩
  rcases hend with hnone | ⟨e, herror⟩
  · refine .complete (decode_of_yields hyields hnone) fun n hn => ?_
    obtain ⟨m, rfl⟩ := Nat.exists_eq_add_of_le hn
    rw [call, afterCalls_add, hd]
    exact silent_of_none hnone m
  · refine .failed (decode_of_yields_error hyields herror) ?_ (fun n hn => ?_) ?_
    · rw [call, hd, herror]
    · obtain ⟨m, rfl⟩ := Nat.exists_eq_add_of_lt hn
      rw [call, Nat.add_assoc, afterCalls_add, hd]
      exact silent_of_none (next_after_error herror) m
    · rw [hd]
      exact hyields.fault hlen herror

-- `nop`, and a `wide` with nothing behind it.
open Decoder in
theorem exists_stream_dangling :
    decode .empty [0x00, 0xc4] = .error (.truncatedInstruction 1 "wide") ∧
      ∃ is : List Instruction,
        (∀ n i, is[n]? = some i → (start [0x00, 0xc4]).call .empty n = some (.ok i) ∧
          i.offset = ((start [0x00, 0xc4]).afterCalls .empty n).offset) ∧
        Ending .empty [0x00, 0xc4] is := by
  have hfirst : (start [0x00, 0xc4]).next .empty =
      (some (.ok ⟨0, "nop", []⟩), ⟨⟨1, [0xc4]⟩, .ready⟩) := by decide +kernel
  have hsecond : Decoder.next .empty ⟨⟨1, [0xc4]⟩, .ready⟩ =
      (some (.ok ⟨1, "wide", []⟩), ⟨⟨2, []⟩, .widening 1⟩) := by decide +kernel
  have hyields := Yields.cons hfirst (.cons hsecond .nil)
  exact ⟨decode_of_yields_error hyields rfl, exists_stream .empty (by decide)⟩

end JvmTrace
