import JvmTrace.Proofs.Instruction.Stream

/-!
# Truncation — code fails where it is cut

Code that decodes is cut at a place, and decoded again. The instructions in front of the cut come out
as before, since none of them looks ahead. What happens at the cut depends on where it falls:

- between two instructions, and the listing just ends there, unless the last one in front was a
  `wide`, which is then left over;
- within an instruction, and it is that one which is reported, whichever of its bytes are missing.

Operands are `Delimited`, so every cut of them is noticed for want of bytes; here that becomes the one
error of a truncated instruction. The induction follows the program: a cut in front of an item, in its
bytes or behind them (`Stands.cut`).
-/

set_option autoImplicit false

namespace JvmTrace

/-! ## Places in a listing -/

namespace Listing

/-- Where the first of `is` starts, or `stop` if there is none. -/
def startOf (is : List Instruction) (stop : Nat) : Nat :=
  (is.head?.map fun i => i.offset.toNat).getD stop

/-- The instructions that start in front of a place. -/
def before (is : List Instruction) (place : Nat) : List Instruction :=
  is.filter fun i => i.offset.toNat < place

/-- Whether an instruction starts at a place, or the code does, or ends. -/
def IsBoundary (code : Bytes) (is : List Instruction) (place : Nat) : Prop :=
  place = 0 ∨ place = code.length ∨ ∃ i ∈ is, i.offset.toNat = place

instance (code : Bytes) (is : List Instruction) (place : Nat) :
    Decidable (IsBoundary code is place) :=
  inferInstanceAs (Decidable (_ ∨ _ ∨ ∃ i ∈ is, i.offset.toNat = place))

/-- The byte at a place is one of those of `i`: it does not come before `i`, and it comes before the
next instruction or, if there is none, before the end. -/
def Occupies (code : Bytes) (is : List Instruction) (i : Instruction) (place : Nat) : Prop :=
  ∃ pre post, is = pre ++ i :: post ∧ i.offset.toNat ≤ place ∧ place < startOf post code.length

theorem before_append {kept rest : List Instruction} {place : Nat}
    (hkept : ∀ i ∈ kept, i.offset.toNat < place) (hrest : ∀ i ∈ rest, place ≤ i.offset.toNat) :
    before (kept ++ rest) place = kept := by
  have hnone : rest.filter (fun i => i.offset.toNat < place) = [] := by
    rw [List.filter_eq_nil_iff]
    intro i hi
    have := hrest i hi
    simp only [decide_eq_true_eq]
    omega
  have hall : kept.filter (fun i => i.offset.toNat < place) = kept := by
    rw [List.filter_eq_self]
    intro i hi
    simpa using hkept i hi
  rw [before, List.filter_append, hall, hnone, List.append_nil]

end Listing

/-! ## A cut within an instruction -/

namespace Instruction

open Reader

/-- **A cut behind the opcode of an instruction and before its end truncates it.** -/
theorem read_cut {pool : Pool} {widened w : Bool} {p k : Nat} {bytes : Bytes} {i : Instruction}
    (h : Reads (Instruction.read pool widened) p bytes (i, w)) (hpos : 0 < k)
    (hk : k < bytes.length) :
    ∃ c, Instruction.read pool widened ⟨p, bytes.take k⟩ =
      .error (.truncatedInstruction i.offset i.mnemonic) c := by
  obtain ⟨opcode, ops, rest, hmem, rfl, hwiden, hops, rfl, -⟩ := reads_read.mp h
  obtain ⟨k, rfl⟩ := Nat.exists_eq_add_of_le' hpos
  have hk' : k < rest.length := by simpa using hk
  -- The opcode is there, so the decoder gets as far as the operands, and those run short.
  obtain ⟨position, needed, c, hshort, -⟩ :=
    (Operand.delimited_readAll _ _ _ _).runsShort hops k hk'
  have hopcode : u8 ⟨p, opcode.code :: rest.take k⟩ = .ok opcode.code ⟨p + 1, rest.take k⟩ :=
    reads_u8.mpr rfl (rest.take k)
  have haccepted : ¬ (widened && !opcode.layout.isWidenable) = true := by
    cases widened with
    | false => simp
    | true => simp [hwiden rfl]
  refine ⟨c, ?_⟩
  rw [List.take_succ_cons]
  change (u8 >>= readAfter pool widened (UInt32.ofNat p)) ⟨p, opcode.code :: rest.take k⟩ = _
  rw [bind_eq, hopcode]
  simp only [readAfter, Opcode.ofByte?_code hmem, if_neg haccepted, readOperands, bind_eq, mapError,
    hshort, Error.asTruncated]

end Instruction

/-! ## A cut anywhere in a program -/

open Decoder Listing

/-- What the decoder `d`, in front of code that is cut at `cut`, makes of a listing that ends at
`stop` when the code is whole. -/
inductive Decoder.Cut (pool : Pool) (d : Decoder) (is : List Instruction) (stop cut : Nat) : Prop where
  /-- The cut falls between two instructions, or at an end. -/
  | between {kept rest : List Instruction} {d' : Decoder} (split : is = kept ++ rest)
      (yields : Yields pool d kept d') (ends : d'.cursor.rest = [])
      (place : startOf rest stop = cut)
      (behind : ∀ i ∈ kept, i.offset.toNat < cut) (ahead : ∀ i ∈ rest, cut ≤ i.offset.toNat)
  /-- The cut falls within `i`. -/
  | within {kept rest : List Instruction} {i : Instruction} {d' : Decoder}
      (split : is = kept ++ i :: rest) (yields : Yields pool d kept d')
      (fails : (d'.next pool).1 = some (.error (.truncatedInstruction i.offset i.mnemonic)))
      (starts : i.offset.toNat < cut) (ends : cut < startOf rest stop) (inside : cut < stop)
      (behind : ∀ j ∈ kept, j.offset.toNat < cut) (ahead : ∀ j ∈ rest, cut < j.offset.toNat)

theorem Decoder.Cut.cons {pool : Pool} {d d' : Decoder} {i : Instruction} {is : List Instruction}
    {stop cut : Nat} (h : d'.Cut pool is stop cut) (head : d.next pool = (some (.ok i), d'))
    (hi : i.offset.toNat < cut) : d.Cut pool (i :: is) stop cut := by
  cases h with
  | between split yields ends place behind ahead =>
    refine .between (by rw [split, List.cons_append]) (.cons head yields) ends place ?_ ahead
    exact List.forall_mem_cons.mpr ⟨hi, behind⟩
  | within split yields fails starts ends inside behind ahead =>
    refine .within (by rw [split, List.cons_append]) (.cons head yields) fails starts ends inside ?_
      ahead
    exact List.forall_mem_cons.mpr ⟨hi, behind⟩

namespace Program

variable {pool : Pool} {widened : Bool} {start : Nat} {items : List Item} {bytes : Bytes}
  {is : List Instruction}

theorem Stands.startOf_eq (h : Stands pool widened start items bytes is) :
    startOf is (start + bytes.length) = start := by
  cases h with
  | nil => rfl
  | cons head _ => exact head.means.offset

/-- **Where a cut falls, and what comes of it.** -/
theorem Stands.cut (h : Stands pool widened start items bytes is) :
    ∀ (phase : Phase) (k : Nat), phase.expects = some widened → k ≤ bytes.length →
      start + bytes.length < UInt32.size →
      Decoder.Cut pool ⟨⟨start, bytes.take k⟩, phase⟩ is (start + bytes.length) (start + k) := by
  induction h with
  | nil =>
    intro phase k _ hk _
    obtain rfl : k = 0 := by simpa using hk
    exact .between (List.nil_append _).symm .nil rfl rfl (by simp) (by simp)
  | @cons start item items xs ys i is head tail ih =>
    intro phase k hphase hk hlen
    rw [List.length_append] at hk hlen ⊢
    have hoffset : i.offset.toNat = start := head.means.offset
    have hlater := tail.pairwise_offset.1
    by_cases hnone : k = 0
    · -- In front of the item: nothing is left of it.
      subst hnone
      refine .between (List.nil_append _).symm .nil rfl hoffset (by simp) ?_
      refine List.forall_mem_cons.mpr ⟨Nat.le_of_eq hoffset.symm, fun j hj => ?_⟩
      exact Nat.le_trans (Nat.le_add_right _ _) (hlater j hj)
    · by_cases hcut : k < xs.length
      · -- In the bytes of the item.
        rw [List.take_append_of_le_length (Nat.le_of_lt hcut)]
        have hreads := (Instruction.reads_instruction (by omega)).mpr ⟨item, rfl, head, rfl⟩
        obtain ⟨c, hread⟩ := Instruction.read_cut hreads (Nat.pos_of_ne_zero hnone) hcut
        have hbehind := tail.startOf_eq
        refine .within (List.nil_append _).symm .nil ?_ (by omega) ?_ (by omega) (by simp)
          fun j hj => ?_
        · refine next_eq_error.mpr (Or.inr ⟨_, c, hphase, ?_, hread⟩)
          intro hempty
          have := List.take_eq_nil_iff.mp hempty
          rcases this with h | h
          · exact hnone h
          · rw [h] at hcut
            exact absurd hcut (Nat.not_lt_zero k)
        · rw [← Nat.add_assoc, hbehind]
          omega
        · have := hlater j hj
          omega
      · -- Behind the item: it is decoded, and the rest of the program is cut.
        obtain ⟨k, rfl⟩ := Nat.exists_eq_add_of_le (Nat.le_of_not_lt hcut)
        rw [List.take_length_add_append]
        have hnext := next_of_stands head (by omega) hphase (ys.take k)
        have hrest := ih _ k (Phase.expects_after item.widens i.offset) (by omega) (by omega)
        rw [← Nat.add_assoc, ← Nat.add_assoc]
        exact hrest.cons hnext (by omega)

end Program

/-! ## A cut anywhere in a code array -/

/-- What comes of code that ends after `is`. -/
theorem decode_of_yields_to_end {pool : Pool} {code : Bytes} {is : List Instruction} {d : Decoder}
    (h : Yields pool (Decoder.start code) is d) (hend : d.cursor.rest = []) :
    ((∀ last, is.getLast? = some last → last.mnemonic ≠ "wide") → decode pool code = .ok is) ∧
      ∀ last, is.getLast? = some last → last.mnemonic = "wide" →
        decode pool code = .error (.truncatedInstruction last.offset "wide") := by
  have hphase : d.phase = Phase.ready.afterAll is := h.phase_eq
  constructor
  · intro hwide
    refine decode_of_yields h ?_
    have hready : d.phase = .ready := by
      rw [hphase, Phase.afterAll]
      cases hlast : is.getLast? with
      | none => rfl
      | some last => exact if_neg (hwide last hlast)
    simp [next, hready, Cursor.atEnd, hend]
  · intro last hlast hwide
    refine decode_of_yields_error h (next_eq_error.mpr (Or.inl ⟨last.offset, ?_, hend, rfl⟩))
    rw [hphase, Phase.afterAll, hlast]
    exact if_pos hwide

/-- **Code fails where it is cut.** Let `code` decode to `is`, and cut it at `k`. Between two
instructions the cut leaves those in front of it, unless the last of them is a `wide`, which is then
reported as truncated; anywhere else, the instruction whose bytes hold the place of the cut is. -/
theorem decode_take {pool : Pool} {code : Bytes} {is : List Instruction} {k : Nat}
    (hlen : code.length < UInt32.size) (h : decode pool code = .ok is) (hk : k ≤ code.length) :
    (IsBoundary code is k →
      (∀ last, (before is k).getLast? = some last → last.mnemonic ≠ "wide") →
        decode pool (code.take k) = .ok (before is k)) ∧
    (IsBoundary code is k →
      ∀ last, (before is k).getLast? = some last → last.mnemonic = "wide" →
        decode pool (code.take k) = .error (.truncatedInstruction last.offset "wide")) ∧
    (¬ IsBoundary code is k →
      ∃ i, Occupies code is i k ∧
        decode pool (code.take k) = .error (.truncatedInstruction i.offset i.mnemonic)) := by
  obtain ⟨items, hstands⟩ := (decode_eq_ok_iff hlen).mp h
  have hcut := hstands.cut .ready k rfl hk (by omega)
  rw [Nat.zero_add, Nat.zero_add] at hcut
  cases hcut with
  | @between kept rest d split yields ends place behind ahead =>
    have hbefore : before is k = kept := by
      rw [split]
      exact before_append behind ahead
    have hboundary : IsBoundary code is k := by
      cases rest with
      | nil => exact Or.inr (Or.inl place.symm)
      | cons i rest => exact Or.inr (Or.inr ⟨i, by simp [split], place⟩)
    obtain ⟨hready, hwide⟩ := decode_of_yields_to_end yields ends
    rw [hbefore]
    exact ⟨fun _ => hready, fun _ => hwide, fun hnot => absurd hboundary hnot⟩
  | @within kept rest i d split yields fails starts ends inside behind ahead =>
    have hnot : ¬ IsBoundary code is k := by
      rintro (hzero | hend | ⟨j, hj, hplace⟩)
      · omega
      · omega
      · rw [split, List.mem_append, List.mem_cons] at hj
        rcases hj with hj | rfl | hj
        · have := behind j hj
          omega
        · omega
        · have := ahead j hj
          omega
    refine ⟨fun hb => absurd hb hnot, fun hb => absurd hb hnot, fun _ => ⟨i, ?_, ?_⟩⟩
    · exact ⟨kept, rest, split, Nat.le_of_lt starts, ends⟩
    · exact decode_of_yields_error yields fails

-- Between two instructions, behind the `wide`, and in the count of the cases.
theorem decode_take_sample :
    decode Program.samplePool Program.sampleCode = .ok Program.sampleListing ∧
      decode Program.samplePool (Program.sampleCode.take 7) = .ok (before Program.sampleListing 7) ∧
      decode Program.samplePool (Program.sampleCode.take 1) =
        .error (.truncatedInstruction 0 "wide") ∧
      ∃ i, Occupies Program.sampleCode Program.sampleListing i 22 ∧
        decode Program.samplePool (Program.sampleCode.take 22) =
          .error (.truncatedInstruction i.offset i.mnemonic) := by
  have hcode := Program.decode_sampleCode
  refine ⟨hcode, ?_, ?_, ?_⟩
  · exact (decode_take (by decide) hcode (by decide)).1 (by decide)
      (by simp [before, Program.sampleListing])
  · exact (decode_take (by decide) hcode (by decide)).2.1 (by decide) ⟨0, "wide", []⟩ (by decide) rfl
  · exact (decode_take (by decide) hcode (by decide)).2.2 (by decide)

end JvmTrace
