import JvmTrace.Proofs.Instruction.Decode

/-!
# Relocation — code means the same a multiple of four further on

Two things in an instruction depend on where it stands: the padding of a switch, which only looks at
the position up to multiples of four, and the offsets that it mentions, its own and those it jumps to.
So a program that is moved by a multiple of four is written with the same bytes, and stands for the
same instructions with that much added to every offset (`Stands.moved`). Nothing goes from one program
to the next but a `wide`, and no program ends with one; so two programs written one after the other are
one program (`Stands.append`).

Moving far enough makes a target too large for 32 bits. Up to half that range nothing does, because a
jump reaches no further than the other half.
-/

set_option autoImplicit false

namespace JvmTrace

/-! ## Moving instructions -/

/-- `op'` is `op`, with `n` added where it is the offset of an instruction. -/
def Operand.Moved (n : Nat) : (op op' : Operand) → Prop
  | .target offset, op' => ∃ offset', op' = .target offset' ∧ offset'.toNat = offset.toNat + n
  | op, op' => op' = op

/-- `j` is `i`, with `n` added to its offset and to the offsets that it jumps to. -/
structure Instruction.Moved (n : Nat) (i j : Instruction) : Prop where
  offset : j.offset.toNat = i.offset.toNat + n
  mnemonic : j.mnemonic = i.mnemonic
  operands : List.Forall₂ (Operand.Moved n) i.operands j.operands

/-! ## What stands at another place -/

theorem Written.Means.moved {pool : Pool} {start n : Nat} {w : Written} {op : Operand}
    (h : w.Means pool start op) (hn : start + n < 0x80000000) :
    ∃ op', Operand.Moved n op op' ∧ w.Means pool (start + n) op' := by
  cases w with
  | slot number =>
    rw [means_slot] at h
    exact ⟨op, by rw [h]; rfl, means_slot.mpr h⟩
  | immediate value =>
    rw [means_immediate] at h
    exact ⟨op, by rw [h]; rfl, means_immediate.mpr h⟩
  | constant index =>
    obtain ⟨s, hs, rfl⟩ := means_constant.mp h
    exact ⟨.symbol s, rfl, means_constant.mpr ⟨s, hs, rfl⟩⟩
  | displacement distance =>
    obtain ⟨offset, hoffset, rfl⟩ := means_displacement.mp h
    -- The jump starts in the lower half of the range and is shorter than that half.
    have hreach : distance.toInt < 0x80000000 := distance.toInt_lt
    have hsum : (UInt32.ofNat (offset.toNat + n)).toNat = offset.toNat + n := by
      apply UInt32.toNat_ofNat_of_lt'
      show offset.toNat + n < 4294967296
      omega
    refine ⟨_, ⟨UInt32.ofNat (offset.toNat + n), rfl, hsum⟩, ?_⟩
    refine means_displacement.mpr ⟨_, ?_, rfl⟩
    rw [hsum]
    omega

theorem Written.exists_moved {pool : Pool} {start n : Nat} {ws : List Written} {ops : List Operand}
    (h : List.Forall₂ (Written.Means pool start) ws ops) (hn : start + n < 0x80000000) :
    ∃ ops', List.Forall₂ (Operand.Moved n) ops ops' ∧
      List.Forall₂ (Written.Means pool (start + n)) ws ops' := by
  induction h with
  | nil => exact ⟨[], .nil, .nil⟩
  | cons hw _ ih =>
    obtain ⟨op', hop, hw'⟩ := hw.moved hn
    obtain ⟨ops', hops, hws⟩ := ih
    exact ⟨op' :: ops', .cons hop hops, .cons hw' hws⟩

theorem Arguments.switchPadding_add {n : Nat} (haligned : 4 ∣ n) (position : Nat) :
    switchPadding (position + n) = switchPadding position := by
  unfold switchPadding
  omega

theorem Arguments.template_add {n : Nat} (haligned : 4 ∣ n) (position : Nat) (args : Arguments) :
    args.template (position + n) = args.template position := by
  cases args with
  | tableSwitch default low high cases => simp only [template, switchPadding_add haligned]
  | lookupSwitch default cases => simp only [template, switchPadding_add haligned]
  | _ => rfl

theorem Item.template_add {n : Nat} (haligned : 4 ∣ n) (start : Nat) (item : Item) :
    item.template (start + n) = item.template start := by
  unfold Item.template
  rw [Nat.add_right_comm, Arguments.template_add haligned]

theorem Item.Stands.moved {pool : Pool} {start n : Nat} {item : Item} {bytes : Bytes}
    {i : Instruction} (h : item.Stands pool start bytes i) (haligned : 4 ∣ n)
    (hn : start + n < 0x80000000) :
    ∃ j, Instruction.Moved n i j ∧ item.Stands pool (start + n) bytes j := by
  obtain ⟨ops, hmoved, hmeans⟩ := Written.exists_moved h.means.operands hn
  have hoffset : (UInt32.ofNat (start + n)).toNat = start + n := by
    apply UInt32.toNat_ofNat_of_lt'
    show start + n < 4294967296
    omega
  refine ⟨⟨UInt32.ofNat (start + n), i.mnemonic, ops⟩, ⟨?_, rfl, hmoved⟩, h.counted, ?_,
    hoffset, h.means.mnemonic, hmeans⟩
  · rw [h.means.offset]
    exact hoffset
  · rw [Item.template_add haligned]
    exact h.written

namespace Program

variable {pool : Pool} {widened : Bool} {start : Nat} {items items' : List Item} {xs ys : Bytes}
  {is js : List Instruction}

/-- **A program can be moved by a multiple of four**, as far as its jumps can be. -/
theorem Stands.moved {n : Nat} (h : Stands pool widened start items xs is) (haligned : 4 ∣ n)
    (hn : start + xs.length + n ≤ 0x80000000) :
    ∃ js, List.Forall₂ (Instruction.Moved n) is js ∧
      Stands pool widened (start + n) items xs js := by
  induction h with
  | nil => exact ⟨[], .nil, .nil⟩
  | @cons start item items xs ys i is head _ ih =>
    -- The item has a byte, so it starts in front of the bound even where the program ends on it.
    have hsize := head.length_pos
    rw [List.length_append] at hn
    obtain ⟨j, hj, hstands⟩ := head.moved haligned (by omega)
    obtain ⟨js, hjs, htail⟩ := ih (by omega)
    refine ⟨j :: js, .cons hj hjs, .cons hstands ?_⟩
    rw [Nat.add_right_comm]
    exact htail

/-- **Two programs one after the other are one program.** -/
theorem Stands.append (h : Stands pool widened start items xs is)
    (h' : Stands pool false (start + xs.length) items' ys js) :
    Stands pool widened start (items ++ items') (xs ++ ys) (is ++ js) := by
  induction h with
  | nil => exact h'
  | @cons start item items xs zs i is head _ ih =>
    rw [List.append_assoc]
    refine .cons head (ih ?_)
    rw [Nat.add_assoc, ← List.length_append]
    exact h'

end Program

/-- **Code decodes the same way when it is moved by a multiple of four.** Code that stands behind other
code, at such a distance from the start, gives the same instructions as alone, with the distance added
to every offset and to every target, and nothing else changed. -/
theorem decode_append {pool : Pool} {front code : Bytes} {is js : List Instruction}
    (hlen : front.length + code.length ≤ 0x80000000) (haligned : 4 ∣ front.length)
    (hfront : decode pool front = .ok is) (hcode : decode pool code = .ok js) :
    ∃ moved, decode pool (front ++ code) = .ok (is ++ moved) ∧
      List.Forall₂ (Instruction.Moved front.length) js moved := by
  have hsize : UInt32.size = 4294967296 := rfl
  obtain ⟨items, hstands⟩ := (decode_eq_ok_iff (by omega)).mp hfront
  obtain ⟨items', hstands'⟩ := (decode_eq_ok_iff (by omega)).mp hcode
  obtain ⟨moved, hmoved, hbehind⟩ := hstands'.moved haligned (by omega)
  refine ⟨moved, ?_, hmoved⟩
  apply (decode_eq_ok_iff (by rw [List.length_append]; omega)).mpr
  exact ⟨_, hstands.append hbehind⟩

theorem decode_append_sample :
    decode Program.samplePool Program.sampleCode = .ok Program.sampleListing ∧
      ∃ moved, decode Program.samplePool (Program.sampleCode ++ Program.sampleCode) =
          .ok (Program.sampleListing ++ moved) ∧
        List.Forall₂ (Instruction.Moved 32) Program.sampleListing moved :=
  ⟨Program.decode_sampleCode,
    decode_append (by decide) (by decide) Program.decode_sampleCode Program.decode_sampleCode⟩

end JvmTrace
