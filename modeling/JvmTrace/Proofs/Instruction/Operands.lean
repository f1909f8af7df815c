import JvmTrace.Instruction.Operands
import JvmTrace.Proofs.Bytes.Delimited
import JvmTrace.Proofs.Instruction.Written

/-!
# Operands — read exactly from their written form

`Operand.readAll` against `Arguments`: it reads some bytes as operands **exactly** when they are the
written form of arguments of the layout that stand for those operands. The two halves are
`exists_arguments` (whatever is read was written) and `Arguments.Stands.reads` (whatever is written
is read), and the rest of the theory of instructions uses nothing else about operands.

The halves split differently. What is read is taken apart by layout, what is written by constructor,
so that in neither are there cases to be excluded.
-/

set_option autoImplicit false

namespace JvmTrace

/-- `bytes` are a written form of the arguments at `position`, and they stand for `ops` in an
instruction that starts at `start`. -/
structure Arguments.Stands (pool : Pool) (start position : Nat) (args : Arguments) (bytes : Bytes)
    (ops : List Operand) : Prop where
  counted : args.Counted
  written : (args.template position).Matches bytes
  means : List.Forall₂ (Written.Means pool start) args.written ops

theorem Arguments.stands_iff {pool : Pool} {start position : Nat} {args : Arguments} {bytes : Bytes}
    {ops : List Operand} :
    args.Stands pool start position bytes ops ↔
      args.Counted ∧ (args.template position).Matches bytes ∧
        List.Forall₂ (Written.Means pool start) args.written ops :=
  ⟨fun h => ⟨h.counted, h.written, h.means⟩, fun h => ⟨h.1, h.2.1, h.2.2⟩⟩

/-! ## Single operands -/

namespace Written

variable {pool : Pool} {start : Nat} {op : Operand}

@[simp] theorem means_slot {number : UInt16} :
    (slot number).Means pool start op ↔ op = .slot number := by
  cases op <;> simp [Means]

@[simp] theorem means_immediate {value : Int} :
    (immediate value).Means pool start op ↔ op = .immediate value := by
  cases op <;> simp [Means]

theorem means_constant {index : UInt16} :
    (constant index).Means pool start op ↔ ∃ s, pool.resolve index = .ok s ∧ op = .symbol s := by
  cases op <;> simp [Means]

theorem means_displacement {distance : Int32} :
    (displacement distance).Means pool start op ↔
      ∃ offset : UInt32, (offset.toNat : Int) = start + distance.toInt ∧ op = .target offset := by
  cases op <;> simp [Means]

end Written

/-- A jump succeeds exactly when its target is an offset, and then that is its target. -/
theorem branchTarget_eq_ok {offset target : UInt32} {relative : Int32} :
    branchTarget offset relative = .ok target ↔
      (target.toNat : Int) = offset.toNat + relative.toInt := by
  have hsize : (UInt32.size : Int) = 4294967296 := rfl
  have hlt : target.toNat < 4294967296 := target.toNat_lt
  unfold branchTarget
  dsimp only
  split
  · next hrange =>
    rw [Except.ok.injEq, ← UInt32.toNat_inj, UInt32.toNat_ofNat']
    omega
  · next hrange =>
    simp only [reduceCtorEq, false_iff]
    omega

theorem switchPadding_eq (position : Nat) :
    Reader.padding Operand.switchAlignment position = Arguments.switchPadding position := by
  unfold Reader.padding Arguments.switchPadding Operand.switchAlignment
  omega

namespace Operand

open Reader

variable {pool : Pool} {offset : UInt32} {widened : Bool} {p : Nat} {bytes : Bytes} {op : Operand}
  {ops : List Operand}

theorem delimited_constant (index : UInt16) : Delimited (constant pool index) :=
  delimited_map _ (delimited_lift _)

theorem reads_constant {index : UInt16} (start : Nat) :
    Reads (constant pool index) p bytes op ↔
      bytes = [] ∧ (Written.constant index).Means pool start op := by
  unfold constant
  rw [reads_map (local_lift _), Written.means_constant]
  simp only [reads_lift, and_assoc, exists_and_left]

theorem delimited_jump (relative : Int32) : Delimited (jump offset relative) :=
  delimited_map _ (delimited_lift _)

theorem reads_jump (pool : Pool) {relative : Int32} :
    Reads (jump offset relative) p bytes op ↔
      bytes = [] ∧ (Written.displacement relative).Means pool offset.toNat op := by
  unfold jump
  rw [reads_map (local_lift _), Written.means_displacement]
  simp only [reads_lift, branchTarget_eq_ok, and_assoc, exists_and_left]

theorem delimited_readSlot (widened : Bool) : Delimited (readSlot widened) := by
  unfold readSlot
  split
  · exact delimited_u16
  · exact delimited_map _ delimited_u8

theorem delimited_readIncrement (widened : Bool) : Delimited (readIncrement widened) := by
  unfold readIncrement
  split
  · exact delimited_map _ delimited_i16
  · exact delimited_map _ delimited_i8

theorem delimited_readTableCase : Delimited (readTableCase offset) :=
  delimited_bind delimited_i32 fun _ => delimited_jump _

theorem delimited_readLookupCase : Delimited (readLookupCase offset) :=
  delimited_bind delimited_i32 fun _ => delimited_bind delimited_i32 fun _ =>
    delimited_map _ (delimited_jump _)

/-! ## Switches -/

theorem reads_readTableCase (pool : Pool) (p : Nat) (bytes : Bytes) (op : Operand) :
    Reads (readTableCase offset) p bytes op ↔
      ∃ d, bytes = BigEndian.i32 d ∧ (Written.displacement d).Means pool offset.toNat op := by
  unfold readTableCase
  rw [reads_bind local_i32]
  constructor
  · intro h
    obtain ⟨d, xs, hd, ys, rfl, hjump⟩ := h
    obtain ⟨rfl, hmeans⟩ := (reads_jump pool).mp hjump
    rw [List.append_nil]
    exact ⟨d, reads_i32.mp hd, hmeans⟩
  · intro h
    obtain ⟨d, rfl, hmeans⟩ := h
    exact ⟨d, _, reads_i32.mpr rfl, [], (List.append_nil _).symm,
      (reads_jump pool).mpr ⟨rfl, hmeans⟩⟩

theorem reads_readLookupCase (pool : Pool) (p : Nat) (bytes : Bytes) (ops : List Operand) :
    Reads (readLookupCase offset) p bytes ops ↔
      ∃ keyed, bytes = Arguments.caseBytes keyed ∧
        List.Forall₂ (Written.Means pool offset.toNat)
          [.immediate keyed.1.toInt, .displacement keyed.2] ops := by
  unfold readLookupCase
  simp only [reads_bind, reads_i32, local_i32, (delimited_jump _).isLocal, reads_jump pool,
    reads_pure, exists_eq_left]
  constructor
  · intro h
    obtain ⟨key, ys, rfl, d, ys', rfl, op, xs, ⟨rfl, hop⟩, ys'', rfl, rfl, rfl⟩ := h
    refine ⟨(key, d), ?_, .cons rfl (.cons hop .nil)⟩
    simp only [Arguments.caseBytes, BigEndian.i32, List.append_nil]
  · intro h
    obtain ⟨⟨key, d⟩, rfl, h⟩ := h
    simp only [List.forall₂_cons_left_iff, Written.means_immediate, List.forall₂_nil_left_iff] at h
    obtain ⟨_, _, rfl, ⟨op, _, hop, rfl, rfl⟩, rfl⟩ := h
    exact ⟨key, _, rfl, d, [], by rw [List.append_nil]; rfl, op, [], ⟨rfl, hop⟩, [], rfl, rfl, rfl⟩

/-- The last part of a table switch: the default is checked, and the cases are read. -/
theorem reads_tableCases (pool : Pool) {default : Int32} {low high : Int} {n : Nat} :
    Reads (jump offset default >>= fun target => times n (readTableCase offset) >>= fun cases =>
        pure (immediate low :: immediate high :: target :: cases)) p bytes ops ↔
      ∃ cases : List Int32, cases.length = n ∧ bytes = cases.flatMap BigEndian.i32 ∧
        List.Forall₂ (Written.Means pool offset.toNat)
          (.immediate low :: .immediate high :: .displacement default :: cases.map .displacement)
            ops := by
  rw [reads_bind (delimited_jump default).isLocal]
  simp only [reads_map (local_times delimited_readTableCase.isLocal n), reads_jump pool,
    reads_times delimited_readTableCase.isLocal (reads_readTableCase pool)]
  constructor
  · intro h
    obtain ⟨target, xs, ⟨rfl, htarget⟩, ys, rfl, targets, ⟨cases, hlen, rfl, hcases⟩, rfl⟩ := h
    refine ⟨cases, hlen, rfl, .cons rfl (.cons rfl (.cons htarget ?_))⟩
    exact List.forall₂_map_left_iff.mpr hcases
  · intro h
    obtain ⟨cases, hlen, rfl, hmeans⟩ := h
    simp only [List.forall₂_cons_left_iff, Written.means_immediate] at hmeans
    obtain ⟨_, _, rfl, ⟨_, _, rfl, ⟨target, targets, htarget, hcases, rfl⟩, rfl⟩, rfl⟩ := hmeans
    exact ⟨target, [], ⟨rfl, htarget⟩, _, rfl, targets,
      ⟨cases, hlen, rfl, List.forall₂_map_left_iff.mp hcases⟩, rfl⟩

/-- The last part of a lookup switch. -/
theorem reads_lookupCases (pool : Pool) {default : Int32} {n : Nat} :
    Reads (jump offset default >>= fun target => times n (readLookupCase offset) >>= fun cases =>
        pure (target :: cases.flatten)) p bytes ops ↔
      ∃ cases : List (Int32 × Int32), cases.length = n ∧ bytes = cases.flatMap Arguments.caseBytes ∧
        List.Forall₂ (Written.Means pool offset.toNat)
          (.displacement default :: cases.flatMap fun keyed =>
            [.immediate keyed.1.toInt, .displacement keyed.2]) ops := by
  rw [reads_bind (delimited_jump default).isLocal]
  simp only [reads_map (local_times delimited_readLookupCase.isLocal n), reads_jump pool,
    reads_times delimited_readLookupCase.isLocal (reads_readLookupCase pool)]
  constructor
  · intro h
    obtain ⟨target, xs, ⟨rfl, htarget⟩, ys, rfl, groups, ⟨cases, hlen, rfl, hcases⟩, rfl⟩ := h
    exact ⟨cases, hlen, rfl, .cons htarget (forall₂_flatMap_left.mpr ⟨groups, rfl, hcases⟩)⟩
  · intro h
    obtain ⟨cases, hlen, rfl, hmeans⟩ := h
    obtain ⟨target, _, htarget, hcases, rfl⟩ := List.forall₂_cons_left_iff.mp hmeans
    obtain ⟨groups, rfl, hgroups⟩ := forall₂_flatMap_left.mp hcases
    exact ⟨target, [], ⟨rfl, htarget⟩, _, rfl, groups, ⟨cases, hlen, rfl, hgroups⟩, rfl⟩

theorem delimited_readTableSwitch : Delimited (readTableSwitch offset) := by
  refine delimited_bind (delimited_align _ _) fun _ => delimited_bind delimited_i32 fun _ =>
    delimited_bind delimited_i32 fun _ => delimited_bind delimited_i32 fun _ => delimited_unless ?_
  exact delimited_bind (delimited_jump _) fun _ =>
    delimited_map _ (delimited_times delimited_readTableCase _)

theorem delimited_readLookupSwitch : Delimited (readLookupSwitch offset) := by
  refine delimited_bind (delimited_align _ _) fun _ => delimited_bind delimited_i32 fun _ =>
    delimited_bind delimited_i32 fun _ => delimited_unless ?_
  exact delimited_bind (delimited_jump _) fun _ =>
    delimited_map _ (delimited_times delimited_readLookupCase _)

theorem reads_readTableSwitch (pool : Pool) :
    Reads (readTableSwitch offset) p bytes ops ↔
      ∃ default low high cases,
        (Arguments.tableSwitch default low high cases).Stands pool offset.toNat p bytes ops := by
  unfold readTableSwitch
  simp only [reads_bind, local_align, local_i32, reads_align, reads_i32, exists_eq_left,
    reads_unless, reads_tableCases pool, switchPadding_eq]
  constructor
  · intro h
    obtain ⟨_, pad, ⟨hpad, -⟩, _, rfl, default, _, rfl, low, _, rfl, high, _, rfl, hle, cases, hlen,
      rfl, hmeans⟩ := h
    -- The number of cases is not written: it is computed from the keys, after the check that
    -- there are any.
    refine ⟨default, low, high, cases, ⟨⟨by omega, by omega⟩, ?_, hmeans⟩⟩
    rw [Arguments.template, Template.matches_append]
    refine ⟨pad, _, rfl, Template.matches_blank.mpr hpad, Template.matches_known.mpr ?_⟩
    simp only [BigEndian.i32, List.append_assoc]
  · intro h
    obtain ⟨default, low, high, cases, ⟨hle, hlen⟩, hbytes, hmeans⟩ := h
    rw [Arguments.template, Template.matches_append] at hbytes
    obtain ⟨pad, _, rfl, hpad, hknown⟩ := hbytes
    rw [Template.matches_known.mp hknown]
    refine ⟨_, pad, ⟨Template.matches_blank.mp hpad, rfl⟩, _, rfl, default, _, ?_, low, _, rfl,
      high, _, rfl, by omega, cases, by omega, rfl, hmeans⟩
    simp only [BigEndian.i32, List.append_assoc]

/-- The counts of a lookup switch that are read are those that are written. -/
theorem toNat_toInt_eq_iff {count : Int32} {n : Nat} (h : n < 0x80000000) :
    ¬ count.toInt < 0 ∧ n = count.toInt.toNat ↔ count = Int32.ofNat n := by
  rw [← Int32.toInt_inj, Int32.toInt_ofNat_of_lt h]
  omega

theorem reads_readLookupSwitch (pool : Pool) :
    Reads (readLookupSwitch offset) p bytes ops ↔
      ∃ default cases,
        (Arguments.lookupSwitch default cases).Stands pool offset.toNat p bytes ops := by
  unfold readLookupSwitch
  simp only [reads_bind, local_align, local_i32, reads_align, reads_i32, exists_eq_left,
    reads_unless, reads_lookupCases pool, switchPadding_eq]
  constructor
  · intro h
    obtain ⟨_, pad, ⟨hpad, -⟩, _, rfl, default, _, rfl, count, _, rfl, hle, cases, hlen, rfl,
      hmeans⟩ := h
    -- The count is signed, so a list that has it as its length is shorter than half the unsigned
    -- range.
    have hlt : cases.length < 0x80000000 := by
      have := count.toInt_lt
      omega
    have hcount : count = Int32.ofNat cases.length := (toNat_toInt_eq_iff hlt).mp ⟨hle, hlen⟩
    refine ⟨default, cases, ⟨hlt, ?_, hmeans⟩⟩
    rw [Arguments.template, Template.matches_append]
    refine ⟨pad, _, rfl, Template.matches_blank.mpr hpad, Template.matches_known.mpr ?_⟩
    rw [hcount]
    simp only [BigEndian.i32, List.append_assoc]
  · intro h
    obtain ⟨default, cases, hlt, hbytes, hmeans⟩ := h
    obtain ⟨hle, hlen⟩ := (toNat_toInt_eq_iff hlt).mpr rfl
    rw [Arguments.template, Template.matches_append] at hbytes
    obtain ⟨pad, _, rfl, hpad, hknown⟩ := hbytes
    rw [Template.matches_known.mp hknown]
    refine ⟨_, pad, ⟨Template.matches_blank.mp hpad, rfl⟩, _, rfl, default, _, ?_,
      Int32.ofNat cases.length, _, rfl, hle, cases, hlen, rfl, hmeans⟩
    simp only [BigEndian.i32, List.append_assoc]

theorem delimited_readAll (pool : Pool) (offset : UInt32) (widened : Bool) (layout : Layout) :
    Delimited (readAll pool offset widened layout) := by
  cases layout with
  | plain | wide => exact delimited_pure _
  | slot => exact delimited_map _ (delimited_readSlot _)
  | increment =>
    exact delimited_bind (delimited_readSlot _) fun _ => delimited_map _ (delimited_readIncrement _)
  | shortConstant =>
    exact delimited_bind delimited_u8 fun _ => delimited_map _ (delimited_constant _)
  | constant => exact delimited_bind delimited_u16 fun _ => delimited_map _ (delimited_constant _)
  | interfaceCall =>
    exact delimited_bind delimited_u16 fun _ => delimited_bind delimited_u8 fun _ =>
      delimited_bind (delimited_skip _) fun _ => delimited_map _ (delimited_constant _)
  | dynamicCall =>
    exact delimited_bind delimited_u16 fun _ => delimited_bind (delimited_skip _) fun _ =>
      delimited_map _ (delimited_constant _)
  | arrayDimensions =>
    exact delimited_bind delimited_u16 fun _ => delimited_bind delimited_u8 fun _ =>
      delimited_map _ (delimited_constant _)
  | byte => exact delimited_map _ delimited_i8
  | short => exact delimited_map _ delimited_i16
  | elementType => exact delimited_map _ delimited_u8
  | branch => exact delimited_bind delimited_i16 fun _ => delimited_map _ (delimited_jump _)
  | farBranch => exact delimited_bind delimited_i32 fun _ => delimited_map _ (delimited_jump _)
  | tableSwitch => exact delimited_readTableSwitch
  | lookupSwitch => exact delimited_readLookupSwitch

/-! ## Layout by layout

Each layout reads what one form of arguments writes. The proofs are the same: the reader and the
template are both taken apart into the pieces of the bytes, and then they are the same pieces. -/

theorem reads_slot_narrow :
    Reads (readAll pool offset false .slot) p bytes ops ↔
      ∃ number, (Arguments.slot number).Stands pool offset.toNat p bytes ops := by
  simp only [readAll, reads_bind, reads_pure, readSlot, Bool.false_eq_true, if_false, local_u8,
    local_map, reads_u8]
  simp [Arguments.stands_iff, List.forall₂_cons_left_iff]

theorem reads_slot_wide :
    Reads (readAll pool offset true .slot) p bytes ops ↔
      ∃ number, (Arguments.wideSlot number).Stands pool offset.toNat p bytes ops := by
  simp only [readAll, reads_bind, reads_pure, readSlot, if_true, local_u16, reads_u16]
  simp [Arguments.stands_iff, List.forall₂_cons_left_iff]

theorem reads_increment_narrow :
    Reads (readAll pool offset false .increment) p bytes ops ↔
      ∃ number amount,
        (Arguments.increment number amount).Stands pool offset.toNat p bytes ops := by
  simp only [readAll, reads_bind, reads_pure, readSlot, readIncrement, Bool.false_eq_true, if_false,
    local_u8, local_i8, local_map, reads_u8, reads_i8]
  simp [Arguments.stands_iff, List.forall₂_cons_left_iff]

theorem reads_increment_wide :
    Reads (readAll pool offset true .increment) p bytes ops ↔
      ∃ number amount,
        (Arguments.wideIncrement number amount).Stands pool offset.toNat p bytes ops := by
  simp only [readAll, reads_bind, reads_pure, readSlot, readIncrement, if_true, local_u16,
    local_i16, local_map, reads_u16, reads_i16]
  simp [Arguments.stands_iff, List.forall₂_cons_left_iff]

theorem reads_shortConstant :
    Reads (readAll pool offset widened .shortConstant) p bytes ops ↔
      ∃ index, (Arguments.shortConstant index).Stands pool offset.toNat p bytes ops := by
  simp only [readAll, reads_bind, reads_pure, local_u8, reads_u8, (delimited_constant _).isLocal,
    reads_constant offset.toNat]
  simp [Arguments.stands_iff, List.forall₂_cons_left_iff]

theorem reads_constantIndex :
    Reads (readAll pool offset widened .constant) p bytes ops ↔
      ∃ index, (Arguments.constant index).Stands pool offset.toNat p bytes ops := by
  simp only [readAll, reads_bind, reads_pure, local_u16, reads_u16, (delimited_constant _).isLocal,
    reads_constant offset.toNat]
  simp [Arguments.stands_iff, List.forall₂_cons_left_iff]

theorem reads_interfaceCall :
    Reads (readAll pool offset widened .interfaceCall) p bytes ops ↔
      ∃ index count,
        (Arguments.interfaceCall index count).Stands pool offset.toNat p bytes ops := by
  simp only [readAll, reads_bind, reads_pure, local_u16, local_u8, local_skip, reads_u16, reads_u8,
    reads_skip, (delimited_constant _).isLocal, reads_constant offset.toNat]
  simp only [↓existsAndEq, List.append_nil, List.cons_append, List.nil_append, true_and,
    exists_and_left, exists_const, Arguments.stands_iff, Arguments.Counted, Arguments.template,
    Template.matches_append, Template.matches_known, Template.matches_blank, List.append_assoc,
    Arguments.written, List.forall₂_cons_left_iff, Written.means_immediate,
    List.forall₂_nil_left_iff, exists_eq_left]
  simp only [← and_assoc, exists_and_right]

theorem reads_dynamicCall :
    Reads (readAll pool offset widened .dynamicCall) p bytes ops ↔
      ∃ index, (Arguments.dynamicCall index).Stands pool offset.toNat p bytes ops := by
  simp only [readAll, reads_bind, reads_pure, local_u16, local_skip, reads_u16, reads_skip,
    (delimited_constant _).isLocal, reads_constant offset.toNat]
  simp only [↓existsAndEq, List.append_nil, true_and, exists_and_left, exists_const,
    Arguments.stands_iff, Arguments.Counted, Arguments.template, Template.matches_append,
    Template.matches_known, Template.matches_blank, Arguments.written, List.forall₂_cons_left_iff,
    List.forall₂_nil_left_iff]
  simp only [← and_assoc, exists_and_right]

theorem reads_arrayDimensions :
    Reads (readAll pool offset widened .arrayDimensions) p bytes ops ↔
      ∃ index dimensions,
        (Arguments.arrayDimensions index dimensions).Stands pool offset.toNat p bytes ops := by
  simp only [readAll, reads_bind, reads_pure, local_u16, local_u8, reads_u16, reads_u8,
    (delimited_constant _).isLocal, reads_constant offset.toNat]
  simp [Arguments.stands_iff, List.forall₂_cons_left_iff]

theorem reads_byte :
    Reads (readAll pool offset widened .byte) p bytes ops ↔
      ∃ value, (Arguments.byte value).Stands pool offset.toNat p bytes ops := by
  simp only [readAll, reads_bind, reads_pure, local_i8, reads_i8]
  simp [Arguments.stands_iff, List.forall₂_cons_left_iff]

theorem reads_short :
    Reads (readAll pool offset widened .short) p bytes ops ↔
      ∃ value, (Arguments.short value).Stands pool offset.toNat p bytes ops := by
  simp only [readAll, reads_bind, reads_pure, local_i16, reads_i16]
  simp [Arguments.stands_iff, List.forall₂_cons_left_iff]

theorem reads_elementType :
    Reads (readAll pool offset widened .elementType) p bytes ops ↔
      ∃ code, (Arguments.elementType code).Stands pool offset.toNat p bytes ops := by
  simp only [readAll, reads_bind, reads_pure, local_u8, reads_u8]
  simp [Arguments.stands_iff, List.forall₂_cons_left_iff]

theorem reads_branch :
    Reads (readAll pool offset widened .branch) p bytes ops ↔
      ∃ distance, (Arguments.branch distance).Stands pool offset.toNat p bytes ops := by
  simp only [readAll, reads_bind, reads_pure, local_i16, reads_i16, (delimited_jump _).isLocal,
    reads_jump pool]
  simp [Arguments.stands_iff, List.forall₂_cons_left_iff]

theorem reads_farBranch :
    Reads (readAll pool offset widened .farBranch) p bytes ops ↔
      ∃ distance, (Arguments.farBranch distance).Stands pool offset.toNat p bytes ops := by
  simp only [readAll, reads_bind, reads_pure, local_i32, reads_i32, (delimited_jump _).isLocal,
    reads_jump pool]
  simp [Arguments.stands_iff, List.forall₂_cons_left_iff, BigEndian.i32]

/-! ## All layouts -/

/-- **Whatever is read was written.** Operands that are read after a `wide` are in the wider form:
that is what `hw` is for, which the decoder checks before it reads any. -/
theorem exists_arguments {layout : Layout} (hw : widened = true → layout.isWidenable = true)
    (h : Reads (readAll pool offset widened layout) p bytes ops) :
    ∃ args : Arguments, args.layout = layout ∧ args.isWidened = widened ∧
      args.Stands pool offset.toNat p bytes ops := by
  -- A layout without a wider form is never read after a `wide`.
  have narrow : layout.isWidenable = false → false = widened := by
    intro hnot
    cases widened with
    | false => rfl
    | true => exact absurd (hw rfl) (by simp [hnot])
  cases layout with
  | plain =>
    obtain ⟨rfl, rfl⟩ := reads_pure.mp h
    exact ⟨.plain, rfl, narrow rfl, trivial, .nil, .nil⟩
  | wide =>
    obtain ⟨rfl, rfl⟩ := reads_pure.mp h
    exact ⟨.wide, rfl, narrow rfl, trivial, .nil, .nil⟩
  | slot =>
    cases widened with
    | false =>
      obtain ⟨number, h⟩ := reads_slot_narrow.mp h
      exact ⟨.slot number, rfl, rfl, h⟩
    | true =>
      obtain ⟨number, h⟩ := reads_slot_wide.mp h
      exact ⟨.wideSlot number, rfl, rfl, h⟩
  | increment =>
    cases widened with
    | false =>
      obtain ⟨number, amount, h⟩ := reads_increment_narrow.mp h
      exact ⟨.increment number amount, rfl, rfl, h⟩
    | true =>
      obtain ⟨number, amount, h⟩ := reads_increment_wide.mp h
      exact ⟨.wideIncrement number amount, rfl, rfl, h⟩
  | shortConstant =>
    obtain ⟨index, h⟩ := reads_shortConstant.mp h
    exact ⟨.shortConstant index, rfl, narrow rfl, h⟩
  | constant =>
    obtain ⟨index, h⟩ := reads_constantIndex.mp h
    exact ⟨.constant index, rfl, narrow rfl, h⟩
  | interfaceCall =>
    obtain ⟨index, count, h⟩ := reads_interfaceCall.mp h
    exact ⟨.interfaceCall index count, rfl, narrow rfl, h⟩
  | dynamicCall =>
    obtain ⟨index, h⟩ := reads_dynamicCall.mp h
    exact ⟨.dynamicCall index, rfl, narrow rfl, h⟩
  | arrayDimensions =>
    obtain ⟨index, dimensions, h⟩ := reads_arrayDimensions.mp h
    exact ⟨.arrayDimensions index dimensions, rfl, narrow rfl, h⟩
  | byte =>
    obtain ⟨value, h⟩ := reads_byte.mp h
    exact ⟨.byte value, rfl, narrow rfl, h⟩
  | short =>
    obtain ⟨value, h⟩ := reads_short.mp h
    exact ⟨.short value, rfl, narrow rfl, h⟩
  | elementType =>
    obtain ⟨code, h⟩ := reads_elementType.mp h
    exact ⟨.elementType code, rfl, narrow rfl, h⟩
  | branch =>
    obtain ⟨distance, h⟩ := reads_branch.mp h
    exact ⟨.branch distance, rfl, narrow rfl, h⟩
  | farBranch =>
    obtain ⟨distance, h⟩ := reads_farBranch.mp h
    exact ⟨.farBranch distance, rfl, narrow rfl, h⟩
  | tableSwitch =>
    obtain ⟨default, low, high, cases, h⟩ := (reads_readTableSwitch pool).mp h
    exact ⟨.tableSwitch default low high cases, rfl, narrow rfl, h⟩
  | lookupSwitch =>
    obtain ⟨default, cases, h⟩ := (reads_readLookupSwitch pool).mp h
    exact ⟨.lookupSwitch default cases, rfl, narrow rfl, h⟩

end Operand

open Reader Operand in
/-- **Whatever is written is read**, under the `wide` or the lack of one that its form asks for. -/
theorem Arguments.Stands.reads {pool : Pool} {offset : UInt32} {position : Nat} {args : Arguments}
    {bytes : Bytes} {ops : List Operand} (h : args.Stands pool offset.toNat position bytes ops) :
    Reads (readAll pool offset args.isWidened args.layout) position bytes ops := by
  cases args with
  | plain | wide =>
    have hbytes := Template.matches_nil.mp h.written
    have hops := List.forall₂_nil_left_iff.mp h.means
    exact reads_pure.mpr ⟨hbytes, hops⟩
  | slot number => exact reads_slot_narrow.mpr ⟨number, h⟩
  | wideSlot number => exact reads_slot_wide.mpr ⟨number, h⟩
  | increment number amount => exact reads_increment_narrow.mpr ⟨number, amount, h⟩
  | wideIncrement number amount => exact reads_increment_wide.mpr ⟨number, amount, h⟩
  | shortConstant index => exact reads_shortConstant.mpr ⟨index, h⟩
  | constant index => exact reads_constantIndex.mpr ⟨index, h⟩
  | interfaceCall index count => exact reads_interfaceCall.mpr ⟨index, count, h⟩
  | dynamicCall index => exact reads_dynamicCall.mpr ⟨index, h⟩
  | arrayDimensions index dimensions => exact reads_arrayDimensions.mpr ⟨index, dimensions, h⟩
  | byte value => exact reads_byte.mpr ⟨value, h⟩
  | short value => exact reads_short.mpr ⟨value, h⟩
  | elementType code => exact reads_elementType.mpr ⟨code, h⟩
  | branch distance => exact reads_branch.mpr ⟨distance, h⟩
  | farBranch distance => exact reads_farBranch.mpr ⟨distance, h⟩
  | tableSwitch default low high cases =>
    exact (reads_readTableSwitch pool).mpr ⟨default, low, high, cases, h⟩
  | lookupSwitch default cases => exact (reads_readLookupSwitch pool).mpr ⟨default, cases, h⟩

end JvmTrace
