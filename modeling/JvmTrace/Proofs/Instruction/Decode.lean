import JvmTrace.Instruction.Decoder
import JvmTrace.Proofs.Instruction.Operands
import JvmTrace.Proofs.Instruction.Table

/-!
# Decoding undoes assembling

`decode` against programs: a code array decodes to a listing **exactly** when it is a written form
of a program that stands for the listing (`decode_eq_ok_iff`). `Program.Stands` is that relation as
one derivation, an item at a time, and it is built in the three steps in which the decoder is built:

1. `reads_instruction` — one instruction against one item;
2. `next_eq_ok` — one step of a decoder, in a phase that says whether a `wide` came before;
3. `runFrom_of_stands` and `stands_of_runFrom` — a whole run, by induction on the derivation one way
   and along the run the other way.

The only state that goes from one item to the next is the position, which the padding of a switch
needs, and the `wide`. The derivation carries both, so neither induction needs an invariant of its
own.

A code array is taken to be shorter than `2 ^ 32` bytes: beyond that an offset no longer says where
an instruction stands.
-/

set_option autoImplicit false

namespace JvmTrace

/-! ## One item -/

/-- `bytes` are a written form of an item at `start` that stands for `i`. -/
structure Item.Stands (pool : Pool) (start : Nat) (item : Item) (bytes : Bytes) (i : Instruction) :
    Prop where
  counted : item.arguments.Counted
  written : (item.template start).Matches bytes
  means : item.Means pool start i

theorem Arguments.isWidenable_of_isWidened {args : Arguments} (h : args.isWidened = true) :
    args.layout.isWidenable = true := by
  cases args with
  | wideSlot | wideIncrement => rfl
  | _ => cases h

theorem Item.widens_eq (item : Item) : item.widens = (item.opcode.layout == .wide) := by
  rw [← item.shaped, Item.widens]
  cases item.arguments <;> rfl

/-- A written form of an item is its opcode and a written form of its arguments. -/
theorem Item.matches_template {start : Nat} {item : Item} {bytes : Bytes} :
    (item.template start).Matches bytes ↔
      ∃ rest, bytes = item.opcode.code :: rest ∧
        (item.arguments.template (start + 1)).Matches rest := by
  unfold Item.template Template.Matches
  rw [List.forall₂_cons_left_iff]
  simp only [Template.Admits, reduceCtorEq, false_or, Option.some.injEq]
  constructor
  · intro h
    obtain ⟨b, rest, rfl, hrest, rfl⟩ := h
    exact ⟨rest, rfl, hrest⟩
  · intro h
    obtain ⟨rest, rfl, hrest⟩ := h
    exact ⟨_, rest, rfl, hrest, rfl⟩

theorem Item.Stands.length_pos {pool : Pool} {start : Nat} {item : Item} {bytes : Bytes}
    {i : Instruction} (h : item.Stands pool start bytes i) : 0 < bytes.length := by
  obtain ⟨rest, rfl, -⟩ := Item.matches_template.mp h.written
  exact Nat.succ_pos _

namespace Instruction

open Reader

variable {pool : Pool} {widened : Bool} {p : Nat} {bytes : Bytes} {i : Instruction} {w : Bool}

theorem local_readAfter (pool : Pool) (widened : Bool) (offset : UInt32) (code : UInt8) :
    Local (readAfter pool widened offset code) := by
  unfold readAfter
  split
  · exact local_throw _
  · split
    · exact local_throw _
    · exact local_map _ (local_mapError _ (Operand.delimited_readAll _ _ _ _).isLocal)

theorem local_read (pool : Pool) (widened : Bool) : Local (Instruction.read pool widened) :=
  local_position (f := fun p => u8 >>= readAfter pool widened (UInt32.ofNat p)) fun _ =>
    local_bind local_u8 fun _ => local_readAfter _ _ _ _

/-- What is read after an opcode byte: the table has an entry for it, the entry can be widened if it
has to be, and the operands are those of its layout. -/
theorem reads_readAfter {offset : UInt32} {code : UInt8} :
    Reads (readAfter pool widened offset code) p bytes (i, w) ↔
      ∃ opcode ops,
        Opcode.ofByte? code = some opcode ∧ (widened = true → opcode.layout.isWidenable = true) ∧
        Reads (Operand.readAll pool offset widened opcode.layout) p bytes ops ∧
        i = ⟨offset, opcode.mnemonic, ops⟩ ∧ w = (opcode.layout == .wide) := by
  unfold readAfter
  cases hcode : Opcode.ofByte? code with
  | none => simp
  | some opcode =>
    have hlocal := local_mapError (.asTruncated offset opcode.mnemonic)
      (Operand.delimited_readAll pool offset widened opcode.layout).isLocal
    dsimp only
    split
    · next hrefused =>
      simp only [Bool.and_eq_true, Bool.not_eq_true'] at hrefused
      constructor
      · intro h
        exact absurd h reads_throw
      · intro h
        obtain ⟨_, _, hopcode, hwiden, -⟩ := h
        cases hopcode
        rw [hwiden hrefused.1] at hrefused
        exact absurd hrefused.2 (by decide)
    · next haccepted =>
      have hwiden : widened = true → opcode.layout.isWidenable = true := by
        intro hw
        simpa [hw] using haccepted
      unfold readOperands
      rw [reads_map hlocal]
      simp only [reads_mapError, Prod.mk.injEq, Option.some.injEq]
      constructor
      · intro h
        obtain ⟨ops, hops, rfl, rfl⟩ := h
        exact ⟨opcode, ops, rfl, hwiden, hops, rfl, rfl⟩
      · intro h
        obtain ⟨_, ops, rfl, -, hops, rfl, rfl⟩ := h
        exact ⟨ops, hops, rfl, rfl⟩

/-- What is read is an opcode of the table and its operands. -/
theorem reads_read :
    Reads (Instruction.read pool widened) p bytes (i, w) ↔
      ∃ opcode ops rest, opcode ∈ Opcode.all ∧ bytes = opcode.code :: rest ∧
        (widened = true → opcode.layout.isWidenable = true) ∧
        Reads (Operand.readAll pool (UInt32.ofNat p) widened opcode.layout) (p + 1) rest ops ∧
        i = ⟨UInt32.ofNat p, opcode.mnemonic, ops⟩ ∧ w = (opcode.layout == .wide) := by
  have unfolded : Reads (Instruction.read pool widened) p bytes (i, w) ↔
      Reads (u8 >>= readAfter pool widened (UInt32.ofNat p)) p bytes (i, w) := Iff.rfl
  rw [unfolded, reads_bind local_u8]
  simp only [reads_u8, exists_eq_left, reads_readAfter, List.length_singleton]
  constructor
  · rintro ⟨code, rest, rfl, opcode, ops, hopcode, hwiden, hops, hi, hw⟩
    obtain ⟨hmem, rfl⟩ := Opcode.mem_of_ofByte? hopcode
    exact ⟨opcode, ops, rest, hmem, rfl, hwiden, hops, hi, hw⟩
  · rintro ⟨opcode, ops, rest, hmem, rfl, hwiden, hops, hi, hw⟩
    exact ⟨opcode.code, rest, rfl, opcode, ops, Opcode.ofByte?_code hmem, hwiden, hops, hi, hw⟩

/-- **One instruction is read exactly from a written form of an item**, and it widens the next one
when the item does. -/
theorem reads_instruction (hp : p < UInt32.size) :
    Reads (Instruction.read pool widened) p bytes (i, w) ↔
      ∃ item : Item, item.arguments.isWidened = widened ∧ item.Stands pool p bytes i ∧
        w = item.widens := by
  have hoffset : (UInt32.ofNat p).toNat = p := UInt32.toNat_ofNat_of_lt' hp
  rw [reads_read]
  constructor
  · intro h
    obtain ⟨opcode, ops, rest, hmem, rfl, hwiden, hops, rfl, rfl⟩ := h
    obtain ⟨args, hlayout, hwidened, hstands⟩ := Operand.exists_arguments hwiden hops
    rw [hoffset] at hstands
    refine ⟨⟨opcode, args, hmem, hlayout⟩, hwidened,
      ⟨hstands.counted, ?_, ⟨hoffset, rfl, hstands.means⟩⟩, ?_⟩
    · exact Item.matches_template.mpr ⟨rest, rfl, hstands.written⟩
    · exact (Item.widens_eq ⟨opcode, args, hmem, hlayout⟩).symm
  · intro h
    obtain ⟨item, rfl, ⟨hcounted, hwritten, hmeans⟩, rfl⟩ := h
    obtain ⟨rest, rfl, hrest⟩ := Item.matches_template.mp hwritten
    have hstands : item.arguments.Stands pool (UInt32.ofNat p).toNat (p + 1) rest i.operands :=
      ⟨hcounted, hrest, by rw [hoffset]; exact hmeans.operands⟩
    have hreads := hstands.reads
    rw [item.shaped] at hreads
    refine ⟨item.opcode, i.operands, rest, item.listed, rfl, ?_, hreads, ?_, Item.widens_eq item⟩
    · intro hwidened
      rw [← item.shaped]
      exact Arguments.isWidenable_of_isWidened hwidened
    · cases i with
      | mk offset mnemonic operands =>
        have hsame : offset = UInt32.ofNat p := UInt32.toNat.inj (hmeans.offset.trans hoffset.symm)
        have hname : mnemonic = item.opcode.mnemonic := hmeans.mnemonic
        rw [hsame, hname]

end Instruction

/-! ## One step -/

/-- What a phase lets the next instruction be: of the wider form, of the usual one, or nothing at
all. -/
def Phase.expects : Phase → Option Bool
  | .ready => some false
  | .widening _ => some true
  | .stopped => none

theorem Phase.expects_after (w : Bool) (offset : UInt32) :
    (if w then widening offset else ready).expects = some w := by
  cases w <;> rfl

namespace Decoder

open Reader

variable {pool : Pool} {d d' : Decoder} {i : Instruction} {decoded : List Instruction}

theorem step_eq_ok {widened : Bool} :
    d.step pool widened = (.ok i, d') ↔
      ∃ w c, Instruction.read pool widened d.cursor = .ok (i, w) c ∧
        d' = ⟨c, if w then .widening i.offset else .ready⟩ := by
  unfold step
  cases hread : Instruction.read pool widened d.cursor with
  | ok result c =>
    obtain ⟨j, w⟩ := result
    simp only [Prod.mk.injEq, Except.ok.injEq, EStateM.Result.ok.injEq]
    constructor
    · intro h
      obtain ⟨rfl, rfl⟩ := h
      exact ⟨w, c, ⟨⟨rfl, rfl⟩, rfl⟩, rfl⟩
    · intro h
      obtain ⟨_, _, ⟨⟨rfl, rfl⟩, rfl⟩, rfl⟩ := h
      exact ⟨rfl, rfl⟩
  | error e c => simp

/-- A decoder gives an instruction when it expects one, bytes are left, and one can be read. -/
theorem next_eq_ok :
    d.next pool = (some (.ok i), d') ↔
      ∃ widened, d.phase.expects = some widened ∧ d.step pool widened = (.ok i, d') := by
  -- A step that gives an instruction takes its opcode, so it is not made at the end.
  have nothing_at_end : d.cursor.atEnd = true →
      ¬ ∃ widened, d.phase.expects = some widened ∧ d.step pool widened = (.ok i, d') := by
    intro hend h
    obtain ⟨widened, -, hstep⟩ := h
    have hlt := length_step_lt hstep
    rw [List.isEmpty_iff.mp hend] at hlt
    exact absurd hlt (Nat.not_lt_zero _)
  have lifted : ∀ widened, Prod.map some id (d.step pool widened) = (some (.ok i), d') ↔
      d.step pool widened = (.ok i, d') := by
    intro widened
    rw [Prod.ext_iff, Prod.ext_iff]
    simp
  unfold next
  cases hphase : d.phase with
  | stopped => simp [Phase.expects]
  | ready =>
    rw [hphase] at nothing_at_end
    cases hend : d.cursor.atEnd with
    | true =>
      simp only [Prod.mk.injEq, reduceCtorEq, false_and, false_iff]
      exact nothing_at_end hend
    | false => simp only [lifted, Phase.expects, Option.some.injEq, exists_eq_left']
  | widening offset =>
    rw [hphase] at nothing_at_end
    cases hend : d.cursor.atEnd with
    | true =>
      simp only [Prod.mk.injEq, Option.some.injEq, reduceCtorEq, false_and, false_iff]
      exact nothing_at_end hend
    | false => simp only [lifted, Phase.expects, Option.some.injEq, exists_eq_left']

/-- A decoder in front of an item decodes it and stops right behind it: an item is read whatever comes
after it. -/
theorem next_of_stands {start : Nat} {item : Item} {bytes : Bytes} {phase : Phase}
    (h : item.Stands pool start bytes i) (hstart : start < UInt32.size)
    (hphase : phase.expects = some item.arguments.isWidened) (rest : Bytes) :
    next pool ⟨⟨start, bytes ++ rest⟩, phase⟩ =
      (some (.ok i),
        ⟨⟨start + bytes.length, rest⟩, if item.widens then .widening i.offset else .ready⟩) := by
  have hreads := (Instruction.reads_instruction hstart).mpr ⟨item, rfl, h, rfl⟩
  exact next_eq_ok.mpr ⟨_, hphase, step_eq_ok.mpr ⟨item.widens, _, hreads rest, rfl⟩⟩

theorem next_eq_none {widened : Bool} (hphase : d.phase.expects = some widened)
    (h : d.next pool = (none, d')) : widened = false ∧ d.cursor.rest = [] := by
  unfold next at h
  split at h
  · next hstopped =>
    rw [hstopped] at hphase
    cases hphase
  · next hready hend =>
    rw [hready] at hphase
    cases hphase
    exact ⟨rfl, List.isEmpty_iff.mp hend⟩
  · cases h
  · cases h
  · cases h

theorem next_at_end {p : Nat} : next pool ⟨⟨p, []⟩, .ready⟩ = (none, ⟨⟨p, []⟩, .ready⟩) := rfl

end Decoder

/-! ## Whole runs -/

/-- A program from `start` on, `bytes` that are a written form of it, and the instructions that it
stands for. `widened` says whether its first item is of the wider form. -/
inductive Program.Stands (pool : Pool) :
    Bool → Nat → List Item → Bytes → List Instruction → Prop where
  | nil {start : Nat} : Stands pool false start [] [] []
  | cons {start : Nat} {item : Item} {items : List Item} {xs ys : Bytes} {i : Instruction}
      {is : List Instruction} (head : item.Stands pool start xs i)
      (tail : Stands pool item.widens (start + xs.length) items ys is) :
      Stands pool item.arguments.isWidened start (item :: items) (xs ++ ys) (i :: is)

namespace Decoder

open Reader

variable {pool : Pool} {d d' : Decoder} {i : Instruction} {decoded : List Instruction}

theorem runFrom_of_ok (h : d.next pool = (some (.ok i), d')) :
    d.runFrom pool decoded = d'.runFrom pool (i :: decoded) := by
  rw [runFrom]
  split <;> simp_all

theorem runFrom_of_none (h : d.next pool = (none, d')) :
    d.runFrom pool decoded = ⟨decoded.reverse, none⟩ := by
  rw [runFrom]
  split <;> simp_all

/-- A decoder in front of a program decodes it to the end. -/
theorem runFrom_of_stands {widened : Bool} {start : Nat} {items : List Item} {bytes : Bytes}
    {is : List Instruction} (h : Program.Stands pool widened start items bytes is) :
    ∀ (decoded : List Instruction) (phase : Phase), phase.expects = some widened →
      start + bytes.length < UInt32.size →
      runFrom pool decoded ⟨⟨start, bytes⟩, phase⟩ = ⟨decoded.reverse ++ is, none⟩ := by
  induction h with
  | nil =>
    intro decoded phase hphase _
    cases phase with
    | ready => rw [runFrom_of_none next_at_end, List.append_nil]
    | widening offset => cases hphase
    | stopped => cases hphase
  | @cons start item items xs ys i is head tail ih =>
    intro decoded phase hphase hlen
    rw [List.length_append] at hlen
    have hnext := next_of_stands head (by omega) hphase ys
    rw [runFrom_of_ok hnext, ih (i :: decoded) _ (Phase.expects_after _ _) (by omega),
      List.reverse_cons, List.append_assoc, List.singleton_append]

/-- A decoder that reaches the end has decoded a program. -/
theorem stands_of_runFrom (pool : Pool) (decoded : List Instruction) (d : Decoder) :
    (d.runFrom pool decoded).failure = none → ∀ widened, d.phase.expects = some widened →
      d.cursor.position + d.cursor.rest.length < UInt32.size →
      ∃ items is, (d.runFrom pool decoded).instructions = decoded.reverse ++ is ∧
        Program.Stands pool widened d.cursor.position items d.cursor.rest is := by
  induction decoded, d using runFrom.induct pool with
  | case1 decoded d i d' hnext ih =>
    intro hdone widened hphase hlen
    rw [runFrom_of_ok hnext] at hdone ⊢
    -- The step read an item, and what that item widens is what the next phase expects.
    obtain ⟨_, hphase', hstep⟩ := next_eq_ok.mp hnext
    rw [hphase] at hphase'
    cases hphase'
    obtain ⟨w, c, hread, rfl⟩ := step_eq_ok.mp hstep
    obtain ⟨used, hrest, hpos, hused⟩ := 
      Instruction.local_read pool widened d.cursor.position d.cursor.rest (i, w) c hread
    obtain ⟨item, rfl, hitem, rfl⟩ := (Instruction.reads_instruction (by omega)).mp hused
    rw [hrest, List.length_append] at hlen
    obtain ⟨items, is, hout, hstands⟩ :=
      ih hdone item.widens (Phase.expects_after _ _) (by dsimp only; omega)
    refine ⟨item :: items, i :: is, ?_, ?_⟩
    · rw [hout, List.reverse_cons, List.append_assoc, List.singleton_append]
    · rw [hrest]
      dsimp only at hstands
      rw [hpos] at hstands
      exact .cons hitem hstands
  | case2 decoded d e d' hnext =>
    intro hdone
    rw [runFrom] at hdone
    split at hdone <;> simp_all
  | case3 decoded d d' hnext =>
    intro _ widened hphase _
    obtain ⟨rfl, hrest⟩ := next_eq_none hphase hnext
    rw [runFrom_of_none hnext, hrest]
    exact ⟨[], [], (List.append_nil _).symm, .nil⟩

end Decoder

/-- **A code array decodes to a listing exactly when it is a written form of a program that stands
for it.** -/
theorem decode_eq_ok_iff {pool : Pool} {code : Bytes} {is : List Instruction}
    (hlen : code.length < UInt32.size) :
    decode pool code = .ok is ↔ ∃ items, Program.Stands pool false 0 items code is := by
  have hlen' : 0 + code.length < UInt32.size := by omega
  constructor
  · intro h
    unfold decode at h
    dsimp only at h
    split at h
    · next hdone =>
      obtain ⟨items, is', hout, hstands⟩ :=
        Decoder.stands_of_runFrom pool [] (Decoder.start code) hdone false rfl hlen'
      have hsame : (decodeAll pool code).instructions = is' := hout
      cases h
      rw [hsame]
      exact ⟨items, hstands⟩
    · cases h
  · intro h
    obtain ⟨items, hstands⟩ := h
    have hrun : decodeAll pool code = ⟨is, none⟩ :=
      Decoder.runFrom_of_stands hstands [] .ready rfl hlen'
    simp only [decode, hrun]

/-! ## Well-formed programs -/

/-- An operand leads somewhere exactly when it stands for something. -/
theorem Written.leads_iff {pool : Pool} {start : Nat} {w : Written} :
    w.Leads pool start ↔ ∃ op, w.Means pool start op := by
  cases w with
  | slot number => simp [Leads]
  | immediate value => simp [Leads]
  | constant index =>
    simp only [Leads, means_constant]
    cases pool.resolve index <;> simp [Except.isOk, Except.toBool]
  | displacement distance =>
    have hsize : (UInt32.size : Int) = 4294967296 := rfl
    simp only [Leads, means_displacement]
    constructor
    · intro h
      obtain ⟨hlow, hhigh⟩ := h
      refine ⟨_, UInt32.ofNat (start + distance.toInt).toNat, ?_, rfl⟩
      rw [UInt32.toNat_ofNat']
      omega
    · intro h
      obtain ⟨_, target, htarget, -⟩ := h
      have hlt : target.toNat < 4294967296 := target.toNat_lt
      omega

theorem exists_forall₂ {α β : Type} {R : α → β → Prop} {xs : List α} (h : ∀ x ∈ xs, ∃ y, R x y) :
    ∃ ys, List.Forall₂ R xs ys := by
  induction xs with
  | nil => exact ⟨[], .nil⟩
  | cons x xs ih =>
    obtain ⟨y, hy⟩ := h x List.mem_cons_self
    obtain ⟨ys, hys⟩ := ih fun x hx => h x (List.mem_cons_of_mem _ hx)
    exact ⟨y :: ys, .cons hy hys⟩

/-- A valid item at an offset stands for an instruction. -/
theorem Item.Valid.exists_means {pool : Pool} {start : Nat} {item : Item}
    (h : item.Valid pool start)
    (hstart : start < UInt32.size) : ∃ i, item.Means pool start i := by
  obtain ⟨ops, hops⟩ := exists_forall₂ fun w hw => Written.leads_iff.mp (h.leads w hw)
  exact ⟨⟨UInt32.ofNat start, item.opcode.mnemonic, ops⟩, UInt32.toNat_ofNat_of_lt' hstart, rfl,
    hops⟩

namespace Program

variable {pool : Pool} {widened : Bool} {start : Nat} {items : List Item} {bytes : Bytes}
  {is : List Instruction}

theorem WellFormed.exists_lists (h : WellFormed pool widened start items)
    (hlen : start + (template start items).length < UInt32.size) :
      ∃ is, Lists pool start items is := by
  induction items generalizing widened start with
  | nil => exact ⟨[], trivial⟩
  | cons item items ih =>
    obtain ⟨-, hvalid, hrest⟩ := h
    rw [template, List.length_append, ← Item.size] at hlen
    obtain ⟨i, hi⟩ := hvalid.exists_means (by omega)
    obtain ⟨is, his⟩ := ih hrest (by omega)
    exact ⟨i :: is, hi, his⟩

/-- Every written form of a well-formed program stands for its listing. -/
theorem WellFormed.stands (h : WellFormed pool widened start items)
    (hbytes : (template start items).Matches bytes)
    (hlists : Lists pool start items is) : Stands pool widened start items bytes is := by
  induction items generalizing widened start bytes is with
  | nil =>
    cases is with
    | nil =>
      cases Template.matches_nil.mp hbytes
      cases h
      exact .nil
    | cons i is => exact hlists.elim
  | cons item items ih =>
    cases is with
    | nil => exact hlists.elim
    | cons i is =>
      obtain ⟨rfl, hvalid, hrest⟩ := h
      obtain ⟨hi, his⟩ := hlists
      obtain ⟨xs, ys, rfl, hxs, hys⟩ := Template.matches_append.mp hbytes
      have hsize : xs.length = item.size start := hxs.length_eq
      have htail := ih hrest hys his
      rw [← hsize] at htail
      exact .cons ⟨hvalid.counted, hxs, hi⟩ htail

end Program

/-- **Decoding undoes assembling.** Every written form of a well-formed program, however its blanks
are filled, decodes to the listing of the program: one instruction for each item, in order, each at
the number of bytes before it, with the mnemonic of the table and one operand for each that is
written. -/
theorem decode_assembled {pool : Pool} {items : List Item} {code : Bytes}
    (hprogram : Program.WellFormed pool false 0 items)
    (hcode : (Program.template 0 items).Matches code) (hlen : code.length < UInt32.size) :
    ∃ is, decode pool code = .ok is ∧ Program.Lists pool 0 items is := by
  obtain ⟨is, hlists⟩ := hprogram.exists_lists (by rw [← hcode.length_eq]; omega)
  exact ⟨is, (decode_eq_ok_iff hlen).mpr ⟨items, hprogram.stands hcode hlists⟩, hlists⟩

namespace Program

def samplePool : Pool := ⟨#[
  some (.utf8 "run"), some (.utf8 "()V"), some (.nameAndType 1 2), some (.utf8 "R"),
  some (.classRef 4), some (.member .interfaceMethod 5 3)
  ]⟩

def sample : List Item := [
  ⟨⟨0xc4, "wide", .wide⟩, .wide, by decide +kernel, rfl⟩,
  ⟨⟨0x84, "iinc", .increment⟩, .wideIncrement 0x0102 (-256), by decide +kernel, rfl⟩,
  ⟨⟨0x00, "nop", .plain⟩, .plain, by decide +kernel, rfl⟩,
  ⟨⟨0xb9, "invokeinterface", .interfaceCall⟩, .interfaceCall 6 1, by decide +kernel, rfl⟩,
  ⟨⟨0xab, "lookupswitch", .lookupSwitch⟩, .lookupSwitch (-11) [(-1, 5)], by decide +kernel, rfl⟩
  ]

-- The blanks are filled with what no assembler would write: `77` behind the call, `de ad be` in
-- front of the cases.
def sampleCode : Bytes := [
  0xc4, 0x84, 0x01, 0x02, 0xff, 0x00, 0x00, 0xb9, 0x00, 0x06, 0x01, 0x77, 0xab, 0xde, 0xad, 0xbe,
  0xff, 0xff, 0xff, 0xf5, 0x00, 0x00, 0x00, 0x01, 0xff, 0xff, 0xff, 0xff, 0x00, 0x00, 0x00, 0x05
  ]

def sampleListing : List Instruction := [
  ⟨0, "wide", []⟩,
  ⟨1, "iinc", [.slot 0x0102, .immediate (-256)]⟩,
  ⟨6, "nop", []⟩,
  ⟨7, "invokeinterface", [.symbol ⟨6, some "R", "run", some "()V"⟩, .immediate 1]⟩,
  ⟨12, "lookupswitch", [.target 1, .immediate (-1), .target 17]⟩
  ]

theorem decode_sampleCode : decode samplePool sampleCode = .ok sampleListing := by
  have hprogram : WellFormed samplePool false 0 sample := by decide +kernel
  have hcode : (template 0 sample).Matches sampleCode := by decide +kernel
  have hlists : Lists samplePool 0 sample sampleListing := by decide +kernel
  exact (decode_eq_ok_iff (by decide)).mpr ⟨_, hprogram.stands hcode hlists⟩

end Program

theorem decode_assembled_sample :
    Program.WellFormed Program.samplePool false 0 Program.sample ∧
      (Program.template 0 Program.sample).Matches Program.sampleCode ∧
      Program.sampleCode.length < UInt32.size ∧
      ∃ is, decode Program.samplePool Program.sampleCode = .ok is ∧
        Program.Lists Program.samplePool 0 Program.sample is := by
  have hprogram : Program.WellFormed Program.samplePool false 0 Program.sample := by decide +kernel
  have hcode : (Program.template 0 Program.sample).Matches Program.sampleCode := by decide +kernel
  have hlen : Program.sampleCode.length < UInt32.size := by decide
  exact ⟨hprogram, hcode, hlen, decode_assembled hprogram hcode hlen⟩

end JvmTrace
