import JvmTrace.Proofs.Instruction.Faults
import JvmTrace.Report

/-!
# The subject of an instruction — the report names it, and there is no other

A report keeps one operand of an instruction, the first that is a local variable or a constant. Nothing
in it says that there was no second one. That is a fact about decoding, and the content of this file:
`Operand.Shape` is what the operands of every decoded instruction look like. Either the first is a
local variable, or the first is a constant, or none is; and the layout of the opcode says which.

The rest is bookkeeping on both sides of the shape. Arguments have it in whatever form they are written
(`Arguments.Stands.shape`), where the number or the index stands first in the bytes as well, and operands
that have it are reported as it says (`Operand.Shape.reports`).
-/

set_option autoImplicit false

namespace JvmTrace

/-! ## What a report should say -/

def Layout.namesSlot : Layout → Bool
  | .slot => true
  | .increment => true
  | _ => false

def Layout.namesConstant : Layout → Bool
  | .shortConstant => true
  | .constant => true
  | .interfaceCall => true
  | .dynamicCall => true
  | .arrayDimensions => true
  | _ => false

/-- The operands in `bytes` begin with the number of a local variable, which is one byte, and two
behind a `wide`. -/
def SlotAt : (widened : Bool) → (bytes : Bytes) → (number : UInt16) → Prop
  | true, bytes, number => BigEndian.u16 number <+: bytes
  | false, bytes, number => ∃ b : UInt8, [b] <+: bytes ∧ number = b.toUInt16

/-- The name of a symbol in a report: that of its owner in front, if it has one, and a dot between. -/
inductive Symbol.Called : Symbol → String → Prop where
  | owned {index : UInt16} {owner name : String} {descriptor : Option String} :
    Called ⟨index, some owner, name, descriptor⟩ (owner ++ "." ++ name)
  | unowned {index : UInt16} {name : String} {descriptor : Option String} :
    Called ⟨index, none, name, descriptor⟩ name

theorem Symbol.called_qualifiedName (s : Symbol) : s.Called s.qualifiedName := by
  obtain ⟨index, owner, name, descriptor⟩ := s
  cases owner with
  | some owner => exact .owned
  | none => exact .unowned

/-- What the report on an instruction says, by the layout of its opcode and the `bytes` behind that. -/
structure OperationDocument.Reports (d : OperationDocument) (pool : Pool) (layout : Layout)
    (widened : Bool) (bytes : Bytes) : Prop where
  slot_iff : (∃ number, d.subject = some (.slot number)) ↔ layout.namesSlot = true
  slot : ∀ number, d.subject = some (.slot number) → SlotAt widened bytes number
  name_iff : (∃ text, d.subject = some (.name text)) ↔ layout.namesConstant = true
  name : ∀ text, d.subject = some (.name text) → ∃ index symbol, layout.Indexes bytes index ∧
    pool.resolve index = .ok symbol ∧ symbol.Called text ∧ d.descriptor = symbol.descriptor
  nothing : layout.namesSlot = false → layout.namesConstant = false →
    d.subject = none ∧ d.descriptor = none
  descriptor : ∀ type, d.descriptor = some type → ∃ text, d.subject = some (.name text)

/-! ## The shape of operands -/

namespace Operand

/-- What operands look like whose bytes are at the front of `bytes`. -/
inductive Shape (pool : Pool) (layout : Layout) (widened : Bool) (bytes : Bytes) :
    List Operand → Prop where
  | slot {number : UInt16} {others : List Operand} (names : layout.namesSlot = true)
      (encoded : SlotAt widened bytes number) (plain : ∀ op ∈ others, op.subject = none) :
      Shape pool layout widened bytes (.slot number :: others)
  | symbol {index : UInt16} {value : Symbol} {others : List Operand}
      (names : layout.namesConstant = true) (encoded : layout.Indexes bytes index)
      (resolved : pool.resolve index = .ok value) (plain : ∀ op ∈ others, op.subject = none) :
      Shape pool layout widened bytes (.symbol value :: others)
  | nothing {ops : List Operand} (noSlot : layout.namesSlot = false)
      (noConstant : layout.namesConstant = false) (plain : ∀ op ∈ ops, op.subject = none) :
      Shape pool layout widened bytes ops

theorem subject_eq_none_iff {op : Operand} :
    op.subject = none ↔ (∀ number, op ≠ .slot number) ∧ ∀ value, op ≠ .symbol value := by
  cases op <;> simp [subject]

end Operand

theorem Layout.names_exclusive (layout : Layout) :
    layout.namesSlot = false ∨ layout.namesConstant = false := by
  cases layout with
  | slot | increment => exact .inr rfl
  | _ => exact .inl rfl

namespace Instruction

variable {i : Instruction}

theorem document_of_subject {op : Operand} {others : List Operand} {v : Variable}
    {type : Option String} (hops : i.operands = op :: others)
    (hop : op.subject = some (v, type)) : i.document = ⟨i.mnemonic, some v, type⟩ := by
  rw [document, hops, List.findSome?_cons, hop]

theorem document_of_plain (h : ∀ op ∈ i.operands, op.subject = none) :
    i.document = ⟨i.mnemonic, none, none⟩ := by
  rw [document, List.findSome?_eq_none_iff.mpr h]

theorem operation_document (i : Instruction) : i.document.operation = i.mnemonic := by
  unfold document
  split <;> rfl

end Instruction

namespace Operand.Shape

variable {pool : Pool} {layout : Layout} {widened : Bool} {bytes : Bytes} {ops : List Operand}

theorem plain_tail (h : Shape pool layout widened bytes ops) :
    ∀ op ∈ ops.tail, op.subject = none := by
  cases h with
  | slot _ _ plain => exact plain
  | symbol _ _ _ plain => exact plain
  | nothing _ _ plain => exact fun op hop => plain op (List.mem_of_mem_tail hop)

/-- **Operands that have the shape are reported as it says.** -/
theorem reports {i : Instruction} (h : Shape pool layout widened bytes i.operands) :
    i.document.Reports pool layout widened bytes := by
  generalize hops : i.operands = ops at h
  cases h with
  | @slot number others names encoded plain =>
    have hconstant : layout.namesConstant = false :=
      layout.names_exclusive.resolve_left (by simp [names])
    rw [Instruction.document_of_subject hops rfl]
    refine ⟨by simp [names], ?_, by simp [hconstant], by simp, by simp [names], by simp⟩
    intro n hn
    cases hn
    exact encoded
  | @symbol index value others names encoded resolved plain =>
    have hslot : layout.namesSlot = false := layout.names_exclusive.resolve_right (by simp [names])
    rw [Instruction.document_of_subject hops rfl]
    refine ⟨by simp [hslot], by simp, by simp [names], ?_, by simp [names], by simp⟩
    intro text htext
    cases htext
    exact ⟨index, value, encoded, resolved, value.called_qualifiedName, rfl⟩
  | nothing noSlot noConstant plain =>
    rw [Instruction.document_of_plain (hops ▸ plain)]
    exact ⟨by simp [noSlot], by simp, by simp [noConstant], by simp, by simp, by simp⟩

end Operand.Shape

/-! ## Arguments have the shape -/

namespace Written

/-- Whether an operand is what an instruction operates on. -/
def isSubject : Written → Bool
  | slot _ => true
  | constant _ => true
  | immediate _ => false
  | displacement _ => false

theorem Means.subject_eq_none {pool : Pool} {start : Nat} {w : Written} {op : Operand}
    (h : w.Means pool start op) (hw : w.isSubject = false) : op.subject = none := by
  cases w <;> cases op <;> simp_all [Means, isSubject, Operand.subject]

theorem plain_of_means {pool : Pool} {start : Nat} {ws : List Written} {ops : List Operand}
    (h : List.Forall₂ (Written.Means pool start) ws ops) (hws : ∀ w ∈ ws, w.isSubject = false) :
    ∀ op ∈ ops, op.subject = none := by
  induction h with
  | nil => simp
  | cons head _ ih =>
    simp only [List.forall_mem_cons] at hws ⊢
    exact ⟨head.subject_eq_none hws.1, ih hws.2⟩

end Written

theorem SlotAt.append {widened : Bool} {bytes : Bytes} {number : UInt16}
    (h : SlotAt widened bytes number) (more : Bytes) : SlotAt widened (bytes ++ more) number := by
  cases widened with
  | true => exact List.IsPrefix.trans h (List.prefix_append bytes more)
  | false =>
    obtain ⟨b, hb, hnumber⟩ := h
    exact ⟨b, hb.trans (List.prefix_append bytes more), hnumber⟩

theorem Layout.Indexes.append {layout : Layout} {bytes : Bytes} {index : UInt16}
    (h : layout.Indexes bytes index) (more : Bytes) : layout.Indexes (bytes ++ more) index := by
  cases layout with
  | shortConstant =>
    obtain ⟨b, hb, hindex⟩ := h
    exact ⟨b, hb.trans (List.prefix_append bytes more), hindex⟩
  | constant | interfaceCall | dynamicCall | arrayDimensions =>
    exact List.IsPrefix.trans h (List.prefix_append bytes more)
  | _ => exact h.elim

namespace Arguments

variable {pool : Pool} {start position : Nat} {args : Arguments} {bytes : Bytes} {ops : List Operand}

open Operand

theorem Stands.shape_slot {number : UInt16} {others : List Written}
    (h : args.Stands pool start position bytes ops) (hwritten : args.written = .slot number :: others)
    (hothers : ∀ w ∈ others, w.isSubject = false) (hnames : args.layout.namesSlot = true)
    (hencoded : SlotAt args.isWidened bytes number) (more : Bytes) :
    Shape pool args.layout args.isWidened (bytes ++ more) ops := by
  have hmeans := h.means
  rw [hwritten, List.forall₂_cons_left_iff] at hmeans
  obtain ⟨op, rest, hop, hrest, rfl⟩ := hmeans
  obtain rfl := Written.means_slot.mp hop
  exact .slot hnames (hencoded.append more) (Written.plain_of_means hrest hothers)

theorem Stands.shape_constant {index : UInt16} {others : List Written}
    (h : args.Stands pool start position bytes ops)
    (hwritten : args.written = .constant index :: others)
    (hothers : ∀ w ∈ others, w.isSubject = false) (hnames : args.layout.namesConstant = true)
    (hencoded : args.layout.Indexes bytes index) (more : Bytes) :
    Shape pool args.layout args.isWidened (bytes ++ more) ops := by
  have hmeans := h.means
  rw [hwritten, List.forall₂_cons_left_iff] at hmeans
  obtain ⟨op, rest, hop, hrest, rfl⟩ := hmeans
  obtain ⟨value, hvalue, rfl⟩ := Written.means_constant.mp hop
  exact .symbol hnames (hencoded.append more) hvalue (Written.plain_of_means hrest hothers)

theorem Stands.shape_nothing (h : args.Stands pool start position bytes ops)
    (hplain : ∀ w ∈ args.written, w.isSubject = false) (hslot : args.layout.namesSlot = false)
    (hconstant : args.layout.namesConstant = false) (more : Bytes) :
    Shape pool args.layout args.isWidened (bytes ++ more) ops :=
  .nothing hslot hconstant (Written.plain_of_means h.means hplain)

/-- **The operands of every instruction have the shape**, whatever stands behind their bytes. -/
theorem Stands.shape (h : args.Stands pool start position bytes ops) (more : Bytes) :
    Shape pool args.layout args.isWidened (bytes ++ more) ops := by
  cases args with
  | slot number =>
    refine h.shape_slot rfl (by simp) rfl ?_ more
    rw [Template.matches_known.mp h.written]
    exact ⟨number, List.prefix_rfl, rfl⟩
  | wideSlot number =>
    refine h.shape_slot rfl (by simp) rfl ?_ more
    rw [Template.matches_known.mp h.written]
    exact List.prefix_rfl
  | increment number amount =>
    refine h.shape_slot rfl (by simp [Written.isSubject]) rfl ?_ more
    rw [Template.matches_known.mp h.written]
    exact ⟨number, List.prefix_append _ _, rfl⟩
  | wideIncrement number amount =>
    refine h.shape_slot rfl (by simp [Written.isSubject]) rfl ?_ more
    rw [Template.matches_known.mp h.written]
    exact List.prefix_append _ _
  | shortConstant index =>
    refine h.shape_constant rfl (by simp) rfl ?_ more
    rw [Template.matches_known.mp h.written]
    exact ⟨index, List.prefix_rfl, rfl⟩
  | constant index =>
    refine h.shape_constant rfl (by simp) rfl ?_ more
    rw [Template.matches_known.mp h.written]
    exact List.prefix_rfl
  | interfaceCall index count =>
    refine h.shape_constant rfl (by simp [Written.isSubject]) rfl ?_ more
    obtain ⟨_, last, rfl, hknown, -⟩ := Template.matches_append.mp h.written
    rw [Template.matches_known.mp hknown, List.append_assoc]
    exact List.prefix_append _ _
  | dynamicCall index =>
    refine h.shape_constant rfl (by simp) rfl ?_ more
    obtain ⟨_, last, rfl, hknown, -⟩ := Template.matches_append.mp h.written
    rw [Template.matches_known.mp hknown]
    exact List.prefix_append _ _
  | arrayDimensions index dimensions =>
    refine h.shape_constant rfl (by simp [Written.isSubject]) rfl ?_ more
    rw [Template.matches_known.mp h.written]
    exact List.prefix_append _ _
  | tableSwitch default low high cases =>
    exact h.shape_nothing (by simp [Written.isSubject]) rfl rfl more
  | lookupSwitch default cases =>
    refine h.shape_nothing ?_ rfl rfl more
    intro w hw
    simp only [Arguments.written, List.mem_cons, List.mem_flatMap] at hw
    rcases hw with rfl | ⟨keyed, -, rfl | rfl | hnone⟩
    · rfl
    · rfl
    · rfl
    · cases hnone
  | _ => exact h.shape_nothing (by simp [Written.isSubject]) rfl rfl more

end Arguments

/-! ## Decoded instructions -/

open Decoder in
/-- **The report loses no variable of a decoded instruction.** Behind the first operand of an
instruction there is neither a local variable nor a constant. The report has its mnemonic and, as the
layout of its opcode says, the number of the local variable that is written behind the opcode, or the
name and the descriptor of the constant whose index is written there, or neither. The opcode stands
where the decoder stood before the call that gave the instruction. -/
theorem document_names_subject {pool : Pool} {code : Bytes} {xs : List Instruction}
    (h : decode pool code = .ok xs) {n : Nat} {x : Instruction} (hx : xs[n]? = some x) :
    ∃ place opcode widened, place = ((start code).afterCalls pool n).cursor.position ∧
      x.offset = UInt32.ofNat place ∧ Announces code place opcode.code opcode ∧
      x.mnemonic = opcode.mnemonic ∧ (widened = true ↔ ∃ last, EndsWide (xs.take n) last) ∧
      (∀ op ∈ x.operands.tail, (∀ number, op ≠ .slot number) ∧ ∀ value, op ≠ .symbol value) ∧
      x.document.operation = x.mnemonic ∧
      x.document.Reports pool opcode.layout widened (code.drop (place + 1)) := by
  obtain ⟨last, hyields, -⟩ := yields_of_decode h
  obtain ⟨hfront, d', hnext⟩ := hyields.before hx
  have hin := hfront.inCode (Cursor.in_start code)
  generalize (start code).afterCalls pool n = d at hfront hnext hin
  obtain ⟨opcode, args, bytes, found⟩ := exists_found hnext
  -- What lies ahead of the decoder is the code from its place on.
  have hdrop : code.drop d.cursor.position = opcode.code :: (bytes ++ d'.cursor.rest) :=
    hin.rest_eq.symm.trans found.rest
  have hbyte : code[d.cursor.position]? = some opcode.code := by
    rw [← List.head?_drop, hdrop, List.head?_cons]
  have hbehind : code.drop (d.cursor.position + 1) = bytes ++ d'.cursor.rest := by
    rw [← List.tail_drop, hdrop, List.tail_cons]
  have hshape := found.stands.shape d'.cursor.rest
  rw [found.shaped] at hshape
  refine ⟨d.cursor.position, opcode, args.isWidened, rfl, (next_ok_cases hnext).1,
    ⟨hbyte, Opcode.ofByte?_code found.listed⟩, found.mnemonic,
    widened_iff_endsWide hfront found.form, ?_, x.operation_document, ?_⟩
  · intro op hop
    exact Operand.subject_eq_none_iff.mp (hshape.plain_tail op hop)
  · rw [hbehind]
    exact hshape.reports

-- The `iinc` behind the `wide`, with a number that takes two bytes, and the call of a member.
open Decoder Program in
theorem document_names_subject_sample :
    decode samplePool sampleCode = .ok sampleListing ∧
    sampleListing.map Instruction.document =
      [⟨"wide", none, none⟩, ⟨"iinc", some (.slot 0x0102), none⟩, ⟨"nop", none, none⟩,
        ⟨"invokeinterface", some (.name "R.run"), some "()V"⟩, ⟨"lookupswitch", none, none⟩] ∧
    ∀ n ∈ [1, 3], ∃ x, sampleListing[n]? = some x ∧
      ∃ place opcode widened,
        place = ((start sampleCode).afterCalls samplePool n).cursor.position ∧
        x.offset = UInt32.ofNat place ∧ Announces sampleCode place opcode.code opcode ∧
        x.mnemonic = opcode.mnemonic ∧
        (widened = true ↔ ∃ last, EndsWide (sampleListing.take n) last) ∧
        (∀ op ∈ x.operands.tail, (∀ number, op ≠ .slot number) ∧ ∀ value, op ≠ .symbol value) ∧
        x.document.operation = x.mnemonic ∧
        x.document.Reports samplePool opcode.layout widened (sampleCode.drop (place + 1)) := by
  refine ⟨decode_sampleCode, rfl, fun n hn => ?_⟩
  obtain rfl | rfl : n = 1 ∨ n = 3 := by simpa using hn
  · exact ⟨_, rfl, document_names_subject decode_sampleCode rfl⟩
  · exact ⟨_, rfl, document_names_subject decode_sampleCode rfl⟩

end JvmTrace
