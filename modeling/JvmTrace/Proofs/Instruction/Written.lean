import JvmTrace.Instruction.Basic
import Mathlib.Data.List.Forall2

/-!
# Instructions as they are written — the assembler's side

A decoded `Instruction` has its constants followed and its branches made absolute. An `Item` is what
it was before that: an opcode of the table and the `Arguments` that its layout asks for, each of the
width at which it is written. A list of items is a program, and three things are said about one:

- `template`: its bytes. Some bytes of an instruction mean nothing (the padding of a switch, the
  last byte of `invokeinterface`, the last two of `invokedynamic`), so the written form is not one
  byte string but a pattern with blanks, and *every* way of filling the blanks is a written form;
- `WellFormed`: what an assembler has to see to, and no more;
- `Lists`: which instructions it stands for.

None of the three mentions the decoder. An item that no table entry announces, or that has the wrong
arguments for its opcode, cannot be built.
-/

set_option autoImplicit false

namespace JvmTrace

/-! ## Lists related piece by piece -/

section Pieces

variable {α β γ : Type} {R : α → β → Prop}

theorem forall₂_append_left {xs ys : List α} {l : List β} :
    List.Forall₂ R (xs ++ ys) l ↔
      ∃ us vs, l = us ++ vs ∧ List.Forall₂ R xs us ∧ List.Forall₂ R ys vs := by
  constructor
  · intro h
    refine ⟨l.take xs.length, l.drop xs.length, (List.take_append_drop _ _).symm, ?_, ?_⟩
    · have front := List.forall₂_take xs.length h
      rwa [List.take_left] at front
    · have back := List.forall₂_drop xs.length h
      rwa [List.drop_left] at back
  · intro h
    obtain ⟨us, vs, rfl, hus, hvs⟩ := h
    exact List.rel_append hus hvs

theorem forall₂_flatMap_left {f : γ → List α} {ws : List γ} {l : List β} :
    List.Forall₂ R (ws.flatMap f) l ↔
      ∃ ls, l = ls.flatten ∧ List.Forall₂ (fun w us => List.Forall₂ R (f w) us) ws ls := by
  induction ws generalizing l with
  | nil =>
    rw [List.flatMap_nil, List.forall₂_nil_left_iff]
    constructor
    · rintro rfl
      exact ⟨[], rfl, .nil⟩
    · intro h
      obtain ⟨ls, rfl, h⟩ := h
      cases h
      rfl
  | cons w ws ih =>
    rw [List.flatMap_cons, forall₂_append_left]
    constructor
    · intro h
      obtain ⟨us, vs, rfl, hus, hvs⟩ := h
      obtain ⟨ls, rfl, hls⟩ := ih.mp hvs
      exact ⟨us :: ls, rfl, .cons hus hls⟩
    · intro h
      obtain ⟨ls, rfl, h⟩ := h
      cases h with
      | @cons _ us _ ls hus hls => exact ⟨us, ls.flatten, rfl, hus, ih.mpr ⟨ls, rfl, hls⟩⟩

end Pieces

/-! ## Bytes with blanks -/

/-- A run of bytes of which some mean nothing; `none` stands for any byte. -/
abbrev Template := List (Option UInt8)

namespace Template

/-- Bytes that all matter. -/
def known (bytes : Bytes) : Template := bytes.map some

/-- Bytes of which none matters. -/
def blank (n : Nat) : Template := List.replicate n none

/-- Whether `b` may stand in a place. -/
def Admits (place : Option UInt8) (b : UInt8) : Prop := place = none ∨ place = some b

/-- Whether `bytes` are the template with its blanks filled in, no matter how. -/
def Matches (t : Template) (bytes : Bytes) : Prop := List.Forall₂ Admits t bytes

instance (place : Option UInt8) (b : UInt8) : Decidable (Admits place b) :=
  inferInstanceAs (Decidable (_ ∨ _))

instance (t : Template) (bytes : Bytes) : Decidable (t.Matches bytes) :=
  inferInstanceAs (Decidable (List.Forall₂ Admits t bytes))

theorem Matches.length_eq {t : Template} {bytes : Bytes} (h : t.Matches bytes) :
    bytes.length = t.length :=
  (List.Forall₂.length_eq h).symm

@[simp] theorem matches_nil {bytes : Bytes} : Matches [] bytes ↔ bytes = [] :=
  List.forall₂_nil_left_iff

/-- What matches one template after another is a piece for each. -/
@[simp] theorem matches_append {t u : Template} {bytes : Bytes} :
    (t ++ u).Matches bytes ↔ ∃ xs ys, bytes = xs ++ ys ∧ t.Matches xs ∧ u.Matches ys :=
  forall₂_append_left

@[simp] theorem matches_known {xs bytes : Bytes} : (known xs).Matches bytes ↔ bytes = xs := by
  induction xs generalizing bytes with
  | nil => exact matches_nil
  | cons x xs ih =>
    have hcons : known (x :: xs) = some x :: known xs := rfl
    cases bytes with
    | nil => simp [Matches, known]
    | cons b rest =>
      rw [hcons, Matches, List.forall₂_cons, ← Matches, ih]
      simp only [Admits, reduceCtorEq, false_or, Option.some.injEq, List.cons.injEq]
      rw [eq_comm]

@[simp] theorem matches_blank {n : Nat} {bytes : Bytes} :
    (blank n).Matches bytes ↔ bytes.length = n := by
  constructor
  · intro h
    rw [h.length_eq, blank, List.length_replicate]
  · rintro rfl
    exact List.forall₂_iff_get.mpr ⟨by simp [blank], fun i h₁ h₂ => Or.inl (by simp [blank])⟩

@[simp] theorem length_known (bytes : Bytes) :
    (known bytes).length = bytes.length := List.length_map _

@[simp] theorem length_blank (n : Nat) : (blank n).length = n := List.length_replicate

end Template

/-! ## Operands as they are written -/

/-- An operand before it is resolved. -/
inductive Written where
  | slot (number : UInt16)
  /-- A number that means itself. -/
  | immediate (value : Int)
  /-- The index of a constant. -/
  | constant (index : UInt16)
  /-- A distance from the start of the instruction. -/
  | displacement (distance : Int32)
  deriving DecidableEq

namespace Written

/-- Whether an operand leads somewhere, in an instruction that starts at `start`: a constant has to
resolve, and a jump has to land on a 32-bit offset. -/
def Leads (pool : Pool) (start : Nat) : Written → Prop
  | slot _ => True
  | immediate _ => True
  | constant index => (pool.resolve index).isOk
  | displacement distance => 0 ≤ start + distance.toInt ∧ start + distance.toInt < UInt32.size

instance (pool : Pool) (start : Nat) (w : Written) : Decidable (w.Leads pool start) :=
  match w with
  | slot _ => inferInstanceAs (Decidable True)
  | immediate _ => inferInstanceAs (Decidable True)
  | constant _ => inferInstanceAs (Decidable (_ = true))
  | displacement _ => inferInstanceAs (Decidable (_ ∧ _))

/-- What an operand stands for, in an instruction that starts at `start`: a slot and a number stand
for themselves, an index for the symbol at it, and a distance for the offset that lies that far
away. -/
def Means (pool : Pool) (start : Nat) : Written → Operand → Prop
  | slot number, .slot n => n = number
  | immediate value, .immediate v => v = value
  | constant index, .symbol s => pool.resolve index = .ok s
  | displacement distance, .target offset => (offset.toNat : Int) = start + distance.toInt
  | _, _ => False

instance (pool : Pool) (start : Nat) :
    (w : Written) → (op : Operand) → Decidable (w.Means pool start op)
  | slot _, .slot _ => inferInstanceAs (Decidable (_ = _))
  | immediate _, .immediate _ => inferInstanceAs (Decidable (_ = _))
  | constant _, .symbol _ => inferInstanceAs (Decidable (_ = _))
  | displacement _, .target _ => inferInstanceAs (Decidable (_ = _))
  | slot _, .immediate _ | slot _, .symbol _ | slot _, .target _
  | immediate _, .slot _ | immediate _, .symbol _ | immediate _, .target _
  | constant _, .slot _ | constant _, .immediate _ | constant _, .target _
  | displacement _, .slot _ | displacement _, .immediate _ | displacement _, .symbol _ => isFalse id

end Written

/-! ## Arguments -/

/-- A signed 32-bit number as it is written. -/
def BigEndian.i32 (n : Int32) : Bytes := u32 n.toUInt32

/-- What is written after an opcode. A slot and an increment have a wider form each, which is the
one that follows a `wide`. -/
inductive Arguments where
  | plain
  | wide
  | slot (number : UInt8)
  | wideSlot (number : UInt16)
  | increment (number : UInt8) (amount : Int8)
  | wideIncrement (number : UInt16) (amount : Int16)
  | shortConstant (index : UInt8)
  | constant (index : UInt16)
  | interfaceCall (index : UInt16) (count : UInt8)
  | dynamicCall (index : UInt16)
  | arrayDimensions (index : UInt16) (dimensions : UInt8)
  | byte (value : Int8)
  | short (value : Int16)
  | elementType (code : UInt8)
  | branch (distance : Int16)
  | farBranch (distance : Int32)
  | tableSwitch (default low high : Int32) (cases : List Int32)
  | lookupSwitch (default : Int32) (cases : List (Int32 × Int32))
  deriving DecidableEq

namespace Arguments

/-- The layout that asks for such arguments. -/
@[simp] def layout : Arguments → Layout
  | plain => .plain
  | wide => .wide
  | slot _ => .slot
  | wideSlot _ => .slot
  | increment _ _ => .increment
  | wideIncrement _ _ => .increment
  | shortConstant _ => .shortConstant
  | constant _ => .constant
  | interfaceCall _ _ => .interfaceCall
  | dynamicCall _ => .dynamicCall
  | arrayDimensions _ _ => .arrayDimensions
  | byte _ => .byte
  | short _ => .short
  | elementType _ => .elementType
  | branch _ => .branch
  | farBranch _ => .farBranch
  | tableSwitch _ _ _ _ => .tableSwitch
  | lookupSwitch _ _ => .lookupSwitch

/-- Whether these are the wider form that only a `wide` allows. -/
@[simp] def isWidened : Arguments → Bool
  | wideSlot _ => true
  | wideIncrement _ _ => true
  | _ => false

/-- How far `position` is from the next multiple of four. -/
def switchPadding (position : Nat) : Nat := 4 * ((position + 3) / 4) - position

/-- A key and a distance as they are written. -/
def caseBytes (keyed : Int32 × Int32) : Bytes := BigEndian.i32 keyed.1 ++ BigEndian.i32 keyed.2

open Template BigEndian in
/-- The bytes of arguments that start at `position`. Only the operands of a switch depend on it. -/
@[simp] def template (position : Nat) : Arguments → Template
  | plain => []
  | wide => []
  | slot number => known [number]
  | wideSlot number => known (u16 number)
  | increment number amount => known ([number] ++ [amount.toUInt8])
  | wideIncrement number amount => known (u16 number ++ u16 amount.toUInt16)
  | shortConstant index => known [index]
  | constant index => known (u16 index)
  | interfaceCall index count => known (u16 index ++ [count]) ++ blank 1
  | dynamicCall index => known (u16 index) ++ blank 2
  | arrayDimensions index dimensions => known (u16 index ++ [dimensions])
  | byte value => known [value.toUInt8]
  | short value => known (u16 value.toUInt16)
  | elementType code => known [code]
  | branch distance => known (u16 distance.toUInt16)
  | farBranch distance => known (i32 distance)
  | tableSwitch default low high cases =>
    blank (switchPadding position) ++
      known (i32 default ++ i32 low ++ i32 high ++ cases.flatMap i32)
  | lookupSwitch default cases =>
    blank (switchPadding position) ++
      known (i32 default ++ i32 (Int32.ofNat cases.length) ++ cases.flatMap caseBytes)

/-- The operands of arguments, in the order in which an instruction shows them. Counts that only say
how many follow are not among them, and a table switch shows its keys before its default. -/
@[simp] def written : Arguments → List Written
  | plain => []
  | wide => []
  | slot number => [.slot number.toUInt16]
  | wideSlot number => [.slot number]
  | increment number amount => [.slot number.toUInt16, .immediate amount.toInt]
  | wideIncrement number amount => [.slot number, .immediate amount.toInt]
  | shortConstant index => [.constant index.toUInt16]
  | constant index => [.constant index]
  | interfaceCall index count => [.constant index, .immediate count.toNat]
  | dynamicCall index => [.constant index]
  | arrayDimensions index dimensions => [.constant index, .immediate dimensions.toNat]
  | byte value => [.immediate value.toInt]
  | short value => [.immediate value.toInt]
  | elementType code => [.immediate code.toNat]
  | branch distance => [.displacement distance.toInt32]
  | farBranch distance => [.displacement distance]
  | tableSwitch default low high cases =>
    .immediate low.toInt :: .immediate high.toInt :: .displacement default ::
      cases.map .displacement
  | lookupSwitch default cases =>
    .displacement default :: cases.flatMap fun keyed =>
      [.immediate keyed.1.toInt, .displacement keyed.2]

/-- Whether the numbers that count other arguments count them right. A table switch has one case for
each key from the least to the greatest, and the count of a lookup switch has to be a signed 32-bit
number. -/
@[simp] def Counted : Arguments → Prop
  | tableSwitch _ low high cases =>
    low.toInt ≤ high.toInt ∧ (cases.length : Int) = high.toInt - low.toInt + 1
  | lookupSwitch _ cases => cases.length < 0x80000000
  | _ => True

instance : (args : Arguments) → Decidable args.Counted
  | tableSwitch _ _ _ _ => inferInstanceAs (Decidable (_ ∧ _))
  | lookupSwitch _ _ => inferInstanceAs (Decidable (_ < _))
  | plain | wide | slot _ | wideSlot _ | increment _ _ | wideIncrement _ _ | shortConstant _
  | constant _ | interfaceCall _ _ | dynamicCall _ | arrayDimensions _ _ | byte _ | short _
  | elementType _ | branch _ | farBranch _ => isTrue trivial

end Arguments

/-! ## Programs -/

/-- An instruction as it is written: an entry of the table, with the arguments that its layout asks
for. -/
structure Item where
  opcode : Opcode
  arguments : Arguments
  /-- Only instructions of the table are written. -/
  listed : opcode ∈ Opcode.all
  /-- The arguments fit the instruction. -/
  shaped : arguments.layout = opcode.layout
  deriving DecidableEq

namespace Item

/-- The bytes of an item that starts at `start`. -/
def template (start : Nat) (item : Item) : Template :=
  some item.opcode.code :: item.arguments.template (start + 1)

/-- How many bytes an item takes up. -/
def size (start : Nat) (item : Item) : Nat := (item.template start).length

/-- Whether the next item has to be of the wider form. -/
def widens (item : Item) : Bool := item.arguments == .wide

/-- What has to hold of an item on its own. -/
structure Valid (pool : Pool) (start : Nat) (item : Item) : Prop where
  counted : item.arguments.Counted
  /-- Every constant resolves, and every jump lands. -/
  leads : ∀ w ∈ item.arguments.written, w.Leads pool start

instance (pool : Pool) (start : Nat) (item : Item) : Decidable (item.Valid pool start) :=
  decidable_of_iff (item.arguments.Counted ∧ ∀ w ∈ item.arguments.written, w.Leads pool start)
    ⟨fun h => ⟨h.1, h.2⟩, fun h => ⟨h.counted, h.leads⟩⟩

/-- The instruction that an item stands for. -/
structure Means (pool : Pool) (start : Nat) (item : Item) (i : Instruction) : Prop where
  offset : i.offset.toNat = start
  mnemonic : i.mnemonic = item.opcode.mnemonic
  /-- It has one operand for each that is written. -/
  operands : List.Forall₂ (Written.Means pool start) item.arguments.written i.operands

instance (pool : Pool) (start : Nat) (item : Item) (i : Instruction) :
    Decidable (item.Means pool start i) :=
  decidable_of_iff (i.offset.toNat = start ∧ i.mnemonic = item.opcode.mnemonic ∧
      List.Forall₂ (Written.Means pool start) item.arguments.written i.operands)
    ⟨fun h => ⟨h.1, h.2.1, h.2.2⟩, fun h => ⟨h.offset, h.mnemonic, h.operands⟩⟩

end Item

namespace Program

/-- The bytes of a program that starts at `start`: its items one after the other. -/
def template : (start : Nat) → List Item → Template
  | _, [] => []
  | start, item :: rest => item.template start ++ template (start + item.size start) rest

/-- What an assembler has to see to. `widened` says whether the last item was a `wide`: then the
first one here is of the wider form, and otherwise it is not, so that the wider form stands behind a
`wide` and nowhere else, and no `wide` stands at the end. -/
def WellFormed (pool : Pool) : (widened : Bool) → (start : Nat) → List Item → Prop
  | widened, _, [] => widened = false
  | widened, start, item :: rest =>
    item.arguments.isWidened = widened ∧ item.Valid pool start ∧
      WellFormed pool item.widens (start + item.size start) rest

instance decidableWellFormed (pool : Pool) :
    (widened : Bool) → (start : Nat) → (items : List Item) →
      Decidable (WellFormed pool widened start items)
  | _, _, [] => inferInstanceAs (Decidable (_ = _))
  | widened, start, item :: rest =>
    haveI := decidableWellFormed pool item.widens (start + item.size start) rest
    inferInstanceAs (Decidable (item.arguments.isWidened = widened ∧ item.Valid pool start ∧
      WellFormed pool item.widens (start + item.size start) rest))

/-- The instructions that a program stands for: one for each item, in order, each at the number of
bytes written before it. -/
def Lists (pool : Pool) : (start : Nat) → List Item → List Instruction → Prop
  | _, [], [] => True
  | start, item :: items, i :: is =>
    item.Means pool start i ∧ Lists pool (start + item.size start) items is
  | _, _, _ => False

instance decidableLists (pool : Pool) :
    (start : Nat) → (items : List Item) → (is : List Instruction) →
      Decidable (Lists pool start items is)
  | _, [], [] => inferInstanceAs (Decidable True)
  | start, item :: items, i :: is =>
    haveI := decidableLists pool (start + item.size start) items is
    inferInstanceAs
      (Decidable (item.Means pool start i ∧ Lists pool (start + item.size start) items is))
  | _, [], _ :: _ | _, _ :: _, [] => isFalse id

end Program

end JvmTrace
