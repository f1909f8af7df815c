import JvmTrace.Opcode
import Mathlib.Data.List.Chain
import Mathlib.Data.List.Nodup

/-!
# The instruction table — one opcode, one byte, one mnemonic

Looking up a byte and printing a mnemonic lose nothing: each entry of the table is found under its
own byte (`ofByte?_code`), and no two share a mnemonic (`eq_of_mnemonic`). The first is what lets a
written instruction be read, the second what lets a listing be written back.

Both are facts about 205 rows, and both are settled by evaluation in one pass. The bytes are in
increasing order. The mnemonics are not, so each is given a small number, its `fingerprint`, and the
pass marks the numbers it has met; that no number is met twice is more than the rows need, and is
true.
-/

set_option autoImplicit false

namespace JvmTrace

namespace Opcode

/-! ## Bytes -/

theorem increasing_all : (all.map fun o => o.code.toNat).IsChain (· < ·) := by decide +kernel

/-- Two entries with the same byte are the same entry. -/
theorem eq_of_code {o o' : Opcode} (h : o ∈ all) (h' : o' ∈ all) (hcode : o.code = o'.code) :
    o = o' := by
  have nodup : (all.map fun o => o.code.toNat).Nodup :=
    increasing_all.pairwise.imp fun hlt => Nat.ne_of_lt hlt
  exact List.inj_on_of_nodup_map nodup h h' (by rw [hcode])

theorem mem_of_ofByte? {b : UInt8} {o : Opcode} (h : ofByte? b = some o) :
    o ∈ all ∧ o.code = b := by
  have hcode := List.find?_some h
  exact ⟨List.mem_of_find?_eq_some h, by simpa using hcode⟩

/-- **Every entry of the table is found under its own byte.** -/
theorem ofByte?_code {o : Opcode} (h : o ∈ all) : ofByte? o.code = some o := by
  cases hfound : ofByte? o.code with
  | none =>
    have hnone := List.find?_eq_none.mp hfound o h
    exact absurd (beq_self_eq_true o.code) hnone
  | some o' =>
    obtain ⟨hmem, hcode⟩ := mem_of_ofByte? hfound
    rw [eq_of_code hmem h hcode]

/-! ## Mnemonics -/

/-- Whether no number occurs twice, nor any whose bit `marked` already has. -/
def unmarked (marked : Nat) : List Nat → Bool
  | [] => true
  | n :: rest => !marked.testBit n && unmarked (marked ||| 1 <<< n) rest

theorem nodup_of_unmarked {marked : Nat} {ns : List Nat} (h : unmarked marked ns = true) :
    ns.Nodup ∧ ∀ n ∈ ns, marked.testBit n = false := by
  induction ns generalizing marked with
  | nil => exact ⟨List.nodup_nil, fun n hn => absurd hn List.not_mem_nil⟩
  | cons n rest ih =>
    simp only [unmarked, Bool.and_eq_true, Bool.not_eq_true'] at h
    obtain ⟨hn, hrest⟩ := h
    obtain ⟨hnodup, hclear⟩ := ih hrest
    have spread : ∀ m ∈ rest, marked.testBit m = false ∧ m ≠ n := by
      intro m hm
      have hbit := hclear m hm
      rw [Nat.testBit_or, Bool.or_eq_false_iff, Nat.one_shiftLeft, Nat.testBit_two_pow,
        decide_eq_false_iff_not] at hbit
      exact ⟨hbit.1, fun heq => hbit.2 heq.symm⟩
    refine ⟨List.nodup_cons.mpr ⟨fun hmem => (spread n hmem).2 rfl, hnodup⟩, ?_⟩
    intro m hm
    rcases List.mem_cons.mp hm with rfl | hm
    · exact hn
    · exact (spread m hm).1

/-- A small number for a text. The base and the modulus are such that no two mnemonics share one. -/
def fingerprint (text : String) : Nat :=
  text.toByteArray.data.toList.foldl (fun n b => (42 * n + b.toNat) % 1978) 0

theorem unmarked_fingerprints : unmarked 0 (all.map fun o => fingerprint o.mnemonic) = true := by
  decide +kernel

/-- **A mnemonic names one instruction.** -/
theorem eq_of_mnemonic {o o' : Opcode} (h : o ∈ all) (h' : o' ∈ all)
    (hname : o.mnemonic = o'.mnemonic) :
    o = o' :=
  List.inj_on_of_nodup_map (nodup_of_unmarked unmarked_fingerprints).1 h h' (by rw [hname])

/-! ## Layouts of one instruction -/

/-- The mnemonic of the only instruction with a layout, for the four layouts in which some bytes
mean nothing. -/
def soleMnemonic : Layout → Option String
  | .tableSwitch => some "tableswitch"
  | .lookupSwitch => some "lookupswitch"
  | .interfaceCall => some "invokeinterface"
  | .dynamicCall => some "invokedynamic"
  | _ => none

theorem mnemonic_of_layout : ∀ o ∈ all, ∀ name ∈ soleMnemonic o.layout, o.mnemonic = name := by
  decide +kernel

theorem mnemonic_of_wide : ∀ o ∈ all, o.layout = .wide → o.mnemonic = "wide" := by decide +kernel

/-- One instruction widens the next, and its name tells it. -/
theorem layout_eq_wide_iff {o : Opcode} (h : o ∈ all) : o.layout = .wide ↔ o.mnemonic = "wide" := by
  constructor
  · exact mnemonic_of_wide o h
  · intro hname
    have hwide : (⟨0xc4, "wide", .wide⟩ : Opcode) ∈ all := by decide +kernel
    rw [eq_of_mnemonic h hwide hname]

end Opcode

end JvmTrace
