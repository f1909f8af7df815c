import JvmTrace.Proofs.ClassFile.Format
import JvmTrace.Proofs.Text.ModifiedUtf8

/-!
# Parsing undoes serializing

An image is written from constants and tables, and what is parsed from it has the same tables and a
pool in which every constant can be found. The constants are given as a plain list, because that is
what is written: where each one ends up is part of the conclusion.

The number of slots is an argument of its own, because a list of constants does not determine it:
when the last one is wide, its placeholder may be counted or not (`Pool.Holds`).
-/

set_option autoImplicit false

namespace JvmTrace

open Reader

/-- The text of a constant, if it has one, is short enough to be written in modified UTF-8. -/
def Constant.Fits : Constant → Prop
  | utf8 text => (Text.ModifiedUtf8.encode text.toList).length < UInt16.size
  | _ => True

instance : (c : Constant) → Decidable c.Fits
  | .utf8 _ => inferInstanceAs (Decidable (_ < _))
  | .integer _ | .float _ | .long _ | .double _ | .classRef _ | .string _ | .member _ _ _
  | .nameAndType _ _ | .methodHandle _ _ | .methodType _ | .dynamic _ _ | .invokeDynamic _ _
  | .moduleRef _ | .packageRef _ =>
    isTrue trivial

theorem Constant.Fits.spelledBy {c : Constant} (h : c.Fits) :
    c.SpelledBy Text.ModifiedUtf8.encode := by
  cases c with
  | utf8 text => exact ⟨h, Text.decode_modified text⟩
  | _ => trivial

/-- The written forms of constants, one for each. -/
theorem Constant.forall₂_writtenAs {constants : List Constant} (h : ∀ c ∈ constants, c.Fits) :
    List.Forall₂ Constant.WrittenAs constants
      (constants.map (·.encode Text.ModifiedUtf8.encode)) := by
  rw [List.forall₂_map_right_iff, List.forall₂_same]
  intro c hc
  exact ⟨_, (h c hc).spelledBy, rfl⟩

namespace ClassFile

/-- **Parsing undoes serializing.** From the image of some constants and tables, with texts in
modified UTF-8 and a count that agrees with the slots of the constants, the same versions and tables
are parsed, and a pool in which each constant stands behind the slots of those before it. -/
theorem parse_encodeImage {minor major : UInt16} {constants : List Constant} {room : Nat}
    {tables : ClassTables} (hroom : Pool.Holds room constants) (hcount : room + 1 < UInt16.size)
    (hconstants : ∀ c ∈ constants, c.Fits)
    (htables : tables.Fits) :
    ∃ pool, parse (encodeImage minor major (UInt16.ofNat (room + 1))
        (constants.flatMap (·.encode Text.ModifiedUtf8.encode)) tables) =
          .ok { tables with minor, major, pool } ∧
      pool.size = room ∧
      ∀ index c, pool.get index = .ok c ↔
        ∃ i, constants[i]? = some c ∧ index.toNat = 1 + Pool.slotCount (constants.take i) := by
  obtain ⟨slots, hslots⟩ := hroom.exists_fills
  refine ⟨⟨slots.toArray⟩, ?_, hslots.length_eq, ?_⟩
  · -- The count field does not wrap around, so the reader is given as many slots as are filled.
    have hfield : (UInt16.ofNat (room + 1)).toNat - 1 = room := by
      rw [UInt16.toNat_ofNat_of_lt' hcount, Nat.add_sub_cancel]
    refine parse_eq_ok_iff.mpr (reads_content.mpr ⟨UInt16.ofNat (room + 1), constants, _, ?_,
      Constant.forall₂_writtenAs hconstants, htables, ?_⟩)
    · rw [hfield]
      exact hslots
    · rw [List.flatMap]
  · intro index c
    rw [Pool.get_eq_ok]
    constructor
    · intro h
      obtain ⟨place, hindex, hplace⟩ := h
      rw [List.getElem?_toArray] at hplace
      obtain ⟨i, hi, rfl⟩ := (hslots.getElem?_eq place).mp hplace
      exact ⟨i, hi, hindex.trans (Nat.add_comm _ _)⟩
    · intro h
      obtain ⟨i, hi, hindex⟩ := h
      refine ⟨Pool.slotCount (constants.take i), hindex.trans (Nat.add_comm _ _), ?_⟩
      rw [List.getElem?_toArray]
      exact (hslots.getElem?_eq _).mpr ⟨i, hi, rfl⟩

-- The last constant is wide, and the count of the sample leaves its placeholder out.
def sampleConstants : List Constant := [
  .utf8 "R", .classRef 1, .utf8 "\x00é€😀", .double 0x7FF8000000000001, .float 0x80000000,
  .nameAndType 1 3, .long (-1)
  ]

def sampleTables : ClassTables where
  access := 0x0421
  this := 2
  super := 0
  interfaces := [2, 2]
  fields := [⟨0x0002, 1, 3, [⟨3, []⟩]⟩]
  methods := [⟨0x0001, 1, 3, []⟩, ⟨0x0009, 3, 1, [⟨1, [0xB1]⟩, ⟨3, [0x01, 0x02]⟩]⟩]
  attributes := [⟨3, [0xFF]⟩]

theorem parse_encodeImage_sample :
    Pool.Holds 8 sampleConstants ∧ (∀ c ∈ sampleConstants, c.Fits) ∧ sampleTables.Fits ∧
    ∃ pool, parse (encodeImage 0 52 (UInt16.ofNat (8 + 1))
        (sampleConstants.flatMap (·.encode Text.ModifiedUtf8.encode)) sampleTables) =
          .ok { sampleTables with minor := 0, major := 52, pool } ∧
      pool.size = 8 ∧
      ∀ index c, pool.get index = .ok c ↔
        ∃ i, sampleConstants[i]? = some c ∧
          index.toNat = 1 + Pool.slotCount (sampleConstants.take i) := by
  have hroom : Pool.Holds 8 sampleConstants := by decide
  have hconstants : ∀ c ∈ sampleConstants, c.Fits := by decide +kernel
  have htables : sampleTables.Fits := by decide
  exact ⟨hroom, hconstants, htables, parse_encodeImage hroom (by decide) hconstants htables⟩

end ClassFile

end JvmTrace
