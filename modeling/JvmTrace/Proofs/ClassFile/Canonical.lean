import JvmTrace.Proofs.ClassFile.Format
import JvmTrace.Proofs.Text.Spellings

/-!
# Serializing undoes parsing

The other direction of a round trip starts from bytes that somebody else wrote. Whatever a parser
accepts, it has to keep: if the class file that came out is written again, the same image comes back,
so no byte of it was skipped, guessed or normalized (`encode_of_parse`).

Two things are not kept, and there is no third. A count field of zero stands for no slots, which are
always written as a count of one. And a text that holds a NUL or a character above `U+FFFF` has two
spellings, of which one is written; so the texts have to be plain.
-/

set_option autoImplicit false

namespace JvmTrace

open Reader

/-! ## Only the constants of a pool are written -/

namespace Pool

theorem encodeSlots_eq (spell : List Char → Bytes) (pool : Pool) :
    pool.encodeSlots spell = pool.slots.toList.reduceOption.flatMap (·.encode spell) := by
  unfold encodeSlots
  induction pool.slots.toList with
  | nil => rfl
  | cons slot slots ih =>
    rw [List.flatMap_cons, ih]
    cases slot <;> simp

end Pool

/-! ## A constant has one written form, if its text is plain -/

namespace Constant

/-- Whether the text of a constant, if it has one, has only one spelling. -/
def IsPlain : Constant → Prop
  | utf8 text => Text.IsPlain text
  | _ => True

theorem encode_of_isPlain {c : Constant} {bytes : Bytes} (hplain : c.IsPlain)
    (h : c.WrittenAs bytes) : bytes = c.encode Text.ModifiedUtf8.encode := by
  obtain ⟨spell, hspelled, rfl⟩ := h
  cases c with
  | utf8 text =>
    -- Either spelling of the text is the modified one.
    have hspell : spell text.toList = Text.ModifiedUtf8.encode text.toList := by
      rcases Text.decode_eq_some_iff.mp hspelled.2 with hstandard | hmodified
      · rw [hstandard, Text.encode_of_isPlain hplain]
      · exact hmodified
    simp only [encode, payload, hspell]
  | _ => rfl

theorem flatten_of_isPlain {constants : List Constant} {pieces : List Bytes}
    (hplain : ∀ c ∈ constants, c.IsPlain) (h : List.Forall₂ WrittenAs constants pieces) :
    pieces.flatten = constants.flatMap (·.encode Text.ModifiedUtf8.encode) := by
  induction h with
  | nil => rfl
  | @cons c piece constants pieces hc _ ih =>
    rw [List.forall_mem_cons] at hplain
    rw [List.flatten_cons, List.flatMap_cons, ih hplain.2, encode_of_isPlain hplain.1 hc]

end Constant

/-! ## Whole images -/

namespace ClassFile

/-- What the count field of an image says. It stands behind the magic number and the version. -/
def countField (image : Bytes) : Nat := BigEndian.toNat ((image.drop 8).take 2)

theorem countField_encodeImage (minor major count : UInt16) (constants : Bytes)
    (tables : ClassTables) :
    countField (encodeImage minor major count constants tables) = count.toNat := by
  have hfront : (BigEndian.u32 classFileMagic ++ BigEndian.u16 minor ++ BigEndian.u16 major).length =
      8 := by
    simp [BigEndian.u32]
  have hfield : ((encodeImage minor major count constants tables).drop 8).take 2 =
      BigEndian.u16 count := by
    rw [encodeImage, List.append_assoc, List.append_assoc, List.drop_left' hfront,
      List.take_left' (BigEndian.length_u16 count)]
  have hlt : count.toNat < BigEndian.capacity 2 := count.toNat_lt
  rw [countField, hfield, BigEndian.u16, BigEndian.toNat_ofNat, Nat.mod_eq_of_lt hlt]

/-- **Serializing undoes parsing.** An image that parses is the image of the class file that comes
out, unless it counts no slots in the way that is not written, or a text of it has two spellings. -/
theorem encode_of_parse {image : Bytes} {f : ClassFile} (h : parse image = .ok f)
    (hcount : countField image ≠ 0)
    (htexts : ∀ text, some (.utf8 text) ∈ f.pool.slots → Text.IsPlain text) :
    f.encode Text.ModifiedUtf8.encode = image := by
  obtain ⟨count, constants, pieces, hfills, hwritten, -, rfl⟩ :=
    reads_content.mp (parse_eq_ok_iff.mp h)
  rw [countField_encodeImage] at hcount
  -- The slots that were filled say what the count was.
  have hsize : count.toNat - 1 = f.pool.size := by
    rw [← hfills.length_eq, Pool.size, Array.length_toList]
  have hfield : UInt16.ofNat (f.pool.size + 1) = count := by
    rw [← hsize, Nat.sub_add_cancel (Nat.pos_of_ne_zero hcount), UInt16.ofNat_toNat]
  have hplain : ∀ c ∈ constants, c.IsPlain := by
    intro c hc
    cases c with
    | utf8 text =>
      refine htexts text ?_
      rw [← hfills.reduceOption_slots, List.reduceOption_mem_iff] at hc
      exact Array.mem_toList_iff.mp hc
    | _ => trivial
  rw [encode, hfield, Pool.encodeSlots_eq, hfills.reduceOption_slots,
    Constant.flatten_of_isPlain hplain hwritten]

-- The image ends its pool with a long that has no room for its placeholder, which a writer of slots
-- would get wrong if it counted constants.
def plainImage : Bytes := [
  0xCA, 0xFE, 0xBA, 0xBE, 0x00, 0x01, 0x00, 0x34, 0x00, 0x05, 0x01, 0x00, 0x05, 0xC3, 0xA9, 0xE2,
  0x82, 0xAC, 0x06, 0x7F, 0xF8, 0x00, 0x00, 0x00, 0x00, 0x00, 0x01, 0x05, 0xFF, 0xFF, 0xFF, 0xFF,
  0xFF, 0xFF, 0xFF, 0xFF, 0x00, 0x21, 0x00, 0x01, 0x00, 0x00, 0x00, 0x01, 0x00, 0x02, 0x00, 0x00,
  0x00, 0x01, 0x00, 0x09, 0x00, 0x01, 0x00, 0x01, 0x00, 0x00, 0x00, 0x01, 0x00, 0x01, 0x00, 0x00,
  0x00, 0x02, 0xAB, 0xCD
  ]

def plain : ClassFile where
  minor := 1
  major := 52
  pool := ⟨#[some (.utf8 "é€"), some (.double 0x7FF8000000000001), none, some (.long (-1))]⟩
  access := 0x21
  this := 1
  super := 0
  interfaces := [2]
  fields := []
  methods := [⟨0x0009, 1, 1, []⟩]
  attributes := [⟨1, [0xAB, 0xCD]⟩]

theorem encode_of_parse_plain :
    parse plainImage = .ok plain ∧ countField plainImage ≠ 0 ∧
      (∀ text, some (.utf8 text) ∈ plain.pool.slots → Text.IsPlain text) ∧
      plain.encode Text.ModifiedUtf8.encode = plainImage := by
  have h : parse plainImage = .ok plain := by decide +kernel
  have hcount : countField plainImage ≠ 0 := by decide
  have htexts : ∀ text, some (.utf8 text) ∈ plain.pool.slots → Text.IsPlain text := by
    intro text htext
    have hsame : text = "é€" := by simpa [plain] using htext
    rw [hsame]
    decide
  exact ⟨h, hcount, htexts, encode_of_parse h hcount htexts⟩

end ClassFile

end JvmTrace
