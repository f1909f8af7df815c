import JvmTrace.ClassFile.Format
import JvmTrace.Proofs.Pool.Layout

/-!
# What a class file is read from

One equation for each table of an image, from the inside out, each saying that a value is read
exactly from its encoding, **provided that its counts and lengths fit their fields** (`Fits`): an
encoder cuts what does not fit, and then something else is read.

The last thing that `ClassFile.read` does is to look whether anything is left, which makes it the
one reader that is *not* local. It is split here into the part that reads, `ClassFile.content`, and
that last look (`read_eq`). All that is known about parsing goes through the first part: an image
parses when it is exactly what `content` reads (`parse_eq_ok_iff`), and with more bytes behind it
those are counted (`parse_append`).
-/

set_option autoImplicit false

namespace JvmTrace

open Reader

variable {p : Nat} {bytes : Bytes}

/-! ## Counted tables -/

theorem Reader.delimited_counted {α : Type} {item : Reader α} (h : Delimited item) :
    Delimited (counted item) :=
  delimited_bind delimited_u16 fun _ => delimited_times h _

/-- A table is read from the number of its items and their encodings. -/
theorem Reader.reads_counted {α : Type} {item : Reader α} {encode : α → Bytes} {Fits : α → Prop}
    (hlocal : Local item)
    (hitem : ∀ p bytes a, Reads item p bytes a ↔ Fits a ∧ bytes = encode a) {items : List α} :
    Reads (counted item) p bytes items ↔
      (items.length < UInt16.size ∧ ∀ a ∈ items, Fits a) ∧ bytes = encodeCounted encode items := by
  -- `reads_times` tells what is written from what it is read as. Here they are the same, and it
  -- fits besides.
  have hform : ∀ p bytes a, Reads item p bytes a ↔ ∃ w, bytes = encode w ∧ Fits w ∧ w = a := by
    intro p bytes a
    rw [hitem]
    constructor
    · intro h
      exact ⟨a, h.2, h.1, rfl⟩
    · intro h
      obtain ⟨_, hbytes, hfits, rfl⟩ := h
      exact ⟨hfits, hbytes⟩
  have hmeans : ∀ {ws as : List α},
      List.Forall₂ (fun w a => Fits w ∧ w = a) ws as ↔ (∀ a ∈ as, Fits a) ∧ ws = as := by
    intro ws as
    rw [List.forall₂_and_left, List.forall₂_eq_eq_eq]
    exact and_congr_left fun hsame => by rw [hsame]
  unfold counted
  rw [reads_bind local_u16]
  simp only [reads_u16, reads_times hlocal hform, hmeans]
  constructor
  · intro h
    obtain ⟨count, _, rfl, _, rfl, _, hcount, rfl, hfits, rfl⟩ := h
    refine ⟨⟨?_, hfits⟩, ?_⟩
    · rw [hcount]
      exact count.toNat_lt
    · rw [encodeCounted, hcount]
      rfl
  · intro h
    obtain ⟨⟨hlen, hfits⟩, rfl⟩ := h
    have hcount : (UInt16.ofNat items.length).toNat = items.length := UInt16.toNat_ofNat_of_lt' hlen
    refine ⟨UInt16.ofNat items.length, _, rfl, items.flatMap encode, ?_, items, hcount.symm, rfl,
      hfits, rfl⟩
    rw [BigEndian.u16, hcount]
    rfl

/-! ## Attributes and members -/

/-- The length of an attribute fits its field. -/
def RawAttribute.Fits (a : RawAttribute) : Prop := a.body.length < UInt32.size

/-- So do the attributes of a member, and their number. -/
def Member.Fits (m : Member) : Prop :=
  m.attributes.length < UInt16.size ∧ ∀ a ∈ m.attributes, a.Fits

instance (a : RawAttribute) : Decidable a.Fits := inferInstanceAs (Decidable (_ < _))

instance (m : Member) : Decidable m.Fits := inferInstanceAs (Decidable (_ ∧ _))

theorem RawAttribute.delimited_read : Delimited RawAttribute.read :=
  delimited_bind delimited_u16 fun _ => delimited_bind delimited_u32 fun _ =>
    delimited_map _ (delimited_take _)

theorem RawAttribute.reads_attribute {a : RawAttribute} :
    Reads RawAttribute.read p bytes a ↔ a.Fits ∧ bytes = a.encode := by
  unfold RawAttribute.read
  rw [reads_bind local_u16]
  simp only [reads_bind local_u32, reads_map (local_take _), reads_u16, reads_u32, reads_take]
  constructor
  · intro h
    obtain ⟨name, _, rfl, _, rfl, length, _, rfl, _, rfl, body, ⟨rfl, hlen⟩, rfl⟩ := h
    refine ⟨?_, ?_⟩
    · rw [Fits, hlen]
      exact length.toNat_lt
    · rw [encode, hlen, List.append_assoc]
      rfl
  · intro h
    obtain ⟨hfits, rfl⟩ := h
    have hlength : (UInt32.ofNat a.body.length).toNat = a.body.length :=
      UInt32.toNat_ofNat_of_lt' hfits
    refine ⟨a.name, _, rfl, _, List.append_assoc _ _ _, UInt32.ofNat a.body.length, _, rfl, a.body,
      ?_, a.body, ⟨rfl, hlength.symm⟩, rfl⟩
    rw [BigEndian.u32, hlength]

theorem Member.delimited_read : Delimited Member.read :=
  delimited_bind delimited_u16 fun _ => delimited_bind delimited_u16 fun _ =>
    delimited_bind delimited_u16 fun _ =>
    delimited_map _ (delimited_counted RawAttribute.delimited_read)

theorem RawAttribute.reads_attributes {as : List RawAttribute} :
    Reads (counted RawAttribute.read) p bytes as ↔
      (as.length < UInt16.size ∧ ∀ a ∈ as, a.Fits) ∧ bytes = encodeCounted RawAttribute.encode as :=
  reads_counted RawAttribute.delimited_read.isLocal fun _ _ _ => RawAttribute.reads_attribute

theorem Member.reads_member {m : Member} :
    Reads Member.read p bytes m ↔ m.Fits ∧ bytes = m.encode := by
  unfold Member.read
  simp only [reads_bind local_u16,
    reads_map (delimited_counted RawAttribute.delimited_read).isLocal, reads_u16,
    RawAttribute.reads_attributes]
  constructor
  · intro h
    obtain ⟨access, _, rfl, _, rfl, name, _, rfl, _, rfl, descriptor, _, rfl, _, rfl, attributes,
      ⟨hfits, rfl⟩, rfl⟩ := h
    refine ⟨hfits, ?_⟩
    simp only [encode, List.append_assoc]
  · intro h
    obtain ⟨hfits, rfl⟩ := h
    refine ⟨m.access, _, rfl, _, ?_, m.name, _, rfl, _, rfl, m.descriptor, _, rfl, _, rfl,
      m.attributes, ⟨hfits, rfl⟩, rfl⟩
    simp only [encode, List.append_assoc]

theorem Member.reads_members {ms : List Member} :
    Reads (counted Member.read) p bytes ms ↔
      (ms.length < UInt16.size ∧ ∀ m ∈ ms, m.Fits) ∧ bytes = encodeCounted Member.encode ms :=
  reads_counted Member.delimited_read.isLocal fun _ _ _ => Member.reads_member

/-! ## The tables behind the pool -/

/-- Whether every count and every length of the tables fits its field. -/
structure ClassTables.Fits (t : ClassTables) : Prop where
  interfaces : t.interfaces.length < UInt16.size
  fields : t.fields.length < UInt16.size ∧ ∀ m ∈ t.fields, m.Fits
  methods : t.methods.length < UInt16.size ∧ ∀ m ∈ t.methods, m.Fits
  attributes : t.attributes.length < UInt16.size ∧ ∀ a ∈ t.attributes, a.Fits

namespace ClassTables

instance (t : ClassTables) : Decidable t.Fits :=
  decidable_of_iff
    (t.interfaces.length < UInt16.size ∧ (t.fields.length < UInt16.size ∧ ∀ m ∈ t.fields, m.Fits) ∧
      (t.methods.length < UInt16.size ∧ ∀ m ∈ t.methods, m.Fits) ∧
      t.attributes.length < UInt16.size ∧ ∀ a ∈ t.attributes, a.Fits)
    ⟨fun h => ⟨h.1, h.2.1, h.2.2.1, h.2.2.2⟩,
      fun h => ⟨h.interfaces, h.fields, h.methods, h.attributes⟩⟩

theorem delimited_read : Delimited ClassTables.read :=
  delimited_bind delimited_u16 fun _ => delimited_bind delimited_u16 fun _ =>
    delimited_bind delimited_u16 fun _ =>
    delimited_bind (delimited_counted delimited_u16) fun _ =>
    delimited_bind (delimited_counted Member.delimited_read) fun _ =>
    delimited_bind (delimited_counted Member.delimited_read) fun _ =>
    delimited_map _ (delimited_counted RawAttribute.delimited_read)

theorem reads_interfaces {indices : List UInt16} :
    Reads (counted u16) p bytes indices ↔
      indices.length < UInt16.size ∧ bytes = encodeCounted BigEndian.u16 indices := by
  have hindex : ∀ (p : Nat) (bytes : Bytes) (index : UInt16),
      Reads u16 p bytes index ↔ True ∧ bytes = BigEndian.u16 index := by
    intro p bytes index
    rw [reads_u16, true_and]
  rw [reads_counted local_u16 hindex]
  simp

/-- **The tables are read exactly from their encoding.** -/
theorem reads_tables {t : ClassTables} :
    Reads ClassTables.read p bytes t ↔ t.Fits ∧ bytes = t.encode := by
  unfold ClassTables.read
  simp only [reads_bind local_u16, reads_bind (delimited_counted delimited_u16).isLocal,
    reads_bind (delimited_counted Member.delimited_read).isLocal,
    reads_map (delimited_counted RawAttribute.delimited_read).isLocal, reads_u16, reads_interfaces,
    Member.reads_members, RawAttribute.reads_attributes]
  constructor
  · intro h
    obtain ⟨access, _, rfl, _, rfl, this, _, rfl, _, rfl, super, _, rfl, _, rfl, h⟩ := h
    obtain ⟨interfaces, _, ⟨hinterfaces, rfl⟩, _, rfl, fields, _, ⟨hfields, rfl⟩, _, rfl, h⟩ := h
    obtain ⟨methods, _, ⟨hmethods, rfl⟩, _, rfl, attributes, ⟨hattributes, rfl⟩, rfl⟩ := h
    refine ⟨⟨hinterfaces, hfields, hmethods, hattributes⟩, ?_⟩
    simp only [encode, List.append_assoc]
  · intro h
    obtain ⟨hfits, rfl⟩ := h
    refine ⟨t.access, _, rfl, _, ?_, t.this, _, rfl, _, rfl, t.super, _, rfl, _, rfl, t.interfaces,
      _, ⟨hfits.interfaces, rfl⟩, _, rfl, t.fields, _, ⟨hfits.fields, rfl⟩, _, rfl, t.methods, _,
      ⟨hfits.methods, rfl⟩, _, rfl, t.attributes, ⟨hfits.attributes, rfl⟩, rfl⟩
    simp only [encode, List.append_assoc]

end ClassTables

/-! ## Whole images -/

/-- The end of a reader that allows nothing behind what it has read. -/
def Reader.finish {α : Type} (a : α) : Reader α := do
  let c ← get
  if c.atEnd then return a
  else throw (.trailingBytes c.remaining)

theorem Reader.finish_eq_ok {α : Type} {a b : α} {c c' : Cursor} (h : finish a c = .ok b c') :
    a = b ∧ c.rest = [] := by
  unfold finish at h
  obtain ⟨_, _, hget, h⟩ := bind_eq_ok.mp h
  cases hget
  split at h
  · next hend =>
    cases h
    exact ⟨rfl, List.isEmpty_iff.mp hend⟩
  · cases h

namespace ClassFile

/-- Everything that an image has to hold, whatever comes after it. -/
def content : Reader ClassFile := do
  let magic ← u32
  if magic = classFileMagic then
    let minor ← u16
    let major ← u16
    let count ← u16
    let pool ← Pool.read count
    let tables ← ClassTables.read
    return { tables with minor, major, pool }
  else throw (.notClassFile magic)

theorem read_eq : ClassFile.read = content >>= finish := by
  unfold ClassFile.read content
  rw [bind_assoc]
  refine bind_congr fun magic => ?_
  split
  · simp only [bind_assoc, pure_bind]
    rfl
  · rfl

theorem delimited_content : Delimited content := by
  refine delimited_bind delimited_u32 fun magic => ?_
  split
  · exact delimited_bind delimited_u16 fun _ => delimited_bind delimited_u16 fun _ =>
      delimited_bind delimited_u16 fun _ => delimited_bind (Pool.delimited_read _) fun _ =>
      delimited_map _ ClassTables.delimited_read
  · exact delimited_throw _

/-- **A class file is read exactly from an image of it.** The constants may be spelled in any way
that is read back, and the count field only has to agree with the slots that they fill. -/
theorem reads_content {f : ClassFile} :
    Reads content p bytes f ↔
      ∃ (count : UInt16) (constants : List Constant) (pieces : List Bytes),
        Pool.Fills (count.toNat - 1) constants f.pool.slots.toList ∧
        List.Forall₂ Constant.WrittenAs constants pieces ∧ f.toClassTables.Fits ∧
        bytes = encodeImage f.minor f.major count pieces.flatten f.toClassTables := by
  unfold content
  rw [reads_bind local_u32]
  simp only [reads_u32]
  constructor
  · intro h
    obtain ⟨magic, _, rfl, rest, rfl, h⟩ := h
    split at h
    · next hmagic =>
      cases hmagic
      simp only [reads_bind local_u16, reads_bind (Pool.delimited_read _).isLocal,
        reads_map ClassTables.delimited_read.isLocal, reads_u16, Pool.reads_read,
        ClassTables.reads_tables] at h
      obtain ⟨minor, _, rfl, _, rfl, major, _, rfl, _, rfl, count, _, rfl, _, rfl, h⟩ := h
      obtain ⟨pool, _, ⟨constants, pieces, hfills, hwritten, rfl⟩, _, rfl, tables, ⟨hfits, rfl⟩,
        rfl⟩ := h
      refine ⟨count, constants, pieces, hfills, hwritten, hfits, ?_⟩
      simp only [encodeImage, List.append_assoc]
    · exact absurd h reads_throw
  · intro h
    obtain ⟨count, constants, pieces, hfills, hwritten, hfits, rfl⟩ := h
    have hbytes : encodeImage f.minor f.major count pieces.flatten f.toClassTables =
        BigEndian.u32 classFileMagic ++ (BigEndian.u16 f.minor ++ (BigEndian.u16 f.major ++
          (BigEndian.u16 count ++ (pieces.flatten ++ f.toClassTables.encode)))) := by
      simp only [encodeImage, List.append_assoc]
    refine ⟨classFileMagic, _, rfl, _, hbytes, ?_⟩
    rw [if_pos rfl]
    simp only [reads_bind local_u16, reads_bind (Pool.delimited_read _).isLocal,
      reads_map ClassTables.delimited_read.isLocal, reads_u16, Pool.reads_read,
      ClassTables.reads_tables]
    exact ⟨f.minor, _, rfl, _, rfl, f.major, _, rfl, _, rfl, count, _, rfl, _, rfl, f.pool, _,
      ⟨constants, pieces, hfills, hwritten, rfl⟩, _, rfl, f.toClassTables, ⟨hfits, rfl⟩, rfl⟩

variable {image : Bytes} {f : ClassFile}

/-- An image with bytes behind it fails for those, and for nothing else. -/
theorem parse_append (h : Reads content 0 image f) (rest : Bytes) :
    parse (image ++ rest) = if rest = [] then .ok f else .error (.trailingBytes rest.length) := by
  have hread : ClassFile.read ⟨0, image ++ rest⟩ = finish f ⟨0 + image.length, rest⟩ := by
    rw [read_eq, bind_eq, h rest]
  unfold parse Reader.run Cursor.start
  rw [hread]
  cases rest <;> rfl

/-- **An image parses exactly when all of it is read.** -/
theorem parse_eq_ok_iff : parse image = .ok f ↔ Reads content 0 image f := by
  constructor
  · intro h
    unfold parse Reader.run at h
    split at h
    · next g c hread =>
      cases h
      rw [read_eq] at hread
      obtain ⟨g, c', hcontent, hfinish⟩ := bind_eq_ok.mp hread
      obtain ⟨used, hused, -, hreads⟩ := delimited_content.isLocal 0 image g c' hcontent
      -- The last look found nothing behind the bytes that were used, so they are the whole image.
      obtain ⟨rfl, hend⟩ := finish_eq_ok hfinish
      rw [hend, List.append_nil] at hused
      rwa [hused]
    · cases h
  · intro h
    have hparse := parse_append h []
    rwa [List.append_nil, if_pos rfl] at hparse

/-- The index behind that of a wide constant leads nowhere. -/
theorem get_succ_of_wide {index : UInt16} {c : Constant} (h : parse image = .ok f)
    (hget : f.pool.get index = .ok c) (hwide : c.isWide = true) :
    f.pool.get (index + 1) = .error (.invalidIndex (index + 1)) := by
  obtain ⟨_, _, _, hfills, -⟩ := reads_content.mp (parse_eq_ok_iff.mp h)
  exact hfills.get_succ_of_wide hget hwide

/-- A cut in an image is reported as the end of the input, by the read that spans it. -/
theorem parse_take (h : Reads content 0 image f) {k : Nat} (hk : k < image.length) :
    ∃ position needed, parse (image.take k) = .error (.endOfInput position needed) ∧
      position ≤ k ∧ k < position + needed := by
  have hshort : RunsShort (ClassFile.read ⟨0, image.take k⟩) (0 + k) := by
    rw [read_eq]
    exact (delimited_content.runsShort h k hk).bind
  obtain ⟨position, needed, c, hread, hlow, hhigh⟩ := hshort
  refine ⟨position, needed, ?_, by omega, by omega⟩
  unfold parse Reader.run Cursor.start
  rw [hread]

/-- **No image is a proper prefix of another, and a wrong length is reported for what it is.** Of an
image that parses, every proper prefix fails for want of bytes, in a read that spans the cut; with
anything behind it, it fails for the number of bytes that are too many. -/
theorem parse_exact_length (h : parse image = .ok f) :
    (∀ k < image.length, ∃ position needed,
      parse (image.take k) = .error (.endOfInput position needed) ∧
        position ≤ k ∧ k < position + needed) ∧
    ∀ extra ≠ [], parse (image ++ extra) = .error (.trailingBytes extra.length) := by
  have hreads := parse_eq_ok_iff.mp h
  refine ⟨fun k hk => parse_take hreads hk, ?_⟩
  intro extra hextra
  rw [parse_append hreads, if_neg hextra]

/-- A class with one text, a long without room for its placeholder, and an attribute. -/
def sampleImage : Bytes := [
  0xCA, 0xFE, 0xBA, 0xBE, 0x00, 0x00, 0x00, 0x34, 0x00, 0x03, 0x01, 0x00, 0x03, 0xC0, 0x80, 0x41,
  0x05, 0x00, 0x00, 0x00, 0x00, 0x00, 0x00, 0x00, 0x2A, 0x00, 0x21, 0x00, 0x00, 0x00, 0x00, 0x00,
  0x00, 0x00, 0x00, 0x00, 0x00, 0x00, 0x01, 0x00, 0x01, 0x00, 0x00, 0x00, 0x02, 0xAB, 0xCD
  ]

def sample : ClassFile where
  minor := 0
  major := 52
  pool := ⟨#[some (.utf8 "\x00A"), some (.long 42)]⟩
  access := 0x21
  this := 0
  super := 0
  interfaces := []
  fields := []
  methods := []
  attributes := [⟨1, [0xAB, 0xCD]⟩]

theorem parse_exact_length_sample :
    parse sampleImage = .ok sample ∧
    (∀ k < sampleImage.length, ∃ position needed,
      parse (sampleImage.take k) = .error (.endOfInput position needed) ∧
        position ≤ k ∧ k < position + needed) ∧
    ∀ extra ≠ [], parse (sampleImage ++ extra) = .error (.trailingBytes extra.length) := by
  have h : parse sampleImage = .ok sample := by decide +kernel
  exact ⟨h, parse_exact_length h⟩

end ClassFile

end JvmTrace
