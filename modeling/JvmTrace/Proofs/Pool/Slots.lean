import JvmTrace.Proofs.Pool.Layout
import JvmTrace.Proofs.Text.Spellings

/-!
# The slots of a pool that was read

A pool can be looked at in three ways: slot by slot, by index (`Pool.get`), and as the list of what it
holds (`Pool.entries`). For a pool that came out of the reader the three agree, because the slots obey
one rule: a placeholder stands behind every wide constant, as far as there are slots, and nowhere else
(`Fills.getElem?_eq_none_iff`).

`LaidOut` collects what follows from the rule, and `read_laidOut` is the only statement here that
mentions the reader. What it adds is where the constants came from: the bytes that were taken are
their written forms, in the order in which the pool lists them.
-/

set_option autoImplicit false

namespace JvmTrace

open Reader

namespace Pool

/-! ## Where the placeholders are -/

/-- Whether the slot in front of `place` holds a wide constant. -/
def BehindWide (slots : List Slot) (place : Nat) : Prop :=
  ∃ before c, before + 1 = place ∧ slots[before]? = some (some c) ∧ c.isWide = true

@[simp] theorem not_behindWide_zero (slots : List Slot) : ¬ BehindWide slots 0 := by
  simp [BehindWide]

theorem behindWide_succ {slots : List Slot} {place : Nat} :
    BehindWide slots (place + 1) ↔ ∃ c, slots[place]? = some (some c) ∧ c.isWide = true := by
  simp [BehindWide]

/-- A slot put in front matters to the one behind it only. -/
theorem behindWide_cons {slot : Slot} {slots : List Slot} {place : Nat} (h : place ≠ 0) :
    BehindWide (slot :: slots) (place + 1) ↔ BehindWide slots place := by
  obtain ⟨before, rfl⟩ := Nat.exists_eq_succ_of_ne_zero h
  simp [behindWide_succ]

/-- **A placeholder stands behind every wide constant, and nowhere else.** -/
theorem Fills.getElem?_eq_none_iff {room : Nat} {constants : List Constant} {slots : List Slot}
    (h : Fills room constants slots) (place : Nat) (hplace : place < slots.length) :
    slots[place]? = some none ↔ BehindWide slots place := by
  induction h generalizing place with
  | full => simp at hplace
  | last =>
    obtain rfl : place = 0 := by simpa using hplace
    simp
  | @narrow room c constants slots hc rest ih =>
    cases place with
    | zero => simp
    | succ place =>
      rw [List.getElem?_cons_succ, ih place (by simpa using hplace)]
      by_cases hfirst : place = 0
      · simp [hfirst, behindWide_succ, hc]
      · rw [behindWide_cons hfirst]
  | @wide room c constants slots hc rest ih =>
    match place with
    | 0 => simp
    | 1 => simp [behindWide_succ, hc]
    | place + 2 =>
      rw [List.getElem?_cons_succ, List.getElem?_cons_succ, ih place (by simpa using hplace),
        behindWide_cons (Nat.succ_ne_zero place)]
      by_cases hfirst : place = 0
      · simp [hfirst, behindWide_succ]
      · rw [behindWide_cons hfirst]

/-! ## What an index leads to -/

variable {pool : Pool}

theorem getElem?_of_get {index : UInt16} (h : ∀ c, pool.get index ≠ .ok c) (hzero : index ≠ 0)
    (hsize : index.toNat ≤ pool.size) :
    ∃ place, place + 1 = index.toNat ∧ place < pool.size ∧ pool.slots[place]? = some none := by
  have hne : index.toNat ≠ 0 := by
    intro h0
    exact hzero (UInt16.toNat.inj h0)
  obtain ⟨place, hplace⟩ := Nat.exists_eq_succ_of_ne_zero hne
  have hlt : place < pool.size := by omega
  refine ⟨place, hplace.symm, hlt, ?_⟩
  cases hslot : pool.slots[place]? with
  | none =>
    rw [Array.getElem?_eq_none_iff] at hslot
    exact absurd hlt (Nat.not_lt.mpr hslot)
  | some slot =>
    cases slot with
    | none => rfl
    | some c => exact absurd (get_eq_ok.mpr ⟨place, hplace, hslot⟩) (h c)

theorem get_eq_error {index : UInt16} {e : Error} :
    pool.get index = .error e ↔ e = .invalidIndex index ∧ ∀ c, pool.get index ≠ .ok c := by
  unfold get
  cases pool.get? index <;> simp [eq_comm]

/-- The number of a slot fits an index. -/
theorem toNat_index (hsize : pool.size < UInt16.size) {place : Nat} (hplace : place < pool.size) :
    (UInt16.ofNat (place + 1)).toNat = place + 1 :=
  UInt16.toNat_ofNat_of_lt' (Nat.lt_of_le_of_lt hplace hsize)

theorem behindWide_iff_get (hsize : pool.size < UInt16.size) {index : UInt16} {place : Nat}
    (hplace : place + 1 = index.toNat) :
    BehindWide pool.slots.toList place ↔
      ∃ before c, before.toNat + 1 = index.toNat ∧ pool.get before = .ok c ∧ c.isWide = true := by
  constructor
  · rintro ⟨before, c, rfl, hslot, hwide⟩
    rw [Array.getElem?_toList] at hslot
    have hindex := toNat_index hsize (Array.getElem?_eq_some_iff.mp hslot).1
    exact ⟨UInt16.ofNat (before + 1), c, by omega, get_eq_ok.mpr ⟨before, hindex, hslot⟩, hwide⟩
  · rintro ⟨before, c, hbefore, hget, hwide⟩
    obtain ⟨front, hfront, hslot⟩ := get_eq_ok.mp hget
    rw [← Array.getElem?_toList] at hslot
    exact ⟨front, c, by omega, hslot, hwide⟩

/-! ## What a pool lists -/

theorem mem_entries (hsize : pool.size < UInt16.size) {index : UInt16} {c : Constant} :
    (index, c) ∈ pool.entries ↔ pool.get index = .ok c := by
  unfold entries
  rw [List.mem_filterMap, get_eq_ok]
  constructor
  · rintro ⟨⟨slot, place⟩, hmem, hslot⟩
    obtain ⟨d, rfl, hd⟩ := Option.map_eq_some_iff.mp hslot
    cases hd
    rw [List.mem_zipIdx_iff_getElem?, Array.getElem?_toList] at hmem
    exact ⟨place, toNat_index hsize (Array.getElem?_eq_some_iff.mp hmem).1, hmem⟩
  · rintro ⟨place, hplace, hslot⟩
    refine ⟨(some c, place), ?_, ?_⟩
    · rwa [List.mem_zipIdx_iff_getElem?, Array.getElem?_toList]
    · simp [← hplace]

/-- The numbers of the slots increase, and as long as they fit an index so do the indices. -/
theorem pairwise_entries (hsize : pool.size < UInt16.size) :
    pool.entries.Pairwise fun a b => a.1 < b.1 := by
  unfold entries
  rw [List.pairwise_filterMap]
  have hplaces : (pool.slots.toList.zipIdx).Pairwise fun a b => a.2 < b.2 := by
    rw [← List.pairwise_map, List.zipIdx_map_snd]
    exact List.pairwise_lt_range' 1
  refine hplaces.imp_of_mem ?_
  rintro ⟨slot, place⟩ ⟨slot', place'⟩ - hmem hlt _ ha _ hb
  obtain ⟨c, -, rfl⟩ := Option.map_eq_some_iff.mp ha
  obtain ⟨c', -, rfl⟩ := Option.map_eq_some_iff.mp hb
  rw [List.mem_zipIdx_iff_getElem?, Array.getElem?_toList] at hmem
  have hplace' : place' < pool.size := (Array.getElem?_eq_some_iff.mp hmem).1
  rw [UInt16.lt_iff_toNat_lt]
  rw [toNat_index hsize (Nat.lt_trans hlt hplace'), toNat_index hsize hplace']
  exact Nat.succ_lt_succ hlt

theorem map_snd_entries (pool : Pool) :
    pool.entries.map Prod.snd = pool.slots.toList.reduceOption := by
  unfold entries
  rw [List.map_filterMap]
  conv_rhs => rw [← List.zipIdx_map_fst 0 pool.slots.toList, List.reduceOption, List.filterMap_map]
  congr 1
  funext ⟨slot, place⟩
  cases slot <;> rfl

/-! ## All of it together -/

/-- A pool of which slots, indices and entries say the same. -/
structure LaidOut (count : UInt16) (pool : Pool) : Prop where
  size : pool.size = count.toNat - 1
  /-- The index of every slot is a 16-bit number. -/
  fits : ∀ place < pool.size, place + 1 < UInt16.size
  placeholders : ∀ place < pool.size,
    pool.slots[place]? = some none ↔ BehindWide pool.slots.toList place
  failures : ∀ index e, pool.get index = .error e ↔
    e = .invalidIndex index ∧ (index = 0 ∨ pool.size < index.toNat ∨
      ∃ before c, before.toNat + 1 = index.toNat ∧ pool.get before = .ok c ∧ c.isWide = true)
  listed : ∀ index c, (index, c) ∈ pool.entries ↔ pool.get index = .ok c
  increasing : pool.entries.Pairwise fun a b => a.1 < b.1

theorem Fills.laidOut {count : UInt16} {constants : List Constant}
    (h : Fills (count.toNat - 1) constants pool.slots.toList) : LaidOut count pool := by
  have hsize : pool.size = count.toNat - 1 := by
    rw [← h.length_eq, size, Array.length_toList]
  have hlt : pool.size < UInt16.size := by
    have hcount : count.toNat < UInt16.size := count.toNat_lt
    omega
  have hplaceholders : ∀ place < pool.size,
      pool.slots[place]? = some none ↔ BehindWide pool.slots.toList place := by
    intro place hplace
    rw [← Array.getElem?_toList]
    exact h.getElem?_eq_none_iff place (by simpa [size] using hplace)
  refine ⟨hsize, fun place hplace => Nat.lt_of_le_of_lt hplace hlt, hplaceholders, ?_,
    fun index c => mem_entries hlt, pairwise_entries hlt⟩
  intro index e
  rw [get_eq_error]
  refine and_congr_right fun _ => ?_
  constructor
  · intro hnone
    by_cases hzero : index = 0
    · exact Or.inl hzero
    · by_cases hpast : pool.size < index.toNat
      · exact Or.inr (Or.inl hpast)
      · -- There is a slot, and it can only be a placeholder.
        obtain ⟨place, hplace, hin, hslot⟩ :=
          getElem?_of_get hnone hzero (Nat.le_of_not_lt hpast)
        exact Or.inr (Or.inr
          ((behindWide_iff_get hlt hplace).mp ((hplaceholders place hin).mp hslot)))
  · intro hcases c hget
    obtain ⟨place, hplace, hslot⟩ := get_eq_ok.mp hget
    have hin : place < pool.size := (Array.getElem?_eq_some_iff.mp hslot).1
    rcases hcases with rfl | hpast | hwide
    · simp at hplace
    · omega
    · have hnone := (hplaceholders place hin).mpr
        ((behindWide_iff_get hlt hplace.symm).mpr hwide)
      rw [hnone] at hslot
      simp at hslot

end Pool

/-! ## The bytes of a pool -/

namespace Constant

/-- Whether `bytes` are the encoding of a constant, with its text, if it has one, in one of the two
encodings of texts and short enough for its length field. -/
def EncodedAs (c : Constant) (bytes : Bytes) : Prop :=
  ∃ spell, (spell = Text.Utf8.encode ∨ spell = Text.ModifiedUtf8.encode) ∧
    (∀ text, c = utf8 text → (spell text.toList).length < UInt16.size) ∧ bytes = c.encode spell

theorem WrittenAs.encodedAs {c : Constant} {bytes : Bytes} (h : c.WrittenAs bytes) :
    c.EncodedAs bytes := by
  obtain ⟨spell, hspelled, rfl⟩ := h
  cases c with
  | utf8 text =>
    obtain ⟨hshort, hdecode⟩ := hspelled
    have hsame : ∀ other : List Char → Bytes, spell text.toList = other text.toList →
        (∀ t, utf8 text = utf8 t → (other t.toList).length < UInt16.size) ∧
          (utf8 text).encode spell = (utf8 text).encode other := by
      intro other hother
      refine ⟨?_, by simp only [encode, payload, hother]⟩
      intro t ht
      cases ht
      rwa [← hother]
    rcases Text.decode_eq_some_iff.mp hdecode with hstandard | hmodified
    · exact ⟨_, Or.inl rfl, hsame _ hstandard⟩
    · exact ⟨_, Or.inr rfl, hsame _ hmodified⟩
  | _ =>
    refine ⟨_, Or.inl rfl, ?_, rfl⟩
    intro t ht
    cases ht

end Constant

namespace Pool

/-- **A pool that was read is laid out by one rule, and lists what was written.** Wherever the reader
started, it has as many slots as the count says, with a placeholder exactly behind each wide constant;
looking up fails exactly where there is no constant, always naming the index; the entries are what can
be looked up, each once and in order; and the bytes that were taken are the encodings of the entries
and nothing else. -/
theorem read_laidOut {count : UInt16} {c c' : Cursor} {pool : Pool}
    (h : Pool.read count c = .ok pool c') :
    LaidOut count pool ∧
      ∃ pieces, List.Forall₂ Constant.EncodedAs (pool.entries.map Prod.snd) pieces ∧
        c.rest = pieces.flatten ++ c'.rest ∧ c'.position = c.position + pieces.flatten.length := by
  obtain ⟨used, hrest, hposition, hreads⟩ :=
    (delimited_read count).isLocal c.position c.rest pool c' h
  obtain ⟨constants, pieces, hfills, hwritten, rfl⟩ := reads_read.mp hreads
  refine ⟨hfills.laidOut, pieces, ?_, hrest, hposition⟩
  rw [map_snd_entries, hfills.reduceOption_slots]
  exact hwritten.imp fun _ _ => Constant.WrittenAs.encodedAs

-- Two wide constants in a row, a text with a NUL, and a long in the last slot; the reader starts
-- behind other bytes and stops in front of others.
def crowdedStart : Cursor where
  position := 9
  rest := [
    0x05, 0x00, 0x00, 0x00, 0x00, 0x00, 0x00, 0x00, 0x2A,
    0x06, 0x7F, 0xF8, 0x00, 0x00, 0x00, 0x00, 0x00, 0x01,
    0x01, 0x00, 0x03, 0xC0, 0x80, 0x41,
    0x05, 0xFF, 0xFF, 0xFF, 0xFF, 0xFF, 0xFF, 0xFF, 0xFF,
    0x00, 0x21]

def crowded : Pool :=
  ⟨#[some (.long 42), none, some (.double 0x7FF8000000000001), none, some (.utf8 "\x00A"),
    some (.long (-1))]⟩

theorem read_laidOut_crowded :
    Pool.read 7 crowdedStart = .ok crowded ⟨42, [0x00, 0x21]⟩ ∧ LaidOut 7 crowded ∧
      ∃ pieces, List.Forall₂ Constant.EncodedAs (crowded.entries.map Prod.snd) pieces ∧
        crowdedStart.rest = pieces.flatten ++ [0x00, 0x21] ∧ 42 = 9 + pieces.flatten.length := by
  have h : Pool.read 7 crowdedStart = .ok crowded ⟨42, [0x00, 0x21]⟩ := by rfl
  exact ⟨h, read_laidOut h⟩

end Pool

end JvmTrace
