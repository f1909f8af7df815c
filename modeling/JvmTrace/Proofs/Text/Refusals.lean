import JvmTrace.Proofs.Constant.Format
import JvmTrace.Proofs.Text.Spellings

/-!
# What is not a text

`decode_eq_some_iff` says which bytes are a text. This file spells out what that leaves outside:
forms that are longer than they need to be, halves of surrogate pairs without the other half, and
texts that mix the two encodings. Each of these is a mistake *somewhere* in the bytes, with anything
before and behind it, so what is needed is that the place can be found: a byte that does not continue
a sequence starts one, wherever it stands (`exists_sequence`). That holds for both encodings, and they
are taken together: either writes a text as shortest sequences, but for the NUL of the modified one.

The last statement is about the constant that was to hold the text: it is reported at the first byte
of the text.
-/

set_option autoImplicit false

namespace JvmTrace.Text

/-! ## Mistakes -/

/-- A sequence for a code that has a shorter one. The long form of NUL is not among them: it is how
modified UTF-8 writes it. -/
inductive Overlong : Bytes → Prop where
  | two {n : Nat} (hpos : n ≠ 0) (h : n < 0x80) :
      Overlong [UInt8.ofNat (0xC0 + n / 0x40), UInt8.ofNat (0x80 + n % 0x40)]
  | three {n : Nat} (h : n < 0x800) : Overlong (ModifiedUtf8.encodeTriple n)
  | four {n : Nat} (h : n < 0x10000) :
      Overlong [0xF0, UInt8.ofNat (0x80 + n / 0x1000), UInt8.ofNat (0x80 + n / 0x40 % 0x40),
        UInt8.ofNat (0x80 + n % 0x40)]

/-- The sequence of the first half of a surrogate pair. -/
def IsHigh (bytes : Bytes) : Prop :=
  ∃ n, isHighSurrogate n = true ∧ bytes = ModifiedUtf8.encodeTriple n

/-- The sequence of the second half. -/
def IsLow (bytes : Bytes) : Prop :=
  ∃ n, isLowSurrogate n = true ∧ bytes = ModifiedUtf8.encodeTriple n

/-- Bytes with a mistake in them. -/
inductive Malformed : Bytes → Prop where
  | overlong {before form after : Bytes} (h : Overlong form) :
      Malformed (before ++ form ++ after)
  /-- A first half with no second half right behind it. -/
  | loneHigh {before high after : Bytes} (hhigh : IsHigh high)
      (halone : ∀ low rest, IsLow low → after ≠ low ++ rest) :
      Malformed (before ++ high ++ after)
  /-- A second half with no first half right before it; the two in the wrong order begin with one. -/
  | loneLow {before low after : Bytes} (hlow : IsLow low)
      (halone : ∀ front high, IsHigh high → before ≠ front ++ high) :
      Malformed (before ++ low ++ after)
  /-- What only the standard encoding writes, and what only the modified one does. -/
  | mixed {bytes : Bytes} (hstandard : 0 ∈ bytes ∨ ∃ lead ∈ bytes, 0xF0 ≤ lead.toNat)
      (hmodified : [0xC0, 0x80] <:+: bytes ∨ ∃ half, (IsHigh half ∨ IsLow half) ∧ half <:+: bytes) :
      Malformed bytes

/-! ## Sequences -/

/-- The sequences that either encoding writes, with their codes: the shortest ones, and the long form
of NUL. -/
inductive Sequence : Bytes → Nat → Prop where
  | one {a : UInt8} (h : a.toNat < 0x80) : Sequence [a] a.toNat
  | nul : Sequence [0xC0, 0x80] 0
  | two {a b : UInt8} {n : Nat} (h : pairCode a b = some n) : Sequence [a, b] n
  | three {a b c : UInt8} {n : Nat} (h : tripleCode a b c = some n) : Sequence [a, b, c] n
  | four {a b c d : UInt8} {n : Nat} (h : quadCode a b c d = some n) : Sequence [a, b, c, d] n

theorem tail_of_pairCode {a b : UInt8} {n : Nat} (h : pairCode a b = some n) : isTail b = true := by
  unfold pairCode at h
  split at h
  · next hab => exact hab.2.2
  · cases h

theorem tails_of_tripleCode {a b c : UInt8} {n : Nat} (h : tripleCode a b c = some n) :
    isTail b = true ∧ isTail c = true := by
  unfold tripleCode at h
  split at h
  · next habc => exact habc.2.2
  · cases h

theorem parts_of_quadCode {a b c d : UInt8} {n : Nat} (h : quadCode a b c d = some n) :
    0xF0 ≤ a.toNat ∧ isTail b = true ∧ isTail c = true ∧ isTail d = true := by
  unfold quadCode at h
  split at h
  · next habcd => exact ⟨habcd.1, habcd.2.2⟩
  · cases h

/-- With the lowest lead, a code of three bytes needs a second byte to be large enough. -/
theorem second_of_tripleCode {a b c : UInt8} {n : Nat} (h : tripleCode a b c = some n)
    (ha : a.toNat = 0xE0) : 0xA0 ≤ b.toNat := by
  obtain ⟨-, hc⟩ := tails_of_tripleCode h
  rw [isTail_iff] at hc
  obtain ⟨hlow, -⟩ := tripleCode_eq_some h
  unfold tripleCode at h
  split at h
  · dsimp only at h
    split at h
    · have hsum := Option.some.inj h
      omega
    · cases h
  · cases h

theorem second_of_quadCode {a b c d : UInt8} {n : Nat} (h : quadCode a b c d = some n)
    (ha : a.toNat = 0xF0) : 0x90 ≤ b.toNat := by
  obtain ⟨-, -, hc, hd⟩ := parts_of_quadCode h
  rw [isTail_iff] at hc hd
  obtain ⟨hlow, -⟩ := quadCode_eq_some h
  unfold quadCode at h
  split at h
  · dsimp only at h
    split at h
    · have hsum := Option.some.inj h
      omega
    · cases h
  · cases h

/-- The first byte of a sequence says where it starts, the others that it goes on. -/
theorem Sequence.exists_tails {piece : Bytes} {n : Nat} (h : Sequence piece n) :
    ∃ lead tails, piece = lead :: tails ∧ ∀ b ∈ tails, isTail b = true := by
  cases h with
  | one h => exact ⟨_, [], rfl, by simp⟩
  | nul => exact ⟨_, _, rfl, by simp [isTail]⟩
  | two h =>
    have hb := tail_of_pairCode h
    exact ⟨_, _, rfl, by simp [hb]⟩
  | three h =>
    obtain ⟨hb, hc⟩ := tails_of_tripleCode h
    exact ⟨_, _, rfl, by simp [hb, hc]⟩
  | four h =>
    obtain ⟨-, hb, hc, hd⟩ := parts_of_quadCode h
    exact ⟨_, _, rfl, by simp [hb, hc, hd]⟩

/-- **A byte that does not continue a sequence starts one.** -/
theorem exists_sequence {pieces : List Bytes} {codes : List Nat}
    (h : List.Forall₂ Sequence pieces codes) {before after : Bytes} {a : UInt8}
    (ha : isTail a = false) (hbytes : pieces.flatten = before ++ a :: after) :
    ∃ front piece back codes₁ n codes₂, pieces = front ++ piece :: back ∧
      codes = codes₁ ++ n :: codes₂ ∧ List.Forall₂ Sequence front codes₁ ∧ Sequence piece n ∧
      List.Forall₂ Sequence back codes₂ ∧ before = front.flatten ∧
      a :: after = piece ++ back.flatten := by
  induction h generalizing before with
  | nil => simp at hbytes
  | @cons piece n pieces codes hpiece hrest ih =>
    cases before with
    | nil => exact ⟨[], piece, pieces, [], n, codes, rfl, rfl, .nil, hpiece, hrest, rfl, hbytes.symm⟩
    | cons x before =>
      obtain ⟨lead, tails, rfl, htails⟩ := hpiece.exists_tails
      simp only [List.flatten_cons, List.cons_append, List.cons.injEq] at hbytes
      obtain ⟨rfl, hbytes⟩ := hbytes
      -- The byte stands behind this sequence, because it is none of its last bytes.
      have hbehind : ∃ gap, before = tails ++ gap ∧ pieces.flatten = gap ++ a :: after := by
        rcases List.append_eq_append_iff.mp hbytes with ⟨gap, hbefore, hflat⟩ | ⟨gap, rfl, hflat⟩
        · exact ⟨gap, hbefore, hflat⟩
        · cases gap with
          | nil => exact ⟨[], by simp, by simpa using hflat.symm⟩
          | cons b gap =>
            obtain rfl : a = b := (List.cons.inj hflat).1
            exact absurd (htails a (by simp)) (by simp [ha])
      obtain ⟨gap, rfl, hflat⟩ := hbehind
      obtain ⟨front, other, back, codes₁, m, codes₂, rfl, rfl, hfront, hother, hback, rfl, hafter⟩ :=
        ih hflat
      exact ⟨(lead :: tails) :: front, other, back, n :: codes₁, m, codes₂, rfl, rfl,
        .cons hpiece hfront, hother, hback, by simp, hafter⟩

/-! ## What a sequence cannot be -/

/-- The first two bytes of a sequence. -/
theorem Sequence.head {piece : Bytes} {n : Nat} (h : Sequence piece n) :
    (∃ a, piece = [a] ∧ a.toNat < 0x80) ∨ piece = [0xC0, 0x80] ∨
    ∃ a b more, piece = a :: b :: more ∧ 0xC2 ≤ a.toNat ∧ (a.toNat = 0xE0 → 0xA0 ≤ b.toNat) ∧
      (a.toNat = 0xF0 → 0x90 ≤ b.toNat) := by
  cases h with
  | one h => exact Or.inl ⟨_, rfl, h⟩
  | nul => exact Or.inr (Or.inl rfl)
  | two h =>
    have hlead := lead_of_pairCode h
    exact Or.inr (Or.inr ⟨_, _, _, rfl, hlead.1, by omega, by omega⟩)
  | three h =>
    have hlead := lead_of_tripleCode h
    exact Or.inr (Or.inr ⟨_, _, _, rfl, by omega, second_of_tripleCode h, by omega⟩)
  | four h =>
    have hlead := (parts_of_quadCode h).1
    exact Or.inr (Or.inr ⟨_, _, _, rfl, by omega, by omega, second_of_quadCode h⟩)

/-- The first two bytes of a form that is too long. -/
theorem Overlong.head {form : Bytes} (h : Overlong form) :
    ∃ a b more, form = a :: b :: more ∧
      (0xC0 ≤ a.toNat ∧ a.toNat < 0xC2 ∧ (a.toNat = 0xC0 → b.toNat ≠ 0x80) ∨
        a.toNat = 0xE0 ∧ b.toNat < 0xA0 ∨ a.toNat = 0xF0 ∧ b.toNat < 0x90) := by
  cases h with
  | two hpos hn =>
    refine ⟨_, _, _, rfl, Or.inl ?_⟩
    rw [UInt8.toNat_ofNat', UInt8.toNat_ofNat']
    omega
  | three hn =>
    refine ⟨_, _, _, rfl, Or.inr (Or.inl ?_)⟩
    rw [UInt8.toNat_ofNat', UInt8.toNat_ofNat']
    omega
  | four hn =>
    refine ⟨_, _, _, rfl, Or.inr (Or.inr ⟨rfl, ?_⟩)⟩
    rw [UInt8.toNat_ofNat']
    omega

/-- No sequence starts like one that is too long. -/
theorem Sequence.ne_overlong {piece form rest after : Bytes} {n : Nat} (h : Sequence piece n)
    (hform : Overlong form) : form ++ after ≠ piece ++ rest := by
  intro heq
  obtain ⟨a, b, more, rfl, hoverlong⟩ := hform.head
  rcases h.head with ⟨x, rfl, hx⟩ | rfl | ⟨x, y, others, rfl, hx, hthree, hfour⟩
  · obtain ⟨rfl, -⟩ := List.cons.inj heq
    omega
  · obtain ⟨rfl, htails⟩ := List.cons.inj heq
    obtain ⟨rfl, -⟩ := List.cons.inj htails
    simp at hoverlong
  · obtain ⟨rfl, htails⟩ := List.cons.inj heq
    obtain ⟨rfl, -⟩ := List.cons.inj htails
    omega

/-! ## Three bytes for a code -/

theorem tripleCode_encodeTriple {n : Nat} (hlow : 0x800 ≤ n) (hhigh : n < 0x10000) :
    ∃ a b c, ModifiedUtf8.encodeTriple n = [a, b, c] ∧ tripleCode a b c = some n :=
  ⟨_, _, _, encodeTriple_eq hhigh, tripleCode_ofNat hlow hhigh⟩

/-- A sequence that starts with the three bytes of a code is that one. -/
theorem Sequence.eq_of_encodeTriple {piece rest after : Bytes} {m n : Nat} (h : Sequence piece m)
    (hlow : 0x800 ≤ n) (hhigh : n < 0x10000)
    (heq : ModifiedUtf8.encodeTriple n ++ after = piece ++ rest) : m = n ∧ after = rest := by
  obtain ⟨a, b, c, htriple, hcode⟩ := tripleCode_encodeTriple hlow hhigh
  rw [htriple] at heq
  have hlead := lead_of_tripleCode hcode
  cases h with
  | one h =>
    obtain ⟨rfl, -⟩ := List.cons.inj heq
    omega
  | nul =>
    obtain ⟨rfl, -⟩ := List.cons.inj heq
    simp at hlead
  | two h =>
    obtain ⟨rfl, -⟩ := List.cons.inj heq
    have := lead_of_pairCode h
    omega
  | three h =>
    simp only [List.cons_append, List.nil_append, List.cons.injEq] at heq
    obtain ⟨rfl, rfl, rfl, rfl⟩ := heq
    exact ⟨Option.some.inj (h.symm.trans hcode), rfl⟩
  | four h =>
    obtain ⟨rfl, -⟩ := List.cons.inj heq
    have := (parts_of_quadCode h).1
    omega

theorem Sequence.eq_encodeTriple {piece : Bytes} {n : Nat} (h : Sequence piece n)
    (hlow : 0x800 ≤ n) (hhigh : n < 0x10000) : piece = ModifiedUtf8.encodeTriple n := by
  cases h with
  | one h => omega
  | nul => omega
  | two h =>
    obtain ⟨-, hlt, -⟩ := pairCode_eq_some h
    omega
  | three h => exact (encodeTriple_triple h).symm
  | four h =>
    obtain ⟨hge, -⟩ := quadCode_eq_some h
    omega

/-! ## The sequences of a text -/

/-- Codes in which the halves of surrogate pairs stand next to each other, the first half first. -/
inductive Paired : List Nat → Prop where
  | nil : Paired []
  | plain {n : Nat} {codes : List Nat} (h : isSurrogate n = false) (rest : Paired codes) :
      Paired (n :: codes)
  | pair {high low : Nat} {codes : List Nat} (hhigh : isHighSurrogate high = true)
      (hlow : isLowSurrogate low = true) (rest : Paired codes) : Paired (high :: low :: codes)

theorem isSurrogate_iff {n : Nat} :
    isSurrogate n = true ↔ isHighSurrogate n = true ∨ isLowSurrogate n = true := by
  simp only [isSurrogate, isHighSurrogate, isLowSurrogate, Bool.and_eq_true, decide_eq_true_eq]
  omega

theorem not_high_of_low {n : Nat} (h : isLowSurrogate n = true) : isHighSurrogate n = false := by
  simp only [isLowSurrogate, isHighSurrogate, Bool.and_eq_true, Bool.and_eq_false_iff,
    decide_eq_true_eq, decide_eq_false_iff_not] at h ⊢
  omega

theorem Paired.behind_high {front back : List Nat} {n : Nat} (h : Paired (front ++ n :: back))
    (hn : isHighSurrogate n = true) :
    ∃ low rest, back = low :: rest ∧ isLowSurrogate low = true := by
  generalize hcodes : front ++ n :: back = codes at h
  induction h generalizing front with
  | nil => simp at hcodes
  | plain hplain _ ih =>
    cases front with
    | nil =>
      obtain ⟨rfl, -⟩ := List.cons.inj hcodes
      simp [isSurrogate_iff.mpr (Or.inl hn)] at hplain
    | cons x front => exact ih (List.cons.inj hcodes).2
  | pair hhigh hlow _ ih =>
    match front with
    | [] => exact ⟨_, _, (List.cons.inj hcodes).2, hlow⟩
    | [x] =>
      obtain ⟨-, htail⟩ := List.cons.inj hcodes
      obtain ⟨rfl, -⟩ := List.cons.inj htail
      simp [not_high_of_low hlow] at hn
    | x :: y :: front => exact ih (List.cons.inj (List.cons.inj hcodes).2).2

theorem Paired.before_low {front back : List Nat} {n : Nat} (h : Paired (front ++ n :: back))
    (hn : isLowSurrogate n = true) :
    ∃ rest high, front = rest ++ [high] ∧ isHighSurrogate high = true := by
  generalize hcodes : front ++ n :: back = codes at h
  induction h generalizing front with
  | nil => simp at hcodes
  | plain hplain _ ih =>
    cases front with
    | nil =>
      obtain ⟨rfl, -⟩ := List.cons.inj hcodes
      simp [isSurrogate_iff.mpr (Or.inr hn)] at hplain
    | cons x front =>
      obtain ⟨rest, high, rfl, hhigh⟩ := ih (List.cons.inj hcodes).2
      exact ⟨x :: rest, high, rfl, hhigh⟩
  | pair hhigh hlow _ ih =>
    match front with
    | [] =>
      obtain ⟨rfl, -⟩ := List.cons.inj hcodes
      simp [not_high_of_low hn] at hhigh
    | [x] =>
      obtain ⟨rfl, -⟩ := List.cons.inj hcodes
      exact ⟨[], x, rfl, hhigh⟩
    | x :: y :: front =>
      obtain ⟨rest, high, rfl, hhigh'⟩ := ih (List.cons.inj (List.cons.inj hcodes).2).2
      exact ⟨x :: y :: rest, high, rfl, hhigh'⟩

/-- What the standard encoding does not write: the long NUL, and surrogates. -/
structure IsStandard (pieces : List Bytes) (codes : List Nat) : Prop where
  sequences : List.Forall₂ Sequence pieces codes
  nul : [0xC0, 0x80] ∉ pieces
  surrogates : ∀ n ∈ codes, isSurrogate n = false

/-- What the modified encoding does not write: the short NUL, four bytes, and surrogates other than
in pairs. -/
structure IsModified (pieces : List Bytes) (codes : List Nat) : Prop where
  sequences : List.Forall₂ Sequence pieces codes
  nul : [0] ∉ pieces
  short : ∀ piece ∈ pieces, piece.length < 4
  paired : Paired codes

theorem sequence_utf8EncodeChar (c : Char) :
    Sequence (String.utf8EncodeChar c) c.toNat ∧ String.utf8EncodeChar c ≠ [0xC0, 0x80] := by
  by_cases hplain : c.toNat < 0x10000
  · rcases utf8EncodeChar_cases hplain with
      ⟨a, hbytes, ha, hascii⟩ | ⟨a, b, hbytes, hcode⟩ | ⟨a, b, d, hbytes, hcode⟩
    · rw [hbytes, ← ha]
      exact ⟨.one (by omega), by simp⟩
    · rw [hbytes]
      refine ⟨.two hcode, ?_⟩
      intro hnul
      obtain ⟨rfl, -⟩ := List.cons.inj hnul
      have hlead := lead_of_pairCode hcode
      simp at hlead
    · rw [hbytes]
      exact ⟨.three hcode, by simp⟩
  · obtain ⟨a, b, d, e, hbytes, hcode⟩ := exists_quad (Nat.le_of_not_lt hplain)
    rw [hbytes]
    exact ⟨.four hcode, by simp⟩

theorem exists_standard (text : List Char) :
    ∃ pieces codes, Utf8.encode text = pieces.flatten ∧ IsStandard pieces codes := by
  refine ⟨text.map String.utf8EncodeChar, text.map Char.toNat, List.flatMap_def, ?_, ?_, ?_⟩
  · rw [List.forall₂_map_left_iff, List.forall₂_map_right_iff, List.forall₂_same]
    exact fun c _ => (sequence_utf8EncodeChar c).1
  · intro hmem
    obtain ⟨c, -, hc⟩ := List.mem_map.mp hmem
    exact (sequence_utf8EncodeChar c).2 hc
  · intro n hn
    obtain ⟨c, -, rfl⟩ := List.mem_map.mp hn
    exact toNat_not_surrogate c

/-- One more character in modified UTF-8: one more sequence, or two that belong together. -/
theorem IsModified.cons {pieces : List Bytes} {codes : List Nat} (h : IsModified pieces codes)
    (c : Char) :
    ∃ more codes', ModifiedUtf8.encodeChar c ++ pieces.flatten = more.flatten ∧
      IsModified more codes' := by
  by_cases hnul : c.toNat = 0
  · refine ⟨[0xC0, 0x80] :: pieces, 0 :: codes, ?_, .cons .nul h.sequences, ?_, ?_, .plain rfl h.paired⟩
    · rw [ModifiedUtf8.encodeChar, if_pos hnul]
      rfl
    · simp [h.nul]
    · simpa using h.short
  · by_cases hplain : c.toNat < 0x10000
    · refine ⟨String.utf8EncodeChar c :: pieces, c.toNat :: codes, ?_,
        .cons (sequence_utf8EncodeChar c).1 h.sequences, ?_, ?_,
        .plain (toNat_not_surrogate c) h.paired⟩
      · rw [encodeChar_plain hnul hplain]
        rfl
      · rcases utf8EncodeChar_cases hplain with
          ⟨a, hbytes, ha, -⟩ | ⟨a, b, hbytes, -⟩ | ⟨a, b, d, hbytes, -⟩
        · have hne : a ≠ 0 := by
            rintro rfl
            exact hnul ha.symm
          simp [hbytes, h.nul, Ne.symm hne]
        · simp [hbytes, h.nul]
        · simp [hbytes, h.nul]
      · rcases utf8EncodeChar_cases hplain with
          ⟨a, hbytes, -⟩ | ⟨a, b, hbytes, -⟩ | ⟨a, b, d, hbytes, -⟩ <;>
        simpa [hbytes] using h.short
    · obtain ⟨a, b, d, a', b', d', high, low, hbytes, hcode, hcode', hhigh, hlow, -⟩ :=
        exists_surrogates (Nat.le_of_not_lt hplain)
      refine ⟨[a, b, d] :: [a', b', d'] :: pieces, high :: low :: codes, ?_,
        .cons (.three hcode) (.cons (.three hcode') h.sequences), ?_, ?_, .pair hhigh hlow h.paired⟩
      · rw [hbytes]
        rfl
      · simp [h.nul]
      · simpa using h.short

theorem exists_modified (text : List Char) :
    ∃ pieces codes, ModifiedUtf8.encode text = pieces.flatten ∧ IsModified pieces codes := by
  induction text with
  | nil => exact ⟨[], [], rfl, .nil, by simp, by simp, .nil⟩
  | cons c text ih =>
    obtain ⟨pieces, codes, hbytes, hpieces⟩ := ih
    obtain ⟨more, codes', hmore, hmodified⟩ := hpieces.cons c
    refine ⟨more, codes', ?_, hmodified⟩
    rw [ModifiedUtf8.encode, List.flatMap_cons, ← ModifiedUtf8.encode, hbytes, hmore]

/-! ## Finding a mistake -/

variable {pieces : List Bytes} {codes : List Nat}

theorem not_isTail {a : UInt8} (h : 0xC0 ≤ a.toNat) : isTail a = false := by
  rw [← Bool.not_eq_true, isTail_iff]
  omega

theorem flatten_ne_overlong (h : List.Forall₂ Sequence pieces codes) {before form after : Bytes}
    (hform : Overlong form) : pieces.flatten ≠ before ++ form ++ after := by
  intro hbytes
  obtain ⟨a, b, more, rfl, hlead⟩ := hform.head
  rw [List.append_assoc, List.cons_append] at hbytes
  obtain ⟨_, _, _, _, _, _, -, -, -, hpiece, -, -, hrest⟩ :=
    exists_sequence h (not_isTail (by omega)) hbytes
  exact hpiece.ne_overlong hform hrest

theorem surrogate_bounds {n : Nat} (h : isSurrogate n = true) : 0x800 ≤ n ∧ n < 0x10000 := by
  simp only [isSurrogate, Bool.and_eq_true, decide_eq_true_eq] at h
  omega

/-- Half of a surrogate pair is a sequence of its own wherever it stands. -/
theorem exists_surrogate (h : List.Forall₂ Sequence pieces codes) {before after : Bytes} {n : Nat}
    (hn : isSurrogate n = true)
    (hbytes : pieces.flatten = before ++ ModifiedUtf8.encodeTriple n ++ after) :
    ∃ front back codes₁ codes₂, codes = codes₁ ++ n :: codes₂ ∧
      List.Forall₂ Sequence front codes₁ ∧ List.Forall₂ Sequence back codes₂ ∧
      before = front.flatten ∧ after = back.flatten := by
  obtain ⟨hlow, hhigh⟩ := surrogate_bounds hn
  obtain ⟨a, b, c, htriple, hcode⟩ := tripleCode_encodeTriple hlow hhigh
  have hlead := lead_of_tripleCode hcode
  rw [List.append_assoc, htriple, List.cons_append] at hbytes
  obtain ⟨front, piece, back, codes₁, m, codes₂, -, hcodes, hfront, hpiece, hback, hbefore, hrest⟩ :=
    exists_sequence h (not_isTail (by omega)) hbytes
  rw [← List.cons_append, ← htriple] at hrest
  obtain ⟨rfl, hafter⟩ := hpiece.eq_of_encodeTriple hlow hhigh hrest
  exact ⟨front, back, codes₁, codes₂, hcodes, hfront, hback, hbefore, hafter⟩

theorem IsStandard.no_surrogate (h : IsStandard pieces codes) {before half after : Bytes}
    (hhalf : IsHigh half ∨ IsLow half) : pieces.flatten ≠ before ++ half ++ after := by
  intro hbytes
  obtain ⟨n, hn, rfl⟩ : ∃ n, isSurrogate n = true ∧ half = ModifiedUtf8.encodeTriple n := by
    rcases hhalf with ⟨n, hn, rfl⟩ | ⟨n, hn, rfl⟩
    · exact ⟨n, isSurrogate_iff.mpr (Or.inl hn), rfl⟩
    · exact ⟨n, isSurrogate_iff.mpr (Or.inr hn), rfl⟩
  obtain ⟨_, _, _, _, rfl, -⟩ := exists_surrogate h.sequences hn hbytes
  simp [h.surrogates n (by simp)] at hn

theorem IsModified.behind_high (h : IsModified pieces codes) {before high after : Bytes}
    (hhigh : IsHigh high) (hbytes : pieces.flatten = before ++ high ++ after) :
    ∃ low rest, IsLow low ∧ after = low ++ rest := by
  obtain ⟨n, hn, rfl⟩ := hhigh
  obtain ⟨_, back, codes₁, codes₂, rfl, -, hback, -, rfl⟩ :=
    exists_surrogate h.sequences (isSurrogate_iff.mpr (Or.inl hn)) hbytes
  obtain ⟨low, rest, rfl, hlow⟩ := h.paired.behind_high hn
  cases hback with
  | @cons piece _ back _ hpiece _ =>
    have hbounds := surrogate_bounds (isSurrogate_iff.mpr (Or.inr hlow))
    exact ⟨piece, back.flatten, ⟨low, hlow, hpiece.eq_encodeTriple hbounds.1 hbounds.2⟩, rfl⟩

theorem IsModified.before_low (h : IsModified pieces codes) {before low after : Bytes}
    (hlow : IsLow low) (hbytes : pieces.flatten = before ++ low ++ after) :
    ∃ front high, IsHigh high ∧ before = front ++ high := by
  obtain ⟨n, hn, rfl⟩ := hlow
  obtain ⟨front, _, codes₁, codes₂, rfl, hfront, -, rfl, -⟩ :=
    exists_surrogate h.sequences (isSurrogate_iff.mpr (Or.inr hn)) hbytes
  obtain ⟨rest, high, rfl, hhigh⟩ := h.paired.before_low hn
  -- The last sequence before it is the one of the last code.
  have hlast := List.forall₂_drop_append front rest [high] hfront
  obtain ⟨piece, others, hpiece, hnone, hdrop⟩ := List.forall₂_cons_right_iff.mp hlast
  cases hnone
  have hbounds := surrogate_bounds (isSurrogate_iff.mpr (Or.inl hhigh))
  refine ⟨(front.take rest.length).flatten, piece,
    ⟨high, hhigh, hpiece.eq_encodeTriple hbounds.1 hbounds.2⟩, ?_⟩
  conv_lhs => rw [← List.take_append_drop rest.length front, hdrop]
  simp

theorem IsStandard.no_long_nul (h : IsStandard pieces codes) :
    ¬ [0xC0, 0x80] <:+: pieces.flatten := by
  rintro ⟨before, after, hbytes⟩
  rw [List.append_assoc] at hbytes
  obtain ⟨front, piece, back, _, _, _, rfl, -, -, hpiece, -, -, hrest⟩ :=
    exists_sequence h.sequences (by decide) hbytes.symm
  rcases hpiece.head with ⟨a, rfl, ha⟩ | rfl | ⟨a, b, more, rfl, ha, -⟩
  · obtain ⟨rfl, -⟩ := List.cons.inj hrest
    simp at ha
  · exact h.nul (by simp)
  · obtain ⟨rfl, -⟩ := List.cons.inj hrest
    simp at ha

/-- The bytes of a sequence of fewer than four, other than the short NUL. -/
theorem Sequence.mem_bounds {piece : Bytes} {n : Nat} (h : Sequence piece n) (hnul : piece ≠ [0])
    (hshort : piece.length < 4) {a : UInt8} (ha : a ∈ piece) : a ≠ 0 ∧ a.toNat < 0xF0 := by
  have htail : ∀ b : UInt8, isTail b = true → b ≠ 0 ∧ b.toNat < 0xF0 := by
    intro b hb
    rw [isTail_iff] at hb
    refine ⟨?_, by omega⟩
    rintro rfl
    simp at hb
  have hlead : ∀ b : UInt8, 0xC0 ≤ b.toNat → b ≠ 0 := by
    rintro b hb rfl
    simp at hb
  cases h with
  | one h =>
    obtain rfl := List.mem_singleton.mp ha
    refine ⟨?_, by omega⟩
    rintro rfl
    exact hnul rfl
  | nul =>
    simp only [List.mem_cons, List.not_mem_nil, or_false] at ha
    rcases ha with rfl | rfl
    · exact ⟨hlead _ (by decide), by decide⟩
    · exact htail _ rfl
  | two h =>
    have hbounds := lead_of_pairCode h
    have hb := tail_of_pairCode h
    simp only [List.mem_cons, List.not_mem_nil, or_false] at ha
    rcases ha with rfl | rfl
    · exact ⟨hlead _ (by omega), by omega⟩
    · exact htail _ hb
  | three h =>
    have hbounds := lead_of_tripleCode h
    obtain ⟨hb, hc⟩ := tails_of_tripleCode h
    simp only [List.mem_cons, List.not_mem_nil, or_false] at ha
    rcases ha with rfl | rfl | rfl
    · exact ⟨hlead _ (by omega), by omega⟩
    · exact htail _ hb
    · exact htail _ hc
  | four h => simp at hshort

theorem IsModified.mem_bounds (h : IsModified pieces codes) {a : UInt8} (ha : a ∈ pieces.flatten) :
    a ≠ 0 ∧ a.toNat < 0xF0 := by
  obtain ⟨piece, hmem, ha⟩ := List.mem_flatten.mp ha
  obtain ⟨i, hi, rfl⟩ := List.getElem_of_mem hmem
  have hlength := h.sequences.length_eq
  have hpiece : Sequence pieces[i] codes[i] := h.sequences.get hi (hlength ▸ hi)
  refine hpiece.mem_bounds ?_ (h.short _ hmem) ha
  intro hnul
  exact h.nul (hnul ▸ hmem)

/-- **Bytes with a mistake in them are no text.** -/
theorem decode_of_malformed {bytes : Bytes} (h : Malformed bytes) : decode bytes = none := by
  cases hdecode : decode bytes with
  | none => rfl
  | some text =>
    exfalso
    rcases decode_eq_some_iff.mp hdecode with hbytes | hbytes
    · obtain ⟨pieces, codes, hpieces, hstandard⟩ := exists_standard text.toList
      rw [hpieces] at hbytes
      cases h with
      | overlong hform => exact flatten_ne_overlong hstandard.sequences hform hbytes.symm
      | loneHigh hhigh halone => exact hstandard.no_surrogate (Or.inl hhigh) hbytes.symm
      | loneLow hlow halone => exact hstandard.no_surrogate (Or.inr hlow) hbytes.symm
      | mixed _ hmodified =>
        rcases hmodified with hnul | ⟨half, hhalf, before, after, hinfix⟩
        · exact hstandard.no_long_nul (hbytes ▸ hnul)
        · exact hstandard.no_surrogate hhalf (hbytes.symm.trans hinfix.symm)
    · obtain ⟨pieces, codes, hpieces, hmodified⟩ := exists_modified text.toList
      rw [hpieces] at hbytes
      cases h with
      | overlong hform => exact flatten_ne_overlong hmodified.sequences hform hbytes.symm
      | loneHigh hhigh halone =>
        obtain ⟨low, rest, hlow, hafter⟩ := hmodified.behind_high hhigh hbytes.symm
        exact halone low rest hlow hafter
      | loneLow hlow halone =>
        obtain ⟨front, high, hhigh, hbefore⟩ := hmodified.before_low hlow hbytes.symm
        exact halone front high hhigh hbefore
      | mixed hstandard _ =>
        rcases hstandard with hzero | ⟨lead, hmem, hlead⟩
        · exact (hmodified.mem_bounds (hbytes ▸ hzero)).1 rfl
        · have := (hmodified.mem_bounds (hbytes ▸ hmem)).2
          omega

/-! ## The constant that was to hold the text -/

open Reader in
/-- A text that cannot be read is reported where its bytes start: behind the tag and the length. -/
theorem read_of_decode_eq_none {bytes : Bytes} (hlength : bytes.length < UInt16.size)
    (h : decode bytes = none) (p : Nat) (rest : Bytes) :
    Constant.read ⟨p, 1 :: (Constant.encodeText bytes ++ rest)⟩ =
      .error (.invalidText (p + 3)) ⟨p + 3 + bytes.length, rest⟩ := by
  have hcount : (UInt16.ofNat bytes.length).toNat = bytes.length := UInt16.toNat_ofNat_of_lt' hlength
  have hfield : Constant.encodeText bytes = BigEndian.u16 (UInt16.ofNat bytes.length) ++ bytes := by
    rw [BigEndian.u16, hcount]
    rfl
  have htag : u8 ⟨p, 1 :: (Constant.encodeText bytes ++ rest)⟩ =
      .ok 1 ⟨p + 1, Constant.encodeText bytes ++ rest⟩ :=
    reads_u8.mpr rfl _
  have hlen : u16 ⟨p + 1, Constant.encodeText bytes ++ rest⟩ =
      .ok (UInt16.ofNat bytes.length) ⟨p + 3, bytes ++ rest⟩ := by
    rw [hfield, List.append_assoc]
    exact reads_u16.mpr rfl _
  have htake : take bytes.length ⟨p + 3, bytes ++ rest⟩ =
      .ok bytes ⟨p + 3 + bytes.length, rest⟩ :=
    take_append (p + 3) rest
  have hbody : Constant.readBody (UInt16.ofNat bytes.length) (p + 3) ⟨p + 3, bytes ++ rest⟩ =
      .error (.invalidText (p + 3)) ⟨p + 3 + bytes.length, rest⟩ := by
    rw [Constant.readBody, bind_eq, hcount, htake]
    dsimp only
    rw [h]
    rfl
  unfold Constant.read
  rw [bind_eq, htag]
  show Constant.readText _ = _
  rw [Constant.readText_eq, bind_eq, hlen]
  exact hbody

/-- **A constant accepts exactly two encodings of each text.** Bytes are a text if they are its
standard or its modified encoding; with a form that is too long, half a surrogate pair or a mixture of
the two encodings in them, they are none; and then the constant is reported at their first byte. -/
theorem text_two_encodings :
    (∀ bytes text, decode bytes = some text ↔
      bytes = Utf8.encode text.toList ∨ bytes = ModifiedUtf8.encode text.toList) ∧
    (∀ bytes, Malformed bytes → decode bytes = none) ∧
    ∀ bytes p rest, bytes.length < UInt16.size → decode bytes = none →
      Constant.read ⟨p, 1 :: (Constant.encodeText bytes ++ rest)⟩ =
        .error (.invalidText (p + 3)) ⟨p + 3 + bytes.length, rest⟩ := by
  refine ⟨fun bytes text => decode_eq_some_iff, fun bytes => decode_of_malformed, ?_⟩
  intro bytes p rest hlength hnone
  exact read_of_decode_eq_none hlength hnone p rest

-- A character that only standard UTF-8 writes in four bytes, and the NUL that only modified UTF-8
-- writes in two.
def mixture : Bytes := [0xF0, 0x9F, 0x98, 0x80, 0xC0, 0x80]

theorem text_two_encodings_mixture :
    Malformed mixture ∧ decode mixture = none ∧
      Constant.read ⟨10, 1 :: (Constant.encodeText mixture ++ [0x07])⟩ =
        .error (.invalidText 13) ⟨19, [0x07]⟩ := by
  have hmixed : Malformed mixture :=
    .mixed (Or.inr ⟨0xF0, by decide, by decide⟩) (Or.inl ⟨[0xF0, 0x9F, 0x98, 0x80], [], rfl⟩)
  have hnone := text_two_encodings.2.1 mixture hmixed
  exact ⟨hmixed, hnone, text_two_encodings.2.2 mixture 10 [0x07] (by decide) hnone⟩

end JvmTrace.Text
