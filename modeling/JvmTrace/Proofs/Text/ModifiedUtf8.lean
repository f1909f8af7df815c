import JvmTrace.Text.Utf8

/-!
# Texts in modified UTF-8 are read back

`Text.decode` tries standard UTF-8 first. So it is not enough that the modified decoder undoes the
modified encoder: the standard one must not make *something else* of the same bytes. It does not,
because at every character it does one of two things (`Utf8.decodeFrom_encodeChar`): it reads that
very character, where the two encodings agree, or it gives up on the whole text, where they differ
(`C0 80` is no shortest form, and a surrogate no character).

Both decoders are taken one sequence of bytes at a time, and what is known about a sequence is known
from its code (`pairCode`, `tripleCode`), not from its bytes.
-/

set_option autoImplicit false

namespace JvmTrace.Text

/-! ## Sequences of bytes -/

theorem lead_of_pairCode {a b : UInt8} {n : Nat} (h : pairCode a b = some n) :
    0xC2 ≤ a.toNat ∧ a.toNat < 0xE0 := by
  unfold pairCode at h
  split at h
  · next hab => exact ⟨hab.1, hab.2.1⟩
  · cases h

theorem lead_of_tripleCode {a b c : UInt8} {n : Nat} (h : tripleCode a b c = some n) :
    0xE0 ≤ a.toNat ∧ a.toNat < 0xF0 := by
  unfold tripleCode at h
  split at h
  · next habc => exact ⟨habc.1, habc.2.1⟩
  · cases h

theorem pairCode_eq_none {a b : UInt8} (h : a.toNat < 0xC2 ∨ 0xE0 ≤ a.toNat) :
    pairCode a b = none := by
  unfold pairCode
  exact if_neg (by omega)

theorem tripleCode_eq_none {a b c : UInt8} (h : a.toNat < 0xE0) : tripleCode a b c = none := by
  unfold tripleCode
  exact if_neg (by omega)

theorem quadCode_eq_none {a b c d : UInt8} (h : a.toNat < 0xF0) : quadCode a b c d = none := by
  unfold quadCode
  exact if_neg (by omega)

/-- Six bits of a number, as a byte that continues a sequence. -/
theorem isTail_ofNat (n : Nat) : isTail (UInt8.ofNat (n % 0x40 + 0x80)) = true := by
  simp only [isTail, UInt8.toNat_ofNat', Bool.and_eq_true, decide_eq_true_eq]
  omega

theorem pairCode_ofNat {n : Nat} (hlow : 0x80 ≤ n) (hhigh : n < 0x800) :
    pairCode (UInt8.ofNat (n / 0x40 % 0x20 + 0xC0)) (UInt8.ofNat (n % 0x40 + 0x80)) = some n := by
  have hsum :
      ((n / 0x40 % 0x20 + 0xC0) % 0x100 - 0xC0) * 0x40 + ((n % 0x40 + 0x80) % 0x100 - 0x80) = n := by
    omega
  unfold pairCode
  simp only [isTail_ofNat, UInt8.toNat_ofNat', and_true, Nat.reducePow]
  rw [if_pos (by omega), hsum]

theorem tripleCode_ofNat {n : Nat} (hlow : 0x800 ≤ n) (hhigh : n < 0x10000) :
    tripleCode (UInt8.ofNat (n / 0x1000 % 0x10 + 0xE0)) (UInt8.ofNat (n / 0x40 % 0x40 + 0x80))
      (UInt8.ofNat (n % 0x40 + 0x80)) = some n := by
  have hsum : ((n / 0x1000 % 0x10 + 0xE0) % 0x100 - 0xE0) * 0x1000 +
      ((n / 0x40 % 0x40 + 0x80) % 0x100 - 0x80) * 0x40 + ((n % 0x40 + 0x80) % 0x100 - 0x80) = n := by
    omega
  unfold tripleCode
  simp only [isTail_ofNat, UInt8.toNat_ofNat', and_true, Nat.reducePow]
  rw [if_pos (by omega), hsum, if_pos hlow]

theorem encodeTriple_eq {n : Nat} (h : n < 0x10000) :
    ModifiedUtf8.encodeTriple n =
      [UInt8.ofNat (n / 0x1000 % 0x10 + 0xE0), UInt8.ofNat (n / 0x40 % 0x40 + 0x80),
        UInt8.ofNat (n % 0x40 + 0x80)] := by
  have hhigh : n / 0x1000 % 0x10 = n / 0x1000 := Nat.mod_eq_of_lt (by omega)
  rw [ModifiedUtf8.encodeTriple, hhigh, Nat.add_comm 0xE0, Nat.add_comm 0x80, Nat.add_comm 0x80]

/-! ## Characters -/

theorem toNat_valid (c : Char) : c.toNat < 0xD800 ∨ 0xDFFF < c.toNat ∧ c.toNat < 0x110000 := c.valid

theorem toNat_not_surrogate (c : Char) : isSurrogate c.toNat = false := by
  have hvalid := toNat_valid c
  simp only [isSurrogate, Bool.and_eq_false_iff, decide_eq_false_iff_not]
  omega

/-- The bytes of a character below `U+10000`, in either encoding, as one of three sequences. -/
theorem utf8EncodeChar_cases {c : Char} (h : c.toNat < 0x10000) :
    (∃ a, String.utf8EncodeChar c = [a] ∧ a.toNat = c.toNat ∧ c.toNat < 0x80) ∨
    (∃ a b, String.utf8EncodeChar c = [a, b] ∧ pairCode a b = some c.toNat) ∨
    (∃ a b d, String.utf8EncodeChar c = [a, b, d] ∧ tripleCode a b d = some c.toNat) := by
  have hval : c.val.toNat = c.toNat := rfl
  unfold String.utf8EncodeChar
  simp only [hval]
  by_cases h7 : c.toNat ≤ 0x7F
  · refine Or.inl ⟨_, if_pos h7, ?_, by omega⟩
    rw [UInt8.toNat_ofNat_of_lt' (Nat.lt_of_le_of_lt h7 (by decide))]
  · rw [if_neg h7]
    by_cases h11 : c.toNat ≤ 0x7FF
    · exact Or.inr (Or.inl ⟨_, _, if_pos h11, pairCode_ofNat (by omega) (by omega)⟩)
    · rw [if_neg h11, if_pos (show c.toNat ≤ 0xFFFF by omega)]
      exact Or.inr (Or.inr ⟨_, _, _, rfl, tripleCode_ofNat (by omega) h⟩)

/-- A character above `U+FFFF` is written as two surrogates, which it can be joined from. -/
theorem exists_surrogates {c : Char} (h : 0x10000 ≤ c.toNat) :
    ∃ a b d a' b' d' high low, ModifiedUtf8.encodeChar c = [a, b, d, a', b', d'] ∧
      tripleCode a b d = some high ∧ tripleCode a' b' d' = some low ∧ isHighSurrogate high = true ∧
      isLowSurrogate low = true ∧ joinSurrogates high low = c.toNat := by
  have hlt : c.toNat < 0x110000 := by
    have hvalid := toNat_valid c
    omega
  have hhigh : 0xD800 + (c.toNat - 0x10000) / 0x400 < 0x10000 := by omega
  have hlow : 0xDC00 + (c.toNat - 0x10000) % 0x400 < 0x10000 := by omega
  refine ⟨_, _, _, _, _, _, _, _, ?_, tripleCode_ofNat (by omega) hhigh,
    tripleCode_ofNat (by omega) hlow, ?_, ?_, ?_⟩
  · unfold ModifiedUtf8.encodeChar
    rw [if_neg (by omega), if_neg (by omega)]
    dsimp only
    rw [encodeTriple_eq hhigh, encodeTriple_eq hlow]
    rfl
  · simp only [isHighSurrogate, Bool.and_eq_true, decide_eq_true_eq]
    omega
  · simp only [isLowSurrogate, Bool.and_eq_true, decide_eq_true_eq]
    omega
  · unfold joinSurrogates
    omega

/-! ## The standard decoder, one sequence at a time -/

namespace Utf8

variable {out : List Char} {a b d : UInt8} {rest : Bytes} {n : Nat}

theorem decodeFrom_ascii (h : a.toNat < 0x80) :
    decodeFrom out (a :: rest) = decodeFrom (Char.ofNat a.toNat :: out) rest := by
  rw [decodeFrom.eq_def]
  dsimp only
  rw [if_pos h]

theorem decodeFrom_pair (h : pairCode a b = some n) :
    decodeFrom out (a :: b :: rest) = decodeFrom (Char.ofNat n :: out) rest := by
  have hlead := lead_of_pairCode h
  rw [decodeFrom.eq_def]
  dsimp only
  rw [if_neg (by omega)]
  simp only [h]

theorem decodeFrom_triple (h : tripleCode a b d = some n) :
    decodeFrom out (a :: b :: d :: rest) =
      if isSurrogate n then none else decodeFrom (Char.ofNat n :: out) rest := by
  have hlead := lead_of_tripleCode h
  have hpair : pairCode a b = none := pairCode_eq_none (Or.inr hlead.1)
  rw [decodeFrom.eq_def]
  dsimp only
  rw [if_neg (by omega)]
  simp only [hpair, h]

/-- A byte that starts no sequence ends the reading. -/
theorem decodeFrom_eq_none (hlow : 0x80 ≤ a.toNat) (hhigh : a.toNat < 0xC2) :
    decodeFrom out (a :: rest) = none := by
  rw [decodeFrom.eq_def]
  dsimp only
  rw [if_neg (by omega)]
  cases rest with
  | nil => rfl
  | cons b rest =>
    simp only [pairCode_eq_none (Or.inl hhigh)]
    cases rest with
    | nil => rfl
    | cons d rest =>
      simp only [tripleCode_eq_none (show a.toNat < 0xE0 by omega)]
      cases rest with
      | nil => rfl
      | cons e rest => simp only [quadCode_eq_none (show a.toNat < 0xF0 by omega)]

end Utf8

/-! ## The modified decoder, one sequence at a time -/

namespace ModifiedUtf8

variable {out : List Char} {a b d : UInt8} {rest : Bytes} {n : Nat}

theorem decodeFrom_nul :
    decodeFrom out (0xC0 :: 0x80 :: rest) = decodeFrom (Char.ofNat 0 :: out) rest := by
  rw [decodeFrom.eq_def]
  rfl

theorem decodeFrom_ascii (hpos : a.toNat ≠ 0) (h : a.toNat < 0x80) :
    decodeFrom out (a :: rest) = decodeFrom (Char.ofNat a.toNat :: out) rest := by
  rw [decodeFrom.eq_def]
  dsimp only
  rw [if_neg hpos, if_pos h]

theorem decodeFrom_pair (h : pairCode a b = some n) :
    decodeFrom out (a :: b :: rest) = decodeFrom (Char.ofNat n :: out) rest := by
  have hlead := lead_of_pairCode h
  rw [decodeFrom.eq_def]
  dsimp only
  rw [if_neg (by omega), if_neg (by omega), if_neg (by omega)]
  simp only [h]

theorem decodeFrom_triple (h : tripleCode a b d = some n) (hn : isSurrogate n = false) :
    decodeFrom out (a :: b :: d :: rest) = decodeFrom (Char.ofNat n :: out) rest := by
  have hlead := lead_of_tripleCode h
  have hpair : pairCode a b = none := pairCode_eq_none (Or.inr hlead.1)
  have hhigh : isHighSurrogate n = false := by
    simp only [isSurrogate, isHighSurrogate, Bool.and_eq_false_iff, decide_eq_false_iff_not] at hn ⊢
    omega
  have hlow : isLowSurrogate n = false := by
    simp only [isSurrogate, isLowSurrogate, Bool.and_eq_false_iff, decide_eq_false_iff_not] at hn ⊢
    omega
  rw [decodeFrom.eq_def]
  dsimp only
  rw [if_neg (by omega), if_neg (by omega), if_neg (by omega)]
  simp only [hpair, h, hhigh, hlow, Bool.false_eq_true, if_false]

theorem decodeFrom_surrogates {a' b' d' : UInt8} {high low : Nat} (h : tripleCode a b d = some high)
    (h' : tripleCode a' b' d' = some low) (hhigh : isHighSurrogate high = true)
    (hlow : isLowSurrogate low = true) :
    decodeFrom out (a :: b :: d :: a' :: b' :: d' :: rest) =
      decodeFrom (Char.ofNat (joinSurrogates high low) :: out) rest := by
  have hlead := lead_of_tripleCode h
  have hpair : pairCode a b = none := pairCode_eq_none (Or.inr hlead.1)
  rw [decodeFrom.eq_def]
  dsimp only
  rw [if_neg (by omega), if_neg (by omega), if_neg (by omega)]
  simp only [hpair, h, h', hhigh, hlow, if_true]

/-- **The modified decoder reads a character from its modified encoding.** -/
theorem decodeFrom_encodeChar (c : Char) (out : List Char) (rest : Bytes) :
    decodeFrom out (encodeChar c ++ rest) = decodeFrom (c :: out) rest := by
  have hself : Char.ofNat c.toNat = c := Char.ofNat_toNat c
  by_cases hnul : c.toNat = 0
  · rw [encodeChar, if_pos hnul, ← hself, hnul]
    exact decodeFrom_nul
  · by_cases hplain : c.toNat < 0x10000
    · rw [encodeChar, if_neg hnul, if_pos hplain]
      rcases utf8EncodeChar_cases hplain with
        ⟨a, hbytes, ha, hascii⟩ | ⟨a, b, hbytes, hcode⟩ | ⟨a, b, d, hbytes, hcode⟩
      · rw [hbytes, List.singleton_append, decodeFrom_ascii (by omega) (by omega), ha, hself]
      · rw [hbytes, List.cons_append, List.singleton_append, decodeFrom_pair hcode, hself]
      · rw [hbytes, List.cons_append, List.cons_append, List.singleton_append,
          decodeFrom_triple hcode (toNat_not_surrogate c), hself]
    · obtain ⟨a, b, d, a', b', d', high, low, hbytes, hcode, hcode', hhigh, hlow, hjoin⟩ :=
        exists_surrogates (Nat.le_of_not_lt hplain)
      have hread := @decodeFrom_surrogates out a b d rest a' b' d' high low hcode hcode' hhigh hlow
      rw [hjoin, hself] at hread
      rw [hbytes]
      exact hread

theorem decodeFrom_encode (text out : List Char) :
    decodeFrom out (encode text) = some (out.reverse ++ text) := by
  induction text generalizing out with
  | nil =>
    rw [List.append_nil]
    rfl
  | cons c text ih =>
    rw [encode, List.flatMap_cons, decodeFrom_encodeChar, ← encode, ih, List.reverse_cons,
      List.append_assoc, List.singleton_append]

end ModifiedUtf8

/-! ## The standard decoder on modified texts -/

namespace Utf8

/-- At a character of a modified text, the standard decoder reads it or gives up. -/
theorem decodeFrom_encodeChar (c : Char) (out : List Char) (rest : Bytes) :
    decodeFrom out (ModifiedUtf8.encodeChar c ++ rest) = decodeFrom (c :: out) rest ∨
      decodeFrom out (ModifiedUtf8.encodeChar c ++ rest) = none := by
  have hself : Char.ofNat c.toNat = c := Char.ofNat_toNat c
  by_cases hnul : c.toNat = 0
  · -- `C0` could only start a form that is too long.
    rw [ModifiedUtf8.encodeChar, if_pos hnul]
    exact Or.inr (decodeFrom_eq_none (by decide) (by decide))
  · by_cases hplain : c.toNat < 0x10000
    · left
      rw [ModifiedUtf8.encodeChar, if_neg hnul, if_pos hplain]
      rcases utf8EncodeChar_cases hplain with
        ⟨a, hbytes, ha, hascii⟩ | ⟨a, b, hbytes, hcode⟩ | ⟨a, b, d, hbytes, hcode⟩
      · rw [hbytes, List.singleton_append, decodeFrom_ascii (by omega), ha, hself]
      · rw [hbytes, List.cons_append, List.singleton_append, decodeFrom_pair hcode, hself]
      · rw [hbytes]
        refine (decodeFrom_triple hcode).trans ?_
        rw [toNat_not_surrogate, hself]
        rfl
    · -- The first surrogate is enough to give up.
      right
      obtain ⟨a, b, d, a', b', d', high, low, hbytes, hcode, -, hhigh, -, -⟩ :=
        exists_surrogates (Nat.le_of_not_lt hplain)
      have hsurrogate : isSurrogate high = true := by
        simp only [isHighSurrogate, isSurrogate, Bool.and_eq_true, decide_eq_true_eq] at hhigh ⊢
        omega
      rw [hbytes]
      refine (decodeFrom_triple hcode).trans ?_
      rw [hsurrogate]
      rfl

theorem decodeFrom_modified (text out : List Char) :
    decodeFrom out (ModifiedUtf8.encode text) = some (out.reverse ++ text) ∨
      decodeFrom out (ModifiedUtf8.encode text) = none := by
  induction text generalizing out with
  | nil =>
    left
    rw [List.append_nil]
    rfl
  | cons c text ih =>
    rw [ModifiedUtf8.encode, List.flatMap_cons, ← ModifiedUtf8.encode]
    rcases decodeFrom_encodeChar c out (ModifiedUtf8.encode text) with hread | hnone
    · rw [hread]
      have htext := ih (c :: out)
      rwa [List.reverse_cons, List.append_assoc, List.singleton_append] at htext
    · exact Or.inr hnone

end Utf8

/-- **A text is read back from its modified encoding**, although standard UTF-8 is tried first. -/
theorem decode_modified (text : String) : decode (ModifiedUtf8.encode text.toList) = some text := by
  have hmodified : ModifiedUtf8.decode (ModifiedUtf8.encode text.toList) = some text.toList :=
    ModifiedUtf8.decodeFrom_encode text.toList []
  unfold decode
  rcases Utf8.decodeFrom_modified text.toList [] with hread | hnone
  · rw [Utf8.decode, hread]
    simp
  · rw [Utf8.decode, hnone, hmodified]
    simp

end JvmTrace.Text
