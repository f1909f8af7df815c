import JvmTrace.Proofs.Text.ModifiedUtf8

/-!
# The two spellings of a text, and no third

`decode` reads a text from its standard and from its modified encoding, and from nothing else
(`decode_eq_some_iff`). That it reads both is the easy half: each decoder undoes its own encoder, and
on the other's bytes the standard one agrees or gives up. That there is no third spelling is the half
that a reader of untrusted bytes relies on, and it needs the codes to be inverted: the bytes of a
sequence can be computed back from its code, because only shortest forms have one.

For a text without NUL and without characters above `U+FFFF` the two spellings are one
(`encode_of_isPlain`), and then the bytes of a text are determined by the text.
-/

set_option autoImplicit false

namespace JvmTrace.Text

/-! ## From a code back to its bytes -/

theorem toNat_ofNat {n : Nat} (h : n < 0xD800 ∨ 0xDFFF < n ∧ n < 0x110000) :
    (Char.ofNat n).toNat = n := by
  have hvalid : n.isValidChar := h
  unfold Char.ofNat
  rw [dif_pos hvalid]
  rfl

theorem isTail_iff {b : UInt8} : isTail b = true ↔ 0x80 ≤ b.toNat ∧ b.toNat < 0xC0 := by
  simp [isTail]

theorem eq_ofNat {b : UInt8} {n : Nat} (h : n = b.toNat) : UInt8.ofNat n = b := by
  rw [h, UInt8.ofNat_toNat]

theorem utf8EncodeChar_ascii {a : UInt8} (h : a.toNat < 0x80) :
    String.utf8EncodeChar (Char.ofNat a.toNat) = [a] := by
  have hval : (Char.ofNat a.toNat).val.toNat = a.toNat := toNat_ofNat (by omega)
  unfold String.utf8EncodeChar
  simp only [hval]
  rw [if_pos (by omega), UInt8.ofNat_toNat]

/-- The code of two bytes, and the bytes as digits of it. -/
theorem pairCode_eq_some {a b : UInt8} {n : Nat} (h : pairCode a b = some n) :
    0x80 ≤ n ∧ n < 0x800 ∧ a = UInt8.ofNat (n / 0x40 % 0x20 + 0xC0) ∧
      b = UInt8.ofNat (n % 0x40 + 0x80) := by
  unfold pairCode at h
  split at h
  · next hab =>
    obtain ⟨hlow, hhigh, hb⟩ := hab
    rw [isTail_iff] at hb
    have hsum := Option.some.inj h
    refine ⟨by omega, by omega, ?_, ?_⟩ <;> exact (eq_ofNat (by omega)).symm
  · cases h

theorem utf8EncodeChar_pair {a b : UInt8} {n : Nat} (h : pairCode a b = some n) :
    String.utf8EncodeChar (Char.ofNat n) = [a, b] := by
  obtain ⟨hlow, hhigh, ha, hb⟩ := pairCode_eq_some h
  have hval : (Char.ofNat n).val.toNat = n := toNat_ofNat (by omega)
  unfold String.utf8EncodeChar
  simp only [hval]
  rw [if_neg (by omega), if_pos (by omega), ha, hb]

theorem tripleCode_eq_some {a b c : UInt8} {n : Nat} (h : tripleCode a b c = some n) :
    0x800 ≤ n ∧ n < 0x10000 ∧ a = UInt8.ofNat (n / 0x1000 % 0x10 + 0xE0) ∧
      b = UInt8.ofNat (n / 0x40 % 0x40 + 0x80) ∧ c = UInt8.ofNat (n % 0x40 + 0x80) := by
  unfold tripleCode at h
  split at h
  · next habc =>
    obtain ⟨hlow, hhigh, hb, hc⟩ := habc
    rw [isTail_iff] at hb hc
    dsimp only at h
    split at h
    · have hsum := Option.some.inj h
      refine ⟨by omega, by omega, ?_, ?_, ?_⟩ <;> exact (eq_ofNat (by omega)).symm
    · cases h
  · cases h

theorem utf8EncodeChar_triple {a b c : UInt8} {n : Nat} (h : tripleCode a b c = some n)
    (hn : isSurrogate n = false) : String.utf8EncodeChar (Char.ofNat n) = [a, b, c] := by
  obtain ⟨hlow, hhigh, ha, hb, hc⟩ := tripleCode_eq_some h
  simp only [isSurrogate, Bool.and_eq_false_iff, decide_eq_false_iff_not] at hn
  have hval : (Char.ofNat n).val.toNat = n := toNat_ofNat (by omega)
  unfold String.utf8EncodeChar
  simp only [hval]
  rw [if_neg (by omega), if_neg (by omega), if_pos (by omega), ha, hb, hc]

theorem encodeTriple_triple {a b c : UInt8} {n : Nat} (h : tripleCode a b c = some n) :
    ModifiedUtf8.encodeTriple n = [a, b, c] := by
  obtain ⟨-, hhigh, ha, hb, hc⟩ := tripleCode_eq_some h
  rw [encodeTriple_eq hhigh, ha, hb, hc]

theorem quadCode_eq_some {a b c d : UInt8} {n : Nat} (h : quadCode a b c d = some n) :
    0x10000 ≤ n ∧ n < 0x110000 ∧ a = UInt8.ofNat (n / 0x40000 % 0x8 + 0xF0) ∧
      b = UInt8.ofNat (n / 0x1000 % 0x40 + 0x80) ∧ c = UInt8.ofNat (n / 0x40 % 0x40 + 0x80) ∧
      d = UInt8.ofNat (n % 0x40 + 0x80) := by
  unfold quadCode at h
  split at h
  · next habcd =>
    obtain ⟨hlow, hhigh, hb, hc, hd⟩ := habcd
    rw [isTail_iff] at hb hc hd
    dsimp only at h
    split at h
    · have hsum := Option.some.inj h
      refine ⟨by omega, by omega, ?_, ?_, ?_, ?_⟩ <;> exact (eq_ofNat (by omega)).symm
    · cases h
  · cases h

theorem utf8EncodeChar_quad {a b c d : UInt8} {n : Nat} (h : quadCode a b c d = some n) :
    String.utf8EncodeChar (Char.ofNat n) = [a, b, c, d] := by
  obtain ⟨hlow, hhigh, ha, hb, hc, hd⟩ := quadCode_eq_some h
  have hval : (Char.ofNat n).val.toNat = n := toNat_ofNat (by omega)
  unfold String.utf8EncodeChar
  simp only [hval]
  rw [if_neg (by omega), if_neg (by omega), if_neg (by omega), ha, hb, hc, hd]

theorem not_isSurrogate {n : Nat} (hhigh : ¬ isHighSurrogate n = true)
    (hlow : ¬ isLowSurrogate n = true) : isSurrogate n = false := by
  simp only [isHighSurrogate, isLowSurrogate, isSurrogate, Bool.and_eq_true, decide_eq_true_eq,
    Bool.and_eq_false_iff, decide_eq_false_iff_not] at *
  omega

/-- Joined surrogates are written as the two sequences that they were joined from. -/
theorem encodeChar_surrogates {a b c a' b' c' : UInt8} {high low : Nat}
    (h : tripleCode a b c = some high) (h' : tripleCode a' b' c' = some low)
    (hhigh : isHighSurrogate high = true) (hlow : isLowSurrogate low = true) :
    ModifiedUtf8.encodeChar (Char.ofNat (joinSurrogates high low)) = [a, b, c, a', b', c'] := by
  simp only [isHighSurrogate, isLowSurrogate, Bool.and_eq_true, decide_eq_true_eq] at hhigh hlow
  have hval : (Char.ofNat (joinSurrogates high low)).toNat = joinSurrogates high low :=
    toNat_ofNat (by unfold joinSurrogates; omega)
  have hfirst : 0xD800 + (joinSurrogates high low - 0x10000) / 0x400 = high := by
    unfold joinSurrogates
    omega
  have hsecond : 0xDC00 + (joinSurrogates high low - 0x10000) % 0x400 = low := by
    unfold joinSurrogates
    omega
  have habove : 0x10000 ≤ joinSurrogates high low := by
    unfold joinSurrogates
    omega
  unfold ModifiedUtf8.encodeChar
  rw [hval, if_neg (by omega), if_neg (by omega)]
  dsimp only
  rw [hfirst, hsecond, encodeTriple_triple h, encodeTriple_triple h']
  rfl

theorem encodeChar_plain {c : Char} (hpos : c.toNat ≠ 0) (hlt : c.toNat < 0x10000) :
    ModifiedUtf8.encodeChar c = String.utf8EncodeChar c := by
  rw [ModifiedUtf8.encodeChar, if_neg hpos, if_pos hlt]

/-! ## What a decoder accepts is spelled by what it gives

Each decoder keeps the characters that it has read, so its statement is about any of them: what comes
out is what was there and a text, and the bytes ahead were the spelling of that text. -/

/-- The bytes of one more character in front. -/
theorem exists_text_cons {spell : Char → Bytes} {c : Char} {out cs : List Char} {piece rest : Bytes}
    (hpiece : spell c = piece)
    (h : ∃ text, cs = (c :: out).reverse ++ text ∧ rest = text.flatMap spell) :
    ∃ text, cs = out.reverse ++ text ∧ piece ++ rest = text.flatMap spell := by
  obtain ⟨text, rfl, rfl⟩ := h
  refine ⟨c :: text, ?_, ?_⟩
  · rw [List.reverse_cons, List.append_assoc, List.singleton_append]
  · rw [List.flatMap_cons, hpiece]

theorem Utf8.eq_encode_of_decodeFrom {out cs : List Char} {bytes : Bytes}
    (h : Utf8.decodeFrom out bytes = some cs) :
    ∃ text, cs = out.reverse ++ text ∧ bytes = Utf8.encode text := by
  fun_induction Utf8.decodeFrom out bytes with
  | case1 out =>
    cases h
    exact ⟨[], (List.append_nil _).symm, rfl⟩
  | case2 out a rest hascii ih => exact exists_text_cons (utf8EncodeChar_ascii hascii) (ih h)
  | case4 out a _ b rest n hcode ih => exact exists_text_cons (utf8EncodeChar_pair hcode) (ih h)
  | case7 out a _ b _ c rest n hcode hn ih =>
    exact exists_text_cons (utf8EncodeChar_triple hcode (by simpa using hn)) (ih h)
  | case9 out a _ b _ c _ d rest n hcode ih =>
    exact exists_text_cons (utf8EncodeChar_quad hcode) (ih h)
  | _ => cases h

theorem ModifiedUtf8.eq_encode_of_decodeFrom {out cs : List Char} {bytes : Bytes}
    (h : ModifiedUtf8.decodeFrom out bytes = some cs) :
    ∃ text, cs = out.reverse ++ text ∧ bytes = ModifiedUtf8.encode text := by
  fun_induction ModifiedUtf8.decodeFrom out bytes with
  | case1 out =>
    cases h
    exact ⟨[], (List.append_nil _).symm, rfl⟩
  | case3 out a rest hpos hascii ih =>
    have hval : (Char.ofNat a.toNat).toNat = a.toNat := toNat_ofNat (by omega)
    have hbytes : ModifiedUtf8.encodeChar (Char.ofNat a.toNat) = [a] := by
      rw [encodeChar_plain (by omega) (by omega), utf8EncodeChar_ascii hascii]
    exact exists_text_cons hbytes (ih h)
  | case5 out a _ _ b rest hnul ih =>
    have hbytes : ModifiedUtf8.encodeChar (Char.ofNat 0) = [a, b] := by
      rw [UInt8.toNat.inj (show a.toNat = (0xC0 : UInt8).toNat from hnul.1),
        UInt8.toNat.inj (show b.toNat = (0x80 : UInt8).toNat from hnul.2)]
      rfl
    exact exists_text_cons hbytes (ih h)
  | case6 out a _ _ b rest _ n hcode ih =>
    obtain ⟨hlow, hhigh, -, -⟩ := pairCode_eq_some hcode
    have hval : (Char.ofNat n).toNat = n := toNat_ofNat (by omega)
    have hbytes : ModifiedUtf8.encodeChar (Char.ofNat n) = [a, b] := by
      rw [encodeChar_plain (by omega) (by omega), utf8EncodeChar_pair hcode]
    exact exists_text_cons hbytes (ih h)
  | case10 out a _ _ b _ _ c high hcode hhigh a' b' c' rest low hcode' hlow ih =>
    exact exists_text_cons (encodeChar_surrogates hcode hcode' hhigh hlow) (ih h)
  | case14 out a _ _ b _ _ c rest n hcode hhigh hlow ih =>
    have hn := not_isSurrogate hhigh hlow
    obtain ⟨hfirst, hlast, -, -, -⟩ := tripleCode_eq_some hcode
    have hval : (Char.ofNat n).toNat = n := by
      simp only [isSurrogate, Bool.and_eq_false_iff, decide_eq_false_iff_not] at hn
      exact toNat_ofNat (by omega)
    have hbytes : ModifiedUtf8.encodeChar (Char.ofNat n) = [a, b, c] := by
      rw [encodeChar_plain (by omega) (by omega), utf8EncodeChar_triple hcode hn]
    exact exists_text_cons hbytes (ih h)
  | _ => cases h

/-! ## The standard decoder undoes the standard encoder -/

theorem quadCode_ofNat {n : Nat} (hlow : 0x10000 ≤ n) (hhigh : n < 0x110000) :
    quadCode (UInt8.ofNat (n / 0x40000 % 0x8 + 0xF0)) (UInt8.ofNat (n / 0x1000 % 0x40 + 0x80))
      (UInt8.ofNat (n / 0x40 % 0x40 + 0x80)) (UInt8.ofNat (n % 0x40 + 0x80)) = some n := by
  have hsum : ((n / 0x40000 % 0x8 + 0xF0) % 0x100 - 0xF0) * 0x40000 +
      ((n / 0x1000 % 0x40 + 0x80) % 0x100 - 0x80) * 0x1000 +
      ((n / 0x40 % 0x40 + 0x80) % 0x100 - 0x80) * 0x40 + ((n % 0x40 + 0x80) % 0x100 - 0x80) = n := by
    omega
  unfold quadCode
  simp only [isTail_ofNat, UInt8.toNat_ofNat', and_true, Nat.reducePow]
  rw [if_pos (by omega), hsum, if_pos ⟨hlow, hhigh⟩]

theorem exists_quad {c : Char} (h : 0x10000 ≤ c.toNat) :
    ∃ a b d e, String.utf8EncodeChar c = [a, b, d, e] ∧ quadCode a b d e = some c.toNat := by
  have hval : c.val.toNat = c.toNat := rfl
  have hlt : c.toNat < 0x110000 := by
    have hvalid := toNat_valid c
    omega
  refine ⟨_, _, _, _, ?_, quadCode_ofNat h hlt⟩
  unfold String.utf8EncodeChar
  simp only [hval]
  rw [if_neg (by omega), if_neg (by omega), if_neg (by omega)]

namespace Utf8

theorem decodeFrom_quad {out : List Char} {a b c d : UInt8} {rest : Bytes} {n : Nat}
    (h : quadCode a b c d = some n) :
    decodeFrom out (a :: b :: c :: d :: rest) = decodeFrom (Char.ofNat n :: out) rest := by
  have hlead : 0xF0 ≤ a.toNat := by
    unfold quadCode at h
    split at h
    · next habcd => exact habcd.1
    · cases h
  have hpair : pairCode a b = none := pairCode_eq_none (by omega)
  have htriple : tripleCode a b c = none := by
    unfold tripleCode
    exact if_neg (by omega)
  rw [decodeFrom.eq_def]
  dsimp only
  rw [if_neg (by omega)]
  simp only [hpair, htriple, h]

theorem decodeFrom_utf8EncodeChar (c : Char) (out : List Char) (rest : Bytes) :
    decodeFrom out (String.utf8EncodeChar c ++ rest) = decodeFrom (c :: out) rest := by
  have hself : Char.ofNat c.toNat = c := Char.ofNat_toNat c
  by_cases hplain : c.toNat < 0x10000
  · rcases utf8EncodeChar_cases hplain with
      ⟨a, hbytes, ha, hascii⟩ | ⟨a, b, hbytes, hcode⟩ | ⟨a, b, d, hbytes, hcode⟩
    · rw [hbytes, List.singleton_append, decodeFrom_ascii (by omega), ha, hself]
    · rw [hbytes, List.cons_append, List.singleton_append, decodeFrom_pair hcode, hself]
    · rw [hbytes]
      refine (decodeFrom_triple hcode).trans ?_
      rw [toNat_not_surrogate, hself]
      rfl
  · obtain ⟨a, b, d, e, hbytes, hcode⟩ := exists_quad (Nat.le_of_not_lt hplain)
    rw [hbytes]
    refine (decodeFrom_quad hcode).trans ?_
    rw [hself]
    rfl

theorem decodeFrom_encode (text out : List Char) :
    decodeFrom out (encode text) = some (out.reverse ++ text) := by
  induction text generalizing out with
  | nil =>
    rw [List.append_nil]
    rfl
  | cons c text ih =>
    rw [encode, List.flatMap_cons, decodeFrom_utf8EncodeChar, ← encode, ih, List.reverse_cons,
      List.append_assoc, List.singleton_append]

theorem length_encode (text : String) : (encode text.toList).length = text.utf8ByteSize := by
  rw [← String.size_toByteArray, ← String.utf8Encode_toList, List.utf8Encode, List.size_toByteArray]
  rfl

end Utf8

/-! ## Both together -/

theorem decode_standard (text : String) : decode (Utf8.encode text.toList) = some text := by
  have hread : Utf8.decode (Utf8.encode text.toList) = some text.toList :=
    Utf8.decodeFrom_encode text.toList []
  unfold decode
  rw [hread]
  simp

/-- **A text has two spellings and no third.** -/
theorem decode_eq_some_iff {bytes : Bytes} {text : String} :
    decode bytes = some text ↔
      bytes = Utf8.encode text.toList ∨ bytes = ModifiedUtf8.encode text.toList := by
  constructor
  · intro h
    unfold decode at h
    split at h
    · next chars hchars =>
      obtain ⟨_, rfl, rfl⟩ := Utf8.eq_encode_of_decodeFrom hchars
      cases h
      exact Or.inl (by simp)
    · obtain ⟨chars, hchars, rfl⟩ := Option.map_eq_some_iff.mp h
      obtain ⟨_, rfl, rfl⟩ := ModifiedUtf8.eq_encode_of_decodeFrom hchars
      exact Or.inr (by simp)
  · intro h
    rcases h with rfl | rfl
    · exact decode_standard text
    · exact decode_modified text

/-- A text that both encodings spell in the same way. -/
def IsPlain (text : String) : Prop := ∀ c ∈ text.toList, c.toNat ≠ 0 ∧ c.toNat < 0x10000

instance (text : String) : Decidable (IsPlain text) := List.decidableBAll _ _

theorem encode_of_isPlain {text : String} (h : IsPlain text) :
    ModifiedUtf8.encode text.toList = Utf8.encode text.toList := by
  unfold ModifiedUtf8.encode Utf8.encode
  rw [List.flatMap_def, List.flatMap_def,
    List.map_congr_left fun c hc => encodeChar_plain (h c hc).1 (h c hc).2]

end JvmTrace.Text
