import JvmTrace.Constant.Format
import JvmTrace.Proofs.Bytes.Delimited

/-!
# What a constant is read from

`Constant.encode` leaves the spelling of texts open, and so does this file: a constant is read from
its encoding under **any** spelling that decodes to its text and fits the length field
(`reads_constant`). Both UTF-8 and modified UTF-8 are such spellings, for texts that are not too
long; which of them a writer uses does not matter from here on.
-/

set_option autoImplicit false

namespace JvmTrace.Constant

open Reader

variable {p : Nat} {bytes : Bytes} {c : Constant}

/-- Whether `spell` gives a text that is read back. Constants without a text do not ask for one. -/
def SpelledBy (spell : List Char → Bytes) : Constant → Prop
  | utf8 text =>
    (spell text.toList).length < UInt16.size ∧ Text.decode (spell text.toList) = some text
  | _ => True

/-- Whether `bytes` are a written form of a constant. -/
def WrittenAs (c : Constant) (bytes : Bytes) : Prop :=
  ∃ spell, c.SpelledBy spell ∧ bytes = c.encode spell

/-! ## A cut inside a constant -/

/-- What `readText` does once the length is known. -/
def readBody (length : UInt16) (position : Nat) : Reader Constant := do
  let bytes ← take length.toNat
  match Text.decode bytes with
  | some text => return utf8 text
  | none => throw (.invalidText position)

theorem delimited_readBody (length : UInt16) (position : Nat) :
    Delimited (readBody length position) := by
  refine delimited_bind (delimited_take _) fun bytes => ?_
  split
  · exact delimited_pure _
  · exact delimited_throw _

theorem readText_eq : readText = u16 >>= fun length => get >>= fun c :
    Cursor => readBody length c.position := rfl

theorem delimited_readText : Delimited readText := by
  rw [readText_eq]
  exact delimited_bind delimited_u16 fun length => delimited_position (delimited_readBody length)

theorem delimited_readPair (make : UInt16 → UInt16 → Constant) : Delimited (readPair make) :=
  delimited_bind delimited_u16 fun _ => delimited_map _ delimited_u16

theorem delimited_read : Delimited Constant.read := by
  refine delimited_bind delimited_u8 fun tag => ?_
  split
  · exact delimited_readText
  · exact delimited_map _ delimited_i32
  · exact delimited_map _ delimited_u32
  · exact delimited_map _ delimited_i64
  · exact delimited_map _ delimited_u64
  · exact delimited_map _ delimited_u16
  · exact delimited_map _ delimited_u16
  · exact delimited_readPair _
  · exact delimited_readPair _
  · exact delimited_readPair _
  · exact delimited_readPair _
  · exact delimited_bind delimited_u8 fun _ => delimited_map _ delimited_u16
  · exact delimited_map _ delimited_u16
  · exact delimited_readPair _
  · exact delimited_readPair _
  · exact delimited_map _ delimited_u16
  · exact delimited_map _ delimited_u16
  · exact delimited_throw _

/-! ## The grammar of a constant -/

theorem reads_readBody {length : UInt16} {position : Nat} :
    Reads (readBody length position) p bytes c ↔
      bytes.length = length.toNat ∧ ∃ text, Text.decode bytes = some text ∧ c = utf8 text := by
  unfold readBody
  rw [reads_bind (local_take _)]
  constructor
  · intro h
    obtain ⟨xs, _, hxs, ys, rfl, hys⟩ := h
    obtain ⟨rfl, hlen⟩ := reads_take.mp hxs
    split at hys
    · next text htext =>
      obtain ⟨rfl, rfl⟩ := reads_pure.mp hys
      rw [List.append_nil]
      exact ⟨hlen, text, htext, rfl⟩
    · exact absurd hys reads_throw
  · intro h
    obtain ⟨hlen, text, htext, rfl⟩ := h
    refine ⟨bytes, bytes, reads_take.mpr ⟨rfl, hlen⟩, [], (List.append_nil _).symm, ?_⟩
    rw [htext]
    exact reads_pure.mpr ⟨rfl, rfl⟩

theorem reads_readText :
    Reads readText p bytes c ↔
      ∃ body text, body.length < UInt16.size ∧ Text.decode body = some text ∧ c = utf8 text ∧
        bytes = encodeText body := by
  rw [readText_eq, reads_bind local_u16]
  simp only [reads_u16, reads_position, reads_readBody]
  constructor
  · intro h
    obtain ⟨length, _, rfl, body, rfl, hlen, text, htext, rfl⟩ := h
    refine ⟨body, text, ?_, htext, rfl, ?_⟩
    · rw [hlen]
      exact length.toNat_lt
    · rw [encodeText, hlen]
      rfl
  · intro h
    obtain ⟨body, text, hlen, htext, rfl, rfl⟩ := h
    have hlength : (UInt16.ofNat body.length).toNat = body.length := UInt16.toNat_ofNat_of_lt' hlen
    refine ⟨UInt16.ofNat body.length, _, rfl, body, ?_, hlength.symm, text, htext, rfl⟩
    rw [BigEndian.u16, hlength]
    rfl

theorem reads_readPair {make : UInt16 → UInt16 → Constant} :
    Reads (readPair make) p bytes c ↔
      ∃ first second,
        c = make first second ∧ bytes = BigEndian.u16 first ++ BigEndian.u16 second := by
  unfold readPair
  rw [reads_bind local_u16]
  simp only [reads_u16, reads_map local_u16]
  constructor
  · intro h
    obtain ⟨first, _, rfl, _, rfl, second, rfl, rfl⟩ := h
    exact ⟨first, second, rfl, rfl⟩
  · intro h
    obtain ⟨first, second, rfl, rfl⟩ := h
    exact ⟨first, _, rfl, _, rfl, second, rfl, rfl⟩

theorem reads_readHandle :
    Reads (u8 >>= fun kind => u16 >>= fun reference => pure (methodHandle kind reference)) p bytes
      c ↔
      ∃ kind reference, c = methodHandle kind reference ∧
        bytes = BigEndian.u8 kind ++ BigEndian.u16 reference := by
  rw [reads_bind local_u8]
  simp only [reads_u8, reads_u16, reads_map local_u16, BigEndian.u8_eq]
  constructor
  · intro h
    obtain ⟨kind, _, rfl, _, rfl, reference, rfl, rfl⟩ := h
    exact ⟨kind, reference, rfl, rfl⟩
  · intro h
    obtain ⟨kind, reference, rfl, rfl⟩ := h
    exact ⟨kind, _, rfl, _, rfl, reference, rfl, rfl⟩

/-- A tag and a payload that has nothing to spell. -/
theorem writtenAs_of_payload {tag : UInt8} {payload : Bytes} (hspelled : ∀ spell, c.SpelledBy spell)
    (htag : tag.toNat = c.tag.toNat) (hpayload : payload = c.payload fun _ => []) :
    c.WrittenAs ([tag] ++ payload) :=
  ⟨fun _ => [], hspelled _, by rw [encode, UInt8.toNat.inj htag, hpayload]; rfl⟩

/-- **A constant is read exactly from its encoding, in any spelling that is read back.** -/
theorem reads_constant : Reads Constant.read p bytes c ↔ c.WrittenAs bytes := by
  unfold Constant.read
  rw [reads_bind local_u8]
  simp only [reads_u8, exists_eq_left]
  -- From left to right the tag decides the case, and from right to left the constant does.
  constructor
  · intro h
    obtain ⟨tag, payload, rfl, h⟩ := h
    split at h
    · next htag =>
      obtain ⟨body, text, hlen, htext, rfl, rfl⟩ := reads_readText.mp h
      refine ⟨fun _ => body, ⟨hlen, htext⟩, ?_⟩
      rw [encode, UInt8.toNat.inj (show tag.toNat = (1 : UInt8).toNat from htag)]
      rfl
    · next htag =>
      obtain ⟨n, hn, rfl⟩ := (reads_map local_i32).mp h
      exact writtenAs_of_payload (fun _ => trivial) htag (reads_i32.mp hn)
    · next htag =>
      obtain ⟨n, hn, rfl⟩ := (reads_map local_u32).mp h
      exact writtenAs_of_payload (fun _ => trivial) htag (reads_u32.mp hn)
    · next htag =>
      obtain ⟨n, hn, rfl⟩ := (reads_map local_i64).mp h
      exact writtenAs_of_payload (fun _ => trivial) htag (reads_i64.mp hn)
    · next htag =>
      obtain ⟨n, hn, rfl⟩ := (reads_map local_u64).mp h
      exact writtenAs_of_payload (fun _ => trivial) htag (reads_u64.mp hn)
    · next htag =>
      obtain ⟨n, hn, rfl⟩ := (reads_map local_u16).mp h
      exact writtenAs_of_payload (fun _ => trivial) htag (reads_u16.mp hn)
    · next htag =>
      obtain ⟨n, hn, rfl⟩ := (reads_map local_u16).mp h
      exact writtenAs_of_payload (fun _ => trivial) htag (reads_u16.mp hn)
    · next htag =>
      obtain ⟨first, second, rfl, hpair⟩ := reads_readPair.mp h
      exact writtenAs_of_payload (fun _ => trivial) htag hpair
    · next htag =>
      obtain ⟨first, second, rfl, hpair⟩ := reads_readPair.mp h
      exact writtenAs_of_payload (fun _ => trivial) htag hpair
    · next htag =>
      obtain ⟨first, second, rfl, hpair⟩ := reads_readPair.mp h
      exact writtenAs_of_payload (fun _ => trivial) htag hpair
    · next htag =>
      obtain ⟨first, second, rfl, hpair⟩ := reads_readPair.mp h
      exact writtenAs_of_payload (fun _ => trivial) htag hpair
    · next htag =>
      obtain ⟨kind, reference, rfl, hhandle⟩ := reads_readHandle.mp h
      exact writtenAs_of_payload (fun _ => trivial) htag hhandle
    · next htag =>
      obtain ⟨n, hn, rfl⟩ := (reads_map local_u16).mp h
      exact writtenAs_of_payload (fun _ => trivial) htag (reads_u16.mp hn)
    · next htag =>
      obtain ⟨first, second, rfl, hpair⟩ := reads_readPair.mp h
      exact writtenAs_of_payload (fun _ => trivial) htag hpair
    · next htag =>
      obtain ⟨first, second, rfl, hpair⟩ := reads_readPair.mp h
      exact writtenAs_of_payload (fun _ => trivial) htag hpair
    · next htag =>
      obtain ⟨n, hn, rfl⟩ := (reads_map local_u16).mp h
      exact writtenAs_of_payload (fun _ => trivial) htag (reads_u16.mp hn)
    · next htag =>
      obtain ⟨n, hn, rfl⟩ := (reads_map local_u16).mp h
      exact writtenAs_of_payload (fun _ => trivial) htag (reads_u16.mp hn)
    · exact absurd h reads_throw
  · intro h
    obtain ⟨spell, hspelled, rfl⟩ := h
    refine ⟨c.tag, c.payload spell, rfl, ?_⟩
    cases c with
    | utf8 text => exact reads_readText.mpr ⟨_, text, hspelled.1, hspelled.2, rfl, rfl⟩
    | integer value => exact (reads_map local_i32).mpr ⟨value, reads_i32.mpr rfl, rfl⟩
    | float bits => exact (reads_map local_u32).mpr ⟨bits, reads_u32.mpr rfl, rfl⟩
    | long value => exact (reads_map local_i64).mpr ⟨value, reads_i64.mpr rfl, rfl⟩
    | double bits => exact (reads_map local_u64).mpr ⟨bits, reads_u64.mpr rfl, rfl⟩
    | classRef name => exact (reads_map local_u16).mpr ⟨name, reads_u16.mpr rfl, rfl⟩
    | string text => exact (reads_map local_u16).mpr ⟨text, reads_u16.mpr rfl, rfl⟩
    | member kind owner signature =>
      cases kind <;> exact reads_readPair.mpr ⟨owner, signature, rfl, rfl⟩
    | nameAndType name descriptor => exact reads_readPair.mpr ⟨name, descriptor, rfl, rfl⟩
    | methodHandle kind reference => exact reads_readHandle.mpr ⟨kind, reference, rfl, rfl⟩
    | methodType descriptor => exact (reads_map local_u16).mpr ⟨descriptor, reads_u16.mpr rfl, rfl⟩
    | dynamic bootstrap signature => exact reads_readPair.mpr ⟨bootstrap, signature, rfl, rfl⟩
    | invokeDynamic bootstrap signature => exact reads_readPair.mpr ⟨bootstrap, signature, rfl, rfl⟩
    | moduleRef name => exact (reads_map local_u16).mpr ⟨name, reads_u16.mpr rfl, rfl⟩
    | packageRef name => exact (reads_map local_u16).mpr ⟨name, reads_u16.mpr rfl, rfl⟩

end JvmTrace.Constant
