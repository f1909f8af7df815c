import JvmTrace.ClassFile.Attribute
import JvmTrace.Proofs.ClassFile.Format

/-!
# The body of a method — what is kept of it, and what has to be there all the same

A `CodeBody` is everything that the contents of a `Code` attribute hold, with the exception handlers
and the attributes of the code written out. `Code.read` keeps little of it (`kept`) and steps over
the rest. Nothing that is stepped over is looked at, yet its lengths decide where the next thing is
found. That they are added up right is what the equation of this file says: **code is read exactly
from the encoding of a body of which it is kept** (`Code.reads_read`).

The two regions that are skipped are brought back to readings. An attribute that is stepped over is
one that is read and forgotten (`skipAttribute_eq`), and handlers are any run of bytes whose length is
a multiple of eight (`length_eq_iff_handlers`).
-/

set_option autoImplicit false

namespace JvmTrace

open Reader

abbrev Handler := Vector UInt8 Code.handlerSize

/-- The body of a method, as it is written. What the handlers and the attributes of the code say does
not matter; their numbers and lengths fit their fields. -/
structure CodeBody where
  maxStack : UInt16
  maxLocals : UInt16
  code : Bytes
  handlers : List Handler
  attributes : List RawAttribute
  code_fits : code.length < UInt32.size := by decide
  handlers_fit : handlers.length < UInt16.size := by decide
  attributes_fit : attributes.length < UInt16.size ∧ ∀ a ∈ attributes, a.Fits := by decide

namespace CodeBody

def encode (b : CodeBody) : Bytes :=
  BigEndian.u16 b.maxStack ++ BigEndian.u16 b.maxLocals ++
    BigEndian.ofNat 4 b.code.length ++ b.code ++
    encodeCounted Vector.toList b.handlers ++ encodeCounted RawAttribute.encode b.attributes

/-- What is kept of a body: of the handlers their number, of the attributes nothing. -/
def kept (b : CodeBody) : Code :=
  ⟨b.maxStack, b.maxLocals, b.code, UInt16.ofNat b.handlers.length⟩

end CodeBody

/-! ## What is stepped over -/

theorem Reader.timesFrom_forget {α β : Type} (item : Reader α) (k : Reader β) (n : Nat)
    (read : List α) (forgotten : List Unit) :
    (timesFrom (item >>= fun _ => pure ()) n forgotten >>= fun _ => k) =
      timesFrom item n read >>= fun _ => k := by
  induction n generalizing read forgotten with
  | zero => simp [timesFrom]
  | succ n ih =>
    simp only [timesFrom, bind_assoc, pure_bind]
    apply bind_congr
    intro a
    exact ih (a :: read) (() :: forgotten)

namespace Code

variable {p : Nat} {bytes : Bytes}

theorem skipAttribute_eq : skipAttribute = RawAttribute.read >>= fun _ => pure () := by
  simp [skipAttribute, RawAttribute.read, skip, u16, word]

/-- The body of a method, read with the attributes of the code and without looking at them. -/
theorem read_eq : Code.read = do
    let maxStack ← u16
    let maxLocals ← u16
    let length ← u32
    let code ← take length.toNat
    let handlers ← u16
    skip (handlers.toNat * handlerSize)
    let _ ← counted RawAttribute.read
    return { maxStack, maxLocals, code, handlers } := by
  unfold Code.read counted times
  rw [skipAttribute_eq]
  simp only [bind_assoc, timesFrom_forget RawAttribute.read _ _ []]

theorem length_eq_iff_handlers {n : Nat} :
    bytes.length = n * handlerSize ↔
      ∃ handlers : List Handler, handlers.length = n ∧ bytes = handlers.flatMap Vector.toList := by
  induction n generalizing bytes with
  | zero =>
    rw [Nat.zero_mul, List.length_eq_zero_iff]
    simp only [List.length_eq_zero_iff, exists_eq_left, List.flatMap_nil]
  | succ n ih =>
    rw [Nat.succ_mul]
    constructor
    · intro h
      have hfirst : (bytes.take handlerSize).length = handlerSize := by
        rw [List.length_take]
        omega
      have hrest : (bytes.drop handlerSize).length = n * handlerSize := by
        rw [List.length_drop]
        omega
      obtain ⟨handlers, hlen, hbytes⟩ := ih.mp hrest
      refine ⟨⟨(bytes.take handlerSize).toArray, by simpa using hfirst⟩ :: handlers,
        by simp [hlen], ?_⟩
      rw [List.flatMap_cons, ← hbytes]
      simp
    · rintro ⟨handlers, hlen, rfl⟩
      cases handlers with
      | nil => cases hlen
      | cons first rest =>
        have hrest := ih.mpr ⟨rest, Nat.succ.inj hlen, rfl⟩
        rw [List.flatMap_cons, List.length_append, hrest, Vector.length_toList, Nat.add_comm]

/-! ## What is read -/

theorem delimited_read : Delimited Code.read := by
  rw [read_eq]
  exact delimited_bind delimited_u16 fun _ => delimited_bind delimited_u16 fun _ =>
    delimited_bind delimited_u32 fun _ => delimited_bind (delimited_take _) fun _ =>
    delimited_bind delimited_u16 fun _ => delimited_bind (delimited_skip _) fun _ =>
    delimited_map _ (delimited_counted RawAttribute.delimited_read)

/-- **Code is read exactly from the encoding of a body of which it is kept.** -/
theorem reads_read {c : Code} :
    Reads Code.read p bytes c ↔ ∃ b : CodeBody, bytes = b.encode ∧ c = b.kept := by
  rw [read_eq]
  simp only [reads_bind local_u16, reads_bind local_u32, reads_bind (local_take _),
    reads_bind (local_skip _), reads_map (delimited_counted RawAttribute.delimited_read).isLocal,
    reads_u16, reads_u32, reads_take, reads_skip, RawAttribute.reads_attributes]
  constructor
  · intro h
    obtain ⟨maxStack, _, rfl, _, rfl, maxLocals, _, rfl, _, rfl, length, _, rfl, _, rfl, h⟩ := h
    obtain ⟨_, code, ⟨rfl, hcode⟩, _, rfl, count, _, rfl, _, rfl, _, table, htable, h⟩ := h
    obtain ⟨_, rfl, attributes, ⟨hattributes, rfl⟩, rfl⟩ := h
    obtain ⟨handlers, hhandlers, rfl⟩ := length_eq_iff_handlers.mp htable
    refine ⟨⟨maxStack, maxLocals, code, handlers, attributes, ?_, ?_, hattributes⟩, ?_, ?_⟩
    · rw [hcode]
      exact length.toNat_lt
    · rw [hhandlers]
      exact count.toNat_lt
    · simp only [CodeBody.encode, encodeCounted, hcode, hhandlers, List.append_assoc]
      rfl
    · simp only [CodeBody.kept, hhandlers, UInt16.ofNat_toNat]
  · intro h
    obtain ⟨b, rfl, rfl⟩ := h
    have hcode : (UInt32.ofNat b.code.length).toNat = b.code.length :=
      UInt32.toNat_ofNat_of_lt' b.code_fits
    have hhandlers : (UInt16.ofNat b.handlers.length).toNat = b.handlers.length :=
      UInt16.toNat_ofNat_of_lt' b.handlers_fit
    refine ⟨b.maxStack, _, rfl, _, ?_, b.maxLocals, _, rfl, _, rfl,
      UInt32.ofNat b.code.length, _, rfl, _, rfl, b.code, _, ⟨rfl, hcode.symm⟩, _, rfl,
      UInt16.ofNat b.handlers.length, _, rfl, _, rfl, (), b.handlers.flatMap Vector.toList, ?_, _,
      rfl, b.attributes, ⟨b.attributes_fit, rfl⟩, rfl⟩
    · simp only [CodeBody.encode, encodeCounted, BigEndian.u32, BigEndian.u16, hcode, hhandlers,
        List.append_assoc]
    · exact length_eq_iff_handlers.mpr ⟨b.handlers, hhandlers.symm, rfl⟩

/-- **The contents of a `Code` attribute are read exactly, and what is stepped over leaves no trace.**
Whatever the handlers and the attributes of the code hold, and whatever stands behind the body, what
is read is what is kept of the body. Every cut in a body is noticed by the read that spans it. And
there are no other contents that can be read. -/
theorem parse_body_exactly :
    (∀ (b : CodeBody) (trailing : Bytes), Code.parse (b.encode ++ trailing) = .ok b.kept) ∧
    (∀ (b : CodeBody), ∀ k < b.encode.length, ∃ position needed,
      Code.parse (b.encode.take k) = .error (.endOfInput position needed) ∧
        position ≤ k ∧ k < position + needed) ∧
    (∀ (info : Bytes) (c : Code), Code.parse info = .ok c →
      ∃ (b : CodeBody) (trailing : Bytes), info = b.encode ++ trailing ∧ c = b.kept) := by
  have hreads : ∀ b : CodeBody, Reads Code.read 0 b.encode b.kept := by
    intro b
    exact reads_read.mpr ⟨b, rfl, rfl⟩
  refine ⟨?_, ?_, ?_⟩
  · intro b trailing
    exact (hreads b).run_append trailing
  · intro b k hk
    exact delimited_read.run_take (hreads b) hk
  · intro info c h
    obtain ⟨used, trailing, hinfo, hused⟩ := delimited_read.isLocal.exists_of_run h
    obtain ⟨b, rfl, hkept⟩ := reads_read.mp hused
    exact ⟨b, trailing, hinfo, hkept⟩

/-- Two instructions, a handler, and an attribute that looks like the end of a body. -/
def sampleBody : CodeBody where
  maxStack := 2
  maxLocals := 1
  code := [0x2A, 0xB0]
  handlers := [#v[0, 0, 0, 2, 0, 2, 0xFF, 0xFF]]
  attributes := [⟨9, [0, 0, 0]⟩]

-- In front of the trailing byte, in the handler, and in the attribute.
theorem parse_body_exactly_sample :
    Code.parse (sampleBody.encode ++ [0x77]) = .ok ⟨2, 1, [0x2A, 0xB0], 1⟩ ∧
    (15 < sampleBody.encode.length ∧ ∃ position needed,
      Code.parse (sampleBody.encode.take 15) = .error (.endOfInput position needed) ∧
        position ≤ 15 ∧ 15 < position + needed) ∧
    ∃ (b : CodeBody) (trailing : Bytes),
      sampleBody.encode ++ [0x77] = b.encode ++ trailing ∧ ⟨2, 1, [0x2A, 0xB0], 1⟩ = b.kept := by
  obtain ⟨hwhole, hcut, hback⟩ := parse_body_exactly
  have hparse : Code.parse (sampleBody.encode ++ [0x77]) = .ok ⟨2, 1, [0x2A, 0xB0], 1⟩ :=
    hwhole sampleBody [0x77]
  have hlength : 15 < sampleBody.encode.length := by decide
  exact ⟨hparse, ⟨hlength, hcut sampleBody 15 hlength⟩, hback _ _ hparse⟩

end Code

end JvmTrace
