import JvmTrace.ClassFile.View
import JvmTrace.Proofs.ClassFile.CodeBody
import JvmTrace.Proofs.Instruction.Stream
import JvmTrace.Proofs.Pool.Resolve

/-!
# What the view of a class is made of

A view is resolved step by step and can fail at each step. This file says what a successful one came
from: a list, from its items one by one (`mapM_eq_ok_iff`); an attribute that was looked for, from one
of those that were looked through; the code of a method, from the body of one of its attributes. The
other way round, code that is written with nothing to step over is read back.

The length of a code array is a 32-bit number. So the code of a method is never too long for its
offsets, and the instructions of a method always stand at increasing offsets (`pairwise_offset`),
which for an arbitrary array of bytes has to be assumed.
-/

set_option autoImplicit false

namespace JvmTrace

open Reader

/-! ## Lists -/

/-- A list is resolved when each of its items is. -/
theorem Except.mapM_eq_ok_iff {ε α β : Type} {f : α → Except ε β} {xs : List α} {ys : List β} :
    xs.mapM f = .ok ys ↔ List.Forall₂ (fun x y => f x = .ok y) xs ys := by
  induction xs generalizing ys with
  | nil =>
    rw [List.mapM_nil, List.forall₂_nil_left_iff]
    exact ⟨fun h => (Except.ok.inj h).symm, fun h => by rw [h]; rfl⟩
  | cons x xs ih =>
    rw [List.mapM_cons, Except.bind_eq_ok, List.forall₂_cons_left_iff]
    simp only [Except.bind_eq_ok, ih]
    constructor
    · intro h
      obtain ⟨y, hy, rest, hrest, hys⟩ := h
      cases hys
      exact ⟨y, rest, hy, hrest, rfl⟩
    · intro h
      obtain ⟨y, rest, hy, hrest, rfl⟩ := h
      exact ⟨y, hy, rest, hrest, rfl⟩

/-! ## The code of a method -/

theorem Code.length_code_lt {body : Bytes} {code : Code} (h : Code.parse body = .ok code) :
    code.code.length < UInt32.size := by
  obtain ⟨used, _, -, hused⟩ := Code.delimited_read.isLocal.exists_of_run h
  obtain ⟨b, -, rfl⟩ := Code.reads_read.mp hused
  exact b.code_fits

/-- Code is read back from the contents that hold it and nothing to step over. -/
theorem Code.parse_encodePlain {code : Bytes} (h : code.length < UInt32.size)
    (maxStack maxLocals : UInt16) :
    Code.parse (encodePlain maxStack maxLocals code) = .ok ⟨maxStack, maxLocals, code, 0⟩ := by
  let b : CodeBody := ⟨maxStack, maxLocals, code, [], [], h, by decide, by decide⟩
  have hbytes : encodePlain maxStack maxLocals code = b.encode ++ [] := by
    simp [encodePlain, CodeBody.encode, b, encodeCounted, BigEndian.u16]
  rw [hbytes]
  exact Reads.run_append (Code.reads_read.mpr ⟨b, rfl, rfl⟩) []

/-- An attribute that was found is one of those that were looked through. -/
theorem exists_of_findAttribute {pool : Pool} {name : String} {attributes : List RawAttribute}
    {found : Attribute} (h : findAttribute pool name attributes = .ok (some found)) :
    ∃ a ∈ attributes, a.resolve pool = .ok found := by
  induction attributes with
  | nil => cases h
  | cons a rest ih =>
    rw [findAttribute] at h
    obtain ⟨first, hfirst, h⟩ := Except.bind_eq_ok.mp h
    split at h
    · cases h
      exact ⟨a, List.mem_cons_self, hfirst⟩
    · obtain ⟨b, hb, hfound⟩ := ih h
      exact ⟨b, List.mem_cons_of_mem _ hb, hfound⟩

theorem RawAttribute.parse_of_resolve {pool : Pool} {a : RawAttribute} {name : String} {code : Code}
    (h : a.resolve pool = .ok ⟨name, .code code⟩) : Code.parse a.body = .ok code := by
  unfold RawAttribute.resolve at h
  obtain ⟨text, -, h⟩ := Except.bind_eq_ok.mp h
  split at h
  · obtain ⟨parsed, hparsed, h⟩ := Except.bind_eq_ok.mp h
    cases h
    exact hparsed
  · cases h

theorem Method.length_code_lt {pool : Pool} {m : Method} {code : Code}
    (h : m.code pool = .ok (some code)) : code.code.length < UInt32.size := by
  unfold Method.code at h
  obtain ⟨found, hfound, h⟩ := Except.bind_eq_ok.mp h
  split at h
  · cases h
    obtain ⟨a, -, ha⟩ := exists_of_findAttribute hfound
    exact Code.length_code_lt (RawAttribute.parse_of_resolve ha)
  · cases h

/-! ## Increasing offsets -/

/-- **The instructions of a method stand at increasing offsets.** -/
theorem Method.pairwise_offset {pool : Pool} {m : Method} {is : List Instruction}
    (h : m.instructions pool = .ok is) : is.Pairwise fun i j => i.offset < j.offset := by
  unfold Method.instructions at h
  obtain ⟨body, hbody, h⟩ := Except.bind_eq_ok.mp h
  cases body with
  | some code => exact pairwise_offset_of_decode (Method.length_code_lt hbody) h
  | none =>
    cases h
    exact .nil

end JvmTrace
