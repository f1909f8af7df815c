import JvmTrace.Proofs.Bytes.Reads

/-!
# Delimited readers — a cut is noticed, and noticed where it is

`Local` says what happens when *more* bytes stand behind those that a reader reads: nothing. This
file is about *fewer*. A reader is `Delimited` when every proper prefix of what it reads makes it
fail for want of bytes, with an error that points at the cut:

    endOfInput position needed,    position ≤ cut < position + needed

so no cut is taken for a shorter value, and none is reported as another fault. The bounds say that
the read which failed is the one that spans the cut.

The property is closed under sequencing because a cut falls into one part or the other: into the
first, and the first reader notices; behind it, and the first reader, being local, has not seen the
difference.
-/

set_option autoImplicit false

namespace JvmTrace

namespace Reader

variable {α β : Type}

/-- The outcome of a read that spans position `cut`, where the bytes end. -/
def RunsShort (outcome : EStateM.Result Error Cursor α) (cut : Nat) : Prop :=
  ∃ position needed c, outcome = .error (.endOfInput position needed) c ∧
    position ≤ cut ∧ cut < position + needed

structure Delimited (r : Reader α) : Prop where
  isLocal : Local r
  runsShort : ∀ {p bytes a}, Reads r p bytes a →
    ∀ k < bytes.length, RunsShort (r ⟨p, bytes.take k⟩) (p + k)

theorem RunsShort.bind {r : Reader α} {f : α → Reader β} {c : Cursor} {cut : Nat}
    (h : RunsShort (r c) cut) : RunsShort ((r >>= f) c) cut := by
  obtain ⟨position, needed, c', herr, hbounds⟩ := h
  exact ⟨position, needed, c', by rw [bind_eq, herr], hbounds⟩

theorem delimited_bind {r : Reader α} {f : α → Reader β} (hr : Delimited r)
    (hf : ∀ a, Delimited (f a)) : Delimited (r >>= f) := by
  refine ⟨local_bind hr.isLocal fun a => (hf a).isLocal, ?_⟩
  intro p bytes b h k hk
  obtain ⟨a, xs, hxs, ys, rfl, hys⟩ := (reads_bind hr.isLocal).mp h
  by_cases hcut : k < xs.length
  · -- The cut falls into the first part.
    rw [List.take_append_of_le_length (Nat.le_of_lt hcut)]
    exact (hr.runsShort hxs k hcut).bind
  · -- The first part is whole, and the second starts behind it.
    obtain ⟨j, rfl⟩ := Nat.exists_eq_add_of_le (Nat.le_of_not_lt hcut)
    have hj : j < ys.length := by
      rw [List.length_append] at hk
      omega
    have short := (hf a).runsShort hys j hj
    rw [List.take_length_add_append, bind_eq, hxs (ys.take j), ← Nat.add_assoc]
    exact short

theorem delimited_pure (a : α) : Delimited (pure a : Reader α) := by
  refine ⟨local_pure a, ?_⟩
  intro p bytes b h k hk
  obtain ⟨rfl, -⟩ := reads_pure.mp h
  exact absurd hk (Nat.not_lt_zero k)

theorem delimited_throw (e : Error) : Delimited (throw e : Reader α) :=
  ⟨local_throw e, fun h => absurd h reads_throw⟩

theorem delimited_map {r : Reader α} (f : α → β) (hr : Delimited r) :
    Delimited (r >>= fun a => pure (f a)) :=
  delimited_bind hr fun _ => delimited_pure _

theorem delimited_position {f : Nat → Reader α} (hf : ∀ n, Delimited (f n)) :
    Delimited (get >>= fun c : Cursor => f c.position) := by
  refine ⟨local_position fun n => (hf n).isLocal, ?_⟩
  intro p bytes a h
  exact (hf p).runsShort (reads_position.mp h)

theorem delimited_lift (x : Except Error α) : Delimited (lift x) := by
  cases x with
  | ok a => exact delimited_pure a
  | error e => exact delimited_throw e

theorem delimited_unless {c : Prop} [Decidable c] {e : Error} {r : Reader α}
    (h : Delimited r) : Delimited (if c then (throw e : Reader PUnit) >>= fun _ => r else r) := by
  split
  · exact delimited_bind (delimited_throw e) fun _ => h
  · exact h

theorem delimited_take (n : Nat) : Delimited (take n) := by
  refine ⟨local_take n, ?_⟩
  intro p bytes xs h k hk
  obtain ⟨rfl, rfl⟩ := reads_take.mp h
  refine ⟨p, bytes.length, ⟨p, bytes.take k⟩, ?_, by omega, by omega⟩
  have hlen : ((bytes.take k).take bytes.length).length ≠ bytes.length := by
    simp only [List.length_take]
    omega
  simp only [take, if_neg hlen]

theorem delimited_skip (n : Nat) : Delimited (skip n) := delimited_map _ (delimited_take n)

theorem delimited_word (width : Nat) :
    Delimited (word width) := delimited_map _ (delimited_take width)

theorem delimited_u8 : Delimited u8 := delimited_map _ (delimited_word 1)

theorem delimited_u16 : Delimited u16 := delimited_map _ (delimited_word 2)

theorem delimited_u32 : Delimited u32 := delimited_map _ (delimited_word 4)

theorem delimited_u64 : Delimited u64 := delimited_map _ (delimited_word 8)

theorem delimited_i8 : Delimited i8 := delimited_map _ delimited_u8

theorem delimited_i16 : Delimited i16 := delimited_map _ delimited_u16

theorem delimited_i32 : Delimited i32 := delimited_map _ delimited_u32

theorem delimited_i64 : Delimited i64 := delimited_map _ delimited_u64

theorem delimited_align (alignment : Nat) (positive : 0 < alignment) :
    Delimited (align alignment positive) :=
  delimited_position (f :=
    fun p => skip (padding alignment p) >>= fun _ => pure (padding alignment p))
    fun _ => delimited_map _ (delimited_skip _)

theorem delimited_timesFrom {item : Reader α} (h : Delimited item) (n : Nat) (read : List α) :
    Delimited (timesFrom item n read) := by
  induction n generalizing read with
  | zero => exact delimited_pure _
  | succ n ih => exact delimited_bind h fun a => ih (a :: read)

theorem delimited_times {item : Reader α} (h : Delimited item) (n : Nat) :
    Delimited (times n item) :=
  delimited_timesFrom h n []

/-! ## From the front of some bytes

`run` forgets where a reader stopped, so bytes behind those that were read go unnoticed. -/

variable {r : Reader α} {bytes : Bytes} {a : α}

theorem Reads.run_append (h : Reads r 0 bytes a) (rest : Bytes) :
    run r (bytes ++ rest) = .ok a := by
  unfold run Cursor.start
  rw [h rest]

theorem Local.exists_of_run (hr : Local r) (h : run r bytes = .ok a) :
    ∃ used rest, bytes = used ++ rest ∧ Reads r 0 used a := by
  unfold run Cursor.start at h
  split at h
  · next b c hread =>
    cases h
    obtain ⟨used, hbytes, -, hused⟩ := hr 0 bytes a c hread
    exact ⟨used, c.rest, hbytes, hused⟩
  · cases h

theorem Delimited.run_take (hr : Delimited r) (h : Reads r 0 bytes a) {k : Nat}
    (hk : k < bytes.length) :
    ∃ position needed, run r (bytes.take k) = .error (.endOfInput position needed) ∧
      position ≤ k ∧ k < position + needed := by
  obtain ⟨position, needed, c, hread, hlow, hhigh⟩ := hr.runsShort h k hk
  rw [Nat.zero_add] at hlow hhigh
  refine ⟨position, needed, ?_, hlow, hhigh⟩
  unfold run Cursor.start
  rw [hread]

end Reader

end JvmTrace
