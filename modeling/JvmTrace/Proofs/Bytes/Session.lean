import JvmTrace.Bytes.Reading
import JvmTrace.Proofs.Bytes.Reads
import Mathlib.Data.Nat.Digits.Defs
import Mathlib.Order.Bounds.Basic

/-!
# Sessions — a cursor never leaves its slice and never loses its place

A cursor carries the bytes ahead and a count of those behind. Nothing in its type says that the two
belong together, that they are the two halves of one slice. This file says it of every cursor that a
session comes to, a session being any operations in any order, those that fail included.

`Cursor.seek input p` is the cursor that does belong at position `p` of `input`. What an operation does
there is said once (`perform_seek`), in terms of the slice and of how many bytes the operation needs: it
finds them and goes on to the place behind them, or it does not and stays. Everything else is an
induction over that.

The bytes that an operation needs are those of one `take`. So a reader of numbers is one fetch and some
relabelling (`Fetches`), and there is only one place where a read can fail.
-/

set_option autoImplicit false

namespace JvmTrace

/-! ## The numbers that bytes spell

Said here without the reader: positional notation to the base 256, and two's complement on top of it. -/

namespace BigEndian

/-- The number that has `bytes` for its digits to the base 256, the most significant one first. -/
def unsigned (bytes : Bytes) : Nat := Nat.ofDigits 256 (bytes.reverse.map UInt8.toNat)

/-- The number that `bytes` stand for in two's complement: the upper half of what they can spell is
moved down below zero. -/
def signed (bytes : Bytes) : Int :=
  if 2 * unsigned bytes < 256 ^ bytes.length then unsigned bytes
  else unsigned bytes - 256 ^ bytes.length

theorem unsigned_eq_toNat (bytes : Bytes) : unsigned bytes = toNat bytes := by
  unfold unsigned toNat
  rw [Nat.ofDigits_eq_foldr, List.map_reverse, List.foldr_reverse, List.foldl_map]
  simp only [Nat.cast_id, Nat.add_comm]

theorem capacity_eq_pow (width : Nat) : capacity width = 256 ^ width := by
  induction width with
  | zero => rfl
  | succ width ih => rw [capacity, ih, Nat.pow_succ']

theorem signed_eq_bmod (bytes : Bytes) :
    signed bytes = (toNat bytes : Int).bmod (capacity bytes.length) := by
  have hlt := toNat_lt bytes
  have hmod : (toNat bytes : Int) % (capacity bytes.length : Int) = toNat bytes :=
    Int.emod_eq_of_lt (by omega) (by omega)
  have hpow : (256 : Int) ^ bytes.length = capacity bytes.length := by
    rw [capacity_eq_pow, Nat.cast_pow, Nat.cast_ofNat]
  unfold signed
  rw [unsigned_eq_toNat, Int.bmod_def, hmod, hpow, ← capacity_eq_pow]
  split <;> split <;> omega

end BigEndian

/-! ## Places in a slice -/

/-- The `n` bytes of `input` from position `p` on. -/
def slice (input : Bytes) (p n : Nat) : Bytes := (input.drop p).take n

/-- The cursor at position `p` of `input`. -/
def Cursor.seek (input : Bytes) (p : Nat) : Cursor := ⟨p, input.drop p⟩

@[simp] theorem Cursor.seek_position (input : Bytes) (p : Nat) : (seek input p).position = p := rfl

@[simp] theorem Cursor.seek_remaining (input : Bytes) (p : Nat) :
    (seek input p).remaining = input.length - p := List.length_drop

/-! ## One fetch -/

namespace Reader

variable {α β : Type} {r : Reader α} {p w : Nat} {value : Bytes → α}

/-- At position `p`, `r` takes `w` bytes and gives `value` of them, or leaves the cursor alone and
complains that there are not `w`. -/
def Fetches (r : Reader α) (p w : Nat) (value : Bytes → α) : Prop :=
  ∀ rest, r ⟨p, rest⟩ =
    if w ≤ rest.length then .ok (value (rest.take w)) ⟨p + w, rest.drop w⟩
    else .error (.endOfInput p w) ⟨p, rest⟩

theorem fetches_take (p n : Nat) : Fetches (take n) p n id := by
  intro rest
  have enough : (rest.take n).length = n ↔ n ≤ rest.length := by simp
  simp only [take, enough, id]

theorem Fetches.map (h : Fetches r p w value) (f : α → β) :
    Fetches (r >>= fun a => pure (f a)) p w (fun bytes => f (value bytes)) := by
  intro rest
  rw [bind_eq, h rest]
  by_cases enough : w ≤ rest.length
  · rw [if_pos enough, if_pos enough]
    rfl
  · rw [if_neg enough, if_neg enough]

/-- Only runs of the right length are ever fetched. -/
theorem Fetches.congr (h : Fetches r p w value) {value' : Bytes → α}
    (hvalue : ∀ bytes, bytes.length = w → value bytes = value' bytes) : Fetches r p w value' := by
  intro rest
  rw [h rest]
  by_cases enough : w ≤ rest.length
  · rw [if_pos enough, if_pos enough, hvalue _ (List.length_take_of_le enough)]
  · rw [if_neg enough, if_neg enough]

theorem fetches_skip (p n : Nat) : Fetches (skip n) p n (fun _ => ()) := (fetches_take p n).map _

theorem fetches_word (p width : Nat) : Fetches (word width) p width BigEndian.toNat :=
  (fetches_take p width).map _

theorem fetches_u8 (p : Nat) : Fetches u8 p 1 fun bytes => .ofNat (BigEndian.toNat bytes) :=
  (fetches_word p 1).map _

theorem fetches_u16 (p : Nat) : Fetches u16 p 2 fun bytes => .ofNat (BigEndian.toNat bytes) :=
  (fetches_word p 2).map _

theorem fetches_u32 (p : Nat) : Fetches u32 p 4 fun bytes => .ofNat (BigEndian.toNat bytes) :=
  (fetches_word p 4).map _

theorem fetches_u64 (p : Nat) : Fetches u64 p 8 fun bytes => .ofNat (BigEndian.toNat bytes) :=
  (fetches_word p 8).map _

theorem fetches_i8 (p : Nat) : Fetches i8 p 1 fun bytes => .ofNat (BigEndian.toNat bytes) :=
  ((fetches_u8 p).map _).congr fun _ _ => UInt8.toInt8_ofNat'

theorem fetches_i16 (p : Nat) : Fetches i16 p 2 fun bytes => .ofNat (BigEndian.toNat bytes) :=
  ((fetches_u16 p).map _).congr fun _ _ => UInt16.toInt16_ofNat'

theorem fetches_i32 (p : Nat) : Fetches i32 p 4 fun bytes => .ofNat (BigEndian.toNat bytes) :=
  ((fetches_u32 p).map _).congr fun _ _ => UInt32.toInt32_ofNat'

theorem fetches_i64 (p : Nat) : Fetches i64 p 8 fun bytes => .ofNat (BigEndian.toNat bytes) :=
  ((fetches_u64 p).map _).congr fun _ _ => UInt64.toInt64_ofNat'

/-- How far it is to the next multiple, and to no earlier one. -/
theorem isLeast_padding {alignment : Nat} (positive : 0 < alignment) (p : Nat) :
    IsLeast {w | alignment ∣ p + w} (padding alignment p) := by
  have hmod := Nat.mod_lt p positive
  have hp := Nat.div_add_mod p alignment
  have hdvd : ∀ w, alignment ∣ p + w ↔ alignment ∣ p % alignment + w := by
    intro w
    rw [← hp, Nat.add_assoc, Nat.dvd_add_right (Nat.dvd_mul_right _ _), hp]
  unfold padding
  by_cases hzero : p % alignment = 0
  · rw [hzero, Nat.sub_zero, Nat.mod_self]
    exact ⟨Nat.dvd_of_mod_eq_zero hzero, fun w _ => Nat.zero_le w⟩
  · rw [Nat.mod_eq_of_lt (by omega)]
    constructor
    · rw [Set.mem_ofPred_eq, hdvd, Nat.add_sub_cancel' hmod.le]
    · intro w hw
      have := Nat.le_of_dvd (by omega) ((hdvd w).mp hw)
      omega

theorem fetches_align {alignment : Nat} (positive : 0 < alignment) (p : Nat) :
    Fetches (align alignment positive) p (padding alignment p)
      (fun _ => padding alignment p) := by
  -- The reader looks at the position first, which is `p`.
  intro rest
  exact (fetches_skip p (padding alignment p)).map (fun _ => padding alignment p) rest

end Reader

namespace Reading

open Reader

/-! ## One operation -/

/-- At position `p`, the operation needs `w` bytes. -/
def Needs (r : Reading) (p w : Nat) : Prop :=
  match r with
  | peek | u8 | i8 => w = 1
  | u16 | i16 => w = 2
  | u32 | i32 => w = 4
  | i64 => w = 8
  | bytes n | skip n => w = n
  | align alignment _ => IsLeast {w | alignment ∣ p + w} w

/-- What the operation gives if `found` are the bytes that it needed. -/
def value (r : Reading) (found : Bytes) : Result :=
  match r with
  | peek | u8 | u16 | u32 => .number (BigEndian.unsigned found)
  | i8 | i16 | i32 | i64 => .number (BigEndian.signed found)
  | bytes _ => .bytes found
  | skip _ => .nothing
  | align _ _ => .number found.length

/-- How far the operation moves if it needed `w` bytes and found them. -/
def advance (r : Reading) (w : Nat) : Nat :=
  match r with
  | peek => 0
  | _ => w

theorem exists_needs (r : Reading) (p : Nat) : ∃ w, r.Needs p w := by
  cases r with
  | align alignment positive => exact ⟨_, isLeast_padding positive p⟩
  | _ => exact ⟨_, rfl⟩

theorem advance_eq {r : Reading} (hmoves : r ≠ peek) (w : Nat) : r.advance w = w := by
  cases r with
  | peek => exact absurd rfl hmoves
  | _ => rfl

theorem advance_le (r : Reading) (w : Nat) : r.advance w ≤ w := by
  cases r with
  | peek => exact Nat.zero_le w
  | _ => exact Nat.le_refl w

variable {β : Type} {reader : Reader β} {p w : Nat} {make : Nat → β} {number : β → Int}

/-- The readers of unsigned numbers are cases of this. -/
theorem fetches_unsigned (h : Fetches reader p w fun found => make (BigEndian.toNat found))
    (hnumber : ∀ n < BigEndian.capacity w, number (make n) = n) :
    Fetches (reader >>= fun b => pure (Result.number (number b))) p w
      (fun found => .number (BigEndian.unsigned found)) := by
  refine (h.map fun b => Result.number (number b)).congr ?_
  rintro found rfl
  rw [hnumber _ (BigEndian.toNat_lt found), BigEndian.unsigned_eq_toNat]

/-- And those of signed numbers, of this. -/
theorem fetches_signed (h : Fetches reader p w fun found => make (BigEndian.toNat found))
    (hnumber : ∀ n : Nat, number (make n) = (n : Int).bmod (BigEndian.capacity w)) :
    Fetches (reader >>= fun b => pure (Result.number (number b))) p w
      (fun found => .number (BigEndian.signed found)) := by
  refine (h.map fun b => Result.number (number b)).congr ?_
  rintro found rfl
  rw [hnumber, BigEndian.signed_eq_bmod]

/-- Every operation but `peek`, which does not move, is one fetch. -/
theorem fetches_read {r : Reading} (hmoves : r ≠ peek) (hw : r.Needs p w) :
    Fetches r.read p w r.value := by
  cases r with
  | peek => exact absurd rfl hmoves
  | u8 =>
    cases hw
    exact fetches_unsigned (fetches_u8 p) fun n hn =>
      congrArg Nat.cast (UInt8.toNat_ofNat_of_lt' hn)
  | u16 =>
    cases hw
    exact fetches_unsigned (fetches_u16 p) fun n hn =>
      congrArg Nat.cast (UInt16.toNat_ofNat_of_lt' hn)
  | u32 =>
    cases hw
    exact fetches_unsigned (fetches_u32 p) fun n hn =>
      congrArg Nat.cast (UInt32.toNat_ofNat_of_lt' hn)
  | i8 =>
    cases hw
    exact fetches_signed (fetches_i8 p) fun n => Int8.toInt_ofNat'
  | i16 =>
    cases hw
    exact fetches_signed (fetches_i16 p) fun n => Int16.toInt_ofNat'
  | i32 =>
    cases hw
    exact fetches_signed (fetches_i32 p) fun n => Int32.toInt_ofNat'
  | i64 =>
    cases hw
    exact fetches_signed (fetches_i64 p) fun n => Int64.toInt_ofNat'
  | bytes n =>
    cases hw
    exact (fetches_take p w).map Result.bytes
  | skip n =>
    cases hw
    exact (fetches_skip p w).map fun _ => Result.nothing
  | align alignment positive =>
    obtain rfl := hw.unique (isLeast_padding positive p)
    refine ((fetches_align positive p).map fun n => Result.number n).congr ?_
    intro found hfound
    rw [value, hfound]

theorem read_peek (p : Nat) (rest : Bytes) :
    read peek ⟨p, rest⟩ =
      if 1 ≤ rest.length then .ok (value peek (rest.take 1)) ⟨p, rest⟩
      else .error (.endOfInput p 1) ⟨p, rest⟩ := by
  cases rest with
  | nil => rfl
  | cons b rest =>
    rw [if_pos (by simp)]
    simp [read, bind_eq, Reader.peek, value, BigEndian.unsigned, pure, EStateM.pure]

theorem read_eq {r : Reading} (hw : r.Needs p w) (rest : Bytes) :
    r.read ⟨p, rest⟩ =
      if w ≤ rest.length then
        .ok (r.value (rest.take w)) ⟨p + r.advance w, rest.drop (r.advance w)⟩
      else .error (.endOfInput p w) ⟨p, rest⟩ := by
  by_cases hpeek : r = peek
  · subst hpeek
    cases hw
    exact read_peek p rest
  · rw [fetches_read hpeek hw rest, advance_eq hpeek]

/-- **What an operation does at a place of a slice.** -/
theorem perform_seek {r : Reading} (input : Bytes) (hw : r.Needs p w) :
    r.perform (Cursor.seek input p) =
      if w ≤ input.length - p then
        (.ok (r.value (slice input p w)), Cursor.seek input (p + r.advance w))
      else (.error (.endOfInput p w), Cursor.seek input p) := by
  unfold perform Cursor.seek
  rw [read_eq hw, List.length_drop]
  by_cases enough : w ≤ input.length - p
  · rw [if_pos enough, if_pos enough, List.drop_drop]
    rfl
  · rw [if_neg enough, if_neg enough]

/-- From a place of the slice an operation comes to a place of the slice. It only moves if it succeeds,
and never back. -/
theorem perform_cases (r : Reading) {input : Bytes} (hp : p ≤ input.length) :
    (∃ result n, p + n ≤ input.length ∧
        r.perform (Cursor.seek input p) = (.ok result, Cursor.seek input (p + n))) ∨
      ∃ e, r.perform (Cursor.seek input p) = (.error e, Cursor.seek input p) := by
  obtain ⟨w, hw⟩ := r.exists_needs p
  rw [perform_seek input hw]
  by_cases enough : w ≤ input.length - p
  · have hadvance := r.advance_le w
    exact .inl ⟨_, r.advance w, by omega, if_pos enough⟩
  · exact .inr ⟨_, if_neg enough⟩

/-! ## Operations one after the other -/

/-- The cursor after some operations, which is the one that came with the last answer. -/
def reached (c : Cursor) (rs : List Reading) : Cursor :=
  ((performAll c rs).map Prod.snd).getLastD c

/-- The pieces of `input` that the successful ones among some answers moved over. The answers are those
of a session that began at `c`. -/
def consumed (input : Bytes) (c : Cursor) : List (Except Error Result × Cursor) → List Bytes
  | [] => []
  | (.ok _, c') :: answers =>
    slice input c.position (c'.position - c.position) :: consumed input c' answers
  | (.error _, c') :: answers => consumed input c' answers

theorem reached_cons (c : Cursor) (r : Reading) (rs : List Reading) :
    reached c (r :: rs) = reached (r.perform c).2 rs := by
  simp only [reached, performAll, List.map_cons, List.getLastD_cons]

theorem performAll_append (c : Cursor) (rs later : List Reading) :
    performAll c (rs ++ later) = performAll c rs ++ performAll (reached c rs) later := by
  induction rs generalizing c with
  | nil => rfl
  | cons r rs ih => rw [List.cons_append, performAll, performAll, reached_cons, ih, List.cons_append]

/-- **Operations from a place of the slice come to a place of the slice**, and what lies between the two
was consumed on the way. -/
theorem exists_reached_eq_seek {input : Bytes} (hp : p ≤ input.length) (rs : List Reading) :
    ∃ q ≤ input.length, reached (Cursor.seek input p) rs = Cursor.seek input q ∧
      input.take q = input.take p ++
        (consumed input (Cursor.seek input p) (performAll (Cursor.seek input p) rs)).flatten := by
  induction rs generalizing p with
  | nil => exact ⟨p, hp, rfl, (List.append_nil _).symm⟩
  | cons r rs ih =>
    rw [reached_cons, performAll]
    rcases r.perform_cases hp with ⟨result, n, hn, h⟩ | ⟨e, h⟩
    · obtain ⟨q, hq, hreached, htake⟩ := ih hn
      refine ⟨q, hq, by rw [h, hreached], ?_⟩
      have hpiece : slice input p (p + n - p) = (input.drop p).take n := by
        rw [slice, Nat.add_sub_cancel_left]
      rw [htake, h, consumed, List.flatten_cons, Cursor.seek_position, Cursor.seek_position, hpiece,
        List.take_add, List.append_assoc]
    · -- A failure changes nothing, so the others start from `p` as well.
      obtain ⟨q, hq, hreached, htake⟩ := ih hp
      refine ⟨q, hq, by rw [h, hreached], ?_⟩
      rw [htake, h, consumed]

/-- **A cursor never leaves its slice and never loses its place.** Whatever was done `before`, the cursor
is inside `input`, what remains is what is not behind it, and what is behind it are the pieces that the
successful operations moved over, in order. The next operation, whichever it is, needs some number of
bytes. If that many remain, it gives what they say and moves past them, or stays if it only peeks. If
not, it fails for want of them and the cursor is as it was. -/
theorem performAll_keeps_place (input : Bytes) (before : List Reading) :
    let start := Cursor.start input
    let c := reached start before
    c.position ≤ input.length ∧
      c.remaining = input.length - c.position ∧
      (consumed input start (performAll start before)).flatten = input.take c.position ∧
      ∀ r later, ∃ w, r.Needs c.position w ∧
        let answer : Except Error Result × Cursor :=
          if w ≤ c.remaining then
            (.ok (r.value (slice input c.position w)),
              Cursor.seek input (c.position + r.advance w))
          else (.error (.endOfInput c.position w), c)
        performAll start (before ++ r :: later) =
          performAll start before ++ answer :: performAll answer.2 later := by
  intro start c
  have hnext : ∀ later, performAll start (before ++ later) =
      performAll start before ++ performAll c later := performAll_append start before
  -- The start is the place at position 0, with nothing behind it.
  obtain ⟨p, hp, hc, hconsumed⟩ := exists_reached_eq_seek (Nat.zero_le input.length) before
  replace hc : c = Cursor.seek input p := hc
  clear_value c
  subst hc
  refine ⟨hp, Cursor.seek_remaining input p, hconsumed.symm, ?_⟩
  intro r later
  obtain ⟨w, hw⟩ := r.exists_needs p
  refine ⟨w, hw, ?_⟩
  rw [hnext, performAll, perform_seek input hw, Cursor.seek_remaining]
  rfl

-- A skip of more bytes than any slice has, and an alignment past the end, are as if they had not been.
example :
    performAll (Cursor.start [0xCA, 0xFE, 0xBA, 0xBE, 0x00, 0x34, 0xFF])
      [u32, peek, skip (2 ^ 64 - 1), u16, align 4 (by decide), i8, bytes 0] =
    [(.ok (.number 0xCAFEBABE), ⟨4, [0x00, 0x34, 0xFF]⟩),
      (.ok (.number 0), ⟨4, [0x00, 0x34, 0xFF]⟩),
      (.error (.endOfInput 4 (2 ^ 64 - 1)), ⟨4, [0x00, 0x34, 0xFF]⟩),
      (.ok (.number 52), ⟨6, [0xFF]⟩),
      (.error (.endOfInput 6 2), ⟨6, [0xFF]⟩),
      (.ok (.number (-1)), ⟨7, []⟩),
      (.ok (.bytes []), ⟨7, []⟩)] := by
  rfl

end Reading

end JvmTrace
