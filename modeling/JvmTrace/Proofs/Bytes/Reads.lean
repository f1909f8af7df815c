import JvmTrace.Bytes.Cursor
import Mathlib.Data.List.Forall2

/-!
# What a reader reads — bytes at a position, and no cursor

`Reads r p bytes a` says that `r`, standing at position `p` in front of `bytes`, reads exactly those
bytes as `a`, **whatever follows them**. It is the grammar of a reader: every statement of this
theory about what is accepted is a statement about `Reads`, and the cursor appears in no other file.

Two facts make it a grammar rather than a restatement of the reader:

- a reader that succeeds has read some bytes in this sense (`Local`), so nothing is lost by talking
  about `Reads` only;
- `Reads` of a sequence is a split of the bytes (`reads_bind`), so a reader is taken apart along its
  own definition, by rewriting.

Each primitive has its equation here (`reads_u16 : Reads u16 p bytes n ↔ bytes = BigEndian.u16 n`),
and they are equivalences on purpose. Read from right to left they say that what is written can be
read; from left to right, that nothing else can.
-/

set_option autoImplicit false

namespace JvmTrace

/-! ## Big-endian numbers are determined by their bytes -/

namespace BigEndian

theorem capacity_pos (width : Nat) : 0 < capacity width := by
  induction width with
  | zero => exact Nat.one_pos
  | succ width ih => exact Nat.mul_pos (by decide) ih

theorem toNat_lt (bytes : Bytes) : toNat bytes < capacity bytes.length := by
  induction bytes with
  | nil => exact Nat.one_pos
  | cons b rest ih =>
    rw [toNat_cons, List.length_cons, capacity]
    have hb : b.toNat + 1 ≤ 256 := b.toNat_lt
    calc b.toNat * capacity rest.length + toNat rest
        < b.toNat * capacity rest.length + capacity rest.length := Nat.add_lt_add_left ih _
      _ = (b.toNat + 1) * capacity rest.length := (Nat.succ_mul _ _).symm
      _ ≤ 256 * capacity rest.length := Nat.mul_le_mul_right _ hb

/-- What lies above the width is not written. -/
theorem ofNat_add_mul (width k n : Nat) : ofNat width (k * capacity width + n) = ofNat width n := by
  induction width generalizing k with
  | zero => rfl
  | succ width ih =>
    have regroup : k * capacity (width + 1) + n = k * 256 * capacity width + n := by
      rw [capacity, Nat.mul_assoc]
    have high : UInt8.ofNat ((k * 256 * capacity width + n) / capacity width) =
        UInt8.ofNat (n / capacity width) := by
      rw [Nat.add_comm, Nat.add_mul_div_right _ _ (capacity_pos width)]
      apply UInt8.toNat.inj
      rw [UInt8.toNat_ofNat', UInt8.toNat_ofNat']
      omega
    rw [regroup, ofNat, ofNat, high, ih]

/-- The bytes of a number can be told from the number and the width. -/
theorem ofNat_toNat (bytes : Bytes) : ofNat bytes.length (toNat bytes) = bytes := by
  induction bytes with
  | nil => rfl
  | cons b rest ih =>
    have high : (b.toNat * capacity rest.length + toNat rest) / capacity rest.length = b.toNat := by
      rw [Nat.add_comm, Nat.add_mul_div_right _ _ (capacity_pos _),
        Nat.div_eq_of_lt (toNat_lt rest), Nat.zero_add]
    rw [toNat_cons, List.length_cons, ofNat, high, ofNat_add_mul, ih, UInt8.ofNat_toNat]

/-- A number below the capacity of a width has one spelling in that width. -/
theorem eq_ofNat_iff {width n : Nat} {bytes : Bytes} (hn : n < capacity width) :
    bytes = ofNat width n ↔ bytes.length = width ∧ toNat bytes = n := by
  constructor
  · rintro rfl
    exact ⟨length_ofNat _ _, by rw [toNat_ofNat, Nat.mod_eq_of_lt hn]⟩
  · intro h
    obtain ⟨rfl, rfl⟩ := h
    exact (ofNat_toNat bytes).symm

@[simp] theorem length_u16 (n : UInt16) : (u16 n).length = 2 := length_ofNat 2 _

/-- One byte is written as itself. -/
theorem u8_eq (n : UInt8) : u8 n = [n] := by
  simp [u8, ofNat, capacity]

end BigEndian

/-! ## Reading -/

namespace Reader

variable {α β : Type} {p : Nat} {bytes : Bytes}

/-- `r` at position `p` reads exactly `bytes`, as `a`, whatever follows them. -/
def Reads (r : Reader α) (p : Nat) (bytes : Bytes) (a : α) : Prop :=
  ∀ rest, r ⟨p, bytes ++ rest⟩ = .ok a ⟨p + bytes.length, rest⟩

/-- What a successful reader makes of the bytes that it took does not depend on those behind them.
-/
def Local (r : Reader α) : Prop :=
  ∀ p bytes a c, r ⟨p, bytes⟩ = .ok a c →
    ∃ used, bytes = used ++ c.rest ∧ c.position = p + used.length ∧ Reads r p used a

/-- The outcome of a reader on bytes that it reads, and nothing more. -/
theorem Reads.alone {r : Reader α} {a : α} (h : Reads r p bytes a) :
    r ⟨p, bytes⟩ = .ok a ⟨p + bytes.length, []⟩ := by
  have := h []
  rwa [List.append_nil] at this

/-! ### Sequencing -/

theorem bind_eq (r : Reader α) (f : α → Reader β) (c : Cursor) :
    (r >>= f) c = match r c with
      | .ok a c' => f a c'
      | .error e c' => .error e c' := by
  simp only [bind, EStateM.bind]
  cases r c <;> rfl

/-- A sequence succeeds when both parts do, one after the other. -/
theorem bind_eq_ok {r : Reader α} {f : α → Reader β} {c c' : Cursor} {b : β} :
    (r >>= f) c = .ok b c' ↔ ∃ a c₁, r c = .ok a c₁ ∧ f a c₁ = .ok b c' := by
  rw [bind_eq]
  cases hr : r c with
  | ok a c₁ =>
    simp only [EStateM.Result.ok.injEq]
    constructor
    · intro h
      exact ⟨a, c₁, ⟨rfl, rfl⟩, h⟩
    · intro h
      obtain ⟨_, _, ⟨rfl, rfl⟩, h⟩ := h
      exact h
  | error e c₁ => simp

theorem Reads.bind {r : Reader α} {f : α → Reader β} {xs ys : Bytes} {a : α} {b : β}
    (hr : Reads r p xs a) (hf : Reads (f a) (p + xs.length) ys b) :
      Reads (r >>= f) p (xs ++ ys) b := by
  intro rest
  have first := hr (ys ++ rest)
  have second := hf rest
  rw [List.append_assoc, List.length_append, ← Nat.add_assoc]
  exact bind_eq_ok.mpr ⟨a, _, first, second⟩

/-- **The bytes of a sequence split into those of its parts.** Only the first part has to be local:
it is the one whose bytes have others behind them. -/
theorem reads_bind {r : Reader α} {f : α → Reader β} {b : β} (hr : Local r) :
    Reads (r >>= f) p bytes b ↔
      ∃ a xs, Reads r p xs a ∧ ∃ ys, bytes = xs ++ ys ∧ Reads (f a) (p + xs.length) ys b := by
  constructor
  · intro h
    obtain ⟨a, c, hrc, -⟩ := bind_eq_ok.mp h.alone
    obtain ⟨xs, hbytes, -, hxs⟩ := hr p bytes a c hrc
    refine ⟨a, xs, hxs, c.rest, hbytes, fun rest => ?_⟩
    -- Behind `xs`, the sequence is its second part.
    have whole := h rest
    have first := hxs (c.rest ++ rest)
    rw [hbytes, List.append_assoc, bind_eq, first, List.length_append, ← Nat.add_assoc] at whole
    exact whole
  · intro h
    obtain ⟨a, xs, hxs, ys, rfl, hys⟩ := h
    exact hxs.bind hys

theorem local_bind {r : Reader α} {f : α → Reader β} (hr : Local r) (hf : ∀ a, Local (f a)) :
    Local (r >>= f) := by
  intro p bytes b c h
  obtain ⟨a, c₁, hrc, hfc⟩ := bind_eq_ok.mp h
  obtain ⟨xs, rfl, hpos, hxs⟩ := hr p bytes a c₁ hrc
  obtain ⟨ys, hrest, hpos', hys⟩ := hf a c₁.position c₁.rest b c hfc
  rw [hpos] at hys hpos'
  refine ⟨xs ++ ys, by rw [hrest, List.append_assoc], ?_, hxs.bind hys⟩
  rw [hpos', List.length_append, Nat.add_assoc]

@[simp] theorem local_pure (a : α) : Local (pure a : Reader α) := by
  intro p bytes b c h
  cases h
  exact ⟨[], rfl, rfl, fun _ => rfl⟩

@[simp] theorem reads_pure {a b : α} :
    Reads (pure a : Reader α) p bytes b ↔ bytes = [] ∧ b = a := by
  constructor
  · intro h
    have done := h.alone
    cases bytes with
    | nil => cases done; exact ⟨rfl, rfl⟩
    | cons byte rest => cases done
  · rintro ⟨rfl, rfl⟩ rest
    rfl

@[simp] theorem local_throw (e : Error) : Local (throw e : Reader α) := by
  intro p bytes a c h
  cases h

@[simp] theorem reads_throw {e : Error} {a : α} : ¬ Reads (throw e : Reader α) p bytes a := by
  intro h
  cases h []

/-- A last step that only repackages the value takes no bytes. -/
theorem reads_map {r : Reader α} {f : α → β} {b : β} (hr : Local r) :
    Reads (r >>= fun a => pure (f a)) p bytes b ↔ ∃ a, Reads r p bytes a ∧ b = f a := by
  rw [reads_bind hr]
  constructor
  · intro h
    obtain ⟨a, xs, hxs, ys, rfl, hys⟩ := h
    obtain ⟨rfl, rfl⟩ := reads_pure.mp hys
    rw [List.append_nil]
    exact ⟨a, hxs, rfl⟩
  · intro h
    obtain ⟨a, ha, rfl⟩ := h
    exact ⟨a, bytes, ha, [], (List.append_nil _).symm, reads_pure.mpr ⟨rfl, rfl⟩⟩

theorem local_map {r : Reader α} (f : α → β) (hr : Local r) : Local (r >>= fun a => pure (f a)) :=
  local_bind hr fun _ => local_pure _

/-! ### The position

The one thing about a cursor that a reader may look at: where it is, not what lies ahead. -/

theorem local_position {f : Nat → Reader α} (hf : ∀ n, Local (f n)) :
    Local (get >>= fun c : Cursor => f c.position) := by
  intro p bytes a c h
  obtain ⟨used, hbytes, hpos, hused⟩ := hf p p bytes a c h
  exact ⟨used, hbytes, hpos, fun rest => hused rest⟩

theorem reads_position {f : Nat → Reader α} {a : α} :
    Reads (get >>= fun c : Cursor => f c.position) p bytes a ↔ Reads (f p) p bytes a :=
  Iff.rfl

/-! ### Failing for other reasons than a lack of bytes -/

theorem local_lift (x : Except Error α) : Local (lift x) := by
  cases x with
  | ok a => exact local_pure a
  | error e => exact local_throw e

theorem reads_lift {x : Except Error α} {a : α} :
    Reads (lift x) p bytes a ↔ bytes = [] ∧ x = .ok a := by
  cases x with
  | ok b => simp only [lift, reads_pure, Except.ok.injEq, eq_comm]
  | error e => simp only [lift, reads_throw, reduceCtorEq, and_false]

/-- A reader behind a check fails where the check does, and is itself otherwise. -/
theorem reads_unless {c : Prop} [Decidable c] {e : Error} {r : Reader α} {a : α} :
    Reads (if c then (throw e : Reader PUnit) >>= fun _ => r else r) p bytes a ↔
      ¬ c ∧ Reads r p bytes a := by
  split
  · next hc =>
    constructor
    · intro h
      cases h []
    · intro h
      obtain ⟨hnot, -⟩ := h
      exact absurd hc hnot
  · next hc => exact ⟨fun h => ⟨hc, h⟩, fun h => h.2⟩

theorem mapError_eq_ok {f : Error → Error} {r : Reader α} {c c' : Cursor} {a : α} :
    mapError f r c = .ok a c' ↔ r c = .ok a c' := by
  unfold mapError
  cases hr : r c with
  | ok b c₁ => rfl
  | error e c₁ => simp

theorem reads_mapError {f : Error → Error} {r : Reader α} {a : α} :
    Reads (mapError f r) p bytes a ↔ Reads r p bytes a :=
  forall_congr' fun _ => mapError_eq_ok

theorem local_mapError (f : Error → Error) {r : Reader α} (hr : Local r) :
    Local (mapError f r) := by
  intro p bytes a c h
  obtain ⟨used, hbytes, hpos, hused⟩ := hr p bytes a c (mapError_eq_ok.mp h)
  exact ⟨used, hbytes, hpos, reads_mapError.mpr hused⟩

/-! ### Runs of bytes and numbers -/

theorem take_append {xs : Bytes} (p : Nat) (rest : Bytes) :
    take xs.length ⟨p, xs ++ rest⟩ = .ok xs ⟨p + xs.length, rest⟩ := by
  simp [take]

/-- A successful `take` splits the bytes ahead. -/
theorem take_eq_ok {n : Nat} {c c' : Cursor} {xs : Bytes} (h : take n c = .ok xs c') :
    xs.length = n ∧ c.rest = xs ++ c'.rest ∧ c'.position = c.position + n := by
  simp only [take] at h
  split at h
  · next hlen =>
    cases h
    exact ⟨hlen, (List.take_append_drop n c.rest).symm, rfl⟩
  · cases h

theorem local_take (n : Nat) : Local (take n) := by
  intro p bytes xs c h
  obtain ⟨rfl, hrest, hpos⟩ := take_eq_ok h
  exact ⟨xs, hrest, hpos, fun rest => take_append p rest⟩

theorem reads_take {n : Nat} {xs : Bytes} :
    Reads (take n) p bytes xs ↔ bytes = xs ∧ xs.length = n := by
  constructor
  · intro h
    obtain ⟨hlen, hrest, -⟩ := take_eq_ok h.alone
    exact ⟨hrest.trans (List.append_nil xs), hlen⟩
  · intro h
    obtain ⟨rfl, rfl⟩ := h
    exact fun rest => take_append p rest

theorem local_skip (n : Nat) : Local (skip n) := local_map _ (local_take n)

theorem reads_skip {n : Nat} {u : Unit} : Reads (skip n) p bytes u ↔ bytes.length = n := by
  unfold skip
  rw [reads_map (local_take n)]
  constructor
  · intro h
    obtain ⟨xs, hxs, -⟩ := h
    obtain ⟨rfl, hlen⟩ := reads_take.mp hxs
    exact hlen
  · intro hlen
    exact ⟨bytes, reads_take.mpr ⟨rfl, hlen⟩, rfl⟩

theorem local_word (width : Nat) : Local (word width) := local_map _ (local_take width)

theorem reads_word {width n : Nat} :
    Reads (word width) p bytes n ↔ bytes.length = width ∧ BigEndian.toNat bytes = n := by
  unfold word
  rw [reads_map (local_take width)]
  constructor
  · intro h
    obtain ⟨xs, hxs, rfl⟩ := h
    obtain ⟨rfl, hlen⟩ := reads_take.mp hxs
    exact ⟨hlen, rfl⟩
  · intro h
    obtain ⟨hlen, rfl⟩ := h
    exact ⟨bytes, reads_take.mpr ⟨rfl, hlen⟩, rfl⟩

/-- A type that holds exactly the numbers of a width is read from the one spelling of its value. The
four unsigned readers are cases of this. -/
theorem reads_unsigned {width : Nat} {make : Nat → β} {value : β → Nat} {b : β}
    (hlt : ∀ b, value b < BigEndian.capacity width)
    (hvalue : ∀ n, n < BigEndian.capacity width → value (make n) = n)
    (hmake : ∀ b, make (value b) = b) :
    Reads (word width >>= fun n => pure (make n)) p bytes b ↔
      bytes = BigEndian.ofNat width (value b) := by
  rw [reads_map (local_word width), BigEndian.eq_ofNat_iff (hlt b)]
  constructor
  · intro h
    obtain ⟨n, hn, rfl⟩ := h
    obtain ⟨rfl, rfl⟩ := reads_word.mp hn
    exact ⟨rfl, (hvalue _ (BigEndian.toNat_lt bytes)).symm⟩
  · intro h
    obtain ⟨hlen, hnat⟩ := h
    exact ⟨value b, reads_word.mpr ⟨hlen, hnat⟩, (hmake b).symm⟩

/-- A number read by another reader and relabelled one to one has the spelling of its label. The
four signed readers are cases of this. -/
theorem reads_relabel {r : Reader α} {f : α → β} {g : β → α} {b : β} (hr : Local r)
    (hgf : ∀ a, g (f a) = a) (hfg : ∀ b, f (g b) = b) :
    Reads (r >>= fun a => pure (f a)) p bytes b ↔ Reads r p bytes (g b) := by
  rw [reads_map hr]
  constructor
  · intro h
    obtain ⟨a, ha, rfl⟩ := h
    rwa [hgf]
  · intro h
    exact ⟨g b, h, (hfg b).symm⟩

theorem local_u8 : Local u8 := local_map _ (local_word 1)

theorem local_u16 : Local u16 := local_map _ (local_word 2)

theorem local_u32 : Local u32 := local_map _ (local_word 4)

theorem local_u64 : Local u64 := local_map _ (local_word 8)

theorem local_i8 : Local i8 := local_map _ local_u8

theorem local_i16 : Local i16 := local_map _ local_u16

theorem local_i32 : Local i32 := local_map _ local_u32

theorem local_i64 : Local i64 := local_map _ local_u64

theorem reads_u8 {n : UInt8} : Reads u8 p bytes n ↔ bytes = [n] := by
  rw [← BigEndian.u8_eq]
  exact reads_unsigned UInt8.toNat_lt
    (fun _ h => UInt8.toNat_ofNat_of_lt' h) fun _ => UInt8.ofNat_toNat

theorem reads_u16 {n : UInt16} : Reads u16 p bytes n ↔ bytes = BigEndian.u16 n :=
  reads_unsigned UInt16.toNat_lt
    (fun _ h => UInt16.toNat_ofNat_of_lt' h) fun _ => UInt16.ofNat_toNat

theorem reads_u32 {n : UInt32} : Reads u32 p bytes n ↔ bytes = BigEndian.u32 n :=
  reads_unsigned UInt32.toNat_lt
    (fun _ h => UInt32.toNat_ofNat_of_lt' h) fun _ => UInt32.ofNat_toNat

theorem reads_u64 {n : UInt64} : Reads u64 p bytes n ↔ bytes = BigEndian.u64 n :=
  reads_unsigned UInt64.toNat_lt
    (fun _ h => UInt64.toNat_ofNat_of_lt' h) fun _ => UInt64.ofNat_toNat

theorem reads_i8 {n : Int8} : Reads i8 p bytes n ↔ bytes = [n.toUInt8] :=
  (reads_relabel local_u8 UInt8.toUInt8_toInt8 Int8.toInt8_toUInt8).trans reads_u8

theorem reads_i16 {n : Int16} : Reads i16 p bytes n ↔ bytes = BigEndian.u16 n.toUInt16 :=
  (reads_relabel local_u16 UInt16.toUInt16_toInt16 Int16.toInt16_toUInt16).trans reads_u16

theorem reads_i32 {n : Int32} : Reads i32 p bytes n ↔ bytes = BigEndian.u32 n.toUInt32 :=
  (reads_relabel local_u32 UInt32.toUInt32_toInt32 Int32.toInt32_toUInt32).trans reads_u32

theorem reads_i64 {n : Int64} : Reads i64 p bytes n ↔ bytes = BigEndian.u64 n.toUInt64 :=
  (reads_relabel local_u64 UInt64.toUInt64_toInt64 Int64.toInt64_toUInt64).trans reads_u64

/-! ### Alignment -/

theorem local_align (alignment : Nat) (positive : 0 < alignment) :
    Local (align alignment positive) :=
  local_position (f := fun p => skip (padding alignment p) >>= fun _ => pure (padding alignment p))
    fun _ => local_map _ (local_skip _)

/-- Aligning reads any bytes at all, of the one number that is missing to the next multiple. -/
theorem reads_align {alignment n : Nat} {positive : 0 < alignment} :
    Reads (align alignment positive) p bytes n ↔
      bytes.length = padding alignment p ∧ n = padding alignment p := by
  have unfolded : Reads (align alignment positive) p bytes n ↔
      Reads (skip (padding alignment p) >>= fun _ => pure (padding alignment p)) p bytes n :=
        Iff.rfl
  rw [unfolded, reads_map (local_skip _)]
  constructor
  · intro h
    obtain ⟨_, hskip, rfl⟩ := h
    exact ⟨reads_skip.mp hskip, rfl⟩
  · intro h
    obtain ⟨hlen, rfl⟩ := h
    exact ⟨(), reads_skip.mpr hlen, rfl⟩

/-! ### Repetition

An item is described by what stands for it in the bytes: `form w` spells `w`, and `means w a` says
that `w` is read as `a`. The two differ where an item is more than its bytes, as a jump is. -/

theorem local_timesFrom {item : Reader α} (h : Local item) (n : Nat) (read : List α) :
    Local (timesFrom item n read) := by
  induction n generalizing read with
  | zero => exact local_pure _
  | succ n ih => exact local_bind h fun a => ih (a :: read)

theorem local_times {item : Reader α} (h : Local item) (n : Nat) : Local (times n item) :=
  local_timesFrom h n []

theorem reads_timesFrom {ω : Type} {item : Reader α} {form : ω → Bytes} {means : ω → α → Prop}
    (hlocal : Local item)
    (hitem : ∀ p bytes a, Reads item p bytes a ↔ ∃ w, bytes = form w ∧ means w a)
    (n : Nat) (p : Nat) (bytes : Bytes) (read out : List α) :
    Reads (timesFrom item n read) p bytes out ↔
      ∃ ws as, ws.length = n ∧ bytes = ws.flatMap form ∧ List.Forall₂ means ws as ∧
        out = read.reverse ++ as := by
  induction n generalizing p bytes read with
  | zero =>
    rw [timesFrom, reads_pure]
    constructor
    · intro h
      obtain ⟨rfl, rfl⟩ := h
      exact ⟨[], [], rfl, rfl, .nil, (List.append_nil _).symm⟩
    · intro h
      obtain ⟨ws, as, hlen, rfl, hmeans, rfl⟩ := h
      cases List.length_eq_zero_iff.mp hlen
      cases hmeans
      exact ⟨rfl, List.append_nil _⟩
  | succ n ih =>
    rw [timesFrom, reads_bind hlocal]
    -- What is already read grows with every item, so the hypothesis is about any of it.
    constructor
    · intro h
      obtain ⟨a, xs, hxs, ys, rfl, hys⟩ := h
      obtain ⟨w, rfl, hw⟩ := (hitem p xs a).mp hxs
      obtain ⟨ws, as, rfl, rfl, hmeans, rfl⟩ := (ih _ _ _).mp hys
      exact ⟨w :: ws, a :: as, rfl, rfl, .cons hw hmeans, by simp⟩
    · intro h
      obtain ⟨ws, as, hlen, rfl, hmeans, rfl⟩ := h
      cases hmeans with
      | nil => cases hlen
      | @cons w a ws as hw hmeans =>
        refine ⟨a, form w, (hitem _ _ _).mpr ⟨w, rfl, hw⟩, ws.flatMap form, rfl, ?_⟩
        exact (ih _ _ _).mpr ⟨ws, as, Nat.succ.inj hlen, rfl, hmeans, by simp⟩

/-- **A run of items is the run of their spellings.** -/
theorem reads_times {ω : Type} {item : Reader α} {form : ω → Bytes} {means : ω → α → Prop}
    (hlocal : Local item)
    (hitem : ∀ p bytes a, Reads item p bytes a ↔ ∃ w, bytes = form w ∧ means w a)
    {n : Nat} {as : List α} :
    Reads (times n item) p bytes as ↔
      ∃ ws, ws.length = n ∧ bytes = ws.flatMap form ∧ List.Forall₂ means ws as := by
  rw [times, reads_timesFrom hlocal hitem]
  constructor
  · intro h
    obtain ⟨ws, as, hlen, hbytes, hmeans, rfl⟩ := h
    exact ⟨ws, hlen, hbytes, hmeans⟩
  · intro h
    obtain ⟨ws, hlen, hbytes, hmeans⟩ := h
    exact ⟨ws, as, hlen, hbytes, hmeans, rfl⟩

end Reader

end JvmTrace
