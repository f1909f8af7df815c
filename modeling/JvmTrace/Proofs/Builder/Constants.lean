import JvmTrace.Builder.Script
import JvmTrace.Proofs.ClassFile.View
import JvmTrace.Proofs.ClassFile.Format
import JvmTrace.Proofs.Text.Spellings

/-!
# What the indices of a builder lead to

A builder hands out indices long before there is a pool, and adds to its constants after that. So
what an index leads to is said about **every pool that has the constants of the builder**
(`Pool.Has`). A builder that has more constants asks more of a pool, and therefore nothing that was
once said about an index has to be said again: that is all there is to "an index stays good".

`Gives` packs this up for one step that asks for constants, and composes (`Gives.bind`), so that the
lemma for each kind of constant is read off its definition. That a pool with the constants of a
builder exists, and is the one that is parsed from its image, comes last (`Sound.exists_pool`). Only
there does it matter that indices do not wrap around.
-/

set_option autoImplicit false

namespace JvmTrace

/-- Whether a text is short enough to be written in standard UTF-8. -/
def Text.Short (text : String) : Prop := text.utf8ByteSize < UInt16.size

instance (text : String) : Decidable (Text.Short text) := inferInstanceAs (Decidable (_ < _))

/-- Whether a constant of a builder is read as `c`, into as many slots as it counts for. -/
def BuilderConstant.Means : BuilderConstant → Constant → Prop
  | constant value, c => value.SpelledBy Text.Utf8.encode ∧ c = value
  | raw bytes, c => c.WrittenAs bytes ∧ c.isWide = false

namespace BuilderConstant

variable {bc : BuilderConstant} {c : Constant}

theorem Means.writtenAs (h : bc.Means c) : c.WrittenAs bc.encode := by
  cases bc with
  | constant value =>
    obtain ⟨hspelled, rfl⟩ := h
    exact ⟨_, hspelled, rfl⟩
  | raw bytes => exact h.1

theorem Means.slots_eq (h : bc.Means c) : bc.slots = c.slots := by
  cases bc with
  | constant value =>
    obtain ⟨-, rfl⟩ := h
    rfl
  | raw bytes => exact (Pool.slots_of_narrow h.2).symm

end BuilderConstant

theorem Text.Short.spelledBy {text : String} (h : Text.Short text) :
    (Constant.utf8 text).SpelledBy Text.Utf8.encode := by
  refine ⟨?_, Text.decode_standard text⟩
  rw [Text.Utf8.length_encode]
  exact h

/-- Only floats can be the same without being equal. -/
theorem Constant.eq_of_same {c d : Constant} (h : d.same c = true) (hc : ∀ bits, c ≠ .double bits) :
    d = c := by
  unfold same at h
  split at h
  · next _ bits => exact absurd rfl (hc bits)
  · exact eq_of_beq h

/-- Whether a pool has the constants of a builder, at the indices that they were given. -/
def Pool.Has (pool : Pool) (entries : List (UInt16 × BuilderConstant)) : Prop :=
  ∀ entry ∈ entries, ∃ c, entry.2.Means c ∧ pool.get entry.1 = .ok c

theorem Pool.Has.of_isPrefix {pool : Pool} {before after : List (UInt16 × BuilderConstant)}
    (h : pool.Has after) (hbefore : before <+: after) : pool.Has before :=
  fun entry hentry => h entry (hbefore.subset hentry)

namespace Builder

/-! ## Sound builders -/

/-- How many slots constants of a builder take up. -/
def slotTotal (entries : List (UInt16 × BuilderConstant)) : Nat :=
  (entries.map fun entry => entry.2.slots).sum

/-- The next free index, were it not cut to sixteen bits. -/
def nextIndex (b : Builder) : Nat := 1 + slotTotal b.constants.toList

/-- Every constant can be read back, and has the index that a pool will give it. -/
structure Sound (b : Builder) : Prop where
  meant : ∀ entry ∈ b.constants.toList, ∃ c, entry.2.Means c
  index : ∀ (i : Nat) (entry : UInt16 × BuilderConstant), b.constants.toList[i]? = some entry →
    entry.1 = UInt16.ofNat (1 + slotTotal (b.constants.toList.take i))
  next : b.next = UInt16.ofNat b.nextIndex

/-- The class file that a builder stands for, given a pool with its constants. -/
def classFile (b : Builder) (pool : Pool) : ClassFile :=
  { b.tables with minor := b.minor, major := b.major, pool }

/-- Going from `b` to `b'` adds constants, and that is all it does. -/
structure Adds (b b' : Builder) : Prop where
  sound : b'.Sound
  kept : b.constants.toList <+: b'.constants.toList
  classFile : ∀ pool, b'.classFile pool = b.classFile pool

variable {b b' b'' : Builder}

theorem Adds.refl (h : b.Sound) : Adds b b := ⟨h, List.prefix_refl _, fun _ => rfl⟩

theorem Adds.trans (h : Adds b b') (h' : Adds b' b'') : Adds b b'' :=
  ⟨h'.sound, h.kept.trans h'.kept, fun pool => (h'.classFile pool).trans (h.classFile pool)⟩

theorem Sound.of_constants (h : b.Sound) (hconstants : b'.constants = b.constants)
    (hnext : b'.next = b.next) : b'.Sound := by
  refine ⟨hconstants ▸ h.meant, hconstants ▸ h.index, ?_⟩
  rw [hnext, h.next, nextIndex, nextIndex, hconstants]

def push (b : Builder) (c : BuilderConstant) : Builder :=
  { b with constants := b.constants.push (b.next, c), next := b.next + UInt16.ofNat c.slots }

theorem Sound.push (hb : b.Sound) {c : BuilderConstant} (hc : ∃ k, c.Means k) : (b.push c).Sound where
  meant := by
    intro entry hentry
    rcases List.mem_append.mp (Array.toList_push ▸ hentry) with hold | hnew
    · exact hb.meant entry hold
    · rw [List.mem_singleton.mp hnew]
      exact hc
  index := by
    intro i entry hentry
    simp only [Builder.push, Array.toList_push] at hentry ⊢
    rcases Nat.lt_trichotomy i b.constants.toList.length with hi | rfl | hi
    · rw [List.getElem?_append_left hi] at hentry
      rw [List.take_append_of_le_length (Nat.le_of_lt hi)]
      exact hb.index i entry hentry
    · rw [List.getElem?_concat_length] at hentry
      rw [List.take_left, ← Option.some.inj hentry]
      exact hb.next
    · rw [List.getElem?_eq_none (by rw [List.length_append]; exact hi)] at hentry
      cases hentry
  next := by
    rw [nextIndex, slotTotal, Builder.push, Array.toList_push, List.map_append, List.sum_append,
      ← slotTotal, ← Nat.add_assoc, ← nextIndex, UInt16.ofNat_add, ← hb.next]
    rfl

theorem Sound.adds_push (hb : b.Sound) {c : BuilderConstant} (hc : ∃ k, c.Means k) :
    Adds b (b.push c) := by
  refine ⟨hb.push hc, ?_, fun _ => rfl⟩
  rw [Builder.push, Array.toList_push]
  exact List.prefix_append _ _

/-! ## Steps that ask for constants -/

/-- A step that adds constants and nothing else, with an answer of which `Answer` holds in every pool
that has the constants by then. -/
def Gives {α : Type} (step : BuilderM α) (Answer : α → Pool → Prop) : Prop :=
  ∀ b : Builder, b.Sound → Adds b (step.run b).2 ∧
    ∀ pool : Pool, pool.Has (step.run b).2.constants.toList → Answer (step.run b).1 pool

section Gives

variable {α β : Type} {step : BuilderM α} {P Q : α → Pool → Prop}

theorem Gives.imp (h : Gives step P) (himp : ∀ a pool, P a pool → Q a pool) : Gives step Q := by
  intro b hb
  obtain ⟨hadds, hanswer⟩ := h b hb
  exact ⟨hadds, fun pool hpool => himp _ pool (hanswer pool hpool)⟩

theorem gives_pure (a : α) : Gives (pure a) fun answer _ => answer = a :=
  fun _ hb => ⟨.refl hb, fun _ _ => rfl⟩

/-- What the first step has answered still holds after the second. -/
theorem Gives.bind {f : α → BuilderM β} {R : α → β → Pool → Prop} (h : Gives step P)
    (hf : ∀ a, Gives (f a) (R a)) :
    Gives (step >>= f) fun answer pool => ∃ a, P a pool ∧ R a answer pool := by
  intro b hb
  obtain ⟨hadds, hfirst⟩ := h b hb
  obtain ⟨hadds', hsecond⟩ := hf (step.run b).1 _ hadds.sound
  exact ⟨hadds.trans hadds', fun pool hpool =>
    ⟨_, hfirst pool (hpool.of_isPrefix hadds'.kept), hsecond pool hpool⟩⟩

end Gives

theorem run_share (c : BuilderConstant) (b : Builder) :
    (share c).run b = (b.constants.find? (fun entry => entry.2.same c)).elim (b.next, b.push c)
      fun entry => (entry.1, b) := by
  unfold share
  rw [StateT.run_bind, StateT.run_get, pure_bind]
  split
  · next index there hfind =>
    rw [hfind]
    rfl
  · next hfind =>
    rw [hfind]
    rfl

/-- The index of a constant leads to it, or to one that was taken for the same. -/
theorem gives_share {c : BuilderConstant} (hc : ∃ k, c.Means k) :
    Gives (share c) fun index pool => ∃ there k, (there = c ∨ there.same c = true) ∧ there.Means k ∧
      pool.get index = .ok k := by
  intro b hb
  rw [run_share]
  cases hfind : b.constants.find? (fun entry => entry.2.same c) with
  | some entry =>
    refine ⟨.refl hb, fun pool hpool => ?_⟩
    obtain ⟨k, hk, hget⟩ := hpool entry (Array.mem_toList_iff.mpr (Array.mem_of_find?_eq_some hfind))
    have hsame : entry.2.same c = true := by simpa using Array.find?_some hfind
    exact ⟨entry.2, k, Or.inr hsame, hk, hget⟩
  | none =>
    refine ⟨hb.adds_push hc, fun pool hpool => ?_⟩
    have hmem : (b.next, c) ∈ (b.push c).constants.toList := by
      simp [Builder.push]
    obtain ⟨k, hk, hget⟩ := hpool _ hmem
    exact ⟨c, k, Or.inl rfl, hk, hget⟩

/-- The index of a constant leads to it, unless it is a float. -/
theorem gives_constant {c : Constant} (hc : c.SpelledBy Text.Utf8.encode)
    (hfloat : ∀ bits, c ≠ .double bits) :
    Gives (constant c) fun index pool => pool.get index = .ok c := by
  have hmeant : (BuilderConstant.constant c).Means c := ⟨hc, rfl⟩
  refine (gives_share ⟨c, hmeant⟩).imp fun index pool h => ?_
  obtain ⟨there, k, hsame, hmeans, hget⟩ := h
  rw [hget]
  cases there with
  | constant d =>
    obtain ⟨-, rfl⟩ := hmeans
    rcases hsame with hsame | hsame
    · cases hsame
      rfl
    · rw [Constant.eq_of_same hsame hfloat]
  | raw bytes =>
    rcases hsame with hsame | hsame <;> cases hsame

theorem gives_utf8 {text : String} (h : Text.Short text) :
    Gives (utf8 text) fun index pool => pool.utf8 index = .ok text := by
  refine (gives_constant h.spelledBy (by simp)).imp fun index pool hget => ?_
  exact Except.bind_eq_ok.mpr ⟨_, hget, rfl⟩

theorem gives_classRef {name : String} (h : Text.Short name) :
    Gives (classRef name) fun index pool => pool.className index = .ok name := by
  refine ((gives_utf8 h).bind fun i => gives_constant (c := .classRef i) trivial (by simp)).imp ?_
  rintro index pool ⟨i, htext, hget⟩
  exact Except.bind_eq_ok.mpr ⟨_, hget, htext⟩

theorem gives_string {text : String} (h : Text.Short text) :
    Gives (string text) fun index pool => pool.resolve index = .ok (.named index (Text.quote text)) := by
  refine ((gives_utf8 h).bind fun i => gives_constant (c := .string i) trivial (by simp)).imp ?_
  rintro index pool ⟨i, htext, hget⟩
  exact Except.bind_eq_ok.mpr ⟨_, hget, Except.bind_eq_ok.mpr ⟨_, htext, rfl⟩⟩

theorem gives_nameAndType {name descriptor : String} (hname : Text.Short name)
    (hdescriptor : Text.Short descriptor) :
    Gives (nameAndType name descriptor) fun index pool =>
      pool.nameAndType index = .ok (name, descriptor) := by
  refine ((gives_utf8 hname).bind fun i => (gives_utf8 hdescriptor).bind fun j =>
    gives_constant (c := .nameAndType i j) trivial (by simp)).imp ?_
  rintro index pool ⟨i, hi, j, hj, hget⟩
  exact Except.bind_eq_ok.mpr ⟨_, hget, Except.bind_eq_ok.mpr ⟨_, hi,
    Except.bind_eq_ok.mpr ⟨_, hj, rfl⟩⟩⟩

theorem gives_memberRef {kind : MemberKind} {owner name descriptor : String}
    (howner : Text.Short owner) (hname : Text.Short name) (hdescriptor : Text.Short descriptor) :
    Gives (memberRef kind owner name descriptor) fun index pool =>
      pool.member index = .ok ⟨index, some owner, name, some descriptor⟩ := by
  refine ((gives_classRef howner).bind fun i => (gives_nameAndType hname hdescriptor).bind fun j =>
    gives_constant (c := .member kind i j) trivial (by simp)).imp ?_
  rintro index pool ⟨i, hi, j, hj, hget⟩
  exact Except.bind_eq_ok.mpr ⟨_, hget, Except.bind_eq_ok.mpr ⟨_, hi,
    Except.bind_eq_ok.mpr ⟨_, hj, rfl⟩⟩⟩

/-! ## The pool of an image -/

theorem slotTotal_eq {entries : List (UInt16 × BuilderConstant)} {constants : List Constant}
    (h : List.Forall₂ (fun entry c => entry.2.Means c) entries constants) :
    slotTotal entries = Pool.slotCount constants := by
  induction h with
  | nil => rfl
  | @cons entry c entries constants hc _ ih =>
    rw [Pool.slotCount_cons, ← ih, ← hc.slots_eq]
    rfl

/-- The index that a sound builder gave to a constant is that of its place, unless it has wrapped
around. -/
theorem Sound.toNat_index (hb : b.Sound) (hroom : b.nextIndex < UInt16.size)
    {constants : List Constant}
    (hmeant : List.Forall₂ (fun entry c => entry.2.Means c) b.constants.toList constants) {i : Nat}
    {entry : UInt16 × BuilderConstant} (hentry : b.constants.toList[i]? = some entry) :
    entry.1.toNat = Pool.slotCount (constants.take i) + 1 := by
  have hbefore : slotTotal (b.constants.toList.take i) = Pool.slotCount (constants.take i) :=
    slotTotal_eq (List.forall₂_take i hmeant)
  have htotal : slotTotal b.constants.toList =
      Pool.slotCount (constants.take i) + Pool.slotCount (constants.drop i) := by
    rw [slotTotal_eq hmeant, ← Pool.slotCount_append, List.take_append_drop]
  rw [nextIndex] at hroom
  rw [hb.index i entry hentry, hbefore, UInt16.toNat_ofNat_of_lt' (by omega), Nat.add_comm]

/-- **A sound builder has a pool**, if no index has wrapped around: with its constants, each at its
index, and parsed from its image together with its tables, if those fit. -/
theorem Sound.exists_pool (hb : b.Sound) (hroom : b.nextIndex < UInt16.size) :
    ∃ pool : Pool, pool.Has b.constants.toList ∧
      (b.tables.Fits → ClassFile.parse b.build = .ok (b.classFile pool)) := by
  obtain ⟨constants, hmeant⟩ := exists_forall₂ hb.meant
  obtain ⟨slots, hslots⟩ := (show Pool.Holds _ constants from Or.inl rfl).exists_fills
  refine ⟨⟨slots.toArray⟩, ?_, fun hfits => ?_⟩
  · intro entry hentry
    obtain ⟨i, hi, rfl⟩ := List.mem_iff_getElem.mp hentry
    have hi' : i < constants.length := hmeant.length_eq ▸ hi
    have hindex := hb.toNat_index hroom hmeant (List.getElem?_eq_getElem hi)
    refine ⟨constants.get ⟨i, hi'⟩, hmeant.get hi hi', Pool.get_eq_ok.mpr ⟨_, hindex, ?_⟩⟩
    rw [List.getElem?_toArray]
    exact (hslots.getElem?_eq _).mpr ⟨i, List.getElem?_eq_getElem hi', rfl⟩
  · have hcount : b.next.toNat - 1 = Pool.slotCount constants := by
      rw [hb.next, UInt16.toNat_ofNat_of_lt' hroom, nextIndex, slotTotal_eq hmeant,
        Nat.add_sub_cancel_left]
    refine ClassFile.parse_eq_ok_iff.mpr (ClassFile.reads_content.mpr ⟨b.next, constants,
      b.constants.toList.map fun entry => entry.2.encode, ?_, ?_, hfits, ?_⟩)
    · rw [hcount]
      exact hslots
    · rw [List.forall₂_map_right_iff]
      exact (hmeant.imp fun _ _ h => h.writtenAs).flip
    · rw [← List.flatMap_def]
      rfl

end Builder

end JvmTrace
