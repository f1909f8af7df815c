import JvmTrace.Pool.Basic
import JvmTrace.Proofs.Constant.Format
import Mathlib.Algebra.GroupWithZero.Nat
import Mathlib.Data.List.ReduceOption

/-!
# How constants fill the slots of a pool

The format writes constants one after the other, and the count field says how many *slots* they take
up. `Fills` is the rule that connects the two, one case for each thing that can happen to the next
constant, and a pool is read exactly from constants that fill its slots (`reads_readSlots`).
Everything else in this file is a fact about `Fills`: no other proof looks at the reader of a pool.

A wide constant in the very last slot is not followed by a placeholder. So one list of constants may
come with two counts, and the fact that places them (`Fills.getElem?_eq`) has to hold for both.
-/

set_option autoImplicit false

namespace JvmTrace.Pool

open Reader

/-! ## Filling slots -/

/-- Constants that take up exactly `room` slots, and the slots that they take up. -/
inductive Fills : (room : Nat) → List Constant → List Slot → Prop where
  | full : Fills 0 [] []
  | last {c : Constant} : Fills 1 [c] [some c]
  | narrow {room : Nat} {c : Constant} {constants : List Constant} {slots : List Slot}
      (hc : c.isWide = false) (rest : Fills (room + 1) constants slots) :
      Fills (room + 2) (c :: constants) (some c :: slots)
  | wide {room : Nat} {c : Constant} {constants : List Constant} {slots : List Slot}
      (hc : c.isWide = true) (rest : Fills room constants slots) :
      Fills (room + 2) (c :: constants) (some c :: none :: slots)

/-- How many slots constants take up, the last placeholder included. -/
def slotCount (constants : List Constant) : Nat := (constants.map Constant.slots).sum

/-- Whether `room` may be the number of slots of constants. The last placeholder may be left out. -/
def Holds (room : Nat) (constants : List Constant) : Prop :=
  room = slotCount constants ∨
    room + 1 = slotCount constants ∧ ∃ c ∈ constants.getLast?, c.isWide = true

instance (room : Nat) (constants : List Constant) : Decidable (Holds room constants) :=
  inferInstanceAs (Decidable (_ ∨ _ ∧ _))

@[simp] theorem slotCount_nil : slotCount [] = 0 := rfl

@[simp] theorem slotCount_cons (c : Constant) (constants : List Constant) :
    slotCount (c :: constants) = c.slots + slotCount constants := rfl

theorem slotCount_append (before after : List Constant) :
    slotCount (before ++ after) = slotCount before + slotCount after := by
  simp [slotCount]

theorem slots_of_narrow {c : Constant} (h : c.isWide = false) : c.slots = 1 := by
  simp [Constant.slots, h]

theorem slots_of_wide {c : Constant} (h : c.isWide = true) : c.slots = 2 := by
  simp [Constant.slots, h]

theorem slots_pos (c : Constant) : 0 < c.slots := by
  unfold Constant.slots
  split <;> decide

/-- A last constant that is wide takes up two slots by itself. -/
theorem two_le_slotCount {constants : List Constant} {c : Constant} (h : c ∈ constants.getLast?)
    (hc : c.isWide = true) : 2 ≤ slotCount constants := by
  obtain ⟨before, rfl⟩ := List.getLast?_eq_some_iff.mp h
  rw [slotCount_append, slotCount_cons, slots_of_wide hc]
  omega

theorem Holds.exists_fills {room : Nat} {constants : List Constant} (h : Holds room constants) :
    ∃ slots, Fills room constants slots := by
  induction constants generalizing room with
  | nil =>
    rcases h with rfl | ⟨-, c, hc, -⟩
    · exact ⟨[], .full⟩
    · cases hc
  | cons c rest ih =>
    cases rest with
    | nil =>
      rcases h with rfl | ⟨hroom, d, hd, hwide⟩
      · cases hc : c.isWide with
        | false =>
          rw [slotCount_cons, slots_of_narrow hc]
          exact ⟨_, .last⟩
        | true =>
          rw [slotCount_cons, slots_of_wide hc]
          exact ⟨_, .wide hc .full⟩
      · obtain rfl : c = d := Option.some.inj hd
        rw [slotCount_cons, slots_of_wide hwide, slotCount_nil] at hroom
        obtain rfl : room = 1 := by omega
        exact ⟨_, .last⟩
    | cons d rest =>
      -- What is left when `c` has its slots is room for the others, and there are others.
      have hrest : ∀ left, left + c.slots = room → Holds left (d :: rest) := by
        intro left hleft
        rw [Holds, slotCount_cons] at h
        rcases h with hroom | ⟨hroom, last, hlast, hwide⟩
        · exact Or.inl (by omega)
        · exact Or.inr ⟨by omega, last, hlast, hwide⟩
      have hleast : c.slots + 1 ≤ room := by
        rcases h with rfl | ⟨hroom, last, hlast, hwide⟩
        · have := slots_pos d
          simp only [slotCount_cons]
          omega
        · have : 2 ≤ slotCount (d :: rest) := two_le_slotCount hlast hwide
          rw [slotCount_cons] at hroom
          omega
      cases hc : c.isWide with
      | false =>
        rw [slots_of_narrow hc] at hrest hleast
        obtain ⟨left, rfl⟩ := Nat.exists_eq_add_of_le' hleast
        obtain ⟨slots, hslots⟩ := ih (hrest (left + 1) rfl)
        exact ⟨_, .narrow hc hslots⟩
      | true =>
        rw [slots_of_wide hc] at hrest hleast
        obtain ⟨left, rfl⟩ := Nat.exists_eq_add_of_le' (Nat.le_of_succ_le hleast)
        obtain ⟨slots, hslots⟩ := ih (hrest left rfl)
        exact ⟨_, .wide hc hslots⟩

/-! ## Where a constant ends up -/

theorem Fills.length_eq {room : Nat} {constants : List Constant} {slots : List Slot}
    (h : Fills room constants slots) : slots.length = room := by
  induction h with
  | full => rfl
  | last => rfl
  | narrow _ _ ih => rw [List.length_cons, ih]
  | wide _ _ ih => rw [List.length_cons, List.length_cons, ih]

/-- The constants can be read off the slots that they fill. -/
theorem Fills.reduceOption_slots {room : Nat} {constants : List Constant} {slots : List Slot}
    (h : Fills room constants slots) : slots.reduceOption = constants := by
  induction h with
  | full => rfl
  | last => rfl
  | narrow _ _ ih => rw [List.reduceOption_cons_of_some, ih]
  | wide _ _ ih => rw [List.reduceOption_cons_of_some, List.reduceOption_cons_of_none, ih]

/-- A place is that of the first constant, or lies behind the slots of the first constant. -/
theorem exists_place_cons {c d : Constant} {rest : List Constant} {place : Nat} :
    (∃ i, (c :: rest)[i]? = some d ∧ place = slotCount ((c :: rest).take i)) ↔
      (c = d ∧ place = 0) ∨ ∃ i, rest[i]? = some d ∧ place = slotCount (rest.take i) + c.slots := by
  constructor
  · intro h
    obtain ⟨i, hi, hplace⟩ := h
    cases i with
    | zero => exact Or.inl ⟨Option.some.inj hi, hplace⟩
    | succ i => exact Or.inr ⟨i, hi, hplace.trans (Nat.add_comm _ _)⟩
  · intro h
    rcases h with ⟨rfl, rfl⟩ | ⟨i, hi, hplace⟩
    · exact ⟨0, rfl, rfl⟩
    · exact ⟨i + 1, hi, hplace.trans (Nat.add_comm _ _)⟩

/-- **Slots hold the constants that fill them, each behind the slots of those before it, and nothing
else.** -/
theorem Fills.getElem?_eq {room : Nat} {constants : List Constant} {slots : List Slot}
    (h : Fills room constants slots) {d : Constant} (place : Nat) :
    slots[place]? = some (some d) ↔
      ∃ i, constants[i]? = some d ∧ place = slotCount (constants.take i) := by
  induction h generalizing place with
  | full => simp
  | @last c =>
    rw [exists_place_cons]
    cases place <;> simp
  | @narrow room c constants slots hc _ ih =>
    rw [exists_place_cons, slots_of_narrow hc]
    cases place with
    | zero => simp
    | succ place =>
      rw [List.getElem?_cons_succ, ih]
      simp
  | @wide room c constants slots hc _ ih =>
    rw [exists_place_cons, slots_of_wide hc]
    match place with
    | 0 => simp
    | 1 => simp -- the placeholder
    | place + 2 =>
      rw [List.getElem?_cons_succ, List.getElem?_cons_succ, ih]
      simp

theorem get_eq_ok {pool : Pool} {index : UInt16} {c : Constant} :
    pool.get index = .ok c ↔
      ∃ place, index.toNat = place + 1 ∧ pool.slots[place]? = some (some c) := by
  unfold get get?
  cases hindex : index.toNat with
  | zero => simp
  | succ place =>
    simp only [Nat.add_right_cancel_iff, exists_eq_left']
    cases hslot : pool.slots[place]? with
    | none => simp
    | some slot => cases slot <;> simp

/-- What follows a wide constant is its placeholder, or nothing. -/
theorem Fills.getElem?_succ_of_wide {room : Nat} {constants : List Constant} {slots : List Slot}
    (h : Fills room constants slots) {c d : Constant} (hwide : c.isWide = true) (place : Nat)
    (hc : slots[place]? = some (some c)) : slots[place + 1]? ≠ some (some d) := by
  induction h generalizing place with
  | full => simp
  | last => simp
  | @narrow room first constants slots hfirst _ ih =>
    cases place with
    | zero =>
      cases hc
      rw [hfirst] at hwide
      cases hwide
    | succ place => exact ih place hc
  | @wide room first constants slots _ _ ih =>
    match place with
    | 0 => simp
    | 1 => cases hc
    | place + 2 => exact ih place hc

theorem get_eq_error_iff {pool : Pool} {index : UInt16} :
    pool.get index = .error (.invalidIndex index) ↔ ∀ c, pool.get index ≠ .ok c := by
  unfold get
  cases pool.get? index <;> simp

/-- The index behind that of a wide constant leads nowhere. -/
theorem Fills.get_succ_of_wide {room : Nat} {constants : List Constant} {pool : Pool}
    (h : Fills room constants pool.slots.toList) {index : UInt16} {c : Constant}
    (hget : pool.get index = .ok c) (hwide : c.isWide = true) :
    pool.get (index + 1) = .error (.invalidIndex (index + 1)) := by
  rw [get_eq_error_iff]
  intro d hd
  obtain ⟨place, hplace, hslot⟩ := get_eq_ok.mp hget
  obtain ⟨next, hnext, hslot'⟩ := get_eq_ok.mp hd
  -- Zero leads nowhere, so adding one has not wrapped around.
  have hsucc : next = place + 1 := by
    have hadd := UInt16.toNat_add index 1
    have hlt := index.toNat_lt
    rw [hnext, hplace, show (1 : UInt16).toNat = 1 from rfl] at hadd
    omega
  subst hsucc
  rw [← Array.getElem?_toList] at hslot hslot'
  exact h.getElem?_succ_of_wide hwide place hslot hslot'

/-! ## Reading them -/

theorem delimited_readSlots (room : Nat) (slots : Array Slot) :
    Delimited (readSlots room slots) := by
  induction room, slots using readSlots.induct with
  | case1 slots => exact delimited_pure _
  | case2 slots => exact delimited_map _ Constant.delimited_read
  | case3 slots room ihwide ihnarrow =>
    refine delimited_bind Constant.delimited_read fun c => ?_
    split
    · exact ihwide c
    · exact ihnarrow c

/-- **A pool is read exactly from written forms of constants that fill its slots.** -/
theorem reads_readSlots {p : Nat} {bytes : Bytes} {room : Nat} {slots out : Array Slot} :
    Reads (readSlots room slots) p bytes out ↔
      ∃ constants pieces added,
        Fills room constants added ∧ List.Forall₂ Constant.WrittenAs constants pieces ∧
        bytes = pieces.flatten ∧ out = (slots.toList ++ added).toArray := by
  induction room, slots using readSlots.induct generalizing p bytes with
  | case1 slots =>
    rw [readSlots, reads_pure]
    constructor
    · intro h
      obtain ⟨rfl, rfl⟩ := h
      exact ⟨[], [], [], .full, .nil, rfl, by simp⟩
    · intro h
      obtain ⟨_, _, _, hfills, hwritten, rfl, rfl⟩ := h
      cases hfills
      cases hwritten
      simp
  | case2 slots =>
    rw [readSlots, reads_map Constant.delimited_read.isLocal]
    simp only [Constant.reads_constant]
    constructor
    · intro h
      obtain ⟨c, hc, rfl⟩ := h
      exact ⟨[c], [bytes], [some c], .last, .cons hc .nil, by simp, Array.toList_inj.mp (by simp)⟩
    · intro h
      obtain ⟨_, _, _, hfills, hwritten, rfl, rfl⟩ := h
      cases hfills with
      | @last c =>
        cases hwritten with
        | @cons _ piece _ _ hc hnil =>
          cases hnil
          exact ⟨c, by simpa using hc, Array.toList_inj.mp (by simp)⟩
  | case3 slots room ihwide ihnarrow =>
    rw [readSlots, reads_bind Constant.delimited_read.isLocal]
    simp only [Constant.reads_constant]
    -- The reader goes on with one slot fewer or with two, as the constant is wide or not, and so
    -- does `Fills`.
    constructor
    · intro h
      obtain ⟨c, piece, hc, rest, rfl, hrest⟩ := h
      split at hrest
      · next hwide =>
        obtain ⟨constants, pieces, added, hfills, hwritten, rfl, rfl⟩ := (ihwide c).mp hrest
        exact ⟨c :: constants, piece :: pieces, some c :: none :: added, .wide hwide hfills,
          .cons hc hwritten, rfl, by simp⟩
      · next hnarrow =>
        obtain ⟨constants, pieces, added, hfills, hwritten, rfl, rfl⟩ := (ihnarrow c).mp hrest
        exact ⟨c :: constants, piece :: pieces, some c :: added,
          .narrow (by simpa using hnarrow) hfills, .cons hc hwritten, rfl, by simp⟩
    · intro h
      obtain ⟨_, _, _, hfills, hwritten, rfl, rfl⟩ := h
      cases hfills with
      | @narrow _ c constants added hnarrow hfills =>
        cases hwritten with
        | @cons _ piece _ pieces hc hwritten =>
          refine ⟨c, piece, hc, pieces.flatten, rfl, ?_⟩
          rw [if_neg (by simp [hnarrow])]
          exact (ihnarrow c).mpr ⟨constants, pieces, added, hfills, hwritten, rfl, by simp⟩
      | @wide _ c constants added hwide hfills =>
        cases hwritten with
        | @cons _ piece _ pieces hc hwritten =>
          refine ⟨c, piece, hc, pieces.flatten, rfl, ?_⟩
          rw [if_pos hwide]
          exact (ihwide c).mpr ⟨constants, pieces, added, hfills, hwritten, rfl, by simp⟩

theorem delimited_read (count : UInt16) : Delimited (read count) :=
  delimited_map _ (delimited_readSlots _ _)

theorem reads_read {p : Nat} {bytes : Bytes} {count : UInt16} {pool : Pool} :
    Reads (read count) p bytes pool ↔
      ∃ constants pieces, Fills (count.toNat - 1) constants pool.slots.toList ∧
        List.Forall₂ Constant.WrittenAs constants pieces ∧ bytes = pieces.flatten := by
  unfold read
  rw [reads_map (delimited_readSlots _ _).isLocal]
  simp only [reads_readSlots]
  constructor
  · intro h
    obtain ⟨_, ⟨constants, pieces, added, hfills, hwritten, rfl, rfl⟩, rfl⟩ := h
    exact ⟨constants, pieces, hfills, hwritten, rfl⟩
  · intro h
    obtain ⟨constants, pieces, hfills, hwritten, rfl⟩ := h
    exact ⟨pool.slots, ⟨constants, pieces, pool.slots.toList, hfills, hwritten, rfl, rfl⟩, rfl⟩

end JvmTrace.Pool
