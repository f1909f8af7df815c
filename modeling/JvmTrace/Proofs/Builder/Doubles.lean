import JvmTrace.Proofs.Builder.Indices

/-!
# Floats are shared as numbers

A builder compares constants to share them, and floats of 64 bits it compares as numbers. So one index
stands for both zeros, whichever was asked for first, and what is not a number gets a new index each
time. For all other floats equal numbers are equal bits, and the index denotes the bits that were
asked for.

The law has two sides (`doubles_denote`). Where a float ends up is a matter of the history of the
script: at its index are the bits of the *first* one that is the same number (`firstSame`). Whether two
steps share an index is a matter of the two floats alone. That sharing loses the sign of a zero is the
last statement of the file.
-/

set_option autoImplicit false

namespace JvmTrace

/-! ## The same number -/

namespace Decimal.Format

variable {f : Format} {a b c : Nat}

theorem sameNumber_iff : f.sameNumber a b = true ↔
    f.decode a ≠ .nan ∧ f.decode b ≠ .nan ∧ (a = b ∨ f.isZero a = true ∧ f.isZero b = true) := by
  unfold sameNumber
  split <;> simp_all

theorem sameNumber_symm (h : f.sameNumber a b = true) : f.sameNumber b a = true := by
  obtain ⟨ha, hb, hab⟩ := sameNumber_iff.mp h
  refine sameNumber_iff.mpr ⟨hb, ha, ?_⟩
  rcases hab with rfl | ⟨hza, hzb⟩
  · exact Or.inl rfl
  · exact Or.inr ⟨hzb, hza⟩

theorem sameNumber_trans (h : f.sameNumber a b = true) (h' : f.sameNumber b c = true) :
    f.sameNumber a c = true := by
  obtain ⟨ha, -, hab⟩ := sameNumber_iff.mp h
  obtain ⟨-, hc, hbc⟩ := sameNumber_iff.mp h'
  refine sameNumber_iff.mpr ⟨ha, hc, ?_⟩
  rcases hab with rfl | ⟨hza, hzb⟩
  · exact hbc
  · rcases hbc with rfl | ⟨-, hzc⟩
    · exact Or.inr ⟨hza, hzb⟩
    · exact Or.inr ⟨hza, hzc⟩

theorem eq_of_sameNumber (h : f.sameNumber a b = true) (hzero : f.isZero b = false) : a = b := by
  obtain ⟨-, -, hab⟩ := sameNumber_iff.mp h
  rcases hab with hab | ⟨-, hzb⟩
  · exact hab
  · rw [hzero] at hzb
    cases hzb

end Decimal.Format

theorem BuilderConstant.slots_pos (bc : BuilderConstant) : 0 < bc.slots := by
  cases bc with
  | constant c => exact Pool.slots_pos c
  | raw bytes => exact Nat.one_pos

namespace Builder

/-- Whether two floats are the same number. -/
def sameDouble (a b : UInt64) : Bool := Decimal.Format.double.sameNumber a.toNat b.toNat

theorem same_double {bc : BuilderConstant} {bits : UInt64}
    (h : bc.same (.constant (.double bits)) = true) :
    ∃ d, bc = .constant (.double d) ∧ sameDouble d bits = true := by
  cases bc with
  | raw bytes => cases h
  | constant c =>
    cases c with
    | double d => exact ⟨d, rfl, h⟩
    | _ => cases h

theorem same_double_congr {a b : UInt64} (h : sameDouble a b = true) (bc : BuilderConstant) :
    bc.same (.constant (.double a)) = bc.same (.constant (.double b)) := by
  rw [Bool.eq_iff_iff]
  constructor
  · intro ha
    obtain ⟨d, rfl, hd⟩ := same_double ha
    exact Decimal.Format.sameNumber_trans hd h
  · intro hb
    obtain ⟨d, rfl, hd⟩ := same_double hb
    exact Decimal.Format.sameNumber_trans hd (Decimal.Format.sameNumber_symm h)

/-! ## The first of the same number -/

def Step.double? : Step → Option UInt64
  | .double bits => some bits
  | _ => none

/-- The first float of a script that is the same number. -/
def firstSame (script : List Step) (bits : UInt64) : Option UInt64 :=
  (script.filterMap Step.double?).find? fun earlier => sameDouble earlier bits

/-- A table answers a request for a float with the first float of the script that is the same
number. -/
def Remembers (b : Builder) (script : List Step) : Prop :=
  ∀ bits, (b.table.entry? (.constant (.double bits))).map Prod.snd =
    (firstSame script bits).map fun d => .constant (.double d)

theorem Table.entry?_append_of_no_float {t added : Table} (h : ∀ entry ∈ added, ¬ entry.2.IsFloat)
    (bits : UInt64) :
    Table.entry? (t ++ added) (.constant (.double bits)) = t.entry? (.constant (.double bits)) := by
  have hnone : added.find? (fun entry => entry.2.same (.constant (.double bits))) = none := by
    rw [List.find?_eq_none]
    intro entry hentry hsame
    obtain ⟨d, hd, -⟩ := same_double hsame
    exact h entry hentry ⟨d, hd⟩
  rw [Table.entry?, List.find?_append, hnone, Option.or_none]
  rfl

theorem firstSame_concat_of_no_float {script : List Step} {step : Step} (h : step.double? = none)
    (bits : UInt64) : firstSame (script ++ [step]) bits = firstSame script bits := by
  rw [firstSame, List.filterMap_append, List.filterMap_cons_none h, List.filterMap_nil,
    List.append_nil]
  rfl

theorem firstSame_concat_double (script : List Step) (d bits : UInt64) :
    firstSame (script ++ [.double d]) bits =
      (firstSame script bits).or (if sameDouble d bits then some d else none) := by
  rw [firstSame, List.filterMap_append, List.find?_append]
  exact congrArg _ List.find?_singleton

/-- What is the same number as a later one of the same number was asked for before. -/
theorem firstSame_isSome_of_same {script : List Step} {a b : UInt64}
    (ha : (firstSame script a).isSome = true) (hab : sameDouble a b = true) :
    (firstSame script b).isSome = true := by
  rw [firstSame, List.find?_isSome] at ha ⊢
  obtain ⟨d, hd, hda⟩ := ha
  exact ⟨d, hd, Decimal.Format.sameNumber_trans hda hab⟩

variable {b : Builder} {script : List Step}

theorem Remembers.perform_of_no_float (h : b.Remembers script) {step : Step}
    (hfloat : step.double? = none) : (step.perform.run b).2.Remembers (script ++ [step]) := by
  have hstep : ∀ bits, step ≠ .double bits := by
    rintro bits rfl
    cases hfloat
  obtain ⟨added, hadded, hfloats⟩ := (step.lasts_perform hstep b).1
  intro bits
  rw [hadded, Table.entry?_append_of_no_float hfloats, firstSame_concat_of_no_float hfloat]
  exact h bits

theorem run_double (b : Builder) (bits : UInt64) :
    (Step.double bits).perform.run b =
      (some ((share (.constant (.double bits))).run b).1,
        ((share (.constant (.double bits))).run b).2) := rfl

theorem Remembers.perform_double (h : b.Remembers script) (d : UInt64) :
    ((Step.double d).perform.run b).2.Remembers (script ++ [.double d]) := by
  intro bits
  rw [firstSame_concat_double, run_double]
  rcases run_share_cases b (.constant (.double d)) with ⟨entry, hfind, hrun⟩ | ⟨hnone, hrun⟩
  · -- Nothing is added to the table, and nothing new is remembered.
    have hknown : (firstSame script d).isSome = true := by
      rw [← Option.isSome_map, ← h d, hfind]
      rfl
    have hold : (firstSame script bits).or (if sameDouble d bits then some d else none) =
        firstSame script bits := by
      by_cases hsame : sameDouble d bits = true
      · obtain ⟨earlier, hearlier⟩ :=
          Option.isSome_iff_exists.mp (firstSame_isSome_of_same hknown hsame)
        rw [hearlier, Option.some_or]
      · rw [if_neg hsame, Option.or_none]
    rw [hrun, hold]
    exact h bits
  · have hsame : BuilderConstant.same (.constant (.double d)) (.constant (.double bits)) =
        sameDouble d bits := rfl
    rw [hrun, table_push, Table.entry?, List.find?_append, ← Table.entry?, Option.map_or, h bits,
      List.find?_singleton, hsame, Option.map_or]
    split <;> rfl

theorem Remembers.runScript {done : List Step} (h : b.Remembers done) (script : List Step) :
    (b.runScript script).2.Remembers (done ++ script) := by
  induction script generalizing b done with
  | nil => rwa [List.append_nil]
  | cons step rest ih =>
    have hstep : (step.perform.run b).2.Remembers (done ++ [step]) := by
      cases step with
      | double d => exact h.perform_double d
      | _ => exact h.perform_of_no_float rfl
    rw [List.append_cons]
    exact ih hstep

theorem lasts_name (this : String) : Lasts (name this) fun _ _ => True := by
  rw [name_eq]
  exact (((lasts_classRef this).then_modifyTables _).bind fun _ =>
    (lasts_classRef "java/lang/Object").then_modifyTables _).imp fun _ _ _ => trivial

theorem remembers_new (this : String) : (new this).Remembers [] := by
  obtain ⟨added, hadded, hfloats⟩ := (lasts_name this blank).1
  intro bits
  rw [new, hadded, Table.entry?_append_of_no_float hfloats]
  rfl

theorem remembers_runScript (this : String) (script : List Step) :
    ((new this).runScript script).2.Remembers script :=
  (remembers_new this).runScript script

/-! ## Where a float ends up -/

/-- The bits at the index of a float that is asked for after a script. -/
def sharedBits (script : List Step) (bits : UInt64) : UInt64 := (firstSame script bits).getD bits

theorem sharedBits_eq {bits : UInt64} (h : Decimal.Format.double.isZero bits.toNat = false) :
    sharedBits script bits = bits := by
  cases hfirst : firstSame script bits with
  | none => rw [sharedBits, hfirst, Option.getD_none]
  | some d =>
    have hsame : sameDouble d bits = true := by simpa using List.find?_some hfirst
    rw [sharedBits, hfirst, Option.getD_some]
    exact UInt64.toNat_inj.mp (Decimal.Format.eq_of_sameNumber hsame h)

theorem sharedBits_same (script : List Step) (bits : UInt64) :
    sharedBits script bits = bits ∨ sameDouble (sharedBits script bits) bits = true := by
  cases hfirst : firstSame script bits with
  | none => exact Or.inl (by rw [sharedBits, hfirst, Option.getD_none])
  | some d =>
    refine Or.inr ?_
    rw [sharedBits, hfirst, Option.getD_some]
    simpa using List.find?_some hfirst

/-- A float is answered with an index that is listed already, with the first float that is the same
number, or with the next free one. -/
theorem Remembers.double_cases (h : b.Remembers script) (bits : UInt64) :
    (∃ index, (Step.double bits).perform.run b = (some index, b) ∧
      b.table.entry? (.constant (.double bits)) =
        some (index, .constant (.double (sharedBits script bits)))) ∨
    (Step.double bits).perform.run b = (some b.next, b.push (.constant (.double bits))) ∧
      b.table.entry? (.constant (.double bits)) = none ∧ sharedBits script bits = bits := by
  have hbits := h bits
  rcases run_share_cases b (.constant (.double bits)) with ⟨⟨index, there⟩, hfind, hrun⟩ | ⟨hnone, hrun⟩
  · refine Or.inl ⟨index, by rw [run_double, hrun], ?_⟩
    rw [hfind] at hbits ⊢
    cases hfirst : firstSame script bits with
    | none =>
      rw [hfirst] at hbits
      cases hbits
    | some d =>
      rw [hfirst] at hbits
      cases hbits
      rw [sharedBits, hfirst, Option.getD_some]
  · refine Or.inr ⟨by rw [run_double, hrun], hnone, ?_⟩
    rw [hnone] at hbits
    cases hfirst : firstSame script bits with
    | none => rw [sharedBits, hfirst, Option.getD_none]
    | some d =>
      rw [hfirst] at hbits
      cases hbits

theorem slotTotal_append (before after : Table) :
    slotTotal (before ++ after) = slotTotal before + slotTotal after := by
  simp [slotTotal]

theorem nextIndex_le {b b' : Builder} (h : b.table <+: b'.table) : b.nextIndex ≤ b'.nextIndex := by
  obtain ⟨added, hadded⟩ := h
  rw [nextIndex, nextIndex, ← table, ← table, ← hadded, slotTotal_append]
  omega

/-- As long as indices do not wrap around, the next free one is not listed. -/
theorem Sound.ne_next (hb : b.Sound) (hroom : b.nextIndex < UInt16.size)
    {entry : UInt16 × BuilderConstant} (h : entry ∈ b.table) : entry.1 ≠ b.next := by
  obtain ⟨i, hi, rfl⟩ := List.mem_iff_getElem.mp h
  have hsplit : slotTotal b.table =
      slotTotal (b.table.take i) + slotTotal (b.table.drop i) := by
    rw [← slotTotal_append, List.take_append_drop]
  have hpos : 0 < slotTotal (b.table.drop i) := by
    rw [List.drop_eq_getElem_cons hi]
    exact Nat.add_pos_left b.table[i].2.slots_pos _
  have hindex : b.table[i].1 = UInt16.ofNat (1 + slotTotal (b.table.take i)) :=
    hb.index i _ (List.getElem?_eq_getElem hi)
  rw [nextIndex, ← table] at hroom
  rw [hindex, hb.next, Ne, ← UInt16.toNat_inj, UInt16.toNat_ofNat_of_lt' (by omega),
    UInt16.toNat_ofNat_of_lt' (by rw [nextIndex, ← table]; omega), nextIndex, ← table]
  omega

/-! ## Whole scripts -/

variable {this : String} {n : Nat} {bits : UInt64}

/-- The step that asks for a float leaves it, or the first one of the same number, at its index. -/
theorem exists_double (this : String) (h : script[n]? = some (.double bits)) :
    ∃ index, indexAt this script n = some index ∧
      (index, .constant (.double (sharedBits (script.take n) bits))) ∈
        ((Step.double bits).perform.run ((new this).runScript (script.take n)).2).2.table := by
  obtain ⟨hindex, -⟩ := runScript_at h (new this)
  rcases (remembers_runScript this (script.take n)).double_cases bits with
    ⟨index, hrun, hentry⟩ | ⟨hrun, -, hshared⟩
  · rw [hrun] at hindex ⊢
    exact ⟨index, hindex, List.mem_of_find?_eq_some hentry⟩
  · rw [hrun] at hindex ⊢
    refine ⟨_, hindex, ?_⟩
    rw [hshared, table_push]
    exact List.mem_concat_self

/-- A float that is a number is listed once it has been asked for. -/
theorem Remembers.entry?_perform (h : b.Remembers script) (hself : sameDouble bits bits = true) :
    ∃ index there, ((Step.double bits).perform.run b).1 = some index ∧
      ((Step.double bits).perform.run b).2.table.entry? (.constant (.double bits)) =
        some (index, there) := by
  rcases h.double_cases bits with ⟨index, hrun, hentry⟩ | ⟨hrun, hnone, -⟩
  · rw [hrun]
    exact ⟨index, _, rfl, hentry⟩
  · rw [hrun]
    refine ⟨b.next, .constant (.double bits), rfl, ?_⟩
    rw [table_push, Table.entry?, List.find?_append, ← Table.entry?, hnone, Option.none_or,
      List.find?_singleton]
    exact if_pos hself

theorem Table.entry?_congr (t : Table) {a b : UInt64} (h : sameDouble a b = true) :
    t.entry? (.constant (.double a)) = t.entry? (.constant (.double b)) := by
  unfold Table.entry?
  congr 1
  funext entry
  exact same_double_congr h entry.2

/-- What the table lists after one step is listed before every later one. -/
theorem table_take_grows {m : Nat} {step : Step} (hmn : m < n) (hm : script[m]? = some step)
    (b : Builder) :
    (step.perform.run (b.runScript (script.take m)).2).2.table <+:
      (b.runScript (script.take n)).2.table := by
  have htake : (script.take n)[m]? = some step := by rw [List.getElem?_take_of_lt hmn, hm]
  have hgrown := (runScript_at htake b).2
  rwa [List.take_take, Nat.min_eq_left (Nat.le_of_lt hmn)] at hgrown

theorem indexAt_eq_of_same {m : Nat} {a b : UInt64} (hmn : m < n)
    (hm : script[m]? = some (.double a)) (hn : script[n]? = some (.double b))
    (hsame : sameDouble a b = true) : indexAt this script m = indexAt this script n := by
  have hself : sameDouble a a = true :=
    Decimal.Format.sameNumber_trans hsame (Decimal.Format.sameNumber_symm hsame)
  obtain ⟨index, there, hanswer, hentry⟩ :=
    (remembers_runScript this (script.take m)).entry?_perform hself
  have hlisted := (table_take_grows hmn hm (new this)).find?_eq_some hentry
  rw [← Table.entry?, Table.entry?_congr _ hsame] at hlisted
  have hm' : indexAt this script m = some index := (runScript_at hm (new this)).1.trans hanswer
  have hn' : indexAt this script n = _ := (runScript_at hn (new this)).1
  rw [hm', hn']
  rcases (remembers_runScript this (script.take n)).double_cases b with
    ⟨index', hrun, hentry'⟩ | ⟨-, hnone, -⟩
  · rw [hlisted] at hentry'
    cases hentry'
    rw [hrun]
  · rw [hlisted] at hnone
    cases hnone

theorem same_of_indexAt_eq (h : Within this script) {pool : Pool}
    (hpool : pool.Has ((new this).runScript script).2.table) {m : Nat} {a b : UInt64} (hmn : m < n)
    (hm : script[m]? = some (.double a)) (hn : script[n]? = some (.double b))
    (heq : indexAt this script m = indexAt this script n) : sameDouble a b = true := by
  obtain ⟨index, hindex, hmem⟩ := exists_double this hm
  have hmem' := (table_take_grows hmn hm (new this)).subset hmem
  have hlast := (perform_grows (.double b) _).trans (runScript_at hn (new this)).2
  have hn' : indexAt this script n = _ := (runScript_at hn (new this)).1
  rw [hindex, hn'] at heq
  rcases (remembers_runScript this (script.take n)).double_cases b with
    ⟨index', hrun, hentry⟩ | ⟨hrun, -, -⟩
  · rw [hrun] at heq
    cases heq
    -- Both floats have led to the same bits, which are the same number as either.
    have hget := Table.get_of_mem hpool (hlast.subset hmem')
    have hget' := Table.get_of_mem hpool (hlast.subset (List.mem_of_find?_eq_some hentry))
    have hbits := Constant.double.inj (Except.ok.inj (hget.symm.trans hget'))
    have hb := List.find?_some hentry
    rw [← hbits] at hb
    rcases sharedBits_same (script.take m) a with ha | ha
    · rw [ha] at hb
      exact hb
    · exact Decimal.Format.sameNumber_trans (Decimal.Format.sameNumber_symm ha) hb
  · -- The next free index is not that of an entry.
    rw [hrun] at heq
    have hsteps : ∀ step ∈ script.take n, step.Fits := fun step hstep =>
      h.steps step (List.mem_of_mem_take hstep)
    have hreflects := (reflects_new h.name).runScript hsteps
    have hroom : ((new this).runScript (script.take n)).2.nextIndex < UInt16.size :=
      Nat.lt_of_le_of_lt (nextIndex_le hlast) h.constants
    exact absurd (Option.some.inj heq) (hreflects.sound.ne_next hroom hmem')

/-- What the indices that a script is answered with for floats say about a pool. -/
structure DoublesDenote (this : String) (script : List Step) (pool : Pool) : Prop where
  first : ∀ n bits, script[n]? = some (.double bits) → ∃ i, indexAt this script n = some i ∧
    pool.get i = .ok (.double (sharedBits (script.take n) bits))
  exact : ∀ n bits i, script[n]? = some (.double bits) → indexAt this script n = some i →
    Decimal.Format.double.isZero bits.toNat = false → pool.get i = .ok (.double bits)
  shared : ∀ m n a b, m < n → script[m]? = some (.double a) → script[n]? = some (.double b) →
    (indexAt this script m = indexAt this script n ↔ sameDouble a b = true)

/-- **Floats are shared as numbers.** At the index of a float is the first one of the script that is the
same number: itself, unless it is a zero. Two steps that ask for floats share an index exactly when the
floats are the same number. -/
theorem doubles_denote (h : Within this script) :
    ∃ f, ClassFile.parse ((new this).runScript script).2.build = .ok f ∧
      DoublesDenote this script f.pool := by
  obtain ⟨f, hparse, hpool⟩ := h.exists_pool
  have hfirst : ∀ n bits, script[n]? = some (.double bits) →
      ∃ i, indexAt this script n = some i ∧
        f.pool.get i = .ok (.double (sharedBits (script.take n) bits)) := by
    intro n bits hn
    obtain ⟨i, hi, hmem⟩ := exists_double this hn
    exact ⟨i, hi, Table.get_of_mem hpool ((runScript_at hn (new this)).2.subset hmem)⟩
  refine ⟨f, hparse, hfirst, ?_, ?_⟩
  · intro n bits i hn hi hzero
    obtain ⟨j, hj, hget⟩ := hfirst n bits hn
    cases hi.symm.trans hj
    rwa [sharedBits_eq hzero] at hget
  · intro m n a b hmn hm hn
    exact ⟨same_of_indexAt_eq h hpool hmn hm hn, indexAt_eq_of_same hmn hm hn⟩

/-- Both zeros, and the same bits of what is not a number twice. -/
def zerosScript : List Step :=
  [.double 0, .double 0x8000000000000000, .double 0x7FF8000000000000, .double 0x7FF8000000000000]

theorem within_zerosScript : Within "D" zerosScript := by
  have hsteps : ∀ step ∈ zerosScript, step.Fits := by
    simp [zerosScript, Step.Fits]
  exact ⟨by decide, hsteps, by decide +kernel, by decide, by decide, by decide, by decide⟩

theorem doubles_denote_zeros :
    Within "D" zerosScript ∧
    ∃ f, ClassFile.parse ((new "D").runScript zerosScript).2.build = .ok f ∧
      DoublesDenote "D" zerosScript f.pool :=
  ⟨within_zerosScript, doubles_denote within_zerosScript⟩

/-- **Sharing floats as numbers does not keep their bits.** The index that is answered for the second
zero leads to the first one, and the same bits, asked for twice, have two indices. -/
theorem double_bits_not_kept :
    Within "D" zerosScript ∧
    indexAt "D" zerosScript 1 = some 5 ∧
    (ClassFile.parse ((new "D").runScript zerosScript).2.build).map (fun f => f.pool.get 5) =
      .ok (.ok (.double 0)) ∧
    indexAt "D" zerosScript 0 = indexAt "D" zerosScript 1 ∧
    indexAt "D" zerosScript 2 ≠ indexAt "D" zerosScript 3 := by
  refine ⟨within_zerosScript, ?_⟩
  decide +kernel

end Builder

end JvmTrace
