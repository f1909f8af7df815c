import JvmTrace.Proofs.Instruction.Decode
import JvmTrace.Proofs.Pool.Resolve

/-!
# Decoding is lossless, up to the bytes that mean nothing

A listing determines the program that it stands for, and so every byte of the code but the blanks of
the program's template. The argument has three parts, and none of them is about the decoder any
more:

1. an operand determines what was written: a symbol keeps its index, and a target its distance from
   the start of the instruction (`Written.means_leftUnique`);
2. the mnemonic determines the opcode, hence the layout, and with the `wide` before it the shape of
   the arguments, which is then filled from the operands (`Arguments.eq_of_written`). The counts of
   a switch come back as the length of its list of operands;
3. the blanks of a template are at the places that `Instruction.Ignores` names (`ignores_of_blank`).

That the place of a blank can be told from the listing alone is why the theorem can say where two
code arrays may differ without mentioning either of them.
-/

set_option autoImplicit false

namespace JvmTrace

/-- The bytes of an instruction that mean nothing: those between the opcode of a switch and the next
multiple of four, the fourth operand byte of `invokeinterface`, and the third and the fourth of
`invokedynamic`. -/
def Instruction.Ignores (i : Instruction) (position : Nat) : Prop :=
  ((i.mnemonic = "tableswitch" ∨ i.mnemonic = "lookupswitch") ∧
    i.offset.toNat < position ∧ position < 4 * (i.offset.toNat / 4 + 1)) ∨
  (i.mnemonic = "invokeinterface" ∧ position = i.offset.toNat + 4) ∨
  (i.mnemonic = "invokedynamic" ∧ (position = i.offset.toNat + 3 ∨ position = i.offset.toNat + 4))

/-! ## Operands determine what was written -/

theorem Written.means_leftUnique (pool : Pool) (start : Nat) :
    Relator.LeftUnique (Written.Means pool start) := by
  intro w w' op h h'
  cases op with
  | slot number =>
    cases w <;> cases w' <;> simp_all [Means]
  | immediate value =>
    cases w <;> cases w' <;> simp_all [Means]
  | symbol s =>
    cases w <;> cases w' <;> simp only [Means] at h h'
    rw [← Pool.index_of_resolve h, ← Pool.index_of_resolve h']
  | target offset =>
    cases w <;> cases w' <;> simp only [Means] at h h'
    case displacement.displacement d d' =>
      have heq : d.toInt = d'.toInt := by omega
      rw [Int32.toInt.inj heq]

/-- The keys and distances of a lookup switch can be told from its operands. -/
theorem Arguments.cases_inj : ∀ {cases cases' : List (Int32 × Int32)},
    (cases.flatMap fun keyed => [Written.immediate keyed.1.toInt, Written.displacement keyed.2]) =
      (cases'.flatMap fun keyed =>
        [Written.immediate keyed.1.toInt, Written.displacement keyed.2]) →
    cases = cases'
  | [], [], _ => rfl
  | [], _ :: _, h => by simp at h
  | _ :: _, [], h => by simp at h
  | (key, d) :: rest, (key', d') :: rest', h => by
    simp only [List.flatMap_cons, List.cons_append, List.nil_append, List.cons.injEq,
      Written.immediate.injEq, Written.displacement.injEq] at h
    obtain ⟨hkey, rfl, hrest⟩ := h
    rw [Int32.toInt.inj hkey, cases_inj hrest]

theorem Arguments.natCast_inj {n m : UInt8} : (n.toNat : Int) = m.toNat ↔ n = m :=
  Int.natCast_inj.trans UInt8.toNat_inj

theorem Arguments.distance_inj {d d' : Int16} : d.toInt32 = d'.toInt32 ↔ d = d' := by
  rw [← Int32.toInt_inj, Int16.toInt_toInt32, Int16.toInt_toInt32, Int16.toInt_inj]

/-- **Arguments are determined by their layout, their form and their operands.** -/
theorem Arguments.eq_of_written {args args' : Arguments} (hlayout : args.layout = args'.layout)
    (hform : args.isWidened = args'.isWidened) (hwritten : args.written = args'.written) :
      args = args' := by
  cases args with
  | plain => cases args' with
    | plain => rfl
    | _ => cases hlayout
  | wide => cases args' with
    | wide => rfl
    | _ => cases hlayout
  | slot number => cases args' with
    | slot number' => simpa [UInt8.toUInt16_inj] using hwritten
    | wideSlot number' => cases hform
    | _ => cases hlayout
  | wideSlot number => cases args' with
    | wideSlot number' => simpa using hwritten
    | slot number' => cases hform
    | _ => cases hlayout
  | increment number amount => cases args' with
    | increment number' amount' => simpa [UInt8.toUInt16_inj, Int8.toInt_inj] using hwritten
    | wideIncrement number' amount' => cases hform
    | _ => cases hlayout
  | wideIncrement number amount => cases args' with
    | wideIncrement number' amount' => simpa [Int16.toInt_inj] using hwritten
    | increment number' amount' => cases hform
    | _ => cases hlayout
  | shortConstant index => cases args' with
    | shortConstant index' => simpa [UInt8.toUInt16_inj] using hwritten
    | _ => cases hlayout
  | constant index => cases args' with
    | constant index' => simpa using hwritten
    | _ => cases hlayout
  | interfaceCall index count => cases args' with
    | interfaceCall index' count' =>
      simp only [written, List.cons.injEq, Written.constant.injEq, Written.immediate.injEq,
        natCast_inj, and_true] at hwritten
      obtain ⟨rfl, rfl⟩ := hwritten
      rfl
    | _ => cases hlayout
  | dynamicCall index => cases args' with
    | dynamicCall index' => simpa using hwritten
    | _ => cases hlayout
  | arrayDimensions index dimensions => cases args' with
    | arrayDimensions index' dimensions' =>
      simp only [written, List.cons.injEq, Written.constant.injEq, Written.immediate.injEq,
        natCast_inj, and_true] at hwritten
      obtain ⟨rfl, rfl⟩ := hwritten
      rfl
    | _ => cases hlayout
  | byte value => cases args' with
    | byte value' => simpa [Int8.toInt_inj] using hwritten
    | _ => cases hlayout
  | short value => cases args' with
    | short value' => simpa [Int16.toInt_inj] using hwritten
    | _ => cases hlayout
  | elementType code => cases args' with
    | elementType code' =>
      simp only [written, List.cons.injEq, Written.immediate.injEq, natCast_inj, and_true] at hwritten
      rw [hwritten]
    | _ => cases hlayout
  | branch distance => cases args' with
    | branch distance' => simpa [distance_inj] using hwritten
    | _ => cases hlayout
  | farBranch distance => cases args' with
    | farBranch distance' => simpa using hwritten
    | _ => cases hlayout
  | tableSwitch default low high cases => cases args' with
    | tableSwitch default' low' high' cases' =>
      simp only [written, List.cons.injEq, Written.immediate.injEq, Written.displacement.injEq,
        Int32.toInt_inj] at hwritten
      obtain ⟨rfl, rfl, rfl, hcases⟩ := hwritten
      rw [List.map_injective_iff.mpr (fun _ _ => Written.displacement.inj) hcases]
    | _ => cases hlayout
  | lookupSwitch default cases => cases args' with
    | lookupSwitch default' cases' =>
      simp only [written, List.cons.injEq, Written.displacement.injEq] at hwritten
      obtain ⟨rfl, hcases⟩ := hwritten
      rw [cases_inj hcases]
    | _ => cases hlayout

/-! ## The listing determines the program -/

theorem Item.eq_of_means {pool : Pool} {start : Nat} {item item' : Item} {i : Instruction}
    (h : item.Means pool start i) (h' : item'.Means pool start i)
    (hform : item.arguments.isWidened = item'.arguments.isWidened) : item = item' := by
  have hopcode : item.opcode = item'.opcode :=
    Opcode.eq_of_mnemonic item.listed item'.listed (h.mnemonic.symm.trans h'.mnemonic)
  have hlayout : item.arguments.layout = item'.arguments.layout := by
    rw [item.shaped, item'.shaped, hopcode]
  have hwritten : item.arguments.written = item'.arguments.written :=
    List.left_unique_forall₂' (Written.means_leftUnique pool start) h.operands h'.operands
  have harguments := Arguments.eq_of_written hlayout hform hwritten
  cases item
  cases item'
  cases hopcode
  cases harguments
  rfl

namespace Program

variable {pool : Pool} {widened : Bool} {start : Nat} {items items' : List Item}
  {bytes bytes' : Bytes} {is : List Instruction}

theorem stands_nil : Stands pool widened start items bytes [] → items = [] := by
  intro h
  cases h
  rfl

theorem stands_cons {i : Instruction} (h : Stands pool widened start items bytes (i :: is)) :
    ∃ item rest xs ys, items = item :: rest ∧ item.arguments.isWidened = widened ∧
      item.Stands pool start xs i ∧ Stands pool item.widens (start + xs.length) rest ys is := by
  cases h with
  | @cons _ item rest xs ys _ _ head tail => exact ⟨item, rest, xs, ys, rfl, rfl, head, tail⟩

/-- **One listing stands for one program**, whatever its written form. -/
theorem Stands.unique (h : Stands pool widened start items bytes is)
    (h' : Stands pool widened start items' bytes' is) : items = items' := by
  induction h generalizing items' bytes' with
  | nil => exact (stands_nil h').symm
  | @cons start item items xs ys i is head tail ih =>
    obtain ⟨item', rest, xs', ys', rfl, hform, head', tail'⟩ := stands_cons h'
    obtain rfl : item = item' := Item.eq_of_means head.means head'.means hform.symm
    -- The next items start at one place, since the length of an item does not depend on how its
    -- blanks are filled.
    have hlength : xs'.length = xs.length :=
      head'.written.length_eq.trans head.written.length_eq.symm
    rw [hlength] at tail'
    rw [ih tail']

theorem Stands.matches_template (h : Stands pool widened start items bytes is) :
    (template start items).Matches bytes := by
  induction h with
  | nil => exact Template.matches_nil.mpr rfl
  | @cons start item items xs ys i is head tail ih =>
    have hsize : xs.length = item.size start := head.written.length_eq
    rw [hsize] at ih
    exact Template.matches_append.mpr ⟨xs, ys, rfl, head.written, ih⟩

end Program

/-! ## The blanks -/

namespace Template

theorem Matches.getElem?_eq {t : Template} {xs ys : Bytes} (hxs : t.Matches xs) (hys : t.Matches ys)
    {k : Nat}
    (hk : t[k]? ≠ some none) : xs[k]? = ys[k]? := by
  induction hxs generalizing ys k with
  | nil => rw [matches_nil.mp hys]
  | @cons place b t xs hb _ ih =>
    cases hys with
    | @cons _ b' _ ys hb' hys =>
      cases k with
      | succ k => exact ih hys hk
      | zero =>
        have hplace : place ≠ none := fun h => hk (congrArg some h)
        rw [List.getElem?_cons_zero, List.getElem?_cons_zero,
          Option.some.inj ((hb.resolve_left hplace).symm.trans (hb'.resolve_left hplace))]

theorem getElem?_known {xs : Bytes} {k : Nat} : (known xs)[k]? ≠ some none := by
  rw [known, List.getElem?_map]
  cases xs[k]? <;> simp

theorem lt_of_blank_append {n k : Nat} {xs : Bytes} (h : (blank n ++ known xs)[k]? = some none) :
    k < n := by
  by_contra hk
  rw [List.getElem?_append_right (by simpa using hk)] at h
  exact getElem?_known h

theorem of_append_blank {n k : Nat} {xs : Bytes} (h : (known xs ++ blank n)[k]? = some none) :
    xs.length ≤ k ∧ k < xs.length + n := by
  have hlt := (List.getElem?_eq_some_iff.mp h).1
  rw [List.length_append, length_known, length_blank] at hlt
  refine ⟨?_, hlt⟩
  by_contra hk
  rw [List.getElem?_append_left (by simpa using hk)] at h
  exact getElem?_known h

end Template

/-- A blank of an item is a byte that its instruction ignores. -/
theorem Item.ignores_of_blank {pool : Pool} {start : Nat} {item : Item} {i : Instruction}
    (h : item.Means pool start i) {k : Nat} (hk : (item.template start)[k]? = some none) :
    i.Ignores (start + k) := by
  have hstart := h.offset
  have hname : ∀ name ∈ Opcode.soleMnemonic item.arguments.layout, i.mnemonic = name := by
    intro name hmem
    rw [item.shaped] at hmem
    exact h.mnemonic.trans (Opcode.mnemonic_of_layout item.opcode item.listed name hmem)
  unfold Item.template at hk
  cases k with
  | zero => cases hk -- the opcode
  | succ k =>
    rw [List.getElem?_cons_succ] at hk
    cases hargs : item.arguments with
    | interfaceCall index count =>
      rw [hargs] at hk hname
      have hplace := Template.of_append_blank hk
      simp only [List.length_append, BigEndian.length_u16, List.length_singleton] at hplace
      exact Or.inr (Or.inl ⟨hname _ rfl, by omega⟩)
    | dynamicCall index =>
      rw [hargs] at hk hname
      have hplace := Template.of_append_blank hk
      rw [BigEndian.length_u16] at hplace
      exact Or.inr (Or.inr ⟨hname _ rfl, by omega⟩)
    | tableSwitch default low high cases =>
      rw [hargs] at hk hname
      have hplace := Template.lt_of_blank_append hk
      unfold Arguments.switchPadding at hplace
      exact Or.inl ⟨Or.inl (hname _ rfl), by omega, by omega⟩
    | lookupSwitch default cases =>
      rw [hargs] at hk hname
      have hplace := Template.lt_of_blank_append hk
      unfold Arguments.switchPadding at hplace
      exact Or.inl ⟨Or.inr (hname _ rfl), by omega, by omega⟩
    | plain | wide =>
      rw [hargs] at hk
      cases hk
    | _ =>
      rw [hargs] at hk
      exact absurd hk Template.getElem?_known

theorem Program.Stands.ignores_of_blank {pool : Pool} {widened : Bool} {start : Nat}
    {items : List Item}
    {bytes : Bytes} {is : List Instruction} (h : Stands pool widened start items bytes is) {k : Nat}
    (hk : (template start items)[k]? = some none) : ∃ i ∈ is, i.Ignores (start + k) := by
  induction h generalizing k with
  | nil => cases hk
  | @cons start item items xs ys i is head tail ih =>
    have hsize : xs.length = (item.template start).length := head.written.length_eq
    rw [template, List.getElem?_append] at hk
    split at hk
    · exact ⟨i, List.mem_cons_self, Item.ignores_of_blank head.means hk⟩
    · rw [Item.size, ← hsize] at hk
      obtain ⟨j, hj, hignores⟩ := ih hk
      rw [show start + xs.length + (k - xs.length) = start + k by omega] at hignores
      exact ⟨j, List.mem_cons_of_mem _ hj, hignores⟩

/-- **Decoding is lossless, up to the bytes that mean nothing.** Two code arrays with one listing
are of one length and agree everywhere but where an instruction of the listing ignores a byte. -/
theorem decode_lossless {pool : Pool} {code code' : Bytes} {is : List Instruction}
    (hlen : code.length < UInt32.size) (hlen' : code'.length < UInt32.size)
    (h : decode pool code = .ok is) (h' : decode pool code' = .ok is) :
    code.length = code'.length ∧
      ∀ position, (∀ i ∈ is, ¬ i.Ignores position) → code[position]? = code'[position]? := by
  obtain ⟨items, hstands⟩ := (decode_eq_ok_iff hlen).mp h
  obtain ⟨items', hstands'⟩ := (decode_eq_ok_iff hlen').mp h'
  -- One program, and two ways of filling in its blanks.
  obtain rfl := hstands.unique hstands'
  have hmatches := hstands.matches_template
  have hmatches' := hstands'.matches_template
  refine ⟨hmatches.length_eq.trans hmatches'.length_eq.symm, ?_⟩
  intro position hmatters
  refine hmatches.getElem?_eq hmatches' ?_
  intro hblank
  obtain ⟨i, hi, hignores⟩ := hstands.ignores_of_blank hblank
  rw [Nat.zero_add] at hignores
  exact hmatters i hi hignores

namespace Program

-- The sample with every blank filled in another way.
def sampleRefilled : Bytes := [
  0xc4, 0x84, 0x01, 0x02, 0xff, 0x00, 0x00, 0xb9, 0x00, 0x06, 0x01, 0x00, 0xab, 0x00, 0x00, 0x00,
  0xff, 0xff, 0xff, 0xf5, 0x00, 0x00, 0x00, 0x01, 0xff, 0xff, 0xff, 0xff, 0x00, 0x00, 0x00, 0x05
  ]

end Program

theorem decode_lossless_sample :
    decode Program.samplePool Program.sampleCode = .ok Program.sampleListing ∧
      decode Program.samplePool Program.sampleRefilled = .ok Program.sampleListing ∧
      Program.sampleCode.length = Program.sampleRefilled.length ∧
      ∀ position, (∀ i ∈ Program.sampleListing, ¬ i.Ignores position) →
        Program.sampleCode[position]? = Program.sampleRefilled[position]? := by
  have hprogram : Program.WellFormed Program.samplePool false 0 Program.sample := by decide +kernel
  have hlists : Program.Lists Program.samplePool 0 Program.sample Program.sampleListing := by
    decide +kernel
  have decoded : ∀ code : Bytes, code.length < UInt32.size →
      (Program.template 0 Program.sample).Matches code →
      decode Program.samplePool code = .ok Program.sampleListing := by
    intro code hlen hmatches
    exact (decode_eq_ok_iff hlen).mpr ⟨_, hprogram.stands hmatches hlists⟩
  have hcode := decoded Program.sampleCode (by decide) (by decide +kernel)
  have hrefilled := decoded Program.sampleRefilled (by decide) (by decide +kernel)
  exact ⟨hcode, hrefilled, decode_lossless (by decide) (by decide) hcode hrefilled⟩

end JvmTrace
