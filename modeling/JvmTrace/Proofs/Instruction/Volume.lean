import JvmTrace.Proofs.Instruction.Stream
import Mathlib.Algebra.GroupWithZero.Nat

/-!
# Volume — a listing is never larger than the code it was decoded from

An instruction counts as one, and each of its operands as one more. Code pays for all of them with at
least a byte each: the opcode pays for the instruction, and every operand that is shown was written
somewhere behind it (`Arguments.length_written_le`). The blanks, the counts and the wider forms only
make the code longer.

The one place where a decoder might go wrong here is a switch, which says for itself how many cases it
has. It can say anything up to `2 ^ 32`. But the cases are read from the bytes behind it, so a number
that these cannot honour is found out before the instruction is given (`next_ne_ok_of_overdrawn`).
-/

set_option autoImplicit false

namespace JvmTrace

namespace BigEndian

@[simp] theorem length_u32 (n : UInt32) : (u32 n).length = 4 := length_ofNat 4 _

@[simp] theorem length_i32 (n : Int32) : (i32 n).length = 4 := length_u32 _

@[simp] theorem length_flatMap_i32 (ns : List Int32) : (ns.flatMap i32).length = 4 * ns.length := by
  simp [List.length_flatMap, Nat.mul_comm]

theorem i32_injective : Function.Injective i32 := by
  intro a b h
  have ha : Reader.Reads Reader.i32 0 (i32 a) a := Reader.reads_i32.mpr rfl
  have hb : Reader.Reads Reader.i32 0 (i32 a) b := Reader.reads_i32.mpr h
  have hsame := ha.alone.symm.trans hb.alone
  cases hsame
  rfl

end BigEndian

/-! ## One instruction -/

namespace Arguments

@[simp] theorem length_flatMap_caseBytes (cases : List (Int32 × Int32)) :
    (cases.flatMap caseBytes).length = 8 * cases.length := by
  simp [List.length_flatMap, caseBytes, Nat.mul_comm]

theorem length_written_le (position : Nat) (args : Arguments) :
    args.written.length ≤ (args.template position).length := by
  cases args with
  | tableSwitch default low high cases =>
    simp only [written, template, List.length_cons, List.length_map, List.length_append,
      Template.length_blank, Template.length_known, BigEndian.length_i32,
      BigEndian.length_flatMap_i32]
    omega
  | lookupSwitch default cases =>
    have hkeyed : (cases.flatMap fun keyed =>
        [Written.immediate keyed.1.toInt, Written.displacement keyed.2]).length =
          2 * cases.length := by
      simp [List.length_flatMap, Nat.mul_comm]
    simp only [written, template, List.length_cons, hkeyed, List.length_append,
      Template.length_blank, Template.length_known, BigEndian.length_i32, length_flatMap_caseBytes]
    omega
  | _ => simp

theorem Stands.length_le {pool : Pool} {start position : Nat} {args : Arguments} {bytes : Bytes}
    {ops : List Operand} (h : args.Stands pool start position bytes ops) :
    ops.length ≤ bytes.length := by
  rw [← h.means.length_eq, h.written.length_eq]
  exact args.length_written_le position

end Arguments

/-! ## Calls and runs -/

namespace Decoder

variable {pool : Pool} {code : Bytes} {d d' : Decoder} {i : Instruction} {is : List Instruction}

theorem volume_of_next (h : d.next pool = (some (.ok i), d')) :
    1 + i.operands.length + d'.cursor.rest.length ≤ d.cursor.rest.length := by
  obtain ⟨opcode, args, bytes, found⟩ := exists_found h
  have hoperands := found.stands.length_le
  rw [found.rest, List.length_cons, List.length_append]
  omega

theorem Yields.volume_le (h : Yields pool d is d') :
    is.length + (is.map fun i => i.operands.length).sum + d'.cursor.rest.length ≤
      d.cursor.rest.length := by
  induction h with
  | nil => simp
  | cons head _ ih =>
    have hfirst := volume_of_next head
    rw [List.map_cons, List.sum_cons, List.length_cons]
    omega

/-- A decoder that has only given instructions has not stopped. -/
theorem Yields.exists_expects (h : Yields pool d is d')
    (hd : ∃ widened, d.phase.expects = some widened) :
    ∃ widened, d'.phase.expects = some widened := by
  induction h with
  | nil => exact hd
  | cons head _ ih =>
    apply ih
    rw [(next_ok_cases head).2.1, Phase.after]
    split
    · exact ⟨true, rfl⟩
    · exact ⟨false, rfl⟩

end Decoder

/-! ## Switches that declare too much -/

/-- The bytes from `position` on are a switch whose header declares more cases than fit into the bytes
behind it. -/
inductive Overdrawn (position : Nat) : Bytes → Prop where
  | table {pad rest : Bytes} {default low high : Int32}
      (aligned : pad.length = Arguments.switchPadding (position + 1))
      (scarce : (rest.length : Int) < 4 * (high.toInt - low.toInt + 1)) :
      Overdrawn position (0xaa :: (pad ++ (BigEndian.i32 default ++ (BigEndian.i32 low ++
        (BigEndian.i32 high ++ rest)))))
  | lookup {pad rest : Bytes} {default pairs : Int32}
      (aligned : pad.length = Arguments.switchPadding (position + 1))
      (scarce : (rest.length : Int) < 8 * pairs.toInt) :
      Overdrawn position (0xab :: (pad ++ (BigEndian.i32 default ++ (BigEndian.i32 pairs ++ rest))))

/-- What is known of bytes with padding in front stands behind the padding. -/
theorem Template.known_of_matches {n : Nat} {xs bytes pad rest rest' : Bytes}
    (h : (blank n ++ known xs).Matches bytes) (hpad : pad.length = n)
    (hbytes : bytes ++ rest' = pad ++ rest) : xs ++ rest' = rest := by
  obtain ⟨blanks, _, rfl, hblanks, hknown⟩ := matches_append.mp h
  rw [matches_known.mp hknown, List.append_assoc] at hbytes
  exact (List.append_inj hbytes ((matches_blank.mp hblanks).trans hpad.symm)).2

namespace Arguments

variable {pool : Pool} {start position : Nat} {args : Arguments} {bytes : Bytes} {ops : List Operand}

/-- A table switch that is read has the bytes of all the cases that its keys declare. -/
theorem Stands.table_fits {pad rest rest' : Bytes} {default low high : Int32}
    (h : args.Stands pool start position bytes ops) (hlayout : args.layout = .tableSwitch)
    (hpad : pad.length = switchPadding position)
    (hbytes : bytes ++ rest' = pad ++ (BigEndian.i32 default ++ (BigEndian.i32 low ++
      (BigEndian.i32 high ++ rest)))) :
    4 * (high.toInt - low.toInt + 1) ≤ rest.length := by
  cases args with
  | tableSwitch default' low' high' cases =>
    obtain ⟨-, hcount⟩ := h.counted
    have hknown := Template.known_of_matches h.written hpad hbytes
    simp only [List.append_assoc] at hknown
    -- The two headers are as long as each other, piece by piece, so they are the same.
    obtain ⟨-, hbytes⟩ := List.append_inj hknown (by simp)
    obtain ⟨hlow, hbytes⟩ := List.append_inj hbytes (by simp)
    obtain ⟨hhigh, hcases⟩ := List.append_inj hbytes (by simp)
    have hlength := congrArg List.length hcases
    rw [List.length_append, BigEndian.length_flatMap_i32] at hlength
    rw [← BigEndian.i32_injective hlow, ← BigEndian.i32_injective hhigh]
    omega
  | _ => cases hlayout

theorem Stands.lookup_fits {pad rest rest' : Bytes} {default pairs : Int32}
    (h : args.Stands pool start position bytes ops) (hlayout : args.layout = .lookupSwitch)
    (hpad : pad.length = switchPadding position)
    (hbytes : bytes ++ rest' = pad ++ (BigEndian.i32 default ++ (BigEndian.i32 pairs ++ rest))) :
    8 * pairs.toInt ≤ rest.length := by
  cases args with
  | lookupSwitch default' cases =>
    have hcount : (Int32.ofNat cases.length).toInt = cases.length :=
      Int32.toInt_ofNat_of_lt h.counted
    have hknown := Template.known_of_matches h.written hpad hbytes
    simp only [List.append_assoc] at hknown
    obtain ⟨-, hbytes⟩ := List.append_inj hknown (by simp)
    obtain ⟨hpairs, hcases⟩ := List.append_inj hbytes (by simp)
    have hlength := congrArg List.length hcases
    rw [List.length_append, length_flatMap_caseBytes] at hlength
    rw [← BigEndian.i32_injective hpairs, hcount]
    omega
  | _ => cases hlayout

end Arguments

namespace Decoder

variable {pool : Pool} {code : Bytes} {d d' : Decoder} {i : Instruction} {is : List Instruction}

theorem Found.opcode_eq {opcode : Opcode} {args : Arguments} {bytes rest : Bytes}
    (found : Found pool d d' i opcode args bytes) (listed : Opcode) (hlisted : listed ∈ Opcode.all)
    (hrest : d.cursor.rest = listed.code :: rest) :
    opcode = listed ∧ bytes ++ d'.cursor.rest = rest := by
  obtain ⟨hcode, hbytes⟩ := List.cons.inj (found.rest.symm.trans hrest)
  exact ⟨Opcode.eq_of_code found.listed hlisted hcode, hbytes⟩

/-- **A switch that declares more cases than there are bytes for is never given.** -/
theorem next_ne_ok_of_overdrawn (h : Overdrawn d.cursor.position d.cursor.rest) :
    d.next pool ≠ (some (.ok i), d') := by
  intro hnext
  obtain ⟨opcode, args, bytes, found⟩ := exists_found hnext
  generalize hrest : d.cursor.rest = ahead at h
  cases h with
  | table aligned scarce =>
    obtain ⟨rfl, hbytes⟩ :=
      found.opcode_eq ⟨0xaa, "tableswitch", .tableSwitch⟩ (by decide +kernel) hrest
    exact absurd (found.stands.table_fits found.shaped aligned hbytes) (Int.not_le.mpr scarce)
  | lookup aligned scarce =>
    obtain ⟨rfl, hbytes⟩ :=
      found.opcode_eq ⟨0xab, "lookupswitch", .lookupSwitch⟩ (by decide +kernel) hrest
    exact absurd (found.stands.lookup_fits found.shaped aligned hbytes) (Int.not_le.mpr scarce)

theorem Yields.error_of_overdrawn (h : Yields pool (start code) is d)
    (hswitch : Overdrawn d.cursor.position d.cursor.rest) :
    ∃ e, (d.next pool).1 = some (.error e) := by
  cases hnext : d.next pool with
  | mk outcome d' =>
    cases outcome with
    | none =>
      obtain ⟨widened, hphase⟩ := h.exists_expects ⟨false, rfl⟩
      have hend := (next_eq_none hphase hnext).2
      rw [hend] at hswitch
      cases hswitch
    | some result =>
      cases result with
      | ok i => exact absurd hnext (next_ne_ok_of_overdrawn hswitch)
      | error e => exact ⟨e, rfl⟩

end Decoder

open Decoder in
/-- **Decoding cannot amplify its input.** The instructions of a listing and their operands are together
no more than the bytes of the code. Code in which the decoder comes upon a switch that declares more
cases than the bytes behind it can hold does not decode, whatever the keys or the count are. -/
theorem decode_bounded (pool : Pool) (code : Bytes) :
    (∀ xs, decode pool code = .ok xs →
      xs.length + (xs.map fun x => x.operands.length).sum ≤ code.length) ∧
    (∀ is d, Yields pool (start code) is d → Overdrawn d.cursor.position d.cursor.rest →
      ∃ e, decode pool code = .error e) := by
  constructor
  · intro xs h
    obtain ⟨d, hyields, -⟩ := yields_of_decode h
    exact Nat.le_of_add_right_le hyields.volume_le
  · intro is d hyields hswitch
    obtain ⟨e, herror⟩ := hyields.error_of_overdrawn hswitch
    exact ⟨e, decode_of_yields_error hyields herror⟩

/-- A table switch over every key there is, with one case. -/
def endlessSwitch : Bytes :=
  0xaa :: ([0, 0, 0] ++ (BigEndian.i32 0 ++ (BigEndian.i32 Int32.minValue ++
    (BigEndian.i32 Int32.maxValue ++ [0, 0, 0, 0]))))

theorem decode_bounded_sample :
    (decode Program.samplePool Program.sampleCode = .ok Program.sampleListing ∧
      Program.sampleListing.length + (Program.sampleListing.map fun x => x.operands.length).sum ≤
        Program.sampleCode.length) ∧
    (Overdrawn 0 endlessSwitch ∧ ∃ e, decode .empty endlessSwitch = .error e) := by
  have hcode := Program.decode_sampleCode
  have hswitch : Overdrawn 0 endlessSwitch := .table rfl (by decide)
  exact ⟨⟨hcode, (decode_bounded _ _).1 _ hcode⟩, hswitch,
    (decode_bounded .empty endlessSwitch).2 [] (.start endlessSwitch) .nil hswitch⟩

end JvmTrace
