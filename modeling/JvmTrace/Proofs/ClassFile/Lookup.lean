import JvmTrace.Proofs.ClassFile.View
import JvmTrace.Proofs.Pool.References

/-!
# Looking for an attribute — the first match, and nothing behind it

An attribute says what it is by its name in the pool, and by its body if it is called `Code`
(`RawAttribute.Denotes`); where either is unusable, it fails (`RawAttribute.FailsWith`). A search for a
name walks over the attributes that resolve to another name and ends in one of three ways
(`Search`): it runs out, it finds the name, or it meets an attribute that fails. The relation says
nothing about what stands behind the place where a search ends, and it has exactly the outcome that
`findAttribute` computes (`findAttribute_eq_iff`).

So two lists with the same attributes up to that place cannot be told apart (`AlikeUpTo`).
-/

set_option autoImplicit false

namespace JvmTrace

variable {pool : Pool} {name : String} {a : RawAttribute} {found : Attribute} {e : Error}
  {xs ys : List RawAttribute}

/-! ## One attribute -/

namespace RawAttribute

/-- What an attribute holds, by its name: code, or bytes that are not looked into. -/
inductive Denotes (pool : Pool) (a : RawAttribute) : Attribute → Prop
  | code {code : Code} (named : pool.get? a.name = some (.utf8 codeAttribute))
      (body : Code.parse a.body = .ok code) : Denotes pool a ⟨codeAttribute, .code code⟩
  | other {name : String} (named : pool.get? a.name = some (.utf8 name))
      (other : name ≠ codeAttribute) : Denotes pool a ⟨name, .other a.body⟩

/-- What is wrong with an attribute: its name is no text, or it should hold code and does not. -/
inductive FailsWith (pool : Pool) (a : RawAttribute) (e : Error) : Prop
  | name (unnamed : pool.utf8 a.name = .error e)
  | code (named : pool.get? a.name = some (.utf8 codeAttribute)) (body : Code.parse a.body = .error e)

theorem resolve_eq_ok : a.resolve pool = .ok found ↔ a.Denotes pool found := by
  constructor
  · intro h
    obtain ⟨text, htext, h⟩ := Except.bind_eq_ok.mp h
    rw [Pool.utf8_eq_ok] at htext
    split at h
    · next hcode =>
      subst hcode
      obtain ⟨code, hbody, h⟩ := Except.bind_eq_ok.mp h
      cases h
      exact .code htext hbody
    · next hother =>
      cases h
      exact .other htext hother
  · intro h
    cases h with
    | code named body =>
      rw [resolve, Pool.utf8_of_some named]
      simp [bind, Except.bind, body, pure, Except.pure]
    | other named other =>
      rw [resolve, Pool.utf8_of_some named]
      simp [bind, Except.bind, other, pure, Except.pure]

theorem resolve_eq_error : a.resolve pool = .error e ↔ a.FailsWith pool e := by
  constructor
  · intro h
    rcases Except.bind_eq_error.mp h with h | ⟨text, htext, h⟩
    · exact .name h
    · rw [Pool.utf8_eq_ok] at htext
      split at h
      · next hcode =>
        subst hcode
        rcases Except.bind_eq_error.mp h with h | ⟨code, -, h⟩
        · exact .code htext h
        · cases h
      · cases h
  · intro h
    cases h with
    | name unnamed =>
      rw [resolve, unnamed]
      rfl
    | code named body =>
      rw [resolve, Pool.utf8_of_some named]
      simp [bind, Except.bind, body]

theorem Denotes.get?_name (h : a.Denotes pool found) :
    pool.get? a.name = some (.utf8 found.name) := by
  cases h with
  | code named body => exact named
  | other named other => exact named

/-- An attribute that is called `Code` holds code, if it holds anything. -/
theorem Denotes.exists_code (h : a.Denotes pool found) (hname : found.name = codeAttribute) :
    ∃ code, found = ⟨codeAttribute, .code code⟩ := by
  cases h with
  | code named body => exact ⟨_, rfl⟩
  | other named other => exact absurd hname other

/-- The search for a name walks over an attribute that resolves to another one. -/
def Passed (pool : Pool) (name : String) (a : RawAttribute) : Prop :=
  ∃ found, a.Denotes pool found ∧ found.name ≠ name

end RawAttribute

open RawAttribute

/-! ## The search -/

/-- How a search ends, and where. -/
inductive Search (pool : Pool) (name : String) :
    List RawAttribute → Except Error (Option Attribute) → Prop
  | missed {xs : List RawAttribute} (passed : ∀ a ∈ xs, a.Passed pool name) :
      Search pool name xs (.ok none)
  | found {before : List RawAttribute} {a : RawAttribute} {found : Attribute}
      (passed : ∀ b ∈ before, b.Passed pool name) (denotes : a.Denotes pool found)
      (named : found.name = name) (after : List RawAttribute) :
      Search pool name (before ++ a :: after) (.ok (some found))
  | failed {before : List RawAttribute} {a : RawAttribute} {e : Error}
      (passed : ∀ b ∈ before, b.Passed pool name) (fails : a.FailsWith pool e)
      (after : List RawAttribute) : Search pool name (before ++ a :: after) (.error e)

theorem findAttribute_of_named (h : a.Denotes pool found) (hname : found.name = name)
    (rest : List RawAttribute) : findAttribute pool name (a :: rest) = .ok (some found) := by
  rw [findAttribute, resolve_eq_ok.mpr h]
  exact if_pos hname

theorem findAttribute_of_fails (h : a.FailsWith pool e) (rest : List RawAttribute) :
    findAttribute pool name (a :: rest) = .error e := by
  rw [findAttribute, resolve_eq_error.mpr h]
  rfl

theorem findAttribute_of_passed (h : a.Passed pool name) (rest : List RawAttribute) :
    findAttribute pool name (a :: rest) = findAttribute pool name rest := by
  obtain ⟨found, hfound, hother⟩ := h
  rw [findAttribute, resolve_eq_ok.mpr hfound]
  exact if_neg hother

theorem findAttribute_append {before : List RawAttribute}
    (h : ∀ b ∈ before, b.Passed pool name) (rest : List RawAttribute) :
    findAttribute pool name (before ++ rest) = findAttribute pool name rest := by
  induction before with
  | nil => rfl
  | cons b before ih =>
    rw [List.cons_append, findAttribute_of_passed (h b List.mem_cons_self)]
    exact ih fun b hb => h b (List.mem_cons_of_mem _ hb)

/-- A search that walks over one more attribute ends as it did. -/
theorem Search.cons {outcome : Except Error (Option Attribute)} (ha : a.Passed pool name)
    (h : Search pool name xs outcome) : Search pool name (a :: xs) outcome := by
  cases h with
  | missed passed => exact .missed (List.forall_mem_cons.mpr ⟨ha, passed⟩)
  | found passed denotes named after =>
    have hpassed := List.forall_mem_cons.mpr ⟨ha, passed⟩
    exact .found hpassed denotes named after
  | failed passed fails after =>
    have hpassed := List.forall_mem_cons.mpr ⟨ha, passed⟩
    exact .failed hpassed fails after

theorem search_findAttribute (pool : Pool) (name : String) (xs : List RawAttribute) :
    Search pool name xs (findAttribute pool name xs) := by
  induction xs with
  | nil => exact .missed (List.forall_mem_nil _)
  | cons a rest ih =>
    cases ha : a.resolve pool with
    | error e =>
      have hfails := resolve_eq_error.mp ha
      rw [findAttribute_of_fails hfails]
      exact .failed (List.forall_mem_nil _) hfails rest
    | ok found =>
      have hfound := resolve_eq_ok.mp ha
      by_cases hname : found.name = name
      · rw [findAttribute_of_named hfound hname]
        exact .found (List.forall_mem_nil _) hfound hname rest
      · have hpassed : a.Passed pool name := ⟨found, hfound, hname⟩
        rw [findAttribute_of_passed hpassed]
        exact ih.cons hpassed

/-- **A search has one outcome, and `findAttribute` computes it.** -/
theorem findAttribute_eq_iff {outcome : Except Error (Option Attribute)} :
    findAttribute pool name xs = outcome ↔ Search pool name xs outcome := by
  constructor
  · intro h
    rw [← h]
    exact search_findAttribute pool name xs
  · intro h
    cases h with
    | missed passed =>
      have hall := findAttribute_append passed []
      rwa [List.append_nil] at hall
    | found passed denotes named after =>
      rw [findAttribute_append passed]
      exact findAttribute_of_named denotes named after
    | failed passed fails after =>
      rw [findAttribute_append passed]
      exact findAttribute_of_fails fails after

/-- A search that runs out has walked over everything. -/
theorem Search.passed (h : Search pool name xs (.ok none)) : ∀ a ∈ xs, a.Passed pool name := by
  cases h with
  | missed passed => exact passed

theorem Search.exists_code (h : Search pool codeAttribute xs (.ok (some found))) :
    ∃ code, found = ⟨codeAttribute, .code code⟩ := by
  cases h with
  | found passed denotes named => exact denotes.exists_code named

/-! ## What is behind the match -/

/-- The lists have the same attributes, or at least up to one where the search for `name` ends:
because that is its name, or because it fails. -/
inductive AlikeUpTo (pool : Pool) (name : String) : List RawAttribute → List RawAttribute → Prop
  | nil : AlikeUpTo pool name [] []
  | named {a : RawAttribute} {xs ys : List RawAttribute}
      (named : pool.get? a.name = some (.utf8 name)) : AlikeUpTo pool name (a :: xs) (a :: ys)
  | failed {a : RawAttribute} {xs ys : List RawAttribute} {e : Error}
      (fails : a.FailsWith pool e) : AlikeUpTo pool name (a :: xs) (a :: ys)
  | cons {a : RawAttribute} {xs ys : List RawAttribute} (rest : AlikeUpTo pool name xs ys) :
      AlikeUpTo pool name (a :: xs) (a :: ys)

/-- An attribute of the name ends the search, whether it resolves or not. -/
theorem findAttribute_cons_congr (hname : pool.get? a.name = some (.utf8 name)) :
    findAttribute pool name (a :: xs) = findAttribute pool name (a :: ys) := by
  cases ha : a.resolve pool with
  | error e =>
    have hfails := resolve_eq_error.mp ha
    rw [findAttribute_of_fails hfails, findAttribute_of_fails hfails]
  | ok found =>
    have hfound := resolve_eq_ok.mp ha
    have hsame : found.name = name := by
      rw [hfound.get?_name] at hname
      simpa using hname
    rw [findAttribute_of_named hfound hsame, findAttribute_of_named hfound hsame]

/-- **A search does not depend on what is behind the place where it ends.** -/
theorem AlikeUpTo.findAttribute_eq (h : AlikeUpTo pool name xs ys) :
    findAttribute pool name xs = findAttribute pool name ys := by
  induction h with
  | nil => rfl
  | named named => exact findAttribute_cons_congr named
  | failed fails => rw [findAttribute_of_fails fails, findAttribute_of_fails fails]
  | cons rest ih => rw [findAttribute, findAttribute, ih]

/-! ## The body of a method -/

namespace Method

variable {m n : Method}

/-- A method has no body when every attribute resolves and none is called `Code`: one that is can
only hold code. -/
theorem code_eq_none_iff :
    m.code pool = .ok none ↔ ∀ a ∈ m.attributes, a.Passed pool codeAttribute := by
  constructor
  · intro h
    obtain ⟨result, hresult, h⟩ := Except.bind_eq_ok.mp h
    rw [findAttribute_eq_iff] at hresult
    cases result with
    | none => exact hresult.passed
    | some found =>
      obtain ⟨code, rfl⟩ := hresult.exists_code
      cases h
  · intro h
    rw [code, findAttribute_eq_iff.mpr (.missed h)]
    rfl

theorem code_of_search {code : Code}
    (h : Search pool codeAttribute m.attributes (.ok (some ⟨codeAttribute, .code code⟩))) :
    m.code pool = .ok (some code) := by
  rw [Method.code, findAttribute_eq_iff.mpr h]
  rfl

theorem code_of_failed (h : Search pool codeAttribute m.attributes (.error e)) :
    m.code pool = .error e := by
  rw [code, findAttribute_eq_iff.mpr h]
  rfl

theorem instructions_of_some {code : Code} (h : m.code pool = .ok (some code)) :
    m.instructions pool = decode pool code.code := by
  rw [instructions, h]
  rfl

theorem instructions_of_none (h : m.code pool = .ok none) : m.instructions pool = .ok [] := by
  rw [instructions, h]
  rfl

theorem instructions_of_error (h : m.code pool = .error e) : m.instructions pool = .error e := by
  rw [instructions, h]
  rfl

/-- What a method executes: its code, decoded, if the search for it finds any, and nothing if there is
none. -/
inductive Executes (pool : Pool) (m : Method) : List Instruction → Prop where
  | body {code : Code} {is : List Instruction}
      (found : Search pool codeAttribute m.attributes (.ok (some ⟨codeAttribute, .code code⟩)))
      (decoded : decode pool code.code = .ok is) : Executes pool m is
  | nothing (passed : ∀ a ∈ m.attributes, a.Passed pool codeAttribute) : Executes pool m []

theorem executes_of_instructions {is : List Instruction} (h : m.instructions pool = .ok is) :
    m.Executes pool is := by
  obtain ⟨body, hbody, h⟩ := Except.bind_eq_ok.mp h
  cases body with
  | none =>
    cases h
    exact .nothing (code_eq_none_iff.mp hbody)
  | some code =>
    obtain ⟨result, hresult, hcode⟩ := Except.bind_eq_ok.mp hbody
    rw [findAttribute_eq_iff] at hresult
    cases result with
    | none => cases hcode
    | some found =>
      obtain ⟨_, rfl⟩ := hresult.exists_code
      cases hcode
      exact .body hresult h

/-- The instructions of a method depend on its attributes up to the first that is called `Code`. -/
theorem instructions_congr (h : AlikeUpTo pool codeAttribute m.attributes n.attributes) :
    m.instructions pool = n.instructions pool := by
  rw [instructions, instructions, code, code, h.findAttribute_eq]

end Method

end JvmTrace
