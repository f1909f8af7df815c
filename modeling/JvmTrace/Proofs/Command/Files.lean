import JvmTrace.Command.FileSystem
import JvmTrace.Proofs.Pool.Resolve
import Mathlib.Logic.Relation

/-!
# Files — what a path leads to, and what creating a file leaves alone

A path *leads to* a node when its steps can be taken one after the other and end there. This says
nothing about permissions or about how many links there are on the way: it is what the path means,
and not whether the user of the run may follow it. Whatever is read or created is the node that the
path leads to (`exists_leadsTo_of_read`, `leadsTo_of_create`), whichever of its names and links were
taken to get there.

Creating a file and writing to it `Spares` everything but one node. The node is a file, so no step
starts from it, and a path that leads elsewhere never comes by: each of its steps can be taken before
and after.
-/

set_option autoImplicit false

namespace JvmTrace.Command

namespace FileSystem

variable {fs before after : FileSystem} {id j place : Nat} {name path : String} {bytes : Bytes}

/-! ## What is there -/

/-- The node is a directory, and this is the one above it. -/
def IsDirectory (fs : FileSystem) (id parent : Nat) : Prop :=
  ∃ entries permissions, fs.nodes[id]? = some ⟨.directory parent entries, permissions⟩

/-- The node is a link. -/
def IsLink (fs : FileSystem) (id : Nat) (target : Path) : Prop :=
  ∃ permissions, fs.nodes[id]? = some ⟨.link target, permissions⟩

/-- The name stands for the node in a directory. -/
def Names (fs : FileSystem) (place : Nat) (name : String) (id : Nat) : Prop :=
  ∃ parent entries permissions,
    fs.nodes[place]? = some ⟨.directory parent entries, permissions⟩ ∧ entries.lookup name = some id

/-- The bytes of a file. -/
def contents? (fs : FileSystem) (id : Nat) : Option Bytes :=
  match fs.nodes[id]? with
  | some ⟨.file bytes, _⟩ => some bytes
  | _ => none

section

variable {parent : Nat} {entries : List (String × Nat)} {permissions : Permissions}

theorem isDirectory_iff (h : fs.nodes[id]? = some ⟨.directory parent entries, permissions⟩)
    {above : Nat} : fs.IsDirectory id above ↔ above = parent := by
  constructor
  · rintro ⟨_, _, h'⟩
    cases h.symm.trans h'
    rfl
  · rintro rfl
    exact ⟨entries, permissions, h⟩

theorem names_iff (h : fs.nodes[place]? = some ⟨.directory parent entries, permissions⟩) :
    fs.Names place name id ↔ entries.lookup name = some id := by
  constructor
  · rintro ⟨_, _, _, h', hname⟩
    cases h.symm.trans h'
    exact hname
  · intro hname
    exact ⟨parent, entries, permissions, h, hname⟩

end

theorem Names.isDirectory (h : fs.Names place name id) : ∃ parent, fs.IsDirectory place parent := by
  obtain ⟨parent, entries, permissions, hnode, -⟩ := h
  exact ⟨parent, entries, permissions, hnode⟩

theorem contents?_eq_some : fs.contents? id = some bytes ↔
    ∃ permissions, fs.nodes[id]? = some ⟨.file bytes, permissions⟩ := by
  unfold contents?
  constructor
  · intro h
    split at h
    · next found permissions hnode =>
      cases h
      exact ⟨permissions, hnode⟩
    · cases h
  · rintro ⟨permissions, hnode⟩
    rw [hnode]

/-! ## Following paths -/

/-- One step of a path: what is left of it is to be followed from the next node. A link is left by the way
that it describes. -/
inductive Takes (fs : FileSystem) : Nat × List Step → Nat × List Step → Prop
  | slash {here parent : Nat} {rest : List Step} :
    fs.IsDirectory here parent → Takes fs (here, .slash :: rest) (here, rest)
  | stay {here parent : Nat} {rest : List Step} :
    fs.IsDirectory here parent → Takes fs (here, .stay :: rest) (here, rest)
  | up {here parent : Nat} {rest : List Step} :
    fs.IsDirectory here parent → Takes fs (here, .up :: rest) (parent, rest)
  | down {here next : Nat} {name : String} {rest : List Step} :
    fs.Names here name next → (∀ target, ¬ fs.IsLink next target) →
    Takes fs (here, .down name :: rest) (next, rest)
  | link {here next : Nat} {name : String} {rest : List Step} {target : Path} :
    fs.Names here name next → fs.IsLink next target →
    Takes fs (here, .down name :: rest)
      (if target.absolute then fs.root else here, target.steps ++ rest)

/-- Some steps of a path, one after the other. -/
abbrev Leads (fs : FileSystem) : Nat × List Step → Nat × List Step → Prop :=
  Relation.ReflTransGen fs.Takes

/-- The path leads to the node. -/
def LeadsTo (fs : FileSystem) (text : String) (id : Nat) : Prop :=
  ∃ path, Path.parse text = .ok path ∧
    fs.Leads (if path.absolute then fs.root else fs.working, path.steps) (id, [])

/-- A step is taken from a directory. -/
theorem Takes.isDirectory {a b : Nat × List Step} (h : fs.Takes a b) :
    ∃ parent, fs.IsDirectory a.1 parent := by
  cases h with
  | slash hdir => exact ⟨_, hdir⟩
  | stay hdir => exact ⟨_, hdir⟩
  | up hdir => exact ⟨_, hdir⟩
  | down hname => exact hname.isDirectory
  | link hname => exact hname.isDirectory

/-- There is one way to take a step. -/
theorem Takes.unique : Relator.RightUnique fs.Takes := by
  intro a b c h h'
  have directory {k p q : Nat} (h : fs.IsDirectory k p) (h' : fs.IsDirectory k q) : p = q := by
    obtain ⟨_, _, h⟩ := h
    obtain ⟨_, _, h'⟩ := h'
    cases h.symm.trans h'
    rfl
  have named {k i j : Nat} {n : String} (h : fs.Names k n i) (h' : fs.Names k n j) : i = j := by
    obtain ⟨_, _, _, h, hi⟩ := h
    obtain ⟨_, _, _, h', hj⟩ := h'
    cases h.symm.trans h'
    exact Option.some.inj (hi.symm.trans hj)
  cases h with
  | slash h => cases h'; rfl
  | stay h => cases h'; rfl
  | up h =>
    cases h' with
    | up h' => rw [directory h h']
  | down h hplain =>
    cases h' with
    | down h' => rw [named h h']
    | link h' hlink =>
      cases named h h'
      exact absurd hlink (hplain _)
  | link h hlink =>
    cases h' with
    | down h' hplain =>
      cases named h h'
      exact absurd hlink (hplain _)
    | link h' hlink' =>
      cases named h h'
      obtain ⟨_, hlink⟩ := hlink
      obtain ⟨_, hlink'⟩ := hlink'
      cases hlink.symm.trans hlink'
      rfl

/-- **A path leads to one node at most.** -/
theorem LeadsTo.unique (h : fs.LeadsTo path id) (h' : fs.LeadsTo path j) : id = j := by
  obtain ⟨parsed, hparse, h⟩ := h
  obtain ⟨_, hparse', h'⟩ := h'
  cases hparse.symm.trans hparse'
  have stays {a b : Nat} (h : fs.Leads (a, []) (b, [])) : a = b := by
    obtain heq | ⟨_, hstep, -⟩ := h.cases_head
    · exact congrArg Prod.fst heq
    · cases hstep
  obtain h | h := Relation.ReflTransGen.total_of_right_unique Takes.unique h h'
  · exact stays h
  · exact (stays h).symm

/-- Where the rest of a path leads: to a node, or to a name that nothing has. -/
def Reaches (fs : FileSystem) (a : Nat × List Step) : Target → Prop
  | .node id => fs.Leads a (id, [])
  | .free place name =>
    fs.Leads a (place, [.down name]) ∧ (∃ parent, fs.IsDirectory place parent) ∧
      ∀ j, ¬ fs.Names place name j

theorem Reaches.head {a b : Nat × List Step} {target : Target} (hab : fs.Takes a b)
    (h : fs.Reaches b target) : fs.Reaches a target := by
  cases target with
  | node id => exact Relation.ReflTransGen.head hab h
  | free place name => exact ⟨Relation.ReflTransGen.head hab h.1, h.2⟩

theorem reaches_of_follow {making : Bool} {onLink : Nat → List Step → Except Error Target}
    (hlink : ∀ here steps target, onLink here steps = .ok target → fs.Reaches (here, steps) target)
    {here : Nat} {steps : List Step} {target : Target}
    (h : fs.follow making onLink here steps = .ok target) : fs.Reaches (here, steps) target := by
  induction steps generalizing here with
  | nil =>
    cases h
    exact .refl
  | cons step rest ih =>
    unfold follow at h
    split at h
    · next parent entries permissions hnode =>
      have hdirectory : fs.IsDirectory here parent := ⟨entries, permissions, hnode⟩
      split at h
      · cases h
      · cases step with
        | slash => exact .head (.slash hdirectory) (ih h)
        | stay => exact .head (.stay hdirectory) (ih h)
        | up => exact .head (.up hdirectory) (ih h)
        | down name =>
          dsimp only at h
          split at h
          · cases h
          split at h
          · cases h
          split at h
          · next hfree =>
            split at h
            · next hlast =>
              cases h
              subst hlast
              refine ⟨.refl, ⟨parent, hdirectory⟩, ?_⟩
              rintro j ⟨_, _, _, hnode', hname⟩
              cases hnode.symm.trans hnode'
              cases hfree.symm.trans hname
            · cases h
          · next next hname =>
            have hnames : fs.Names here name next := ⟨parent, entries, permissions, hnode, hname⟩
            split at h
            · next target permissions hnext =>
              exact .head (.link hnames ⟨permissions, hnext⟩) (hlink _ _ _ h)
            · next hplain =>
              refine .head (.down hnames ?_) (ih h)
              rintro target ⟨permissions, hnext⟩
              exact hplain target permissions hnext
    · cases h

theorem reaches_of_walk {making : Bool} {links here : Nat} {steps : List Step} {target : Target}
    (h : fs.walk making links here steps = .ok target) : fs.Reaches (here, steps) target := by
  induction links generalizing here steps target with
  | zero => exact reaches_of_follow (fun _ _ _ h => by cases h) h
  | succ links ih => exact reaches_of_follow (fun _ _ _ h => ih h) h

/-- A path that can be followed leads where following it ends. -/
theorem reaches_of_resolve {making : Bool} {target : Target} (h : fs.resolve making path = .ok target) :
    ∃ parsed, Path.parse path = .ok parsed ∧
      fs.Reaches (if parsed.absolute then fs.root else fs.working, parsed.steps) target := by
  obtain ⟨parsed, hparse, h⟩ := Except.bind_eq_ok.mp h
  exact ⟨parsed, hparse, reaches_of_walk h⟩

/-- **What is read is what the file holds that the path leads to.** -/
theorem exists_leadsTo_of_read (h : fs.read path = .ok bytes) :
    ∃ id, fs.LeadsTo path id ∧ fs.contents? id = some bytes := by
  obtain ⟨target, hresolve, h⟩ := Except.bind_eq_ok.mp h
  obtain ⟨parsed, hparse, hreach⟩ := reaches_of_resolve hresolve
  cases target with
  | free => cases h
  | node id =>
    dsimp only at h
    split at h
    · cases h
    · next node hnode =>
      split at h
      · cases h
      split at h
      · next found hfile =>
        cases h
        refine ⟨id, ⟨parsed, hparse, hreach⟩, contents?_eq_some.mpr ⟨node.permissions, ?_⟩⟩
        rw [hnode, ← hfile]
      · cases h

/-! ## Changing the bytes of a file -/

theorem getElem?_mapBytes_self {f : Bytes → Bytes} :
    (fs.mapBytes id f).nodes[id]? = (fs.nodes[id]?).map (Node.mapBytes f) := by
  simp [mapBytes]

theorem getElem?_mapBytes_of_ne {f : Bytes → Bytes} (h : j ≠ id) :
    (fs.mapBytes id f).nodes[j]? = fs.nodes[j]? := by
  simp [mapBytes, h.symm]

/-- Nothing but a file has any bytes to change. -/
theorem getElem?_mapBytes_eq_some {f : Bytes → Bytes} {content : Content} {permissions : Permissions}
    (h : ∀ bytes, content ≠ .file bytes) :
    (fs.mapBytes id f).nodes[j]? = some ⟨content, permissions⟩ ↔
      fs.nodes[j]? = some ⟨content, permissions⟩ := by
  have hnode (n : Node) : n.mapBytes f = ⟨content, permissions⟩ ↔ n = ⟨content, permissions⟩ := by
    obtain ⟨c, p⟩ := n
    cases c with
    | file bytes =>
      simp only [Node.mapBytes, Node.mk.injEq]
      exact ⟨fun hc => absurd hc.1.symm (h _), fun hc => absurd hc.1.symm (h _)⟩
    | directory => rfl
    | link => rfl
  by_cases hj : j = id
  · subst hj
    rw [getElem?_mapBytes_self, Option.map_eq_some_iff]
    simp only [hnode, exists_eq_right]
  · rw [getElem?_mapBytes_of_ne hj]

theorem contents?_mapBytes {f : Bytes → Bytes} (h : fs.contents? id = some bytes) :
    (fs.mapBytes id f).contents? id = some (f bytes) := by
  obtain ⟨permissions, hnode⟩ := contents?_eq_some.mp h
  refine contents?_eq_some.mpr ⟨permissions, ?_⟩
  rw [getElem?_mapBytes_self, hnode]
  rfl

theorem isDirectory_mapBytes {f : Bytes → Bytes} {parent : Nat} :
    (fs.mapBytes id f).IsDirectory j parent ↔ fs.IsDirectory j parent := by
  simp [IsDirectory, getElem?_mapBytes_eq_some]

theorem isLink_mapBytes {f : Bytes → Bytes} {target : Path} :
    (fs.mapBytes id f).IsLink j target ↔ fs.IsLink j target := by
  simp [IsLink, getElem?_mapBytes_eq_some]

theorem names_mapBytes {f : Bytes → Bytes} :
    (fs.mapBytes id f).Names place name j ↔ fs.Names place name j := by
  simp [Names, getElem?_mapBytes_eq_some]

/-! ## Adding a file -/

theorem getElem?_addFile_self :
    (fs.addFile place name).nodes[fs.nodes.length]? = some { content := .file [] } := by
  simp [addFile]

theorem getElem?_addFile_of_ne (hplace : j ≠ place) (hfresh : j ≠ fs.nodes.length) :
    (fs.addFile place name).nodes[j]? = fs.nodes[j]? := by
  simp only [addFile, List.getElem?_append, List.length_modify]
  split
  · rw [List.getElem?_modify_ne _ _ hplace.symm]
  · next hge =>
    rw [List.getElem?_eq_none (by simp; omega), List.getElem?_eq_none (by omega)]

/-- What is new is a file, so directories and links are where they were. -/
theorem getElem?_addFile_eq_some {content : Content} {permissions : Permissions} (hplace : j ≠ place)
    (h : ∀ bytes, content ≠ .file bytes) :
    (fs.addFile place name).nodes[j]? = some ⟨content, permissions⟩ ↔
      fs.nodes[j]? = some ⟨content, permissions⟩ := by
  by_cases hfresh : j = fs.nodes.length
  · subst hfresh
    rw [getElem?_addFile_self, List.getElem?_eq_none (Nat.le_refl _)]
    simp [(h []).symm]
  · rw [getElem?_addFile_of_ne hplace hfresh]

section

variable {parent : Nat} {entries : List (String × Nat)} {permissions : Permissions}

theorem getElem?_addFile_place
    (hplace : fs.nodes[place]? = some ⟨.directory parent entries, permissions⟩) :
    (fs.addFile place name).nodes[place]? =
      some ⟨.directory parent ((name, fs.nodes.length) :: entries), permissions⟩ := by
  have hlt : place < fs.nodes.length := (List.getElem?_eq_some_iff.mp hplace).1
  simp only [addFile, List.getElem?_append, List.length_modify, if_pos hlt, List.getElem?_modify_eq,
    hplace]
  rfl

theorem isDirectory_addFile
    (hplace : fs.nodes[place]? = some ⟨.directory parent entries, permissions⟩) {above : Nat} :
    (fs.addFile place name).IsDirectory j above ↔ fs.IsDirectory j above := by
  by_cases hj : j = place
  · subst hj
    rw [isDirectory_iff (getElem?_addFile_place hplace), isDirectory_iff hplace]
  · simp [IsDirectory, getElem?_addFile_eq_some hj]

theorem isLink_addFile
    (hplace : fs.nodes[place]? = some ⟨.directory parent entries, permissions⟩) {target : Path} :
    (fs.addFile place name).IsLink j target ↔ fs.IsLink j target := by
  by_cases hj : j = place
  · subst hj
    simp [IsLink, getElem?_addFile_place hplace, hplace]
  · simp [IsLink, getElem?_addFile_eq_some hj]

/-- One name is new, and it was free. -/
theorem names_addFile
    (hplace : fs.nodes[place]? = some ⟨.directory parent entries, permissions⟩)
    (hfree : entries.lookup name = none) {k : Nat} {n : String} :
    (fs.addFile place name).Names k n j ↔
      fs.Names k n j ∨ k = place ∧ n = name ∧ j = fs.nodes.length := by
  by_cases hk : k = place
  · subst hk
    rw [names_iff (getElem?_addFile_place hplace), names_iff hplace, List.lookup_cons]
    by_cases hn : n = name
    · subst hn
      simp [hfree, eq_comm]
    · rw [beq_false_of_ne hn]
      simp [hn]
  · simp [Names, getElem?_addFile_eq_some hk, hk]

end

/-! ## Sparing everything else -/

/-- The nodes before and after a file was changed, or added under a name that was free: the other nodes
and all links and directories are as they were, but for that name. -/
structure Grows (before after : FileSystem) (id : Nat) : Prop where
  root : after.root = before.root
  working : after.working = before.working
  file : ∃ bytes, after.contents? id = some bytes
  nodes : ∀ j ≠ id, (∀ parent, ¬ before.IsDirectory j parent) → after.nodes[j]? = before.nodes[j]?
  directory : ∀ k parent, after.IsDirectory k parent ↔ before.IsDirectory k parent
  link : ∀ k target, after.IsLink k target ↔ before.IsLink k target
  names : ∀ k n j, before.Names k n j → after.Names k n j
  one : ∃ place name, ∀ k n j, after.Names k n j →
    before.Names k n j ∨ k = place ∧ n = name ∧ j = id

namespace Grows

theorem addFile {parent : Nat} {entries : List (String × Nat)} {permissions : Permissions}
    (name : String) (hplace : fs.nodes[place]? = some ⟨.directory parent entries, permissions⟩)
    (hfree : entries.lookup name = none) : Grows fs (fs.addFile place name) fs.nodes.length where
  root := rfl
  working := rfl
  file := ⟨[], contents?_eq_some.mpr ⟨_, getElem?_addFile_self⟩⟩
  nodes j hne hother := by
    refine getElem?_addFile_of_ne ?_ hne
    rintro rfl
    exact hother parent ⟨entries, permissions, hplace⟩
  directory k above := isDirectory_addFile hplace
  link k target := isLink_addFile hplace
  names k n j h := (names_addFile hplace hfree).mpr (.inl h)
  one := ⟨place, name, fun k n j => (names_addFile hplace hfree).mp⟩

theorem refl (h : fs.contents? id = some bytes) : Grows fs fs id where
  root := rfl
  working := rfl
  file := ⟨bytes, h⟩
  nodes _ _ _ := rfl
  directory _ _ := .rfl
  link _ _ := .rfl
  names _ _ _ h := h
  one := ⟨0, "", fun _ _ _ => .inl⟩

/-- Changing the bytes of the file once more changes nothing else. -/
theorem mapBytes (h : Grows before after id) (f : Bytes → Bytes) :
    Grows before (after.mapBytes id f) id where
  root := h.root
  working := h.working
  file := h.file.imp' f fun _ => contents?_mapBytes
  nodes j hne hother := (getElem?_mapBytes_of_ne hne).trans (h.nodes j hne hother)
  directory k above := isDirectory_mapBytes.trans (h.directory k above)
  link k target := isLink_mapBytes.trans (h.link k target)
  names k n j hname := names_mapBytes.mpr (h.names k n j hname)
  one := by
    obtain ⟨place, name, hone⟩ := h.one
    exact ⟨place, name, fun k n j hname => hone k n j (names_mapBytes.mp hname)⟩

/-- A step that could be taken before can be taken after. -/
theorem takes (h : Grows before after id) {a b : Nat × List Step} (hstep : before.Takes a b) :
    after.Takes a b := by
  cases hstep with
  | slash hdir => exact .slash ((h.directory _ _).mpr hdir)
  | stay hdir => exact .stay ((h.directory _ _).mpr hdir)
  | up hdir => exact .up ((h.directory _ _).mpr hdir)
  | down hname hplain =>
    exact .down (h.names _ _ _ hname) fun target hlink => hplain target ((h.link _ _).mp hlink)
  | link hname hlink =>
    rw [← h.root]
    exact .link (h.names _ _ _ hname) ((h.link _ _).mpr hlink)

theorem leads (h : Grows before after id) {a b : Nat × List Step} (hleads : before.Leads a b) :
    after.Leads a b :=
  Relation.ReflTransGen.mono (fun _ _ => h.takes) _ _ hleads

/-- The file is neither a directory nor a link. -/
theorem plain (h : Grows before after id) :
    (∀ parent, ¬ after.IsDirectory id parent) ∧ ∀ target, ¬ after.IsLink id target := by
  obtain ⟨bytes, hfile⟩ := h.file
  obtain ⟨_, hnode⟩ := contents?_eq_some.mp hfile
  constructor
  · rintro parent ⟨_, _, hnode'⟩
    cases hnode.symm.trans hnode'
  · rintro target ⟨_, hnode'⟩
    cases hnode.symm.trans hnode'

/-- A step that can be taken after could be taken before, unless it is one to the file. -/
theorem takes_back (h : Grows before after id) {a b : Nat × List Step} (hne : b.1 ≠ id)
    (hstep : after.Takes a b) : before.Takes a b := by
  obtain ⟨place, name, hone⟩ := h.one
  cases hstep with
  | slash hdir => exact .slash ((h.directory _ _).mp hdir)
  | stay hdir => exact .stay ((h.directory _ _).mp hdir)
  | up hdir => exact .up ((h.directory _ _).mp hdir)
  | down hname hplain =>
    obtain hname | ⟨-, -, heq⟩ := hone _ _ _ hname
    · exact .down hname fun target hlink => hplain target ((h.link _ _).mpr hlink)
    · exact absurd heq hne
  | link hname hlink =>
    obtain hname | ⟨-, -, rfl⟩ := hone _ _ _ hname
    · rw [h.root]
      exact .link hname ((h.link _ _).mp hlink)
    · exact absurd hlink (h.plain.2 _)

/-- No step starts from the file, so a way that ends elsewhere does not come by. -/
theorem leads_back (h : Grows before after id) (hne : j ≠ id) {a : Nat × List Step}
    (hleads : after.Leads a (j, [])) : before.Leads a (j, []) := by
  suffices a.1 ≠ id ∧ before.Leads a (j, []) from this.2
  induction hleads using Relation.ReflTransGen.head_induction_on with
  | refl => exact ⟨hne, .refl⟩
  | head hstep _ ih =>
    refine ⟨?_, .head (h.takes_back ih.1 hstep) ih.2⟩
    rintro rfl
    obtain ⟨parent, hdirectory⟩ := hstep.isDirectory
    exact h.plain.1 parent hdirectory

/-- A path that led somewhere still leads there. -/
theorem leadsTo (h : Grows before after id) (hleads : before.LeadsTo path j) :
    after.LeadsTo path j := by
  obtain ⟨parsed, hparse, hleads⟩ := hleads
  refine ⟨parsed, hparse, ?_⟩
  rw [h.root, h.working]
  exact h.leads hleads

/-- A path that leads to another node led there before. -/
theorem leadsTo_back (h : Grows before after id) (hne : j ≠ id) (hleads : after.LeadsTo path j) :
    before.LeadsTo path j := by
  obtain ⟨parsed, hparse, hleads⟩ := hleads
  refine ⟨parsed, hparse, ?_⟩
  rw [← h.root, ← h.working]
  exact h.leads_back hne hleads

end Grows

/-- Every file but one is as it was, and so is every path that leads elsewhere; at most one name is
new. -/
structure Spares (before after : FileSystem) (id : Nat) : Prop where
  nodes : ∀ j ≠ id, (∀ parent, ¬ before.IsDirectory j parent) → after.nodes[j]? = before.nodes[j]?
  kept : ∀ path j, before.LeadsTo path j → after.LeadsTo path j
  found : ∀ path j, j ≠ id → after.LeadsTo path j → before.LeadsTo path j
  one : ∃ place name, ∀ k n j, after.Names k n j →
    before.Names k n j ∨ k = place ∧ n = name ∧ j = id

theorem Grows.spares (h : Grows before after id) : Spares before after id :=
  ⟨h.nodes, fun _ _ => h.leadsTo, fun _ _ => h.leadsTo_back, h.one⟩

/-! ## Creating and writing -/

/-- The file that is created is empty, and it is the one that the path leads to. -/
theorem leadsTo_of_create (h : before.create path = .ok (id, after)) :
    after.contents? id = some [] ∧ after.LeadsTo path id ∧ Grows before after id := by
  obtain ⟨target, hresolve, h⟩ := Except.bind_eq_ok.mp h
  obtain ⟨parsed, hparse, hreach⟩ := reaches_of_resolve hresolve
  cases target with
  | free place name =>
    obtain ⟨hleads, ⟨parent, entries, permissions, hplace⟩, hfree⟩ := hreach
    dsimp only at h
    rw [hplace] at h
    dsimp only at h
    split at h
    · cases h
    · cases h
      have hlookup : entries.lookup name = none := by
        refine Option.eq_none_iff_forall_ne_some.mpr fun j hj => ?_
        exact hfree j ((names_iff hplace).mpr hj)
      have hgrows := Grows.addFile name hplace hlookup
      refine ⟨contents?_eq_some.mpr ⟨_, getElem?_addFile_self⟩, ⟨parsed, hparse, ?_⟩, hgrows⟩
      -- The way to the free name is there as before, and now the name stands for the file.
      refine .tail (hgrows.leads hleads) (.down ?_ hgrows.plain.2)
      exact (names_addFile hplace hlookup).mpr (.inr ⟨rfl, rfl, rfl⟩)
  | node id =>
    dsimp only at h
    split at h
    · next bytes permissions hnode =>
      split at h
      · cases h
      · cases h
        have hfile : before.contents? id = some bytes := contents?_eq_some.mpr ⟨permissions, hnode⟩
        have hgrows := (Grows.refl hfile).mapBytes fun _ => []
        exact ⟨contents?_mapBytes hfile, hgrows.leadsTo ⟨parsed, hparse, hreach⟩, hgrows⟩
    · cases h

/-- **A file that is created and written to holds what was written, and everything else is spared.** -/
theorem append_of_create (h : before.create path = .ok (id, after)) (bytes : Bytes) :
    (after.append id bytes).contents? id = some bytes ∧ (after.append id bytes).LeadsTo path id ∧
      Spares before (after.append id bytes) id := by
  obtain ⟨hfile, hleads, hgrows⟩ := leadsTo_of_create h
  refine ⟨contents?_mapBytes hfile, ?_, (hgrows.mapBytes _).spares⟩
  exact ((Grows.refl hfile).mapBytes _).leadsTo hleads

-- What is written by one path is read by another.
example : ((ofFiles [("A", [1]), ("B", [2])]).create "./A").map
    (fun created => (created.2.append created.1 [3]).read "../work/A") = .ok (.ok [3]) := rfl

end FileSystem

end JvmTrace.Command
