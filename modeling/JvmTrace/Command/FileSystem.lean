import JvmTrace.Bytes.BigEndian
import JvmTrace.Command.Path

/-!
# File systems — nodes, and the paths that lead to them

A run reads one file and may write one. What it sees is a `FileSystem`: nodes by number, each of them a
file, a directory of named nodes, or a link. One file may have many names, in one directory or in several,
and more paths than names, by way of links and of directories above the one of the run. So a file is its
node, and what a path leads to is decided by following it.

A path is followed step by step, and the first step that cannot be taken decides how it fails. Reading
and creating differ at the end only: creating accepts a name that is free, and takes a slash behind the
last name for the wish to create a directory.

Permissions are those of the user of the run. Devices, and rules that look at owners, are left out.
-/

set_option autoImplicit false

namespace JvmTrace.Command

/-! ## Nodes -/

/-- What the user of a run may do with a node. -/
structure Permissions where
  read : Bool := true
  write : Bool := true
  /-- For a directory: to take steps from it. -/
  search : Bool := true
  deriving DecidableEq

/-- What a node is. -/
inductive Content where
  | file (bytes : Bytes)
  /-- A directory, with the one above it. The root is above itself. -/
  | directory (parent : Nat) (entries : List (String × Nat))
  /-- A link, which is followed wherever it is met. -/
  | link (target : Path)
  deriving DecidableEq

/-- A node, and what may be done with it. -/
structure Node where
  content : Content
  permissions : Permissions := {}
  deriving DecidableEq

namespace Node

/-- The nodes that a node refers to. -/
def references (n : Node) : List Nat :=
  match n.content with
  | .directory parent entries => parent :: entries.map Prod.snd
  | _ => []

/-- The node with the bytes of a file changed. Only a file has any. -/
def mapBytes (f : Bytes → Bytes) (n : Node) : Node :=
  match n.content with
  | .file bytes => { n with content := .file (f bytes) }
  | _ => n

/-- The node with a name added to a directory. Only a directory has names. -/
def addEntry (name : String) (id : Nat) (n : Node) : Node :=
  match n.content with
  | .directory parent entries => { n with content := .directory parent ((name, id) :: entries) }
  | _ => n

theorem references_mapBytes (f : Bytes → Bytes) (n : Node) :
    (n.mapBytes f).references = n.references := by
  unfold mapBytes
  split
  · next bytes hfile => simp only [references, hfile]
  · rfl

theorem mem_references_addEntry {name : String} {fresh id : Nat} {n : Node}
    (h : id ∈ (n.addEntry name fresh).references) : id = fresh ∨ id ∈ n.references := by
  unfold addEntry at h
  split at h
  · next parent entries hdirectory =>
    simp only [references, hdirectory, List.map_cons, List.mem_cons] at h ⊢
    obtain rfl | rfl | h := h
    · exact .inr (.inl rfl)
    · exact .inl rfl
    · exact .inr (.inr h)
  · exact .inr h

end Node

/-! ## File systems -/

/-- What is in a list with one item changed was there before, or is what it was changed to. -/
theorem exists_of_mem_modify {α : Type} {f : α → α} {xs : List α} {k : Nat} {x : α}
    (h : x ∈ xs.modify k f) : ∃ old ∈ xs, x = old ∨ x = f old := by
  obtain ⟨place, hplace⟩ := List.mem_iff_getElem?.mp h
  rw [List.getElem?_modify] at hplace
  obtain ⟨old, hold, rfl⟩ := Option.map_eq_some_iff.mp hplace
  refine ⟨old, List.mem_of_getElem? hold, ?_⟩
  split
  · exact .inr rfl
  · exact .inl rfl

/-- Nodes by number, and where paths start. -/
structure FileSystem where
  nodes : List Node
  root : Nat
  /-- The directory of the run. -/
  working : Nat
  /-- What is referred to is there. -/
  closed : ∀ node ∈ nodes, ∀ id ∈ node.references, id < nodes.length
  deriving DecidableEq

namespace FileSystem

/-- A file system with nothing but a directory below the root, where the run is, and the files in it. -/
def ofFiles (files : List (String × Bytes)) : FileSystem where
  nodes :=
    { content := .directory 0 [("work", 1)] } ::
    { content := .directory 0 ((files.map Prod.fst).zipIdx 2) } ::
    files.map fun file => { content := .file file.2 }
  root := 0
  working := 1
  closed := by
    intro node hnode id hid
    simp only [List.mem_cons, List.mem_map] at hnode
    simp only [List.length_cons, List.length_map]
    obtain rfl | rfl | ⟨file, -, rfl⟩ := hnode
    · obtain rfl | rfl : id = 0 ∨ id = 1 := by simpa [Node.references] using hid
      · omega
      · omega
    · simp only [Node.references, List.mem_cons, List.mem_map, Prod.exists] at hid
      obtain rfl | ⟨name, _, hmem, rfl⟩ := hid
      · omega
      · have := List.snd_lt_add_of_mem_zipIdx hmem
        simp only [List.length_map] at this
        omega
    · simp [Node.references] at hid

/-! ## Following paths -/

/-- Where a path leads. -/
inductive Target where
  | node (id : Nat)
  /-- To a name in a directory that nothing has. -/
  | free (place : Nat) (name : String)
  deriving DecidableEq

/-- Where a path starts that is met in the directory `here`. -/
def start (fs : FileSystem) (here : Nat) (path : Path) : Nat :=
  if path.absolute then fs.root else here

/-- Takes steps, up to the first link that is met. What the steps before the last one start from are
directories; `making` says whether something is to be created in the end. -/
def follow (fs : FileSystem) (making : Bool)
    (onLink : Nat → List Step → Except Error Target) : Nat → List Step → Except Error Target
  | here, [] => .ok (.node here)
  | here, step :: rest =>
    match fs.nodes[here]? with
    | some ⟨.directory parent entries, permissions⟩ =>
      if step ≠ .slash && !permissions.search then .error .permissionDenied
      else
        match step with
        | .stay => fs.follow making onLink here rest
        | .slash => fs.follow making onLink here rest
        | .up => fs.follow making onLink parent rest
        | .down name =>
          if making && rest = [.slash] then .error .isDirectory
          else if Path.maxNameBytes < name.utf8ByteSize then .error .nameTooLong
          else
            match entries.lookup name with
            | none => if rest = [] then .ok (.free here name) else .error .noSuchFile
            | some id =>
              match fs.nodes[id]? with
              | some ⟨.link target, _⟩ => onLink (fs.start here target) (target.steps ++ rest)
              | _ => fs.follow making onLink id rest
    | _ => .error .notDirectory

/-- How many links are followed on the way. -/
def maxLinks : Nat := 40

/-- Takes steps, with so many links still to be followed. -/
def walk (fs : FileSystem) (making : Bool) : Nat → Nat → List Step → Except Error Target
  | 0 => fs.follow making fun _ _ => .error .tooManyLinks
  | links + 1 => fs.follow making (fs.walk making links)

/-- Follows a path. -/
def resolve (fs : FileSystem) (making : Bool) (text : String) : Except Error Target := do
  let path ← Path.parse text
  fs.walk making maxLinks (fs.start fs.working path) path.steps

/-! ## Reading and writing -/

/-- The contents of the file at a path. -/
def read (fs : FileSystem) (path : String) : Except Error Bytes := do
  match ← fs.resolve false path with
  | .free _ _ => .error .noSuchFile
  | .node id =>
    match fs.nodes[id]? with
    | none => .error .noSuchFile
    | some node =>
      if !node.permissions.read then .error .permissionDenied
      else
        match node.content with
        | .file bytes => .ok bytes
        | _ => .error .isDirectory

/-- Changes the bytes of the file with a number. -/
def mapBytes (fs : FileSystem) (id : Nat) (f : Bytes → Bytes) : FileSystem where
  nodes := fs.nodes.modify id (Node.mapBytes f)
  root := fs.root
  working := fs.working
  closed := by
    intro node hnode j hj
    rw [List.length_modify]
    obtain ⟨old, hold, rfl | rfl⟩ := exists_of_mem_modify hnode
    · exact fs.closed _ hold j hj
    · rw [Node.references_mapBytes] at hj
      exact fs.closed _ hold j hj

/-- Adds an empty file. It gets the next number, and may be read and written. -/
def addFile (fs : FileSystem) (place : Nat) (name : String) : FileSystem where
  nodes := fs.nodes.modify place (Node.addEntry name fs.nodes.length) ++ [{ content := .file [] }]
  root := fs.root
  working := fs.working
  closed := by
    intro node hnode j hj
    rw [List.length_append, List.length_modify, List.length_singleton]
    have hclosed (old : Node) (hold : old ∈ fs.nodes) (hj : j ∈ old.references) :
        j < fs.nodes.length + 1 := Nat.lt_succ_of_lt (fs.closed old hold j hj)
    obtain hnode | hnode := List.mem_append.mp hnode
    · obtain ⟨old, hold, rfl | rfl⟩ := exists_of_mem_modify hnode
      · exact hclosed _ hold hj
      · obtain rfl | hj := Node.mem_references_addEntry hj
        · exact Nat.lt_succ_self _
        · exact hclosed _ hold hj
    · rw [List.mem_singleton.mp hnode] at hj
      simp [Node.references] at hj

/-- Creates the file at a path, or empties the one that is there. The result says which it is. -/
def create (fs : FileSystem) (path : String) : Except Error (Nat × FileSystem) := do
  match ← fs.resolve true path with
  | .free place name =>
    match fs.nodes[place]? with
    | none => .error .noSuchFile
    | some node =>
      if !node.permissions.write then .error .permissionDenied
      else .ok (fs.nodes.length, fs.addFile place name)
  | .node id =>
    match fs.nodes[id]? with
    | some ⟨.file _, permissions⟩ =>
      if !permissions.write then .error .permissionDenied
      else .ok (id, fs.mapBytes id fun _ => [])
    | _ => .error .isDirectory

/-- Writes to the end of the file with a number. -/
def append (fs : FileSystem) (id : Nat) (bytes : Bytes) : FileSystem :=
  fs.mapBytes id (· ++ bytes)

end FileSystem

end JvmTrace.Command
