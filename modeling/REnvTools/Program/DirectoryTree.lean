import REnvTools.Program.Path
import Mathlib.Data.Finset.Dedup

/-!
# Directory trees

A finite directory tree with symbolic links, as `std::fs` and `std::path` answer about it
while it does not change. Every question but `canonicalize` is about the canonical path, so
two spellings of one place get the same answers.

SRC: crates/ret-conda/src/utils.rs:26-28, crates/ret-pixi/src/lib.rs:25-27,
crates/ret-spack/src/lib.rs:210-219
-/

set_option autoImplicit false

namespace REnvTools.Program

/-- What a canonical path leads to; a directory that cannot be read has no entries. -/
inductive Node
  | file
  | directory (entries : Option (List String))
  | other

/-- The node is a directory. -/
def Node.isDirectory : Node → Bool
  | directory _ => true
  | file | other => false

/-- A directory tree. A name is looked up in the directory that the path before it leads
to, and in nothing else. -/
structure DirectoryTree where
  canonicalize : PathBuf → Option PathBuf
  node : PathBuf → Node
  places : Finset PathBuf
  canonicalize_mem : ∀ path place, canonicalize path = some place → place ∈ places
  canonicalize_join : ∀ path name, canonicalize (path.join name) =
    (canonicalize path).bind fun place =>
      if (node place).isDirectory then canonicalize (place.join name) else none

namespace DirectoryTree

variable (tree : DirectoryTree)

/-- `Path::is_dir`. -/
def isDir (path : PathBuf) : Bool :=
  match tree.canonicalize path with
  | none => false
  | some place => (tree.node place).isDirectory

/-- `Path::is_file`. -/
def isFile (path : PathBuf) : Bool :=
  match tree.canonicalize path with
  | none => false
  | some place =>
    match tree.node place with
    | .file => true
    | .directory _ | .other => false

/-- `Path::exists`. -/
def pathExists (path : PathBuf) : Bool := (tree.canonicalize path).isSome

/-- `std::fs::read_dir`: the names of the entries that can be read, in some order. -/
def readDir (path : PathBuf) : Option (List String) :=
  match tree.canonicalize path with
  | none => none
  | some place =>
    match tree.node place with
    | .directory entries => entries
    | .file | .other => none

/-- `DirEntry::file_type` of the entry of that name is a directory: the entry is one itself, and no
link to one. -/
def entryIsDir (directory : PathBuf) (name : String) : Bool :=
  match tree.canonicalize directory with
  | none => false
  | some place =>
    decide (tree.canonicalize (directory.join name) = some (place.join name)) &&
      (tree.node (place.join name)).isDirectory

/-- The directory has an entry of that name, as far as it can be read. -/
def HasEntry (directory : PathBuf) (name : String) : Prop :=
  ∃ entries, tree.readDir directory = some entries ∧ name ∈ entries

/-- Every directory can be read, and a name leads somewhere only if an entry has it in these
letters. -/
def Listed : Prop :=
  ∀ directory name, tree.pathExists (directory.join name) = true → tree.HasEntry directory name

/-- `is_conda_env`. -/
def isCondaEnv (path : PathBuf) : Bool :=
  tree.isDir (path.join "conda-meta") && !tree.isFile ((path.join "conda-meta").join "pixi")

/-- `is_pixi_env`. -/
def isPixiEnv (path : PathBuf) : Bool := tree.isFile ((path.join "conda-meta").join "pixi")

variable {tree}

/-- Two spellings of one place get the same answers. -/
theorem isDir_congr {path path' : PathBuf} (h : tree.canonicalize path = tree.canonicalize path') :
    tree.isDir path = tree.isDir path' := by
  unfold isDir
  rw [h]

/-- INTERNAL: two paths to one file. -/
theorem isFile_congr {path path' : PathBuf}
    (h : tree.canonicalize path = tree.canonicalize path') :
    tree.isFile path = tree.isFile path' := by
  unfold isFile
  rw [h]

/-- INTERNAL: two paths to one directory. -/
theorem readDir_congr {path path' : PathBuf}
    (h : tree.canonicalize path = tree.canonicalize path') :
    tree.readDir path = tree.readDir path' := by
  unfold readDir
  rw [h]

/-- A name leads from two spellings of one place to one place. -/
theorem canonicalize_join_congr {path path' : PathBuf}
    (h : tree.canonicalize path = tree.canonicalize path') (name : String) :
    tree.canonicalize (path.join name) = tree.canonicalize (path'.join name) := by
  rw [tree.canonicalize_join path, tree.canonicalize_join path', h]

/-- INTERNAL: two paths to one environment. -/
theorem isCondaEnv_congr {path path' : PathBuf}
    (h : tree.canonicalize path = tree.canonicalize path') :
    tree.isCondaEnv path = tree.isCondaEnv path' := by
  have hmeta := canonicalize_join_congr h "conda-meta"
  unfold isCondaEnv
  rw [isDir_congr hmeta, isFile_congr (canonicalize_join_congr hmeta "pixi")]

/-- INTERNAL: two paths to one environment of Pixi. -/
theorem isPixiEnv_congr {path path' : PathBuf}
    (h : tree.canonicalize path = tree.canonicalize path') :
    tree.isPixiEnv path = tree.isPixiEnv path' := by
  unfold isPixiEnv
  rw [isFile_congr (canonicalize_join_congr (canonicalize_join_congr h "conda-meta") "pixi")]

/-- A directory has a canonical path. -/
theorem exists_canonicalize_of_isDir {path : PathBuf} (h : tree.isDir path = true) :
    ∃ place, tree.canonicalize path = some place := by
  unfold isDir at h
  split at h
  · cases h
  · exact ⟨_, ‹_›⟩

/-- What a name leads to is in a directory. -/
theorem isDir_of_canonicalize_join {path place : PathBuf} {name : String}
    (h : tree.canonicalize (path.join name) = some place) : tree.isDir path = true := by
  rw [tree.canonicalize_join] at h
  obtain ⟨parent, hparent, hjoin⟩ := Option.bind_eq_some_iff.mp h
  unfold isDir
  rw [hparent]
  by_contra hnot
  rw [if_neg hnot] at hjoin
  cases hjoin

/-- An entry that is a directory leads to one. -/
theorem isDir_of_entryIsDir {directory : PathBuf} {name : String}
    (h : tree.entryIsDir directory name = true) : tree.isDir (directory.join name) = true := by
  unfold entryIsDir at h
  split at h
  · cases h
  · rename_i place hplace
    obtain ⟨hself, hnode⟩ := Bool.and_eq_true_iff.mp h
    unfold isDir
    rw [of_decide_eq_true hself]
    exact hnode

/-- INTERNAL: a directory exists. -/
theorem pathExists_of_isDir {path : PathBuf} (h : tree.isDir path = true) :
    tree.pathExists path = true := by
  obtain ⟨place, hplace⟩ := exists_canonicalize_of_isDir h
  unfold pathExists
  rw [hplace]
  rfl

/-- INTERNAL: a file exists. -/
theorem pathExists_of_isFile {path : PathBuf} (h : tree.isFile path = true) :
    tree.pathExists path = true := by
  unfold isFile at h
  unfold pathExists
  split at h
  · cases h
  · rename_i place hplace
    rw [hplace]
    rfl

/-- INTERNAL: a directory is not a file. -/
theorem isFile_of_isDir {path : PathBuf} (h : tree.isDir path = true) :
    tree.isFile path = false := by
  unfold isDir at h
  unfold isFile
  split at h
  · cases h
  · rename_i place hplace
    cases hnode : tree.node place with
    | file =>
      rw [hnode] at h
      cases h
    | directory | other => rfl

end DirectoryTree

/-! ## A tree without links -/

/-- INTERNAL: the parent of a child. -/
theorem parent_join (path : PathBuf) (name : String) : (path.join name).parent = some path := by
  unfold PathBuf.parent PathBuf.join
  simp

/-- The tree of the directories and files of two lists, which has no symbolic links. -/
def plainTree (directories files : List PathBuf)
    (hclosed : ∀ path ∈ directories ++ files, ∀ parent ∈ path.parent, parent ∈ directories) :
    DirectoryTree where
  canonicalize path := if path ∈ directories ++ files then some path else none
  node path :=
    if path ∈ directories then
      .directory (some ((directories ++ files).filterMap fun child =>
        if child.parent = some path then child.fileName else none))
    else .file
  places := (directories ++ files).toFinset
  canonicalize_mem := by
    intro path place h
    split at h
    · rename_i hmem
      cases h
      exact List.mem_toFinset.mpr hmem
    · cases h
  canonicalize_join := by
    intro path name
    by_cases hchild : path.join name ∈ directories ++ files
    · have hparent : path ∈ directories := hclosed _ hchild path (parent_join path name)
      rw [if_pos hchild, if_pos (List.mem_append_left files hparent), Option.bind_some,
        if_pos hparent, if_pos (show Node.isDirectory (.directory _) = true from rfl),
        if_pos hchild]
    · rw [if_neg hchild]
      symm
      rw [Option.bind_eq_none_iff]
      intro place hplace
      split at hplace
      · cases hplace
        rw [if_neg hchild, ite_self]
      · cases hplace

/-- A tree without links but for one, which leads to a file. -/
def linkedTree (directories files : List PathBuf) (link target : PathBuf)
    (hclosed : ∀ path ∈ directories ++ files, ∀ parent ∈ path.parent, parent ∈ directories)
    (hlink : link ∉ directories ++ files ∧ ∀ parent ∈ link.parent, parent ∈ directories)
    (htarget : target ∈ files ∧ target ∉ directories) : DirectoryTree where
  canonicalize path :=
    if path = link then some target else (plainTree directories files hclosed).canonicalize path
  node := (plainTree directories files hclosed).node
  places := (plainTree directories files hclosed).places
  canonicalize_mem := by
    intro path place h
    split at h
    · cases h
      exact List.mem_toFinset.mpr (List.mem_append_right directories htarget.1)
    · exact (plainTree directories files hclosed).canonicalize_mem path place h
  canonicalize_join := by
    intro path name
    have hself : ∀ {path place : PathBuf},
        (plainTree directories files hclosed).canonicalize path = some place → place = path := by
      intro path place h
      unfold plainTree at h
      dsimp only at h
      split at h
      · exact (Option.some.inj h).symm
      · cases h
    by_cases hchild : path.join name = link
    · -- the link is in a directory of the tree
      have hparent : path ∈ directories :=
        hlink.2 path (hchild ▸ parent_join path name)
      have hne : path ≠ link := fun heq =>
        hlink.1 (heq ▸ List.mem_append_left files hparent)
      have hpath : (plainTree directories files hclosed).canonicalize path = some path :=
        if_pos (List.mem_append_left files hparent)
      have hdirectory : ((plainTree directories files hclosed).node path).isDirectory = true := by
        unfold plainTree
        dsimp only
        rw [if_pos hparent]
        rfl
      rw [if_pos hchild, if_neg hne, hpath, Option.bind_some, if_pos hdirectory, if_pos hchild]
    · rw [if_neg hchild]
      by_cases hpath : path = link
      · -- nothing is in the file that the link leads to
        have hfile : ((plainTree directories files hclosed).node target).isDirectory = false := by
          unfold plainTree
          dsimp only
          rw [if_neg htarget.2]
          rfl
        have hnone : (plainTree directories files hclosed).canonicalize path = none :=
          if_neg (hpath ▸ hlink.1)
        rw [if_pos hpath, Option.bind_some, hfile,
          (plainTree directories files hclosed).canonicalize_join, hnone]
        rfl
      · rw [if_neg hpath, (plainTree directories files hclosed).canonicalize_join]
        refine Option.bind_congr fun place hplace => ?_
        rw [hself hplace, if_neg hchild]

/-- INTERNAL: a path is the child of its parent that its file name names. -/
theorem eq_join_of_parent {path directory : PathBuf} {name : String}
    (hparent : path.parent = some directory) (hname : path.fileName = some name) :
    path = directory.join name := by
  unfold PathBuf.fileName at hname
  unfold PathBuf.parent at hparent
  split at hname
  · rename_i last hlast
    cases hname
    rw [hlast] at hparent
    cases hparent
    exact PathBuf.ext (List.dropLast_append_getLast? _ hlast).symm
  · cases hname

/-- INTERNAL: the name of a child. -/
theorem fileName_join (path : PathBuf) (name : String) : (path.join name).fileName = some name := by
  unfold PathBuf.fileName PathBuf.join
  simp

/-- INTERNAL: a child determines its directory and its name. -/
theorem join_eq_join {directory directory' : PathBuf} {name name' : String} :
    directory.join name = directory'.join name' ↔ directory = directory' ∧ name = name' := by
  constructor
  · intro h
    have hparent := congrArg PathBuf.parent h
    have hname := congrArg PathBuf.fileName h
    rw [parent_join, parent_join] at hparent
    rw [fileName_join, fileName_join] at hname
    exact ⟨Option.some.inj hparent, Option.some.inj hname⟩
  · rintro ⟨rfl, rfl⟩
    rfl

/-- A tree without links is read as it is. -/
theorem plainTree_listed {directories files : List PathBuf}
    (hclosed : ∀ path ∈ directories ++ files, ∀ parent ∈ path.parent, parent ∈ directories) :
    (plainTree directories files hclosed).Listed := by
  intro directory name h
  have hchild : directory.join name ∈ directories ++ files := by
    by_contra hnot
    unfold DirectoryTree.pathExists plainTree at h
    simp only [if_neg hnot] at h
    cases h
  have hdirectory := hclosed _ hchild directory (parent_join directory name)
  refine ⟨(directories ++ files).filterMap fun child =>
    if child.parent = some directory then child.fileName else none, ?_, ?_⟩
  · unfold DirectoryTree.readDir plainTree
    dsimp only
    rw [if_pos (List.mem_append_left files hdirectory)]
    dsimp only
    rw [if_pos hdirectory]
  · refine List.mem_filterMap.mpr ⟨_, hchild, ?_⟩
    rw [if_pos (parent_join directory name), fileName_join]

/-- A Unix host where no path has another spelling. -/
def unixOs : Os := ⟨false, id, some⟩

/-- The path below the root with the given names. -/
def rootedPath (names : List String) : PathBuf := ⟨.rootDir :: names.map .normal⟩

end REnvTools.Program
