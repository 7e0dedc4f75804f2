import REnvTools.Program.CondaEnvName
import REnvTools.Program.Spack

/-!
# What is found in a Spack tree

The walk over an install tree finds the outermost directories with the layout of an R
installation, down to three levels (`mem_spackPrefixesInTree`). Links are not followed on the
way; where every directory can be read, nothing but links and depth keeps a directory from being
looked at (`directoryBelow_join_iff`).
-/

set_option autoImplicit false

namespace REnvTools.Analysis

open Lib Program

variable {windows : Bool} {architecture : String} {tree : DirectoryTree}

/-! ## The directories of the tree -/

/-- The path is a directory of the tree below the root, so many levels below it. -/
inductive DirectoryBelow (tree : DirectoryTree) (root : PathBuf) : ℕ → PathBuf → Prop
  | root : DirectoryBelow tree root 0 root
  | entry {level : ℕ} {directory : PathBuf} {name : String}
      (hbelow : DirectoryBelow tree root level directory) (hentry : tree.HasEntry directory name)
      (hdir : tree.entryIsDir directory name = true) :
      DirectoryBelow tree root (level + 1) (directory.join name)

/-- Below a directory are directories. -/
theorem DirectoryBelow.isDir {root path : PathBuf} {level : ℕ}
    (h : DirectoryBelow tree root level path) (hroot : tree.isDir root = true) :
    tree.isDir path = true := by
  cases h with
  | root => exact hroot
  | entry _ _ hdir => exact DirectoryTree.isDir_of_entryIsDir hdir

/-- Where every directory can be read, the next level is all the directories that are no links. -/
theorem directoryBelow_join_iff (hlisted : tree.Listed) {root directory : PathBuf} {level : ℕ}
    (hbelow : DirectoryBelow tree root level directory) (name : String) :
    DirectoryBelow tree root (level + 1) (directory.join name) ↔
      tree.entryIsDir directory name = true := by
  constructor
  · intro h
    generalize hpath : directory.join name = path at h
    cases h with
    | entry _ _ hdir =>
      obtain ⟨rfl, rfl⟩ := join_eq_join.mp hpath
      exact hdir
  · intro hdir
    have hexists := DirectoryTree.pathExists_of_isDir (DirectoryTree.isDir_of_entryIsDir hdir)
    exact .entry hbelow (hlisted _ _ hexists) hdir

/-- INTERNAL: the walk stays in the tree. -/
theorem DirectoryBelow.walk {root directory path : PathBuf} {level levels : ℕ}
    (hdirectory : DirectoryBelow tree root level directory)
    (h : (spackWalk windows architecture tree).Below directory levels path) :
    DirectoryBelow tree root (level + levels) path := by
  induction h generalizing level with
  | here => exact hdirectory
  | step hnext _ ih =>
    obtain ⟨name, hentry, hdir, rfl⟩ := mem_subdirectories.mp hnext
    have hbelow := ih (hdirectory.entry hentry hdir)
    rwa [Nat.add_right_comm, Nat.add_assoc] at hbelow

/-- The walk goes over the directories of the tree. -/
theorem spackWalk_below_iff (windows : Bool) (architecture : String) {root path : PathBuf}
    {level : ℕ} :
    (spackWalk windows architecture tree).Below root level path ↔
      DirectoryBelow tree root level path := by
  constructor
  · intro h
    have hbelow := DirectoryBelow.walk .root h
    rwa [Nat.zero_add] at hbelow
  · intro h
    induction h with
    | root => exact .here
    | entry _ hentry hdir ih =>
      exact ih.snoc (mem_subdirectories.mpr ⟨_, hentry, hdir, rfl⟩)

/-! ## What is found -/

/-- INTERNAL: a path is inside another if its components go on from there. -/
theorem startsWith_iff {path base : PathBuf} :
    path.startsWith base = true ↔ base.components <+: path.components :=
  List.isPrefixOf_iff_prefix

/-- INTERNAL: the directories that the walk stops at. -/
theorem spackWalk_hit_iff {directory : PathBuf} :
    (spackWalk windows architecture tree).hit directory = true ↔
      findExecutables windows architecture tree directory ≠ [] := by
  change (!(findExecutables windows architecture tree directory).isEmpty) = true ↔ _
  rw [Bool.not_eq_true', List.isEmpty_eq_false_iff]

/-- INTERNAL: the directories that it goes on from. -/
theorem spackWalk_hit_eq_false_iff {directory : PathBuf} :
    (spackWalk windows architecture tree).hit directory = false ↔
      findExecutables windows architecture tree directory = [] := by
  rw [← Bool.not_eq_true, spackWalk_hit_iff, ne_eq, not_not]

/-- **What is found**: the directories down to three levels that have executables, none of the
directories above them having any. -/
theorem mem_spackPrefixesInTree {root path : PathBuf} :
    path ∈ spackPrefixesInTree windows architecture tree root ↔
      (∃ level ≤ 3, DirectoryBelow tree root level path) ∧
        findExecutables windows architecture tree path ≠ [] ∧
        ∀ ancestor level, DirectoryBelow tree root level ancestor →
          path.startsWith ancestor = true → ancestor ≠ path →
            findExecutables windows architecture tree ancestor = [] := by
  simp only [← spackWalk_below_iff windows architecture, ← spackWalk_hit_iff,
    ← spackWalk_hit_eq_false_iff, startsWith_iff]
  exact mem_sortDedup.trans TreeWalk.mem_run_iff

/-- INTERNAL: to find a directory, it is enough to look at the paths that it starts with. -/
theorem mem_spackPrefixesInTree_of_inits {root path : PathBuf} {level : ℕ} (hlevel : level ≤ 3)
    (hbelow : DirectoryBelow tree root level path)
    (hfound : findExecutables windows architecture tree path ≠ [])
    (hnone : ∀ components ∈ path.components.inits, components ≠ path.components →
      findExecutables windows architecture tree ⟨components⟩ = []) :
    path ∈ spackPrefixesInTree windows architecture tree root := by
  refine mem_spackPrefixesInTree.mpr ⟨⟨level, hlevel, hbelow⟩, hfound, ?_⟩
  intro ancestor _ _ hinside hne
  exact hnone _ ((List.mem_inits _ _).mpr (startsWith_iff.mp hinside)) fun h => hne (PathBuf.ext h)

/-- INTERNAL: no prefix is inside another. -/
theorem eq_of_mem_spackPrefixesInTree {root path other : PathBuf}
    (hpath : path ∈ spackPrefixesInTree windows architecture tree root)
    (hother : other ∈ spackPrefixesInTree windows architecture tree root)
    (hinside : path.startsWith other = true) : path = other :=
  (TreeWalk.eq_of_mem_run (mem_sortDedup.mp hother) (mem_sortDedup.mp hpath)
    (startsWith_iff.mp hinside)).symm

/-- **The prefixes in a Spack tree**: the walk ends; it finds exactly the outermost directories
with executables down to three levels below the root; and their list is strictly sorted, with no
prefix inside another. -/
theorem spack_prefixes_outermost (windows : Bool) (architecture : String) (tree : DirectoryTree)
    (root : PathBuf) :
    (WellFounded fun s' s => (spackWalk windows architecture tree).round s = some s') ∧
    (∀ path, path ∈ spackPrefixesInTree windows architecture tree root ↔
      (∃ level ≤ 3, DirectoryBelow tree root level path) ∧
        findExecutables windows architecture tree path ≠ [] ∧
        ∀ ancestor level, DirectoryBelow tree root level ancestor →
          path.startsWith ancestor = true → ancestor ≠ path →
            findExecutables windows architecture tree ancestor = []) ∧
    (spackPrefixesInTree windows architecture tree root).Pairwise (· < ·) ∧
    (spackPrefixesInTree windows architecture tree root).Nodup ∧
    (∀ path ∈ spackPrefixesInTree windows architecture tree root,
      ∀ other ∈ spackPrefixesInTree windows architecture tree root,
        path.startsWith other = true → path = other) ∧
    (tree.isDir root = true →
      ∀ path ∈ spackPrefixesInTree windows architecture tree root, tree.isDir path = true) := by
  have hsorted : (spackPrefixesInTree windows architecture tree root).Pairwise (· < ·) :=
    pairwise_sortDedup _
  refine ⟨TreeWalk.round_wellFounded _, fun path => mem_spackPrefixesInTree, hsorted,
    hsorted.imp ne_of_lt, fun path hpath other hother => eq_of_mem_spackPrefixesInTree hpath hother,
    fun hroot path hpath => ?_⟩
  obtain ⟨⟨level, -, hbelow⟩, -, -⟩ := mem_spackPrefixesInTree.mp hpath
  exact hbelow.isDir hroot

/-- An install tree of the legacy layout: its prefixes are three levels below the root. -/
def legacyTree : DirectoryTree :=
  plainTree
    ([[], ["linux"], ["linux", "gcc-13"], ["linux", "gcc-13", "r-4.3.3"],
      ["linux", "gcc-13", "r-4.3.3", "bin"]].map rootedPath)
    [rootedPath ["linux", "gcc-13", "r-4.3.3", "bin", "R"]] (by decide)

/-- INTERNAL: a directory of this tree that another has an entry for. -/
theorem legacyTree_entry {directory : PathBuf} {level : ℕ}
    (hbelow : DirectoryBelow legacyTree (rootedPath []) level directory) (name : String)
    (hdir : legacyTree.entryIsDir directory name = true) :
    DirectoryBelow legacyTree (rootedPath []) (level + 1) (directory.join name) :=
  (directoryBelow_join_iff (plainTree_listed _) hbelow name).mpr hdir

example : rootedPath ["linux", "gcc-13", "r-4.3.3"] ∈
    spackPrefixesInTree false "x86_64" legacyTree (rootedPath []) := by
  have harchitecture := legacyTree_entry .root "linux" (by decide)
  have hcompiler := legacyTree_entry harchitecture "gcc-13" (by decide)
  have hinstalled := legacyTree_entry hcompiler "r-4.3.3" (by decide)
  exact mem_spackPrefixesInTree_of_inits (by decide) hinstalled (by decide) (by decide)

end REnvTools.Analysis
