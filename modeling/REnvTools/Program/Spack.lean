import REnvTools.Lib.TreeWalk
import REnvTools.Program.Executables

/-!
# Looking for prefixes in a Spack tree

`spack_prefixes_in_tree`: the walk over the directories of an install tree, which has them one or
two levels below its architectures.

SRC: crates/ret-spack/src/lib.rs:197-224
-/

set_option autoImplicit false

namespace REnvTools.Program

open Lib

variable (windows : Bool) (architecture : String) (tree : DirectoryTree)

/-- The entries of a directory that are directories, in the order of `read_dir`. -/
def subdirectories (directory : PathBuf) : List PathBuf :=
  match tree.readDir directory with
  | none => []
  | some entries => (entries.filter (tree.entryIsDir directory)).map directory.join

/-- INTERNAL: where the subdirectories are. -/
theorem mem_subdirectories {tree : DirectoryTree} {directory path : PathBuf} :
    path ∈ subdirectories tree directory ↔ ∃ name, tree.HasEntry directory name ∧
      tree.entryIsDir directory name = true ∧ path = directory.join name := by
  unfold subdirectories DirectoryTree.HasEntry
  cases tree.readDir directory with
  | none => simp
  | some entries =>
    simp only [List.mem_map, List.mem_filter, Option.some.injEq, exists_eq_left']
    constructor
    · rintro ⟨name, ⟨hmem, hdir⟩, rfl⟩
      exact ⟨name, hmem, hdir, rfl⟩
    · rintro ⟨name, hmem, hdir, rfl⟩
      exact ⟨name, ⟨hmem, hdir⟩, rfl⟩

/-- The loop of `spack_prefixes_in_tree`. -/
def spackWalk : TreeWalk PathBuf Component where
  next := subdirectories tree
  hit directory := !(findExecutables windows architecture tree directory).isEmpty
  limit := 3
  address := PathBuf.components
  address_injective := PathBuf.components_injective
  address_next := by
    intro directory path hpath
    obtain ⟨name, -, -, rfl⟩ := mem_subdirectories.mp hpath
    exact ⟨.normal name, rfl⟩

/-- `spack_prefixes_in_tree`. -/
def spackPrefixesInTree (root : PathBuf) : List PathBuf :=
  let walk := spackWalk windows architecture tree
  sortDedup (walk.run (walk.start root))

end REnvTools.Program
