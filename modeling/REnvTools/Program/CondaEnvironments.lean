import REnvTools.Lib.SortDedup
import REnvTools.Program.DirectoryTree

/-!
# The environments of a Conda directory

`get_environments` and the predicates that choose its branch.

SRC: crates/ret-conda/src/environment_locations.rs:341-409, utils.rs:7-24
-/

set_option autoImplicit false

namespace REnvTools.Program

open Lib (sortDedup)

/-- INTERNAL: a parent has one component less. -/
theorem length_parent {path parent : PathBuf} (h : path.parent = some parent) :
    parent.components.length < path.components.length := by
  unfold PathBuf.parent at h
  have hlast : path.components ≠ [] := by
    intro hnil
    rw [hnil] at h
    cases h
  have hdrop : parent = ⟨path.components.dropLast⟩ := by
    split at h <;> cases h <;> rfl
  have hpos := List.length_pos_iff.mpr hlast
  rw [hdrop, List.length_dropLast]
  omega

namespace DirectoryTree

variable (tree : DirectoryTree)

/-- The directory holds packages, and `condabin` or `envs`. -/
def hasInstallLayout (path : PathBuf) : Bool :=
  (tree.pathExists (path.join "condabin") || tree.pathExists (path.join "envs")) &&
    tree.pathExists (path.join "conda-meta")

/-- `is_conda_install`. -/
def isCondaInstall (path : PathBuf) : Bool :=
  if tree.hasInstallLayout path then
    match path.parent.bind PathBuf.parent with
    | some parent => !tree.hasInstallLayout parent
    | none => true
  else false

/-- The entries of a directory that are environments. -/
def condaEnvsIn (directory : PathBuf) : List PathBuf :=
  match tree.readDir directory with
  | none => []
  | some entries => (entries.map directory.join).filter tree.isCondaEnv

/-- The root that `get_environments` discovers two levels above an environment. -/
def baseOf (condaDir : PathBuf) : Option PathBuf :=
  condaDir.parent.bind fun parent =>
    if parent.fileName = some "envs" then
      parent.parent.filter fun grandparent =>
        tree.isCondaInstall grandparent && !([condaDir].contains grandparent)
    else none

/-- INTERNAL: the root has fewer components. -/
theorem length_baseOf {condaDir base : PathBuf} (h : tree.baseOf condaDir = some base) :
    base.components.length < condaDir.components.length := by
  obtain ⟨parent, hparent, hbase⟩ := Option.bind_eq_some_iff.mp h
  split at hbase
  · have hgrandparent := (Option.filter_eq_some_iff.mp hbase).1
    exact (length_parent hgrandparent).trans (length_parent hparent)
  · cases hbase

/-- `get_environments`. -/
def getEnvironments (condaDir : PathBuf) : List PathBuf :=
  sortDedup (
    if tree.isCondaInstall condaDir then condaDir :: tree.condaEnvsIn (condaDir.join "envs")
    else if tree.isCondaEnv condaDir then
      condaDir ::
        match _hbase : tree.baseOf condaDir with
        | some grandparent => getEnvironments grandparent
        | none => []
    else if tree.pathExists (condaDir.join "envs") then tree.condaEnvsIn (condaDir.join "envs")
    else tree.condaEnvsIn condaDir)
termination_by condaDir.components.length
decreasing_by exact tree.length_baseOf _hbase

end DirectoryTree

end REnvTools.Program
