import REnvTools.Program.CondaEnvironments

/-!
# The environments of an installation

An environment below `envs` is never an installation, since the directory two levels above it
has the layout of one. So `get_environments` goes from the environment to its installation, and
there it stops.
-/

set_option autoImplicit false

namespace REnvTools.Analysis

open Lib Program DirectoryTree

variable {tree : DirectoryTree} {root : PathBuf}

/-- The recursive call of `get_environments`. -/
def EnvironmentsCalledFrom (tree : DirectoryTree) (base condaDir : PathBuf) : Prop :=
  tree.isCondaInstall condaDir = false ∧ tree.isCondaEnv condaDir = true ∧
    tree.baseOf condaDir = some base

/-- The calls end: each is for a shorter path. -/
theorem wellFounded_environmentsCalledFrom (tree : DirectoryTree) :
    WellFounded (EnvironmentsCalledFrom tree) := by
  apply Subrelation.wf _ (measure fun path : PathBuf => path.components.length).wf
  rintro base condaDir ⟨-, -, hbase⟩
  exact tree.length_baseOf hbase

/-- The directory in `envs` of that name. -/
def namedEnv (root : PathBuf) (name : String) : PathBuf := (root.join "envs").join name

/-- INTERNAL: an installation has the layout of one. -/
theorem hasInstallLayout_of_isCondaInstall (h : tree.isCondaInstall root = true) :
    tree.hasInstallLayout root = true := by
  unfold isCondaInstall at h
  split at h
  · assumption
  · cases h

/-- INTERNAL: two levels above an environment is the installation. -/
theorem grandparent_namedEnv (root : PathBuf) (name : String) :
    (namedEnv root name).parent.bind PathBuf.parent = some root := by
  rw [namedEnv, parent_join, Option.bind_some, parent_join]

/-- Whatever an environment of an installation contains, it is not an installation. -/
theorem isCondaInstall_namedEnv (h : tree.isCondaInstall root = true) (name : String) :
    tree.isCondaInstall (namedEnv root name) = false := by
  unfold isCondaInstall
  rw [grandparent_namedEnv]
  dsimp only
  rw [hasInstallLayout_of_isCondaInstall h]
  simp

/-- The installation is discovered from each of its environments. -/
theorem baseOf_namedEnv (h : tree.isCondaInstall root = true) (name : String) :
    tree.baseOf (namedEnv root name) = some root := by
  have hne : root ≠ namedEnv root name := by
    intro heq
    have hlength := congrArg (·.components.length) heq
    simp [namedEnv, PathBuf.join] at hlength
  unfold baseOf
  rw [namedEnv, parent_join, Option.bind_some, fileName_join, if_pos rfl, parent_join,
    Option.filter_some, if_pos]
  simpa [h, namedEnv] using hne

/-- INTERNAL: the environments in a directory. -/
theorem mem_condaEnvsIn {directory path : PathBuf} :
    path ∈ tree.condaEnvsIn directory ↔
      ∃ name, tree.HasEntry directory name ∧ path = directory.join name ∧
        tree.isCondaEnv path = true := by
  unfold condaEnvsIn HasEntry
  cases hread : tree.readDir directory with
  | none => simp
  | some entries =>
    simp only [List.mem_filter, List.mem_map, Option.some.injEq, exists_eq_left']
    constructor
    · rintro ⟨⟨name, hname, rfl⟩, henv⟩
      exact ⟨name, hname, rfl, henv⟩
    · rintro ⟨name, hname, rfl, henv⟩
      exact ⟨⟨name, hname, rfl⟩, henv⟩

/-- What `get_environments` returns for an installation. -/
theorem mem_getEnvironments (h : tree.isCondaInstall root = true) {path : PathBuf} :
    path ∈ tree.getEnvironments root ↔
      path = root ∨ ∃ name, tree.HasEntry (root.join "envs") name ∧ path = namedEnv root name ∧
        tree.isCondaEnv path = true := by
  rw [getEnvironments, mem_sortDedup, if_pos h, List.mem_cons, mem_condaEnvsIn]
  rfl

/-- INTERNAL: what is sorted stays sorted. -/
theorem pairwise_getEnvironments (condaDir : PathBuf) :
    (tree.getEnvironments condaDir).Pairwise (· < ·) := by
  rw [getEnvironments]
  exact pairwise_sortDedup _

/-- An environment of an installation adds nothing to what the installation gives. -/
theorem getEnvironments_namedEnv (h : tree.isCondaInstall root = true) {name : String}
    (hentry : tree.HasEntry (root.join "envs") name)
    (henv : tree.isCondaEnv (namedEnv root name) = true) :
    tree.getEnvironments (namedEnv root name) = tree.getEnvironments root := by
  have hmem : namedEnv root name ∈ tree.getEnvironments root :=
    (mem_getEnvironments h).mpr (.inr ⟨name, hentry, rfl, henv⟩)
  have hbase := baseOf_namedEnv h name
  have hrun : tree.getEnvironments (namedEnv root name) =
      sortDedup (namedEnv root name :: tree.getEnvironments root) := by
    rw [getEnvironments, if_neg (by simp [isCondaInstall_namedEnv h]), if_pos henv]
    congr 2
    split
    · rename_i base hsome
      rw [Option.some.inj (hsome.symm.trans hbase)]
    · rename_i hnone
      cases hnone.symm.trans hbase
  rw [hrun, ← sortDedup_eq_self (pairwise_getEnvironments root)]
  apply sortDedup_congr
  intro path
  simp only [sortDedup_eq_self (pairwise_getEnvironments root), List.mem_cons, or_iff_right_iff_imp]
  exact fun heq => heq ▸ hmem

/-- **The environments of an installation** are the same from the installation and from each of
its environments: the installation itself and the environments among the entries of `envs`, in
order and without repeats. On every path the recursion ends. -/
theorem getEnvironments_same (tree : DirectoryTree) :
    (∀ root, tree.isCondaInstall root = true →
      (∀ name, tree.HasEntry (root.join "envs") name →
        tree.isCondaEnv (namedEnv root name) = true →
        tree.getEnvironments (namedEnv root name) = tree.getEnvironments root) ∧
      (tree.getEnvironments root).Pairwise (· < ·) ∧
      ∀ path, path ∈ tree.getEnvironments root ↔
        path = root ∨ ∃ name, tree.HasEntry (root.join "envs") name ∧ path = namedEnv root name ∧
          tree.isCondaEnv path = true) ∧
    ∀ condaDir, Acc (EnvironmentsCalledFrom tree) condaDir :=
  ⟨fun root hroot =>
    ⟨fun _ hentry henv => getEnvironments_namedEnv hroot hentry henv, pairwise_getEnvironments root,
      fun _ => mem_getEnvironments hroot⟩,
    (wellFounded_environmentsCalledFrom tree).apply⟩

/-- An installation with an environment that has environments itself. -/
def nestedEnvTree : DirectoryTree :=
  plainTree [rootedPath [], rootedPath ["conda"], rootedPath ["conda", "conda-meta"],
    rootedPath ["conda", "envs"], rootedPath ["conda", "envs", "a"],
    rootedPath ["conda", "envs", "a", "conda-meta"], rootedPath ["conda", "envs", "a", "envs"]] []
    (by decide)

/-- The environment is not taken for an installation. -/
theorem getEnvironments_same_nested :
    nestedEnvTree.getEnvironments (namedEnv (rootedPath ["conda"]) "a") =
      nestedEnvTree.getEnvironments (rootedPath ["conda"]) :=
  ((getEnvironments_same nestedEnvTree).1 (rootedPath ["conda"]) (by decide)).1 "a"
    ⟨["a"], by decide, by decide⟩ (by decide)

end REnvTools.Analysis
