import REnvTools.Program.Conda
import REnvTools.Program.Pixi

/-!
# Which manager claims an executable

Both locators look for an environment among the directories above the executable, then above
the home, and pass by the environments of the other manager. What they claim therefore does
not only depend on the environment the executable is in, but on those around it.
-/

set_option autoImplicit false

namespace REnvTools.Analysis

open REnvTools.Program

/-! ## The environment of a path -/

/-- The directory has a `conda-meta` directory. -/
def hasCondaMeta (tree : DirectoryTree) (directory : PathBuf) : Bool :=
  tree.isDir (directory.join "conda-meta")

/-- The nearest directory above a path that has a `conda-meta` directory. -/
def nearestEnvironment (tree : DirectoryTree) (path : PathBuf) : Option PathBuf :=
  path.ancestors.find? (hasCondaMeta tree)

variable {tree : DirectoryTree}

/-- INTERNAL: a conda environment has a `conda-meta` directory. -/
theorem hasCondaMeta_of_isCondaEnv {directory : PathBuf} (h : tree.isCondaEnv directory = true) :
    hasCondaMeta tree directory = true := by
  unfold DirectoryTree.isCondaEnv at h
  exact (Bool.and_eq_true _ _ ▸ h).1

/-- INTERNAL: so has a pixi environment. -/
theorem hasCondaMeta_of_isPixiEnv {directory : PathBuf} (h : tree.isPixiEnv directory = true) :
    hasCondaMeta tree directory = true := by
  unfold DirectoryTree.isPixiEnv DirectoryTree.isFile at h
  split at h
  · cases h
  · exact DirectoryTree.isDir_of_canonicalize_join ‹_›

/-- INTERNAL: a directory with `conda-meta` is a conda environment unless it is one of pixi. -/
theorem isCondaEnv_eq (directory : PathBuf) (h : hasCondaMeta tree directory = true) :
    tree.isCondaEnv directory = !tree.isPixiEnv directory := by
  unfold hasCondaMeta at h
  unfold DirectoryTree.isCondaEnv DirectoryTree.isPixiEnv
  rw [h, Bool.true_and]

/-- INTERNAL: below the nearest environment there is none. -/
theorem ancestors_of_nearestEnvironment {path environment : PathBuf}
    (h : nearestEnvironment tree path = some environment) :
    hasCondaMeta tree environment = true ∧
      ∃ before, path.ancestors = before ++ environment.ancestors ∧
        ∀ directory ∈ before, hasCondaMeta tree directory = false := by
  unfold nearestEnvironment at h
  obtain ⟨hmeta, before, after, hancestors, hbefore⟩ := List.find?_eq_some_iff_append.mp h
  refine ⟨hmeta, before, ?_, fun directory hmem => by simpa using hbefore directory hmem⟩
  rw [PathBuf.ancestors_of_append hancestors, hancestors]

/-- INTERNAL: an environment that is looked for above a path, and is not the nearest one, is
above the nearest one. -/
theorem find_ancestors {test : PathBuf → Bool}
    (htest : ∀ directory, test directory = true → hasCondaMeta tree directory = true)
    {path environment : PathBuf} (hnearest : nearestEnvironment tree path = some environment)
    (henvironment : test environment = false) :
    path.ancestors.find? test = (environment.ancestors.drop 1).find? test ∧
      (path.ancestors.drop 1).find? test = (environment.ancestors.drop 1).find? test := by
  obtain ⟨-, before, hancestors, hbefore⟩ := ancestors_of_nearestEnvironment hnearest
  have hnone : ∀ directories ⊆ before, directories.find? test = none := by
    intro directories hsubset
    rw [List.find?_eq_none]
    intro directory hmem hfound
    have hmeta := htest directory hfound
    rw [hbefore directory (hsubset hmem)] at hmeta
    cases hmeta
  have habove : environment.ancestors.find? test = (environment.ancestors.drop 1).find? test := by
    rw [PathBuf.ancestors_eq environment, List.find?_cons_of_neg (by simp [henvironment])]
    rfl
  rw [hancestors]
  constructor
  · rw [List.find?_append, hnone before (List.Subset.refl _), Option.none_or, habove]
  · cases before with
    | nil => rfl
    | cons first before =>
      rw [List.cons_append, List.drop_one, List.tail_cons, List.find?_append,
        hnone before (List.subset_cons_self _ _), Option.none_or, habove]

/-! ## What the locators find -/

/-- An executable in an environment: it is the nearest one above the executable, and above
the home, if there is one. -/
structure InEnvironment (tree : DirectoryTree) (env : REnv) (environment : PathBuf) : Prop where
  executable : nearestEnvironment tree env.executable = some environment
  home : ∀ home ∈ env.home, nearestEnvironment tree home = some environment

/-- INTERNAL: of an executable in a pixi environment, Conda finds the next conda environment
above that. -/
theorem getPrefixFromEnv_of_pixi (host : CondaHost) {env : REnv} {environment : PathBuf}
    (hin : InEnvironment host.tree env environment)
    (hpixi : host.tree.isPixiEnv environment = true) :
    getPrefixFromEnv host env = (environment.ancestors.drop 1).find? host.tree.isCondaEnv := by
  have hmeta := hasCondaMeta_of_isPixiEnv hpixi
  have hother : host.tree.isCondaEnv environment = false := by
    rw [isCondaEnv_eq environment hmeta, hpixi]
    rfl
  have hfind : ∀ root ∈ env.executable :: env.home.toList,
      root.ancestors.find? host.tree.isCondaEnv =
        (environment.ancestors.drop 1).find? host.tree.isCondaEnv := by
    intro root hroot
    have hnearest : nearestEnvironment host.tree root = some environment := by
      obtain rfl | hhome := List.mem_cons.mp hroot
      · exact hin.executable
      · exact hin.home root (Option.mem_toList.mp hhome)
    exact (find_ancestors (fun _ => hasCondaMeta_of_isCondaEnv) hnearest hother).1
  unfold getPrefixFromEnv
  rw [List.findSome?_cons, hfind _ List.mem_cons_self]
  split
  · rename_i hsome
    exact hsome.symm
  · rename_i hnone
    rw [hnone, List.findSome?_eq_none_iff]
    intro root hroot
    rw [hfind root (List.mem_cons_of_mem _ hroot), hnone]

/-- INTERNAL: of an executable in a conda environment, Pixi finds the next pixi environment
above that. -/
theorem getPixiPrefix_of_conda (host : PixiHost) {env : REnv} {environment : PathBuf}
    (hin : InEnvironment host.tree env environment)
    (hconda : host.tree.isPixiEnv environment = false) :
    getPixiPrefix host env = (environment.ancestors.drop 1).find? host.tree.isPixiEnv := by
  have hfind : ∀ root, nearestEnvironment host.tree root = some environment →
      (root.ancestors.drop 1).find? host.tree.isPixiEnv =
        (environment.ancestors.drop 1).find? host.tree.isPixiEnv :=
    fun root hnearest =>
      (find_ancestors (fun _ => hasCondaMeta_of_isPixiEnv) hnearest hconda).2
  unfold getPixiPrefix
  rw [hfind _ hin.executable]
  cases hhome : env.home with
  | none => simp
  | some home =>
    rw [Option.bind_some, hfind home (hin.home home hhome), Option.or_self]

/-- Conda builds no installation for the executable from this prefix: it knows none, cannot
read the packages there or has no R home there, and the executable cannot be probed. -/
def BuildsNothing (host : CondaHost) (environments : CondaEnvironments) (env : REnv)
    (condaPrefix : PathBuf) : Prop :=
  environments condaPrefix = none ∧
    (host.getPackageInfo condaPrefix = none ∨ inferCondaRHome host condaPrefix = none) ∧
    host.resolvedFrom env.executable = none

/-- INTERNAL: what Conda returns for an executable with a version. -/
theorem condaTryFrom_eq_none_iff (host : CondaHost) (environments : CondaEnvironments)
    {env : REnv} (hversion : env.version.isSome = true) :
    (condaTryFrom host environments env).1 = none ↔
      ∀ condaPrefix, getPrefixFromEnv host env = some condaPrefix →
        BuildsNothing host environments env condaPrefix := by
  obtain ⟨version, hversion⟩ := Option.isSome_iff_exists.mp hversion
  unfold condaTryFrom BuildsNothing
  cases getPrefixFromEnv host env with
  | none => simp
  | some condaPrefix =>
    simp only [Option.some.injEq, forall_eq', hversion, Option.isNone_some, Bool.false_eq_true,
      if_false]
    cases environments condaPrefix with
    | some installation => simp
    | none =>
      cases host.resolvedFrom env.executable <;> cases host.getPackageInfo condaPrefix <;>
        cases inferCondaRHome host condaPrefix <;> simp

/-- INTERNAL: what Pixi returns for an executable with a version. -/
theorem pixiTryFrom_eq_none_iff (host : PixiHost) {env : REnv}
    (hversion : env.version.isSome = true) :
    pixiTryFrom host env = none ↔ getPixiPrefix host env = none := by
  obtain ⟨version, hversion⟩ := Option.isSome_iff_exists.mp hversion
  unfold pixiTryFrom
  rw [hversion]
  cases hbegins : getPixiPrefix host env with
  | none => simp
  | some pixiPrefix =>
    have henv : host.tree.isPixiEnv pixiPrefix = true := by
      unfold getPixiPrefix at hbegins
      obtain hfound | ⟨-, hfound⟩ := Option.or_eq_some_iff.mp hbegins
      · exact List.find?_some hfound
      · obtain ⟨home, -, hfound⟩ := Option.bind_eq_some_iff.mp hfound
        exact List.find?_some hfound
    simp [henv]

/-! ## Ownership -/

/-- Only the manager of the environment claims the executable. -/
def OwnedByNearest (conda : CondaHost) (pixi : PixiHost) (environments : CondaEnvironments)
    (env : REnv) (environment : PathBuf) : Prop :=
  (conda.tree.isPixiEnv environment = true → (condaTryFrom conda environments env).1 = none) ∧
  (conda.tree.isPixiEnv environment = false → pixiTryFrom pixi env = none)

/-- No environment of the other manager around this one gets in the way: there is no pixi
environment around a conda environment, and from the next conda environment around a pixi
environment, if there is one, Conda builds nothing. -/
def NotEnclosed (conda : CondaHost) (environments : CondaEnvironments) (env : REnv)
    (environment : PathBuf) : Prop :=
  (conda.tree.isPixiEnv environment = true → ∀ enclosing,
    (environment.ancestors.drop 1).find? conda.tree.isCondaEnv = some enclosing →
      BuildsNothing conda environments env enclosing) ∧
  (conda.tree.isPixiEnv environment = false → ∀ enclosing ∈ environment.ancestors.drop 1,
    conda.tree.isPixiEnv enclosing = false)

/-- **The nearest environment owns an executable exactly if no environment of the other
manager around it gets in the way.** -/
theorem ownedByNearest_iff (conda : CondaHost) (pixi : PixiHost) (htree : pixi.tree = conda.tree)
    (environments : CondaEnvironments) (env : REnv) (hversion : env.version.isSome = true)
    (environment : PathBuf) (hin : InEnvironment conda.tree env environment) :
    OwnedByNearest conda pixi environments env environment ↔
      NotEnclosed conda environments env environment := by
  have hconda : conda.tree.isPixiEnv environment = true →
      ((condaTryFrom conda environments env).1 = none ↔ ∀ enclosing,
        (environment.ancestors.drop 1).find? conda.tree.isCondaEnv = some enclosing →
          BuildsNothing conda environments env enclosing) := by
    intro hpixi
    rw [condaTryFrom_eq_none_iff conda environments hversion,
      getPrefixFromEnv_of_pixi conda hin hpixi]
  have hpixi : conda.tree.isPixiEnv environment = false →
      (pixiTryFrom pixi env = none ↔ ∀ enclosing ∈ environment.ancestors.drop 1,
        conda.tree.isPixiEnv enclosing = false) := by
    intro hconda
    rw [← htree] at hin hconda ⊢
    rw [pixiTryFrom_eq_none_iff pixi hversion, getPixiPrefix_of_conda pixi hin hconda,
      List.find?_eq_none]
    simp
  unfold OwnedByNearest NotEnclosed
  exact and_congr (imp_congr_right hconda) (imp_congr_right hpixi)

/-! ## A pixi environment in a conda environment -/

/-- A conda environment `/base`, and in it a pixi environment `/base/p` with R. -/
def enclosedTree : DirectoryTree :=
  plainTree
    [rootedPath [], rootedPath ["base"], rootedPath ["base", "conda-meta"],
      rootedPath ["base", "p"], rootedPath ["base", "p", "conda-meta"],
      rootedPath ["base", "p", "bin"]]
    [rootedPath ["base", "p", "conda-meta", "pixi"], rootedPath ["base", "p", "bin", "R"]]
    (by decide)

/-- R in the pixi environment. -/
def enclosedEnv : REnv :=
  REnv.new unixOs (rootedPath ["base", "p", "bin", "R"]) none (some "4.4.2")

/-- A Conda locator on this tree: there are no R packages in `/base`, and the executable can be
probed. -/
def enclosedConda : CondaHost where
  os := unixOs
  tree := enclosedTree
  getPackageInfo _ := none
  getManagerForPrefix _ := none
  getCondaEnvName _ _ := none
  findExecutables _ := []
  isSymlink _ := false
  resolvedFrom executable :=
    some ⟨executable, rootedPath ["base", "p"], "4.4.2", .x64, none, none, none, []⟩

/-- A Pixi locator on this tree. -/
def enclosedPixi : PixiHost where
  os := unixOs
  tree := enclosedTree
  readToString _ := none
  findExecutables _ := []
  isSymlink _ := false
  inferFromPath _ := .x64

/-- INTERNAL: the executable is in the pixi environment. -/
theorem inEnvironment_enclosed :
    InEnvironment enclosedTree enclosedEnv (rootedPath ["base", "p"]) := by
  constructor
  · decide
  · decide

/-- The theorem for this executable. -/
theorem ownedByNearest_enclosed_iff :
    OwnedByNearest enclosedConda enclosedPixi (fun _ => none) enclosedEnv
        (rootedPath ["base", "p"]) ↔
      NotEnclosed enclosedConda (fun _ => none) enclosedEnv (rootedPath ["base", "p"]) :=
  ownedByNearest_iff enclosedConda enclosedPixi rfl (fun _ => none) enclosedEnv (by decide)
    (rootedPath ["base", "p"]) inEnvironment_enclosed

/-- Conda claims an executable that is in a pixi environment. -/
theorem not_ownedByNearest :
    ¬ ∀ (conda : CondaHost) (pixi : PixiHost) (environments : CondaEnvironments) (env : REnv)
      (environment : PathBuf), pixi.tree = conda.tree → env.version.isSome = true →
        InEnvironment conda.tree env environment →
          OwnedByNearest conda pixi environments env environment := by
  intro h
  have howned := h enclosedConda enclosedPixi (fun _ => none) enclosedEnv
    (rootedPath ["base", "p"]) rfl (by decide) inEnvironment_enclosed
  have hnone := howned.1 (by decide)
  have hbuilds := (condaTryFrom_eq_none_iff enclosedConda (fun _ => none) (by decide)).mp hnone
    (rootedPath ["base"]) (by decide)
  exact absurd hbuilds.2.2 (by simp [enclosedConda])

end REnvTools.Analysis
