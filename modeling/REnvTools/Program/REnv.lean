import REnvTools.Program.Cache

/-!
# Environments of an executable

`REnv` is what a locator gets to see of an R executable; `ResolvedRInstallation::to_r_env`
makes one from what probing the executable found out.

SRC: crates/ret-core/src/env.rs, crates/ret-r-utils/src/env.rs:39-51,
crates/ret-r-utils/src/executable.rs:173-189
-/

set_option autoImplicit false

namespace REnvTools.Program

open Lib (sortDedup)

/-! ## Paths and the directories above them -/

namespace PathBuf

/-- `Path::ends_with` for a single name. -/
def endsWith (path : PathBuf) (name : String) : Bool :=
  decide (path.components.getLast? = some (.normal name))

/-- The path and up to `n` of its parents. -/
def ancestorsUpTo : ℕ → PathBuf → List PathBuf
  | 0, path => [path]
  | n + 1, path =>
    match path.parent with
    | none => [path]
    | some parent => path :: ancestorsUpTo n parent

/-- `Path::ancestors`: the path, its parent, the parent of that, and so on. -/
def ancestors (path : PathBuf) : List PathBuf := ancestorsUpTo path.components.length path

/-- INTERNAL: a parent has fewer components. -/
theorem length_components_of_parent {path parent : PathBuf} (h : path.parent = some parent) :
    parent.components.length + 1 = path.components.length := by
  have hne : path.components ≠ [] := by
    intro hnil
    simp [PathBuf.parent, hnil] at h
  have hdrop : parent.components = path.components.dropLast := by
    unfold PathBuf.parent at h
    split at h <;> cases h <;> rfl
  have hpos := List.length_pos_iff.mpr hne
  rw [hdrop, List.length_dropLast]
  omega

/-- The ancestors are the path and the ancestors of its parent. -/
theorem ancestors_eq (path : PathBuf) :
    path.ancestors = path :: (path.parent.map ancestors).getD [] := by
  unfold ancestors
  cases hparent : path.parent with
  | none =>
    cases path.components.length <;> simp [ancestorsUpTo, hparent]
  | some parent =>
    rw [← length_components_of_parent hparent]
    simp [ancestorsUpTo, hparent]

/-- From an ancestor on, the ancestors are those of the ancestor. -/
theorem ancestors_of_append {path ancestor : PathBuf} {before after : List PathBuf}
    (h : path.ancestors = before ++ ancestor :: after) :
    ancestor.ancestors = ancestor :: after := by
  induction before generalizing path with
  | nil =>
    rw [List.nil_append] at h
    have hhead := h
    rw [ancestors_eq] at hhead
    rw [← (List.cons.inj hhead).1, h, (List.cons.inj hhead).1]
  | cons first before ih =>
    rw [ancestors_eq, List.cons_append] at h
    cases hparent : path.parent with
    | none =>
      rw [hparent] at h
      simp at h
    | some parent =>
      rw [hparent] at h
      exact ih (List.cons.inj h).2

end PathBuf

/-! ## `REnv` -/

/-- `REnv`. -/
structure REnv where
  executable : PathBuf
  home : Option PathBuf
  version : Option String
  knownExecutables : Option (List PathBuf)
  symlinks : Option (List PathBuf)
  arch : Option Architecture
  orthogonal : Option Bool
  deriving DecidableEq

/-- `infer_home`. -/
def inferHome (os : Os) (executable : PathBuf) : Option PathBuf :=
  match executable.parent with
  | none => none
  | some parent =>
    if ["x64", "i386", "aarch64", "arm64"].any parent.endsWith then
      match parent.parent with
      | none => none
      | some bin =>
        if bin.endsWith "bin" then bin.parent.map os.normCase
        else if parent.endsWith "bin" then parent.parent.map os.normCase
        else none
    else if parent.endsWith "bin" then parent.parent.map os.normCase
    else none

/-- `REnv::new`. -/
def REnv.new (os : Os) (executable : PathBuf) (home : Option PathBuf) (version : Option String) :
    REnv where
  executable := os.normCase executable
  home := (home.map os.normCase).or (inferHome os (os.normCase executable))
  version := version
  knownExecutables := none
  symlinks := none
  arch := none
  orthogonal := none

/-- `ResolvedRInstallation::to_r_env`. -/
def ResolvedRInstallation.toREnv (os : Os) (self : ResolvedRInstallation) : REnv :=
  { REnv.new os self.executable (some self.home) (some self.version) with
    knownExecutables := self.knownExecutables
    symlinks := self.symlinks
    arch := some self.arch
    orthogonal := self.orthogonal }

/-- `filter_symlink_paths`; `isSymlink` is what `symlink_metadata` says. -/
def filterSymlinkPaths (os : Os) (isSymlink : PathBuf → Bool) (paths : List PathBuf) :
    List PathBuf :=
  sortDedup ((paths.map os.normCase).filter isSymlink)

end REnvTools.Program
