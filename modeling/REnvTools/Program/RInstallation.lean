import Mathlib.Data.Finmap
import REnvTools.Lib.SortDedup
import REnvTools.Program.Path

/-!
# Installations and their builder

The records of `crates/ret-core`: `RInstallation`, what it is made of, and
`RInstallationBuilder::build`, which every installation passes through before it is
reported. The builder's setters that only store a value are record updates; those that
normalise are `executable`, `home`, `scriptPath`, `knownExecutables`, `symlinks` and
`discoveredBy`.

SRC: crates/ret-core/src/r_installation.rs, arch.rs, manager.rs
-/

set_option autoImplicit false

namespace REnvTools.Program

open Lib (sortDedup)

/-! ## The data of an installation -/

/-- `RInstallationKind`. -/
inductive RInstallationKind
  | chocolatey | conda | environmentModule | guix | homebrew | linuxGlobal | macFramework
  | macPorts | nix | pixi | rig | scoop | spack | windowsHq | windowsRegistry | globalPaths
  deriving DecidableEq, Repr

/-- `DiscoverySource`. -/
inductive DiscoverySource
  | locator | globalPaths | explicitSearch | rVersions
  deriving Repr

/-- The position in the declaration, by which the derived order compares. -/
def DiscoverySource.rank : DiscoverySource → ℕ
  | locator => 0
  | globalPaths => 1
  | explicitSearch => 2
  | rVersions => 3

/-- INTERNAL: a source is determined by its rank. -/
theorem DiscoverySource.rank_injective : Function.Injective DiscoverySource.rank := by
  intro a b h
  cases a <;> cases b <;> simp_all [rank]

instance : LinearOrder DiscoverySource :=
  LinearOrder.lift' DiscoverySource.rank DiscoverySource.rank_injective

/-- `Architecture`. -/
inductive Architecture
  | arm64 | x64 | x86
  deriving DecidableEq, Repr

/-- `Architecture::as_serialized_str`, which is also its `Display`. -/
def Architecture.asSerializedStr : Architecture → String
  | arm64 => "arm64"
  | x64 => "x86_64"
  | x86 => "x86"

/-- INTERNAL: an architecture is determined by its text. -/
theorem Architecture.asSerializedStr_injective :
    Function.Injective Architecture.asSerializedStr := by
  intro a b h
  cases a <;> cases b <;> simp_all [asSerializedStr]

/-- `EnvManagerType`. -/
inductive EnvManagerType
  | chocolatey | conda | environmentModule | guix | mamba | homebrew | macPorts | nix | rig
  | scoop | spack | windowsRegistry
  deriving DecidableEq, Repr

/-- `EnvManager`. -/
structure EnvManager where
  executable : PathBuf
  version : Option String
  tool : EnvManagerType
  deriving DecidableEq

/-- `LocatorMetadata`. -/
inductive LocatorMetadata
  | conda (environmentPath : PathBuf)
  | pixi (environmentPath : PathBuf) (manifestPath : Option PathBuf)
      (environmentName : Option String)
  | module (moduleName startupCommand : String)
  deriving DecidableEq

/-- `LocatorMetadata::priority`. -/
def LocatorMetadata.priority : LocatorMetadata → ℕ
  | pixi .. => 3
  | conda .. => 2
  | module .. => 1

/-- `RVersionsOverlay`. -/
structure RVersionsOverlay where
  label : Option String
  script : Option String
  repo : Option String
  library : Option String
  module : Option String
  moduleStartupCommand : Option String
  deriving DecidableEq

/-- `HashMap<String, String>`. -/
abbrev EnvironmentVariables := Finmap (fun _ : String => String)

/-- `RInstallation`, and the fields of `RInstallationBuilder`, which are the same. -/
@[ext] structure RInstallation where
  displayName : Option String
  name : Option String
  executable : Option PathBuf
  kind : Option RInstallationKind
  version : Option String
  home : Option PathBuf
  manager : Option EnvManager
  arch : Option Architecture
  knownExecutables : Option (List PathBuf)
  symlinks : Option (List PathBuf)
  discoveredBy : List DiscoverySource
  locatorMetadata : Option LocatorMetadata
  rversionsOverlay : Option RVersionsOverlay
  scriptPath : Option PathBuf
  startupCommand : Option String
  environmentVariables : Option EnvironmentVariables
  orthogonal : Option Bool
  error : Option String
  deriving DecidableEq

/-! ## What the builder derives -/

/-- `normalize_paths`. -/
def normalizePaths (os : Os) (paths : List PathBuf) : List PathBuf :=
  sortDedup (paths.map os.normCase)

/-- `infer_script_path`. The executable decides when its name is a launcher's; without a
file name nothing is inferred, the home included. -/
def inferScriptPath (os : Os) (executable home : Option PathBuf)
    (arch : Option Architecture) : Option PathBuf :=
  let fromHome := home.map fun home =>
    if os.windows then
      let base := home.join "bin"
      let base := if arch = some .x64 then base.join "x64" else base
      base.join "Rscript.exe"
    else
      (home.join "bin").join "Rscript"
  match executable with
  | none => fromHome
  | some executable =>
    match executable.fileName with
    | none => none
    | some fileName =>
      let fileName := toAsciiLowercase fileName
      if fileName = "rscript" ∨ fileName = "rscript.exe" then some executable
      else if fileName = "r" then some (executable.setFileName "Rscript")
      else if fileName = "r.exe" then some (executable.setFileName "Rscript.exe")
      else fromHome

/-- `infer_orthogonal`. A path is its components here: of the text that the program tests, a slash
at the end and a doubled slash are lost, so that the answer may be another one for a home that is
written with them. -/
def inferOrthogonal (os : Os) (home : Option PathBuf) : Option Bool :=
  match home with
  | none => none
  | some home =>
    let homeStr := os.toStringLossy home
    if textContains homeStr "R.framework" then
      some (textContains homeStr "R.framework/Versions/" &&
        !textContains homeStr "R.framework/Versions/Current/")
    else none

/-- `generated_manager_display_name`. -/
def generatedManagerDisplayName (kind : Option RInstallationKind)
    (version name : Option String) : Option String :=
  let named (source : String) : Option String :=
    version.map fun version =>
      match name.filter (· ≠ "") with
      | some name => "R " ++ version ++ " (" ++ source ++ ": " ++ name ++ ")"
      | none => "R " ++ version ++ " (" ++ source ++ ")"
  match kind with
  | some .conda => named "Conda"
  | some .pixi => named "Pixi"
  | _ => none

/-- A vector the record keeps only when it has elements. -/
def someUnlessEmpty {α : Type} (l : List α) : Option (List α) :=
  match l with
  | [] => none
  | a :: l => some (a :: l)

/-- INTERNAL: a list read back, empty where there is none. -/
theorem getD_someUnlessEmpty {α : Type} (l : List α) : (someUnlessEmpty l).getD [] = l := by
  cases l <;> rfl

/-- INTERNAL: only a list that is not empty is kept. -/
theorem someUnlessEmpty_eq_some {α : Type} {l l' : List α} :
    someUnlessEmpty l = some l' ↔ l = l' ∧ l' ≠ [] := by
  cases l with
  | nil =>
    constructor
    · intro h
      cases h
    · rintro ⟨rfl, hne⟩
      exact absurd rfl hne
  | cons a l =>
    constructor
    · intro h
      cases h
      exact ⟨rfl, List.cons_ne_nil a l⟩
    · rintro ⟨rfl, -⟩
      rfl

/-- INTERNAL: a list is kept exactly if it has a member. -/
theorem isSome_someUnlessEmpty {α : Type} (l : List α) :
    (someUnlessEmpty l).isSome = true ↔ ∃ x, x ∈ l := by
  cases l with
  | nil => simp [someUnlessEmpty]
  | cons x l => simp [someUnlessEmpty]

/-! ## The builder -/

/-- `RInstallationBuilder`: the same fields, not yet normalised. -/
abbrev RInstallationBuilder := RInstallation

namespace RInstallationBuilder

/-- `RInstallationBuilder::new`. -/
def new (kind : Option RInstallationKind) : RInstallationBuilder where
  displayName := none
  name := none
  executable := none
  kind := kind
  version := none
  home := none
  manager := none
  arch := none
  knownExecutables := none
  symlinks := none
  discoveredBy := []
  locatorMetadata := none
  rversionsOverlay := none
  scriptPath := none
  startupCommand := none
  environmentVariables := none
  orthogonal := none
  error := none

/-- `RInstallationBuilder::from_installation`: every field as it is. -/
def fromInstallation (installation : RInstallation) : RInstallationBuilder where
  displayName := installation.displayName
  name := installation.name
  executable := installation.executable
  kind := installation.kind
  version := installation.version
  home := installation.home
  manager := installation.manager
  arch := installation.arch
  knownExecutables := installation.knownExecutables
  symlinks := installation.symlinks
  discoveredBy := installation.discoveredBy
  locatorMetadata := installation.locatorMetadata
  rversionsOverlay := installation.rversionsOverlay
  scriptPath := installation.scriptPath
  startupCommand := installation.startupCommand
  environmentVariables := installation.environmentVariables
  orthogonal := installation.orthogonal
  error := installation.error

/-- INTERNAL: the builder of a record starts with its fields. -/
@[simp] theorem fromInstallation_eq (installation : RInstallation) :
    fromInstallation installation = installation := rfl

/-- `RInstallationBuilder::build`. -/
def build (os : Os) (b : RInstallationBuilder) : RInstallation :=
  let symlinks := normalizePaths os (b.symlinks.getD [])
  let knownExecutables :=
    normalizePaths os (b.knownExecutables.getD [] ++ b.executable.toList)
  let discoveredBy :=
    if b.discoveredBy = [] ∧ b.kind ≠ some .globalPaths ∧ b.kind.isSome then
      [DiscoverySource.locator]
    else b.discoveredBy
  { displayName :=
      ((b.rversionsOverlay.bind (·.label)).or
        (generatedManagerDisplayName b.kind b.version b.name)).or b.displayName
    name := b.name
    executable := b.executable
    kind := b.kind
    version := b.version
    home := b.home
    manager := b.manager
    arch := b.arch
    knownExecutables := someUnlessEmpty knownExecutables
    symlinks := someUnlessEmpty symlinks
    discoveredBy := sortDedup discoveredBy
    locatorMetadata := b.locatorMetadata
    rversionsOverlay := b.rversionsOverlay
    scriptPath :=
      (b.scriptPath.or (inferScriptPath os b.executable b.home b.arch)).map os.normCase
    startupCommand := b.startupCommand
    environmentVariables := b.environmentVariables.filter (· ≠ ∅)
    orthogonal := b.orthogonal.or (inferOrthogonal os b.home)
    error := b.error }

section Build

variable (os : Os) (b : RInstallationBuilder)

/-- `build` leaves the name. -/
@[simp] theorem build_name : (build os b).name = b.name := rfl
/-- `build` leaves the executable. -/
@[simp] theorem build_executable : (build os b).executable = b.executable := rfl
/-- `build` leaves the kind. -/
@[simp] theorem build_kind : (build os b).kind = b.kind := rfl
/-- `build` leaves the version. -/
@[simp] theorem build_version : (build os b).version = b.version := rfl
/-- `build` leaves the home. -/
@[simp] theorem build_home : (build os b).home = b.home := rfl
/-- `build` leaves the manager. -/
@[simp] theorem build_manager : (build os b).manager = b.manager := rfl
/-- `build` leaves the architecture. -/
@[simp] theorem build_arch : (build os b).arch = b.arch := rfl
/-- `build` leaves the metadata of the locators. -/
@[simp] theorem build_locatorMetadata :
    (build os b).locatorMetadata = b.locatorMetadata := rfl
/-- `build` leaves the overlay. -/
@[simp] theorem build_rversionsOverlay :
    (build os b).rversionsOverlay = b.rversionsOverlay := rfl
/-- `build` leaves the startup command. -/
@[simp] theorem build_startupCommand : (build os b).startupCommand = b.startupCommand := rfl
/-- `build` drops a map of variables that is empty. -/
@[simp] theorem build_environmentVariables :
    (build os b).environmentVariables = b.environmentVariables.filter (· ≠ ∅) := rfl
/-- `build` leaves the error. -/
@[simp] theorem build_error : (build os b).error = b.error := rfl

end Build

end RInstallationBuilder

/-- The installations the builder hands out. -/
def BuilderBuilt (os : Os) (installation : RInstallation) : Prop :=
  ∃ b : RInstallationBuilder, installation = b.build os

end REnvTools.Program
