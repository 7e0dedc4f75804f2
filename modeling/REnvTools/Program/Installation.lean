import REnvTools.Program.RInstallation

/-!
# The key of an installation and the merge of two reports

`get_installation_key`, by which reports are about the same installation, and
`merge_installations`, which makes one record of two. Every choice between two values
goes to the preferred report first, but for the rversions overlay, where the existing
record does, and for the locator metadata, which has its own priority.

SRC: crates/ret-reporter/src/installation.rs:7-267
-/

set_option autoImplicit false

namespace REnvTools.Program

open Lib (sortDedup)

/-! ## The key -/

/-- The variables of an environment, sorted. -/
def sortedEntries (vars : EnvironmentVariables) : List (String ×ₗ String) :=
  Quotient.liftOn (vars.entries.map fun e => toLex (e.1, e.2))
    (fun l => l.insertionSort (· ≤ ·)) fun _ _ h =>
      List.Perm.eq_of_pairwise' (List.pairwise_insertionSort _ _)
        (List.pairwise_insertionSort _ _)
        (((List.perm_insertionSort _ _).trans h).trans (List.perm_insertionSort _ _).symm)

/-- `InstallationKey`. -/
structure InstallationKey where
  home : Option PathBuf
  launchDirectory : Option PathBuf
  launcherName : Option String
  architecture : Option String
  startup : Option String
  environment : List (String ×ₗ String)
  deriving DecidableEq

/-- The launcher's name in the key: `R` and `Rscript` are one launcher. -/
def launcherName (name : String) : String :=
  let lower := toAsciiLowercase name
  if lower = "r" ∨ lower = "r.exe" ∨ lower = "rscript" ∨ lower = "rscript.exe" then "R"
  else name

/-- `get_installation_key`. -/
def getInstallationKey (os : Os) (installation : RInstallation) : Option InstallationKey :=
  if installation.home = none ∧ installation.executable = none then none
  else
    let launcher := installation.executable.map os.canonical
    some
      { home := installation.home.map os.canonical
        launchDirectory := launcher.bind PathBuf.parent
        launcherName := (launcher.bind PathBuf.fileName).map Program.launcherName
        architecture := installation.arch.map Architecture.asSerializedStr
        startup := installation.startupCommand
        environment := sortedEntries (installation.environmentVariables.getD ∅) }

/-! ## Preference -/

/-- `installation_priority`. -/
def installationPriority (installation : RInstallation) : ℕ :=
  (installation.locatorMetadata.map LocatorMetadata.priority).getD 0

/-- `kind_specificity`. -/
def kindSpecificity (installation : RInstallation) : ℕ :=
  match installation.kind with
  | some .globalPaths => 1
  | some .linuxGlobal => 2
  | some .environmentModule => 3
  | some _ => 4
  | none => 0

/-- `installation_completeness`. -/
def installationCompleteness (installation : RInstallation) : ℕ :=
  [ installation.displayName.isSome,
    installation.name.isSome,
    installation.executable.isSome,
    installation.kind.isSome,
    installation.version.isSome,
    installation.home.isSome,
    installation.manager.isSome,
    installation.arch.isSome,
    installation.knownExecutables.isSome,
    installation.symlinks.isSome,
    installation.locatorMetadata.isSome,
    installation.rversionsOverlay.isSome,
    installation.scriptPath.isSome,
    installation.startupCommand.isSome,
    installation.environmentVariables.isSome,
    installation.orthogonal.isSome,
    installation.error.isSome ].count true

/-- The comparison of `preferred_installation`: priority, then specificity, then
completeness, each strictly. -/
def Outranks (new existing : RInstallation) : Prop :=
  installationPriority new > installationPriority existing ∨
    (installationPriority new = installationPriority existing ∧
      kindSpecificity new > kindSpecificity existing) ∨
    (installationPriority new = installationPriority existing ∧
      kindSpecificity new = kindSpecificity existing ∧
      installationCompleteness new > installationCompleteness existing)

instance (new existing : RInstallation) : Decidable (Outranks new existing) :=
  inferInstanceAs (Decidable (_ ∨ _ ∨ _))

/-- `preferred_installation`: the primary and the secondary report. -/
def preferredInstallation (existing new : RInstallation) : RInstallation × RInstallation :=
  if Outranks new existing then (new, existing) else (existing, new)

/-! ## The merge -/

/-- `merge_environment_variables`: the primary's values win. -/
def mergeEnvironmentVariables (primary secondary : Option EnvironmentVariables) :
    Option EnvironmentVariables :=
  match primary, secondary with
  | none, none => none
  | some primary, none => some primary
  | none, some secondary => some secondary
  | some primary, some secondary => some (primary ∪ secondary)

/-- `merge_rversions_overlay`: the existing overlay's values win. -/
def mergeRversionsOverlay (existing new : Option RVersionsOverlay) :
    Option RVersionsOverlay :=
  match existing, new with
  | none, none => none
  | some existing, none => some existing
  | none, some new => some new
  | some existing, some new => some
      { label := existing.label.or new.label
        script := existing.script.or new.script
        repo := existing.repo.or new.repo
        library := existing.library.or new.library
        module := existing.module.or new.module
        moduleStartupCommand := existing.moduleStartupCommand.or new.moduleStartupCommand }

/-- `select_locator_metadata`: the higher priority, and the existing one between equals. -/
def selectLocatorMetadata (existing new : Option LocatorMetadata) : Option LocatorMetadata :=
  match existing, new with
  | some existing, some new =>
    if new.priority > existing.priority then some new else some existing
  | some existing, none => some existing
  | none, some new => some new
  | none, none => none

/-- The builder `merge_installations` fills: what its setters store. -/
def mergeBuilder (os : Os) (existing new primary secondary : RInstallation) :
    RInstallationBuilder :=
  let rversionsOverlay := mergeRversionsOverlay existing.rversionsOverlay new.rversionsOverlay
  let knownExecutables :=
    sortDedup (existing.knownExecutables.getD [] ++ new.knownExecutables.getD [])
  let symlinks := sortDedup (existing.symlinks.getD [] ++ new.symlinks.getD [])
  { displayName :=
      ((rversionsOverlay.bind (·.label)).or primary.displayName).or secondary.displayName
    name := primary.name.or secondary.name
    executable := (primary.executable.or secondary.executable).map os.normCase
    kind := primary.kind.or secondary.kind
    version := primary.version.or secondary.version
    home := (primary.home.or secondary.home).map os.normCase
    manager := primary.manager.or secondary.manager
    arch := primary.arch.or secondary.arch
    knownExecutables := (someUnlessEmpty knownExecutables).map (normalizePaths os)
    symlinks := (someUnlessEmpty symlinks).map (normalizePaths os)
    discoveredBy := sortDedup (sortDedup (existing.discoveredBy ++ new.discoveredBy))
    locatorMetadata := selectLocatorMetadata existing.locatorMetadata new.locatorMetadata
    rversionsOverlay := rversionsOverlay
    scriptPath := (primary.scriptPath.or secondary.scriptPath).map os.normCase
    startupCommand := primary.startupCommand.or secondary.startupCommand
    environmentVariables :=
      mergeEnvironmentVariables primary.environmentVariables secondary.environmentVariables
    orthogonal := primary.orthogonal.or secondary.orthogonal
    error := primary.error.or secondary.error }

/-- `merge_installations`. -/
def mergeInstallations (os : Os) (existing new : RInstallation) : RInstallation :=
  let (primary, secondary) := preferredInstallation existing new
  (mergeBuilder os existing new primary secondary).build os

end REnvTools.Program
