import REnvTools.Program.Installation
import REnvTools.Program.REnv

/-!
# Identifying and resolving an executable

The two paths by which an executable becomes an installation: identification during a scan,
and resolution of a single executable on request. Probing an executable is asked of the
host; what `build_resolved` makes of the answer is the program's.

SRC: crates/ret/src/locators.rs:73-178, crates/ret/src/resolve.rs:15-113,
crates/ret-r-utils/src/env.rs:71-82, 208-238
-/

set_option autoImplicit false

namespace REnvTools.Program

open Lib (sortDedup)

/-! ## Resolved runtimes -/

/-- What is found out about the runtime of an executable: the arguments of `build_resolved`. -/
structure ProbedRuntime where
  home : PathBuf
  version : String
  arch : Architecture
  metadataFiles : List PathBuf
  orthogonal : Option Bool
  deriving DecidableEq

/-- What identification asks of the machine. -/
structure LocatorHost where
  os : Os
  isDir : PathBuf → Bool
  findExecutable : PathBuf → Option PathBuf
  isSymlink : PathBuf → Bool
  probe : PathBuf → Option ProbedRuntime

variable (host : LocatorHost)

/-- `build_resolved`. -/
def buildResolved (executable : PathBuf) (runtime : ProbedRuntime) : ResolvedRInstallation :=
  let os := host.os
  let home :=
    if os.windows then os.normCase runtime.home else os.normCase (os.canonical runtime.home)
  let knownExecutables :=
    normalizePaths os
      (os.normCase executable :: ((os.canonicalize executable).map os.normCase).toList)
  let symlinks := filterSymlinkPaths os host.isSymlink knownExecutables
  { executable := os.normCase executable
    home := home
    version := runtime.version
    arch := runtime.arch
    knownExecutables := some knownExecutables
    symlinks := someUnlessEmpty symlinks
    orthogonal := runtime.orthogonal
    metadataFiles := runtime.metadataFiles }

/-- `ResolvedRInstallation::from`, whose cache returns what was found out before. -/
def resolvedRInstallationFrom (executable : PathBuf) : Option ResolvedRInstallation :=
  (host.probe executable).map (buildResolved host executable)

/-- What the resolution cache of the host is built on, for a probe that may read the files. -/
def LocatorHost.resolver {κ : Type} (sha256 : String → String)
    (probe : (PathBuf → Option κ) → PathBuf → Option ProbedRuntime) : Resolver κ where
  os := host.os
  sha256 := sha256
  getInstallationDetails seen executable :=
    (probe seen executable).map (buildResolved host executable)

/-! ## Identification -/

/-- `Locator::try_from`. -/
abbrev Locator := REnv → Option RInstallation

/-- `identify_installation_without_resolution`. -/
def identifyInstallationWithoutResolution (os : Os) (locators : List Locator) (env : REnv) :
    Option RInstallation :=
  match locators.filterMap (· env) with
  | [] => none
  | installation :: installations => some (installations.foldl (mergeInstallations os) installation)

/-- `create_unknown_installation`. -/
def createUnknownInstallation (os : Os) (resolved : ResolvedRInstallation)
    (fallbackKind : Option RInstallationKind) : RInstallation :=
  RInstallationBuilder.build os
    { RInstallationBuilder.new fallbackKind with
      executable := some (os.normCase resolved.executable)
      home := some (os.normCase resolved.home)
      orthogonal := resolved.orthogonal
      version := some resolved.version
      arch := some resolved.arch
      knownExecutables := resolved.knownExecutables.map (normalizePaths os)
      symlinks := resolved.symlinks.map (normalizePaths os) }

/-- `merge_resolved_installation`. -/
def mergeResolvedInstallation (os : Os) (installation : RInstallation)
    (resolved : ResolvedRInstallation) : RInstallation :=
  let symlinks := sortDedup (installation.symlinks.getD [] ++ resolved.symlinks.getD [])
  let knownExecutables := sortDedup (installation.knownExecutables.getD [] ++
    [resolved.executable] ++ resolved.knownExecutables.getD [])
  RInstallationBuilder.build os
    { installation with
      executable := some (os.normCase resolved.executable)
      home := some (os.normCase resolved.home)
      orthogonal := resolved.orthogonal
      version := some resolved.version
      arch := some resolved.arch
      knownExecutables := some (normalizePaths os knownExecutables)
      symlinks := some (normalizePaths os symlinks) }

/-- `mark_locator_discovery`, with `add_discovery_source`. -/
def markLocatorDiscovery (os : Os) (installation : RInstallation) : RInstallation :=
  RInstallationBuilder.build os
    { installation with
      discoveredBy :=
        if installation.discoveredBy.contains .locator then installation.discoveredBy
        else sortDedup (installation.discoveredBy ++ [.locator]) }

/-- `infer_fallback_kind` of `locators.rs`: the executable and everything known of it count. -/
def inferFallbackKind (resolved : ResolvedRInstallation) (globalSearchPaths : List PathBuf) :
    Option RInstallationKind :=
  let knownExecutables := resolved.knownExecutables.getD [] ++ [resolved.executable]
  if knownExecutables.any fun executable =>
      match executable.parent with
      | none => false
      | some bin => globalSearchPaths.contains bin then
    some .globalPaths
  else none

/-- `identify_r_installation_using_locators`. -/
def identifyRInstallationUsingLocators (env : REnv) (locators : List Locator)
    (globalSearchPaths : List PathBuf) : Option RInstallation :=
  let os := host.os
  let discovered := identifyInstallationWithoutResolution os locators env
  match resolvedRInstallationFrom host env.executable with
  | none => discovered
  | some resolved =>
    match identifyInstallationWithoutResolution os locators (resolved.toREnv os) with
    | some installation =>
      some (markLocatorDiscovery os (mergeResolvedInstallation os installation resolved))
    | none =>
      match discovered with
      | some installation =>
        some (markLocatorDiscovery os (mergeResolvedInstallation os installation resolved))
      | none =>
        some (createUnknownInstallation os resolved (inferFallbackKind resolved globalSearchPaths))

/-! ## Resolution -/

/-- `infer_fallback_kind` of `resolve.rs`: only the executable itself counts. -/
def inferFallbackKindFromRaw (executable : PathBuf) (globalSearchPaths : List PathBuf) :
    Option RInstallationKind :=
  match executable.parent with
  | none => none
  | some bin => if globalSearchPaths.contains bin then some .globalPaths else none

/-- `create_unknown_installation_from_raw`. -/
def createUnknownInstallationFromRaw (os : Os) (env : REnv) (globalSearchPaths : List PathBuf) :
    RInstallation :=
  RInstallationBuilder.build os
    { RInstallationBuilder.new (inferFallbackKindFromRaw env.executable globalSearchPaths) with
      executable := some (os.normCase env.executable)
      home := env.home.map os.normCase
      knownExecutables := env.knownExecutables.map (normalizePaths os)
      symlinks := env.symlinks.map (normalizePaths os) }

/-- `ResolvedInstallation`. -/
structure ResolvedInstallation where
  discovered : RInstallation
  resolved : Option RInstallation

/-- `resolve_installation`; what it makes of `resolved_base` is what
`merge_resolved_installation` does, step by step. -/
def resolveInstallation (executable : PathBuf) (locators : List Locator)
    (globalSearchPaths : List PathBuf) : Option ResolvedInstallation :=
  let os := host.os
  match (if host.isDir executable then host.findExecutable executable else some executable) with
  | none => none
  | some executable =>
    let env := REnv.new os executable none none
    let info := resolvedRInstallationFrom host executable
    let discovered := (identifyInstallationWithoutResolution os locators env).or
      (info.map fun _ => createUnknownInstallationFromRaw os env globalSearchPaths)
    match discovered, info with
    | some discovered, some info =>
      let resolvedBase :=
        (identifyInstallationWithoutResolution os locators (info.toREnv os)).getD discovered
      some ⟨discovered, some (mergeResolvedInstallation os resolvedBase info)⟩
    | some discovered, none => some ⟨discovered, none⟩
    | none, _ => none

end REnvTools.Program
