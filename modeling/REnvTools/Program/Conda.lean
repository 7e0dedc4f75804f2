import REnvTools.Program.DirectoryTree
import REnvTools.Program.REnv
import REnvTools.Program.Shell

/-!
# The Conda locator

`Conda::try_from`. What the locator finds out about a prefix (the metadata of its packages,
its manager, its name) is asked of the host.

SRC: crates/ret-conda/src/lib.rs:261-291, 358-390, 486-541, 598-625, package.rs:29-34,
manager.rs:119-135
-/

set_option autoImplicit false

namespace REnvTools.Program

open Lib (sortDedup)

/-- `RCondaPackageInfo`. -/
structure RCondaPackageInfo where
  version : String
  arch : Option Architecture
  deriving DecidableEq

/-- `CondaManager`. -/
structure CondaManager where
  executable : PathBuf
  version : Option String
  condaDir : Option PathBuf
  managerType : EnvManagerType
  deriving DecidableEq

/-- `CondaManager::to_manager`. -/
def CondaManager.toManager (self : CondaManager) : EnvManager :=
  ⟨self.executable, self.version, self.managerType⟩

/-- What the Conda locator asks of the machine and of its own helpers in one call. -/
structure CondaHost where
  os : Os
  tree : DirectoryTree
  getPackageInfo : PathBuf → Option RCondaPackageInfo
  getManagerForPrefix : PathBuf → Option CondaManager
  getCondaEnvName : PathBuf → Option PathBuf → Option String
  findExecutables : PathBuf → List PathBuf
  isSymlink : PathBuf → Bool
  resolvedFrom : PathBuf → Option ResolvedRInstallation

variable (host : CondaHost)

/-- `Conda::get_prefix_from_env`. -/
def getPrefixFromEnv (env : REnv) : Option PathBuf :=
  let searchRoots := env.executable :: env.home.toList
  searchRoots.findSome? fun root => root.ancestors.find? host.tree.isCondaEnv

/-- `Conda::infer_conda_r_home`. -/
def inferCondaRHome (condaPrefix : PathBuf) : Option PathBuf :=
  let candidates := [(condaPrefix.join "lib").join "R", (condaPrefix.join "lib64").join "R",
    ((condaPrefix.join "Library").join "lib").join "R",
    ((condaPrefix.join "Library").join "lib64").join "R"]
  (candidates.find? host.tree.isDir).map host.os.normCase

/-- `build_conda_startup_command`. -/
def buildCondaStartupCommand (condaPrefix : PathBuf) : Option String :=
  if host.os.windows then none
  else some ("conda activate " ++ quoteShellArgument (host.os.toStringLossy condaPrefix))

/-- `collect_r_executables`. -/
def collectRExecutables (condaPrefix rHome : PathBuf) : List PathBuf :=
  sortDedup ((host.findExecutables condaPrefix ++ host.findExecutables rHome).map host.os.normCase)

/-- `Conda::build_installation`. -/
def buildCondaInstallation (condaPrefix : PathBuf) (resolved : ResolvedRInstallation)
    (manager : Option CondaManager) : RInstallation :=
  RInstallationBuilder.build host.os
    { RInstallationBuilder.new (some .conda) with
      name := host.getCondaEnvName condaPrefix (manager.bind (·.condaDir))
      executable := some (host.os.normCase resolved.executable)
      home := some (host.os.normCase resolved.home)
      orthogonal := resolved.orthogonal
      version := some resolved.version
      arch := some resolved.arch
      manager := manager.map CondaManager.toManager
      knownExecutables := resolved.knownExecutables.map (normalizePaths host.os)
      symlinks := resolved.symlinks.map (normalizePaths host.os)
      startupCommand := buildCondaStartupCommand host condaPrefix
      locatorMetadata := some (.conda condaPrefix) }

/-- The installation that `try_from` builds from the metadata of the packages. -/
def packageInstallation (env : REnv) (condaPrefix : PathBuf) (info : RCondaPackageInfo)
    (rHome : PathBuf) : RInstallation :=
  let manager := host.getManagerForPrefix condaPrefix
  let knownExecutables := collectRExecutables host condaPrefix rHome
  RInstallationBuilder.build host.os
    { RInstallationBuilder.new (some .conda) with
      name := host.getCondaEnvName condaPrefix (manager.bind (·.condaDir))
      executable := some (host.os.normCase env.executable)
      home := some (host.os.normCase rHome)
      version := some info.version
      arch := info.arch
      manager := manager.map CondaManager.toManager
      knownExecutables := some (normalizePaths host.os knownExecutables)
      symlinks :=
        some (normalizePaths host.os (filterSymlinkPaths host.os host.isSymlink knownExecutables))
      startupCommand := buildCondaStartupCommand host condaPrefix
      locatorMetadata := some (.conda condaPrefix) }

/-- `self.environments`: the installations by prefix. -/
abbrev CondaEnvironments := PathBuf → Option RInstallation

/-- `Conda::try_from`: the installation, and `self.environments` afterwards. -/
def condaTryFrom (environments : CondaEnvironments) (env : REnv) :
    Option RInstallation × CondaEnvironments :=
  match getPrefixFromEnv host env with
  | none => (none, environments)
  | some condaPrefix =>
    match environments condaPrefix with
    | some installation =>
      (some (RInstallationBuilder.build host.os
        { installation with
          executable := some (host.os.normCase env.executable)
          arch := env.arch.or installation.arch }), environments)
    | none =>
      match host.getPackageInfo condaPrefix, inferCondaRHome host condaPrefix with
      | some info, some rHome =>
        let installation := packageInstallation host env condaPrefix info rHome
        (some installation, Function.update environments condaPrefix (some installation))
      | _, _ =>
        if env.version.isNone then (none, environments)
        else
          match host.resolvedFrom env.executable with
          | none => (none, environments)
          | some resolved =>
            let installation := buildCondaInstallation host condaPrefix resolved
              (host.getManagerForPrefix condaPrefix)
            (some installation, Function.update environments condaPrefix (some installation))

/-! ## The parts of the calls -/

/-- The installation that `try_from` returns for a prefix that it knows. -/
def knownInstallation (env : REnv) (installation : RInstallation) : RInstallation :=
  RInstallationBuilder.build host.os
    { installation with
      executable := some (host.os.normCase env.executable)
      arch := env.arch.or installation.arch }

/-- The installation that `try_from` builds for a prefix that it does not know. -/
def identifyPrefix (env : REnv) (condaPrefix : PathBuf) : Option RInstallation :=
  match host.getPackageInfo condaPrefix, inferCondaRHome host condaPrefix with
  | some info, some rHome => some (packageInstallation host env condaPrefix info rHome)
  | _, _ =>
    if env.version.isNone then none
    else
      (host.resolvedFrom env.executable).map fun resolved =>
        buildCondaInstallation host condaPrefix resolved (host.getManagerForPrefix condaPrefix)

/-- `try_from` is its parts. -/
theorem condaTryFrom_eq (environments : CondaEnvironments) (env : REnv) :
    condaTryFrom host environments env =
      match getPrefixFromEnv host env with
      | none => (none, environments)
      | some condaPrefix =>
        match environments condaPrefix with
        | some installation => (some (knownInstallation host env installation), environments)
        | none =>
          match identifyPrefix host env condaPrefix with
          | none => (none, environments)
          | some installation =>
            (some installation, Function.update environments condaPrefix (some installation)) := by
  unfold condaTryFrom identifyPrefix knownInstallation
  cases getPrefixFromEnv host env with
  | none => rfl
  | some condaPrefix =>
    dsimp only
    cases environments condaPrefix with
    | some installation => rfl
    | none =>
      cases host.getPackageInfo condaPrefix <;> cases inferCondaRHome host condaPrefix <;>
        dsimp only <;> split <;> cases host.resolvedFrom env.executable <;> rfl

/-- What `report_prefix_fast` builds. -/
def reportPrefixFast (condaPrefix executable : PathBuf) (manager : Option CondaManager)
    (info : RCondaPackageInfo) (rHome : PathBuf) : RInstallation :=
  let knownExecutables := collectRExecutables host condaPrefix rHome
  RInstallationBuilder.build host.os
    { RInstallationBuilder.new (some .conda) with
      name := host.getCondaEnvName condaPrefix (manager.bind (·.condaDir))
      executable := some (host.os.normCase (host.os.normCase executable))
      home := some (host.os.normCase rHome)
      version := some info.version
      arch := info.arch
      manager := manager.map CondaManager.toManager
      knownExecutables := some (normalizePaths host.os knownExecutables)
      symlinks :=
        some (normalizePaths host.os (filterSymlinkPaths host.os host.isSymlink knownExecutables))
      startupCommand := buildCondaStartupCommand host condaPrefix
      locatorMetadata := some (.conda condaPrefix) }

/-- The installation that `report_prefix` inserts and reports, once it has found nothing under
the prefix. What `report_prefix_slow` adds to the cache directory is not followed. -/
def buildPrefix (condaPrefix : PathBuf) (manager : Option CondaManager) : Option RInstallation :=
  (host.findExecutables condaPrefix).head?.bind fun executable =>
    match host.getPackageInfo condaPrefix, inferCondaRHome host condaPrefix with
    | some info, some rHome =>
      some (reportPrefixFast host condaPrefix executable manager info rHome)
    | _, _ =>
      (host.resolvedFrom executable).map fun resolved =>
        buildCondaInstallation host condaPrefix resolved manager

end REnvTools.Program
