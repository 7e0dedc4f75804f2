import REnvTools.Lib.Words
import REnvTools.Program.CondaEnvName
import REnvTools.Program.CondaPackages
import REnvTools.Program.Locators
import REnvTools.Program.Metadata
import REnvTools.Program.Spack

/-!
# The locators of global installations

The locators `LinuxGlobalR`, `Nix`, `Guix` and `Spack`. Each looks for executables in directories
of its own, resolves them and keeps what it has reported under all known executables. What `find`
makes of one executable and what `try_from` answers is here; how the loops of `find` share the map
is in `Model/GlobalLocators`.

SRC: crates/ret-linux-global-r/src/lib.rs:32-94, 115-208, crates/ret-nix/src/lib.rs:27-247,
crates/ret-guix/src/lib.rs:27-230, crates/ret-spack/src/lib.rs:24-195, 226-300,
crates/ret-core/src/homebrew_utils.rs, crates/ret-fs/src/path.rs:212-226
-/

set_option autoImplicit false

namespace REnvTools.Program

open Lib (sortDedup words)

/-- What the program was built for. -/
structure Platform where
  windows : Bool
  macos : Bool
  architecture : String
  normCase : PathBuf → PathBuf
  pathFrom : String → PathBuf
  /-- `Architecture::infer_from_path`. -/
  inferFromPath : PathBuf → Architecture

/-- What the locators ask of the machine. -/
structure GlobalHost where
  tree : DirectoryTree
  isSymlink : PathBuf → Bool
  /-- What is found out about the runtime of an executable. -/
  probe : PathBuf → Option ProbedRuntime
  /-- `Environment::get_user_home`. -/
  userHome : Option PathBuf
  /-- `Environment::get_env_var`. -/
  envVar : String → Option String
  /-- `std::env::var`. -/
  processVar : String → Option String
  /-- `split_paths` of the variable `PATH`. -/
  searchPath : List PathBuf
  /-- What `find --paths r` prints, if this is run with success. -/
  spackFind : PathBuf → Option String

variable (platform : Platform) (host : GlobalHost)

/-- The operating system. -/
def GlobalHost.os : Os := ⟨platform.windows, platform.normCase, host.tree.canonicalize⟩

/-- `Path::to_string_lossy`. -/
def Platform.text (path : PathBuf) : String :=
  PathBuf.render (if platform.windows then "\\" else "/") path.components

/-- `find_executables`. -/
def GlobalHost.findExecutables (root : PathBuf) : List PathBuf :=
  Program.findExecutables platform.windows platform.architecture host.tree root

/-- `ResolvedRInstallation::from`. -/
def GlobalHost.resolvedFrom (executable : PathBuf) : Option ResolvedRInstallation :=
  resolvedRInstallationFrom
    { os := host.os platform
      isDir := host.tree.isDir
      findExecutable := fun root => (host.findExecutables platform root).head?
      isSymlink := host.isSymlink
      probe := host.probe } executable

/-- `resolve_any_symlink`. -/
def resolveAnySymlink (path : PathBuf) : Option PathBuf :=
  if host.isSymlink path then (host.tree.canonicalize path).filter (· ≠ path) else none

/-- `starts_with` of a text. -/
def textStartsWith (s start : String) : Bool := decide (start.toList <+: s.toList)

/-- The executables under which `insert_and_report` keeps an installation. -/
def insertedEntries (installation : RInstallation) : List PathBuf :=
  match installation.knownExecutables.getD [] with
  | [] => installation.executable.toList
  | executable :: executables => executable :: executables

/-! ## System installations on Linux -/

/-- `looks_like_homebrew_path`. -/
def looksLikeHomebrewPath (path : PathBuf) : Bool :=
  ["/Cellar/r/", "/Cellar/r@", "/home/linuxbrew/.linuxbrew/", "/opt/homebrew/"].any
    (textContains (platform.text path))

/-- The standard directories of executables. -/
def standardBins : List String := ["/bin", "/usr/bin", "/usr/local/bin", "/opt/bin"]

/-- `server_hq_dirs`. -/
def serverHqDirs : List String :=
  ["/usr/lib/R", "/usr/lib64/R", "/usr/local/lib/R", "/usr/local/lib64/R", "/opt/local/lib/R",
    "/opt/local/lib64/R", "/opt/local/R", "/opt/R"]

/-- `is_global_bin`. -/
def isGlobalBin (path : PathBuf) : Bool :=
  standardBins.any (fun root => path = platform.pathFrom root) ||
    serverHqDirs.any fun root => path.startsWith (platform.pathFrom root)

/-- `scan_dirs` of `find_cached`. -/
def linuxScanDirs : List PathBuf :=
  standardBins.map platform.pathFrom ++
    serverHqDirs.flatMap fun hq =>
      let hqPath := platform.pathFrom hq
      if host.tree.isDir hqPath then
        hqPath :: (((host.tree.readDir hqPath).getD []).map hqPath.join).filter host.tree.isDir
      else []

/-- `bin_dirs` of `find_cached`. A `HashSet`; the order is of no account, since each directory
has its own thread. -/
def linuxBinDirs : List PathBuf :=
  if platform.macos || platform.windows then []
  else sortDedup ((linuxScanDirs platform host).map fun p => (host.tree.canonicalize p).getD p)

/-- What `find_and_report_global_r_in` makes of a resolved executable. -/
def linuxGlobalInstallation (resolved : ResolvedRInstallation) : RInstallation :=
  let os := host.os platform
  let env := resolved.toREnv os
  RInstallationBuilder.build os
    { RInstallationBuilder.new (some .linuxGlobal) with
      displayName := some "System R"
      executable := some (os.normCase env.executable)
      home := env.home.map os.normCase
      version := env.version
      arch := some resolved.arch
      knownExecutables := env.knownExecutables.map (normalizePaths os)
      symlinks := env.symlinks.map (normalizePaths os) }

/-- The executables under which `find_and_report_global_r_in` keeps an installation. -/
def linuxGlobalEntries (env : REnv) (installation : RInstallation) : List PathBuf :=
  match installation.knownExecutables.getD [] with
  | [] => [env.executable]
  | executable :: executables => executable :: executables

/-- `LinuxGlobalR::try_from`, where `stored` is what `reported_executables` has under the
executable. -/
def linuxGlobalTryFrom (stored : Option RInstallation) (env : REnv) : Option RInstallation :=
  let os := host.os platform
  if platform.macos || platform.windows then none
  else
    env.version.bind fun _ =>
      env.executable.parent.bind fun parent =>
        if !isGlobalBin platform parent || looksLikeHomebrewPath platform env.executable then none
        else
          stored.or <| some <| RInstallationBuilder.build os
            { RInstallationBuilder.new (some .linuxGlobal) with
              displayName := some "System R"
              executable := some (os.normCase env.executable)
              home := env.home.map os.normCase
              version := env.version
              arch := some (env.arch.getD (platform.inferFromPath env.executable))
              knownExecutables := env.knownExecutables.map (normalizePaths os)
              symlinks := env.symlinks.map (normalizePaths os) }

/-! ## Installations of package managers -/

/-- What `Nix::try_from`, `Guix::try_from` and `Spack::installation_from_env` build, each with its
own kind, name and choice of the executable. -/
def packageManagerInstallation (kind : RInstallationKind) (displayName : String)
    (manager : Option EnvManager) (env : REnv) (executable resolvedExecutable home : PathBuf) :
    RInstallation :=
  let os := host.os platform
  let beside := (env.executable.parent.map (host.findExecutables platform)).getD []
  let extraExecutables := [env.executable, resolvedExecutable] ++ beside
  let symlinks := env.symlinks.getD [] ++ filterSymlinkPaths os host.isSymlink extraExecutables
  let knownExecutables := env.knownExecutables.getD [] ++ extraExecutables
  RInstallationBuilder.build os
    { RInstallationBuilder.new (some kind) with
      displayName := some displayName
      executable := some (os.normCase executable)
      home := some (os.normCase home)
      orthogonal := env.orthogonal
      version := env.version
      arch := env.arch.or (some (platform.inferFromPath resolvedExecutable))
      manager := manager
      knownExecutables := some (normalizePaths os knownExecutables)
      symlinks := some (normalizePaths os symlinks) }

/-- `resolved_executable`. -/
def resolvedExecutableOf (env : REnv) : PathBuf :=
  (resolveAnySymlink host env.executable).getD env.executable

/-- A locator that looks for executables in the profiles of a package manager. -/
structure ProfileLocator where
  kind : RInstallationKind
  displayName : String
  looksLikePath : PathBuf → Bool
  profileBins : List PathBuf
  manager : Option EnvManager

/-- `Nix::try_from` and `Guix::try_from`. -/
def profileTryFrom (locator : ProfileLocator) (env : REnv) : Option RInstallation :=
  if platform.windows then none
  else
    env.version.bind fun _ =>
      let resolvedExecutable := resolvedExecutableOf host env
      env.home.bind fun home =>
        if !locator.looksLikePath resolvedExecutable && !locator.looksLikePath env.executable &&
            !locator.looksLikePath home then none
        else
          some (packageManagerInstallation platform host locator.kind locator.displayName
            locator.manager env env.executable resolvedExecutable home)

/-- The executables that the loops of `Nix::find` and `Guix::find` go through. -/
def profileExecutables (locator : ProfileLocator) : List PathBuf :=
  if platform.windows then []
  else (locator.profileBins.filter host.tree.isDir).flatMap (host.findExecutables platform)

/-- The manager at the first candidate that exists. -/
def managerAmong (managerType : EnvManagerType) (candidates : List PathBuf) : Option EnvManager :=
  ((sortDedup candidates).find? host.tree.pathExists).map fun path => ⟨path, none, managerType⟩

/-- The name of the user. -/
def userName : Option String :=
  (((host.envVar "USER").or (host.envVar "USERNAME")).or (host.processVar "USER")).or
    (host.processVar "USERNAME")

/-! ### Nix -/

/-- `looks_like_nix_path`. -/
def looksLikeNixPath (path : PathBuf) : Bool :=
  ["/nix/store/", "/nix/var/nix/profiles/", "/run/current-system/sw/"].any
      (textStartsWith (platform.text path)) ||
    ["/.nix-profile/", "/etc/profiles/per-user/"].any (textContains (platform.text path))

/-- `nix_profile_bins`. -/
def nixProfileBins : List PathBuf :=
  let fixed := ["/nix/var/nix/profiles/default/bin", "/run/current-system/sw/bin"].map
    platform.pathFrom
  let ofHome := host.userHome.toList.flatMap fun home =>
    let state := ((host.envVar "XDG_STATE_HOME").map platform.pathFrom).getD
      (home.joinAll [".local", "state"])
    [home.joinAll [".nix-profile", "bin"], state.joinAll ["nix", "profiles", "profile", "bin"]]
  let ofProfiles := (host.envVar "NIX_PROFILES").toList.flatMap fun profiles =>
    (words isWhitespace profiles.toList).map fun profile =>
      (platform.pathFrom (String.ofList profile)).join "bin"
  let ofUser := (userName host).toList.map fun username =>
    (platform.pathFrom ("/etc/profiles/per-user/" ++ username)).join "bin"
  sortDedup (fixed ++ ofHome ++ ofProfiles ++ ofUser)

/-- `find_nix_manager`. -/
def findNixManager : Option EnvManager :=
  let fixed := ["/nix/var/nix/profiles/default/bin/nix",
    "/nix/var/nix/profiles/default/bin/nix-env", "/run/current-system/sw/bin/nix",
    "/run/current-system/sw/bin/nix-env"].map platform.pathFrom
  let directories := (host.userHome.map fun home => home.joinAll [".nix-profile", "bin"]).toList ++
    host.searchPath
  managerAmong host .nix
    (fixed ++ directories.flatMap fun directory => ["nix", "nix-env"].map directory.join)

/-- `Nix::from`. -/
def nix : ProfileLocator where
  kind := .nix
  displayName := "Nix R"
  looksLikePath := looksLikeNixPath platform
  profileBins := nixProfileBins platform host
  manager := findNixManager platform host

/-! ### Guix -/

/-- `looks_like_guix_path`. -/
def looksLikeGuixPath (path : PathBuf) : Bool :=
  ["/gnu/store/", "/var/guix/profiles/", "/run/current-system/profile/"].any
      (textStartsWith (platform.text path)) ||
    ["/.guix-profile/", "/.guix-home/profile/"].any (textContains (platform.text path))

/-- `guix_profile_bins`. -/
def guixProfileBins : List PathBuf :=
  let fixed := ["/run/current-system/profile/bin", "/var/guix/profiles/default/bin"].map
    platform.pathFrom
  let ofHome := host.userHome.toList.flatMap fun home =>
    [home.joinAll [".guix-profile", "bin"], home.joinAll [".guix-home", "profile", "bin"]]
  let ofUser := (userName host).toList.map fun username =>
    (platform.pathFrom ("/var/guix/profiles/per-user/" ++ username)).join "bin"
  let ofVariable := ((host.envVar "GUIX_PROFILE").or (host.processVar "GUIX_PROFILE")).toList.map
    fun profile => (platform.pathFrom profile).join "bin"
  sortDedup (fixed ++ ofHome ++ ofUser ++ ofVariable)

/-- `find_guix_manager`. -/
def findGuixManager : Option EnvManager :=
  let fixed := ["/run/current-system/profile/bin/guix", "/var/guix/profiles/default/bin/guix",
    "/usr/local/bin/guix"].map platform.pathFrom
  let ofHome := host.userHome.toList.flatMap fun home =>
    [home.joinAll [".guix-profile", "bin", "guix"],
      home.joinAll [".guix-home", "profile", "bin", "guix"],
      home.joinAll [".config", "guix", "current", "bin", "guix"]]
  managerAmong host .guix (fixed ++ ofHome ++ host.searchPath.map fun directory =>
    directory.join "guix")

/-- `Guix::from`. -/
def guix : ProfileLocator where
  kind := .guix
  displayName := "Guix R"
  looksLikePath := looksLikeGuixPath platform
  profileBins := guixProfileBins platform host
  manager := findGuixManager platform host

/-! ## Spack -/

/-- `Spack`, without the map. -/
structure SpackLocator where
  optDirs : List PathBuf
  manager : Option EnvManager

/-- `looks_like_spack_path`. -/
def looksLikeSpackPath (path : PathBuf) : Bool :=
  ["/spack/opt/spack/", "/spack/var/spack/"].any (textContains (platform.text path))

/-- The variable `SPACK_ROOT`. -/
def spackRoot : Option PathBuf :=
  ((host.envVar "SPACK_ROOT").or (host.processVar "SPACK_ROOT")).map platform.pathFrom

/-- `spack_opt_dirs`. -/
def spackOptDirs : List PathBuf :=
  sortDedup ((spackRoot platform host).toList.map (·.joinAll ["opt", "spack"]) ++
    host.userHome.toList.flatMap (fun home =>
      [home.joinAll ["spack", "opt", "spack"], home.joinAll [".spack", "opt", "spack"]]) ++
    [platform.pathFrom "/opt/spack/opt/spack"])

/-- `find_spack_manager`. -/
def findSpackManager : Option EnvManager :=
  managerAmong host .spack
    ((spackRoot platform host).toList.map (·.joinAll ["bin", "spack"]) ++
      host.userHome.toList.flatMap (fun home =>
        [home.joinAll ["spack", "bin", "spack"], home.joinAll [".spack", "bin", "spack"]]) ++
      [platform.pathFrom "/opt/spack/bin/spack"] ++ host.searchPath.map (·.join "spack"))

/-- `Spack::from`. -/
def spack : SpackLocator := ⟨spackOptDirs platform host, findSpackManager platform host⟩

/-- `parse_spack_find_paths`. -/
def parseSpackFindPaths (output : String) : List PathBuf :=
  sortDedup (((lines output.toList).filterMap fun line =>
    (words isWhitespace line).getLast?.map fun path =>
      platform.pathFrom (String.ofList path)).filter (·.isAbsolute platform.windows))

/-- `spack_prefixes_from_manager`. -/
def spackPrefixesFromManager (manager : EnvManager) : List PathBuf :=
  ((host.spackFind manager.executable).map (parseSpackFindPaths platform)).getD []

/-- `prefixes` of `Spack::find`. -/
def spackPrefixes (locator : SpackLocator) : List PathBuf :=
  sortDedup ((locator.manager.map (spackPrefixesFromManager platform host)).getD [] ++
    locator.optDirs.flatMap
      (spackPrefixesInTree platform.windows platform.architecture host.tree))

/-- The executables that the loop of `Spack::find` goes through. -/
def spackExecutables (locator : SpackLocator) : List PathBuf :=
  if platform.windows then []
  else (spackPrefixes platform host locator).flatMap (host.findExecutables platform)

/-- `Spack::installation_from_env`. -/
def spackInstallationFromEnv (locator : SpackLocator) (env : REnv) : Option RInstallation :=
  env.version.bind fun _ =>
    let resolvedExecutable := resolvedExecutableOf host env
    env.home.map fun home =>
      packageManagerInstallation platform host .spack "Spack R" locator.manager env
        resolvedExecutable resolvedExecutable home

/-- `Spack::try_from`, where `stored` is what `reported_executables` has under the executable. -/
def spackTryFrom (locator : SpackLocator) (stored : Option RInstallation) (env : REnv) :
    Option RInstallation :=
  if platform.windows then none
  else
    env.version.bind fun _ =>
      stored.or <|
        let resolvedExecutable := resolvedExecutableOf host env
        env.home.bind fun home =>
          if [resolvedExecutable, env.executable, home].any (fun path =>
              looksLikeSpackPath platform path || locator.optDirs.any path.startsWith) then
            spackInstallationFromEnv platform host locator env
          else none

end REnvTools.Program
