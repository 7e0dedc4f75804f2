import REnvTools.Program.CondaManagers
import REnvTools.Program.GlobalLocators

/-!
# The locators of installers

The locators `WindowsRegistry`, `WindowsHq`, `Scoop`, `Chocolatey`, `Rig`, `Homebrew`, `MacPorts`
and `MacFramework`: to which environments `try_from` lays claim, and which executables `find` goes
through. `Pixi`, whose `try_from` is in `Program/Pixi`, has its directories here.

SRC: crates/ret-windows-registry/src/lib.rs:28-245, crates/ret-windows-hq/src/lib.rs:28-185,
crates/ret-scoop/src/lib.rs:17-190, crates/ret-chocolatey/src/lib.rs:21-170,
crates/ret-rig/src/lib.rs:20-202, crates/ret-homebrew/src/lib.rs:26-230,
crates/ret-macports/src/lib.rs:16-140, crates/ret-mac-framework/src/lib.rs:19-180,
crates/ret-pixi/src/lib.rs:80-100, 154-190, crates/ret-r-utils/src/executable.rs:150-163
-/

set_option autoImplicit false

namespace REnvTools.Program

open Lib (sortDedup)

/-- What the locators of installers ask of the machine. -/
structure InstallerHost extends GlobalHost where
  /-- The texts under `InstallPath` in the registry. -/
  registryPaths : List PathBuf
  /-- The text that a file of JSON has under a key. -/
  jsonText : PathBuf → String → Option String

variable (platform : Platform) (host : InstallerHost)

/-- The operating system. -/
abbrev InstallerHost.system : Os := host.toGlobalHost.os platform

/-- The entries of a directory, as far as it can be read. -/
def InstallerHost.entriesOf (directory : PathBuf) : List PathBuf :=
  ((host.tree.readDir directory).getD []).map directory.join

/-- `resolve_symlink`. -/
def InstallerHost.symlinkTarget (path : PathBuf) : Option PathBuf :=
  resolveSymlink ⟨host.system platform, host.tree, platform.pathFrom, host.isSymlink,
    fun _ => none⟩ path

/-- `is_path_within`. -/
def isPathWithin (path root : PathBuf) : Bool :=
  path.startsWith root || (platform.normCase path).startsWith (platform.normCase root) ||
    match host.tree.canonicalize path, host.tree.canonicalize root with
    | some path, some root => path.startsWith root
    | _, _ => false

/-- What the `try_from` of most locators builds, each with its own kind and name. -/
def environmentInstallation (kind : RInstallationKind) (displayName : String)
    (manager : Option EnvManager) (orthogonal : Option Bool) (env : REnv) (home : PathBuf) :
    RInstallation :=
  let os := host.system platform
  RInstallationBuilder.build os
    { RInstallationBuilder.new (some kind) with
      displayName := some displayName
      executable := some (os.normCase env.executable)
      home := some (os.normCase home)
      orthogonal := orthogonal
      version := env.version
      arch := env.arch.or (some (platform.inferFromPath env.executable))
      manager := manager
      knownExecutables := env.knownExecutables.map (normalizePaths os)
      symlinks := env.symlinks.map (normalizePaths os) }

/-! ## The registry -/

/-- `registry_installations`. -/
def registryInstallations : List PathBuf :=
  if platform.windows then
    sortDedup (host.registryPaths.flatMap (host.findExecutables platform))
  else []

/-- `paths_match`. -/
def pathsMatch (left right : PathBuf) : Bool :=
  platform.normCase ((host.tree.canonicalize left).getD left) =
    platform.normCase ((host.tree.canonicalize right).getD right)

/-- `WindowsRegistry::installation_from_env`. -/
def registryInstallationFromEnv (env : REnv) : Option RInstallation :=
  env.home.map fun home =>
    environmentInstallation platform host .windowsRegistry "Windows Registry R" none none env home

/-- `WindowsRegistry::try_from`. -/
def registryTryFrom (env : REnv) : Option RInstallation :=
  if !platform.windows then none
  else
    let registered := (registryInstallations platform host).any fun path =>
      pathsMatch platform host path env.executable ||
        match env.home, (REnv.new (host.system platform) path none none).home with
        | some home, some registeredHome => pathsMatch platform host home registeredHome
        | _, _ => false
    if registered then registryInstallationFromEnv platform host env else none

/-! ## The usual directories on Windows -/

/-- `windows_hq_dirs`. -/
def windowsHqDirs : List PathBuf :=
  let bases := (["PROGRAMFILES", "ProgramFiles", "ProgramW6432", "ProgramFiles(x86)"].filterMap
    host.envVar).dedup
  let ofBases := bases.flatMap fun base => ["R", "R-aarch64"].map (platform.pathFrom base).join
  let dirs :=
    if ofBases.isEmpty then
      ["C:\\Program Files\\R", "C:\\Program Files\\R-aarch64", "C:\\Program Files (x86)\\R"].map
        platform.pathFrom
    else ofBases
  let ofUser := ((host.envVar "LOCALAPPDATA").or (host.processVar "LOCALAPPDATA")).toList.flatMap
    fun base => ["R", "R-aarch64"].map ((platform.pathFrom base).join "Programs").join
  sortDedup (dirs ++ ofUser)

/-- `WindowsHq::try_from`, with the directories of the locator. -/
def windowsHqTryFrom (hqDirs : List PathBuf) (env : REnv) : Option RInstallation :=
  if !platform.windows then none
  else
    env.version.bind fun _ =>
      env.home.bind fun home =>
        if [env.executable, home].any fun path => hqDirs.any (isPathWithin platform host path) then
          some (environmentInstallation platform host .windowsHq "System R" none none env home)
        else none

/-- The executables that the loop of `WindowsHq::find` goes through. -/
def windowsHqExecutables (hqDirs : List PathBuf) : List PathBuf :=
  if !platform.windows then []
  else
    ((hqDirs.filter host.tree.isDir).flatMap fun hqDir =>
      (host.entriesOf hqDir).filter fun versionDir =>
        host.tree.isDir versionDir &&
          !decide ((versionDir.fileName.map toAsciiLowercase) = some "bin")).flatMap
      (host.findExecutables platform)

/-! ## Scoop -/

/-- `scoop_base_roots`. -/
def scoopBaseRoots : List PathBuf :=
  let ofVariables := ["SCOOP", "SCOOP_GLOBAL"].filterMap fun name =>
    (host.envVar name).map platform.pathFrom
  let ofHome := host.userHome.toList.flatMap fun home =>
    let configHome := ((host.envVar "XDG_CONFIG_HOME").map platform.pathFrom).getD
      (home.join ".config")
    let configPath := configHome.joinAll ["scoop", "config.json"]
    home.join "scoop" :: ["root_path", "global_path"].filterMap fun key =>
      (host.jsonText configPath key).map platform.pathFrom
  let ofMachine := (host.envVar "ProgramData").toList.map fun data =>
    (platform.pathFrom data).join "scoop"
  sortDedup (ofVariables ++ ofHome ++ ofMachine)

/-- `scoop_install_roots`. -/
def scoopInstallRoots : List PathBuf :=
  sortDedup ((scoopBaseRoots platform host).flatMap fun base =>
    ["r", "r-base"].map (base.join "apps").join)

/-- `scoop_manager`. -/
def scoopManager : Option EnvManager :=
  (((scoopBaseRoots platform host).flatMap fun root =>
    ["scoop.cmd", "scoop.ps1", "scoop"].map (root.join "shims").join).find?
      host.tree.pathExists).map fun path => ⟨path, none, .scoop⟩

/-- `looks_like_scoop_path`. -/
def looksLikeScoopPath (path : PathBuf) : Bool :=
  ["\\scoop\\apps\\r\\", "\\scoop\\apps\\r-base\\", "\\scoop\\shims\\r"].any
    (textContains (toAsciiLowercase (platform.text path)))

/-- `Scoop::try_from`, with the roots and the manager of the locator. -/
def scoopTryFrom (installRoots : List PathBuf) (manager : Option EnvManager) (env : REnv) :
    Option RInstallation :=
  if !platform.windows then none
  else
    env.version.bind fun _ =>
      env.home.bind fun home =>
        if [env.executable, home].any fun path =>
            looksLikeScoopPath platform path || installRoots.any path.startsWith then
          some (environmentInstallation platform host .scoop "Scoop R" manager none env home)
        else none

/-- The executables that the loop of `Scoop::find` goes through. -/
def scoopExecutables (installRoots : List PathBuf) : List PathBuf :=
  if !platform.windows then []
  else
    ((installRoots.flatMap host.entriesOf).filter fun path =>
      decide (path.fileName = some "current") || host.tree.isDir path).filterMap fun path =>
        (host.findExecutables platform path).head?

/-! ## Chocolatey -/

/-- `chocolatey_install_root`. -/
def chocolateyInstallRoot : Option PathBuf :=
  ((host.envVar "ChocolateyInstall").toList.map platform.pathFrom ++
    [platform.pathFrom "C:\\ProgramData\\chocolatey"]).find? host.tree.isDir

/-- `find_choco_manager`, which looks for the same file twice. -/
def findChocoManager (installRoot : Option PathBuf) : Option EnvManager :=
  ((installRoot.map fun root => root.joinAll ["bin", "choco.exe"]).filter
    host.tree.pathExists).map fun path => ⟨path, none, .chocolatey⟩

/-- `chocolatey_r_search_roots`. -/
def chocolateyRSearchRoots (root : PathBuf) : List PathBuf :=
  let packages := (host.entriesOf (root.join "lib")).filter fun package =>
    ["r", "r.project", "r.portable", "r-project"].contains
      (toAsciiLowercase (package.fileName.getD ""))
  sortDedup ([root.join "bin", root.join "shims"] ++ packages.flatMap fun package =>
    package.join "tools" :: (host.entriesOf (package.join "tools")).filter host.tree.isDir)

/-- `Chocolatey::try_from`, with the root and the manager of the locator. -/
def chocolateyTryFrom (installRoot : Option PathBuf) (manager : Option EnvManager) (env : REnv) :
    Option RInstallation :=
  if !platform.windows then none
  else
    env.version.bind fun _ =>
      env.home.bind fun home =>
        installRoot.bind fun root =>
          if (env.executable :: home :: env.knownExecutables.getD []).any
              (isPathWithin platform host · root) then
            some (environmentInstallation platform host .chocolatey "Chocolatey R" manager none
              env home)
          else none

/-- The executables that the loop of `Chocolatey::find` goes through. -/
def chocolateyExecutables (installRoot : Option PathBuf) : List PathBuf :=
  if !platform.windows then []
  else
    installRoot.toList.flatMap fun root =>
      (chocolateyRSearchRoots host root ++ [root.join "bin"]).flatMap
        (host.findExecutables platform)

/-! ## Rig -/

/-- `rig_roots`: where R is installed, and where only rig installs it. -/
def rigRoots : List PathBuf × List PathBuf :=
  let shared := ["/opt/R", "/Library/Frameworks/R.framework/Versions",
    "C:\\Program Files\\R"].map platform.pathFrom
  let ofVariable := (host.envVar "RIG_R_INSTALL_DIR").toList.map platform.pathFrom
  let ofUser := host.userHome.toList.map fun home =>
    if platform.windows then
      (((host.envVar "APPDATA").map platform.pathFrom).getD home).joinAll ["rig", "data", "r"]
    else home.joinAll [".local", "share", "rig", "r"]
  (sortDedup (shared ++ ofVariable ++ ofUser), sortDedup (ofVariable ++ ofUser))

/-- `find_rig_executable`. -/
def findRigExecutable : Option PathBuf :=
  let name := if platform.windows then "rig.exe" else "rig"
  ((host.searchPath.map (·.join name)).find? host.tree.isFile).or
    ((["/usr/local/bin/rig", "/opt/homebrew/bin/rig", "/usr/bin/rig",
      "C:\\Program Files\\rig\\bin\\rig.exe"].map platform.pathFrom).find? host.tree.pathExists)

/-- `Rig`. -/
structure RigLocator where
  rigExecutable : Option PathBuf
  installRoots : List PathBuf
  classificationRoots : List PathBuf
  configuredManager : Bool

/-- `Rig::from`, and then `configure` with the executable of the configuration, if that has been
called. -/
def rig (configured : Option (Option PathBuf)) : RigLocator where
  rigExecutable := configured.join.or (findRigExecutable platform host)
  installRoots := (rigRoots platform host).1
  classificationRoots := (rigRoots platform host).2
  configuredManager := configured.join.isSome

/-- The home or the executable is within one of the roots. -/
def isWithinAny (roots : List PathBuf) (home executable : PathBuf) : Bool :=
  roots.any fun root =>
    isPathWithin platform host home root || isPathWithin platform host executable root

/-- `Rig::try_from`. -/
def rigTryFrom (locator : RigLocator) (env : REnv) : Option RInstallation :=
  env.home.bind fun home =>
    let owned := isWithinAny platform host locator.classificationRoots home env.executable
    let configured := locator.configuredManager &&
      isWithinAny platform host locator.installRoots home env.executable
    if !owned && !configured then none
    else
      some (environmentInstallation platform host .rig "rig managed R"
        (locator.rigExecutable.map fun path => ⟨path, none, .rig⟩) env.orthogonal env home)

/-- The executables that the loop of `Rig::find` goes through. -/
def rigExecutables (locator : RigLocator) : List PathBuf :=
  ((locator.installRoots.filter fun root =>
    locator.classificationRoots.contains root || locator.configuredManager).flatMap
      host.entriesOf).flatMap (host.findExecutables platform)

/-! ## Homebrew -/

/-- `cellar_roots`. -/
def cellarRoots : List PathBuf :=
  ["/opt/homebrew/Cellar", "/usr/local/Cellar", "/home/linuxbrew/.linuxbrew/Cellar"].map
    platform.pathFrom

/-- `configured_cellar_roots`. -/
def configuredCellarRoots : List PathBuf :=
  let ofVariables := (host.envVar "HOMEBREW_CELLAR").toList.map platform.pathFrom ++
    (host.envVar "HOMEBREW_PREFIX").toList.map fun brewPrefix =>
      (platform.pathFrom brewPrefix).join "Cellar"
  let ofPath := (host.searchPath.filter fun bin => host.tree.isFile (bin.join "brew")).filterMap
    fun bin => bin.parent.map (·.join "Cellar")
  sortDedup (cellarRoots platform ++ ofVariables ++ ofPath)

/-- `find_brew_manager`. -/
def findBrewManager : Option EnvManager :=
  let candidates := (host.envVar "HOMEBREW_PREFIX").toList.map (fun brewPrefix =>
      (platform.pathFrom brewPrefix).joinAll ["bin", "brew"]) ++
    host.searchPath.map (·.join "brew") ++
    (cellarRoots platform).filterMap fun cellar =>
      cellar.parent.map (·.joinAll ["bin", "brew"])
  (candidates.find? host.tree.isFile).map fun path => ⟨path, none, .homebrew⟩

/-- `Homebrew`, without the map, which nothing reads. -/
structure HomebrewLocator where
  manager : Option EnvManager
  cellars : List PathBuf

/-- `Homebrew::from`. -/
def homebrew : HomebrewLocator :=
  ⟨findBrewManager platform host, configuredCellarRoots platform host⟩

/-- The `brew` of the nearest directory above the home that has one. -/
def brewAbove (home : PathBuf) : Option EnvManager :=
  ((home.ancestors.map (·.joinAll ["bin", "brew"])).find? host.tree.isFile).map fun path =>
    ⟨path, none, .homebrew⟩

/-- What `Homebrew::try_from` and `MacFramework::try_from` build, which add executables of their
own. -/
def extendedInstallation (kind : RInstallationKind) (displayName : String)
    (manager : Option EnvManager) (extraExecutables : List PathBuf) (version : Option String)
    (arch : Architecture) (env : REnv) (home : PathBuf) : RInstallation :=
  let os := host.system platform
  let symlinks := env.symlinks.getD [] ++ filterSymlinkPaths os host.isSymlink extraExecutables
  let knownExecutables := env.knownExecutables.getD [] ++ extraExecutables
  RInstallationBuilder.build os
    { RInstallationBuilder.new (some kind) with
      displayName := some displayName
      executable := some (os.normCase env.executable)
      home := some (os.normCase home)
      orthogonal := env.orthogonal
      version := version
      arch := some (env.arch.getD arch)
      manager := manager
      knownExecutables := some (normalizePaths os knownExecutables)
      symlinks := some (normalizePaths os symlinks) }

/-- `Homebrew::try_from`. -/
def homebrewTryFrom (locator : HomebrewLocator) (env : REnv) : Option RInstallation :=
  if platform.windows then none
  else
    let executable := (host.symlinkTarget platform env.executable).getD env.executable
    env.home.bind fun home =>
      if !looksLikeHomebrewPath platform executable && !looksLikeHomebrewPath platform home &&
          !isWithinAny platform host locator.cellars home executable then none
      else
        let extraExecutables :=
          if env.knownExecutables.isNone then
            host.findExecutables platform (home.join "bin") ++ [env.executable]
          else []
        some (extendedInstallation platform host .homebrew "Homebrew R"
          ((brewAbove host home).or locator.manager) extraExecutables env.version
          (platform.inferFromPath env.executable) env home)

/-- The executables that the loop of `Homebrew::find` goes through. -/
def homebrewExecutables (locator : HomebrewLocator) : List PathBuf :=
  if platform.windows then []
  else
    ((((locator.cellars.flatMap host.entriesOf).filter fun formula =>
      let name := formula.fileName.getD ""
      name = "r" || textStartsWith name "r@").flatMap host.entriesOf).flatMap
        (host.findExecutables platform))

/-! ## MacPorts -/

/-- `looks_like_macports_path`. -/
def looksLikeMacportsPath (path : PathBuf) : Bool :=
  ["/opt/local/lib/R", "/opt/local/bin/", "/opt/local/Library/Frameworks/R.framework/Versions/"].any
    (textStartsWith (platform.text path))

/-- `find_port_manager`. -/
def findPortManager : Option EnvManager :=
  let manager := platform.pathFrom "/opt/local/bin/port"
  if host.tree.pathExists manager then some ⟨manager, none, .macPorts⟩ else none

/-- `candidate_install_roots`. -/
def candidateInstallRoots : List PathBuf :=
  let frameworkVersions := platform.pathFrom "/opt/local/Library/Frameworks/R.framework/Versions"
  let versionDirs := (host.entriesOf frameworkVersions).filter fun versionDir =>
    !versionDir.endsWith "Current"
  sortDedup (["/opt/local", "/opt/local/lib/R"].map platform.pathFrom ++
    versionDirs.map (·.join "Resources"))

/-- `MacPorts::try_from`, with the manager of the locator. -/
def macPortsTryFrom (manager : Option EnvManager) (env : REnv) : Option RInstallation :=
  if !platform.macos then none
  else
    env.version.bind fun _ =>
      env.home.bind fun home =>
        if !looksLikeMacportsPath platform env.executable &&
            !looksLikeMacportsPath platform home then none
        else
          some (environmentInstallation platform host .macPorts "MacPorts R" manager
            env.orthogonal env home)

/-- The executables that the loop of `MacPorts::find` goes through. -/
def macPortsExecutables : List PathBuf :=
  if !platform.macos then []
  else
    (candidateInstallRoots platform host).filterMap fun installRoot =>
      (host.findExecutables platform installRoot).head?.or
        ((some (installRoot.joinAll ["bin", "R"])).filter host.tree.pathExists)

/-! ## The framework on macOS -/

/-- The directory holds the versions of the R framework. -/
def isVersionsOfFramework (path : PathBuf) : Bool :=
  decide (path.fileName = some "Versions") &&
    decide ((path.parent.bind PathBuf.fileName) = some "R.framework")

/-- `framework_version_roots`. -/
def frameworkVersionRoots : List PathBuf :=
  let ofUser := host.userHome.toList.map
    (·.joinAll ["Library", "Frameworks", "R.framework", "Versions"])
  let ofVariable := ((host.envVar "R_HOME").bind fun home =>
    (platform.pathFrom home).ancestors.find? isVersionsOfFramework).toList
  sortDedup ([platform.pathFrom "/Library/Frameworks/R.framework/Versions"] ++ ofUser ++ ofVariable)

/-- `is_framework_home`. -/
def isFrameworkHome (home : PathBuf) : Bool :=
  home.ancestors.any isVersionsOfFramework &&
    !textContains (platform.text home) "/Cellar/" &&
    !home.startsWith (platform.pathFrom "/opt/local")

/-- `MacFramework::try_from`. -/
def macFrameworkTryFrom (env : REnv) : Option RInstallation :=
  if !platform.macos then none
  else
    let executable := (host.symlinkTarget platform env.executable).getD env.executable
    env.home.bind fun home =>
      if !isFrameworkHome platform home then none
      else
        let version := env.version.or (home.parent.bind PathBuf.fileName)
        (home.ancestors.find? fun path => decide (path.fileName = some "Versions")).map
          fun versions =>
            let current := versions.joinAll ["Current", "Resources", "bin", "R"]
            let extraExecutables :=
              if env.orthogonal = some false then []
              else
                host.findExecutables platform (home.join "bin") ++
                  if host.symlinkTarget platform current = some executable then [current] else []
            extendedInstallation platform host .macFramework "macOS Framework R" none
              extraExecutables version (platform.inferFromPath executable) env home

/-- The executables that the loop of `MacFramework::find` goes through, with the roots of the
locator. -/
def macFrameworkExecutables (versionRoots : List PathBuf) : List PathBuf :=
  if !platform.macos then []
  else (versionRoots.flatMap host.entriesOf).flatMap (host.findExecutables platform)

/-! ## Pixi -/

/-- `pixi_global_env_dirs`. -/
def pixiGlobalEnvDirs : List PathBuf :=
  (((host.envVar "PIXI_HOME").map platform.pathFrom).or
    (host.userHome.map (·.join ".pixi"))).toList.map (·.join "envs")

/-- The executables that the loop of `Pixi::find` goes through. -/
def pixiExecutables (globalEnvDirs : List PathBuf) : List PathBuf :=
  ((globalEnvDirs.flatMap host.entriesOf).filter host.tree.isPixiEnv).filterMap fun pixiPrefix =>
    (host.findExecutables platform pixiPrefix).head?

end REnvTools.Program
