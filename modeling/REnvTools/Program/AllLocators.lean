import REnvTools.Program.InstallerLocators
import REnvTools.Program.Pixi
import REnvTools.Program.RVersionsLocator
import REnvTools.Program.Scan

/-!
# All locators

`create_locators`: which locators there are on a platform, in which order, which kinds each says
that it finds, and what its `try_from` and its `find` do. What the locators remember is handed to
them: the maps of `Conda`, `Spack` and `LinuxGlobalR`, the entries of `RVersions` and what `Rig`
was configured with.

SRC: crates/ret/src/locators.rs:26-71 and the `get_kind` and `supported_categories` of each locator
-/

set_option autoImplicit false

namespace REnvTools.Program

/-- What all locators together ask of the machine. -/
structure LocatorsHost extends InstallerHost where
  readToString : PathBuf → Option String
  read : PathBuf → Option (List UInt8)
  run : PathBuf → List String → Option String
  splitPaths : String → List PathBuf
  /-- What the `module` command lists. -/
  moduleListing : PathBuf → Option (List Char)
  getPackageInfo : PathBuf → Option RCondaPackageInfo
  getManagerForPrefix : PathBuf → Option CondaManager
  getCondaEnvName : PathBuf → Option PathBuf → Option String
  /-- `get_conda_environment_paths`. -/
  condaEnvironmentPaths : List PathBuf

/-- What the locators remember. -/
structure LocatorsState where
  /-- `self.environments` of `Conda`. -/
  environments : CondaEnvironments
  /-- `reported_executables` of `Spack`. -/
  spackReported : PathBuf → Option RInstallation
  /-- `reported_executables` of `LinuxGlobalR`. -/
  linuxGlobalReported : PathBuf → Option RInstallation
  /-- `cached_entries` of `RVersions`. -/
  rversionsEntries : List ResolvedRVersionsEntry

variable (platform : Platform)

/-! ## The machine of each locator -/

section Hosts

variable (host : LocatorsHost)

/-- The machine of `Pixi`. -/
def LocatorsHost.pixi : PixiHost where
  os := host.os platform
  tree := host.tree
  readToString := host.readToString
  findExecutables := host.findExecutables platform
  isSymlink := host.isSymlink
  inferFromPath := platform.inferFromPath

/-- The machine of `Conda`. -/
def LocatorsHost.conda : CondaHost where
  os := host.os platform
  tree := host.tree
  getPackageInfo := host.getPackageInfo
  getManagerForPrefix := host.getManagerForPrefix
  getCondaEnvName := host.getCondaEnvName
  findExecutables := host.findExecutables platform
  isSymlink := host.isSymlink
  resolvedFrom := host.resolvedFrom platform

/-- The machine of `RVersions` and `EnvironmentModule`. -/
def LocatorsHost.activation : ActivationHost where
  os := host.os platform
  macos := platform.macos
  pathFrom := platform.pathFrom
  var := host.processVar
  isFile := host.tree.isFile
  read := host.read
  run := host.run
  isDir := host.tree.isDir
  findExecutable root := (host.findExecutables platform root).head?
  isSymlink := host.isSymlink
  probe := host.probe
  getEnvVar := host.envVar
  userHome := host.userHome
  pathExists := host.tree.pathExists
  searchPath := host.searchPath
  splitPaths := host.splitPaths
  readToString := host.readToString
  inferFromPath := platform.inferFromPath

/-- The machine of `identify_r_installation_using_locators`. -/
def LocatorsHost.identifying : LocatorHost where
  os := host.os platform
  isDir := host.tree.isDir
  findExecutable root := (host.findExecutables platform root).head?
  isSymlink := host.isSymlink
  probe := host.probe

/-- The entries that `RVersions::load_entries` loads. -/
def loadedEntries : List ResolvedRVersionsEntry :=
  let activation := host.activation platform
  loadEntries activation (findModulecmd activation)
    (findRversionsFile activation host.userHome
      ((host.envVar "XDG_CONFIG_HOME").map platform.pathFrom)
      (((host.envVar "XDG_CONFIG_DIRS").map host.splitPaths).getD []))

/-- What a loop over executables reports, which resolves each and asks `try_from`. -/
def foundAmong (executables : List PathBuf) (tryFrom : Locator) : List RInstallation :=
  executables.filterMap fun executable =>
    (host.resolvedFrom platform executable).bind fun resolved =>
      tryFrom (resolved.toREnv (host.os platform))

end Hosts

/-! ## The locators -/

/-- A locator that has been made. -/
structure CreatedLocator where
  /-- `get_kind`. -/
  kind : LocatorKind
  /-- `supported_categories`. -/
  supportedCategories : List RInstallationKind
  /-- `try_from`. -/
  tryFrom : LocatorsHost → LocatorsState → Locator
  /-- The installations that `find` reports; some locators leave out those that they have
  already reported. -/
  found : LocatorsHost → List RInstallation

/-- A locator whose `find` resolves executables and asks `try_from`, and which remembers
nothing. -/
def plainCreated (kind : LocatorKind) (category : RInstallationKind)
    (tryFrom : InstallerHost → Locator) (executables : InstallerHost → List PathBuf) :
    CreatedLocator where
  kind := kind
  supportedCategories := [category]
  tryFrom host _ := tryFrom host.toInstallerHost
  found host := foundAmong platform host (executables host.toInstallerHost)
    (tryFrom host.toInstallerHost)

/-! ### On Windows -/

/-- `WindowsRegistry::new`. -/
def registryCreated : CreatedLocator where
  kind := .windowsRegistry
  supportedCategories := [.windowsRegistry]
  tryFrom host _ := registryTryFrom platform host.toInstallerHost
  found host := foundAmong platform host (registryInstallations platform host.toInstallerHost)
    (registryInstallationFromEnv platform host.toInstallerHost)

/-- `WindowsHq::from`. -/
def windowsHqCreated (environment : InstallerHost) : CreatedLocator :=
  let hqDirs := windowsHqDirs platform environment
  plainCreated platform .windowsHq .windowsHq
    (fun host => windowsHqTryFrom platform host hqDirs)
    fun host => windowsHqExecutables platform host hqDirs

/-- `Scoop::from`. -/
def scoopCreated (environment : InstallerHost) : CreatedLocator :=
  let installRoots := scoopInstallRoots platform environment
  let manager := scoopManager platform environment
  plainCreated platform .scoop .scoop
    (fun host => scoopTryFrom platform host installRoots manager)
    fun host => scoopExecutables platform host installRoots

/-- `Chocolatey::from`. -/
def chocolateyCreated (environment : InstallerHost) : CreatedLocator :=
  let installRoot := chocolateyInstallRoot platform environment
  let manager := findChocoManager environment installRoot
  plainCreated platform .chocolatey .chocolatey
    (fun host => chocolateyTryFrom platform host installRoot manager)
    fun host => chocolateyExecutables platform host installRoot

/-! ### Everywhere -/

/-- `Pixi::from`. -/
def pixiCreated (environment : InstallerHost) : CreatedLocator where
  kind := .pixi
  supportedCategories := [.pixi]
  tryFrom host _ := pixiTryFrom (host.pixi platform)
  found host := foundAmong platform host
    (pixiExecutables platform host.toInstallerHost (pixiGlobalEnvDirs platform environment))
    (pixiTryFrom (host.pixi platform))

/-- `Conda::from`. -/
def condaCreated : CreatedLocator where
  kind := .conda
  supportedCategories := [.conda]
  tryFrom host state env := (condaTryFrom (host.conda platform) state.environments env).1
  found host := host.condaEnvironmentPaths.filterMap fun condaPrefix =>
    buildPrefix (host.conda platform) condaPrefix (host.getManagerForPrefix condaPrefix)

/-- `Rig::from`, and `configure`. -/
def rigCreated (environment : InstallerHost) (configured : Option (Option PathBuf)) :
    CreatedLocator :=
  let locator := rig platform environment configured
  plainCreated platform .rig .rig (fun host => rigTryFrom platform host locator)
    fun host => rigExecutables platform host locator

/-! ### On Unix -/

/-- `Homebrew::from`. -/
def homebrewCreated (environment : InstallerHost) : CreatedLocator :=
  let locator := homebrew platform environment
  plainCreated platform .homebrew .homebrew (fun host => homebrewTryFrom platform host locator)
    fun host => homebrewExecutables platform host locator

/-- `Nix::from` and `Guix::from`. -/
def profileCreated (kind : LocatorKind) (locator : ProfileLocator) : CreatedLocator :=
  plainCreated platform kind locator.kind
    (fun host => profileTryFrom platform host.toGlobalHost locator)
    fun host => profileExecutables platform host.toGlobalHost locator

/-- `Spack::from`. -/
def spackCreated (locator : SpackLocator) : CreatedLocator where
  kind := .spack
  supportedCategories := [.spack]
  tryFrom host state env :=
    spackTryFrom platform host.toGlobalHost locator (state.spackReported env.executable) env
  found host := foundAmong platform host (spackExecutables platform host.toGlobalHost locator)
    (spackInstallationFromEnv platform host.toGlobalHost locator)

/-- `RVersions::from`. -/
def rversionsCreated : CreatedLocator where
  kind := .rVersions
  supportedCategories := [.conda, .environmentModule, .guix, .homebrew, .linuxGlobal,
    .macFramework, .macPorts, .nix, .pixi, .rig, .spack]
  tryFrom host state := rversionsTryFrom (host.activation platform) state.rversionsEntries
  found host := rversionsFind (host.activation platform) (loadedEntries platform host)

/-- `EnvironmentModule::from`. -/
def moduleCreated (locator : EnvironmentModule) : CreatedLocator where
  kind := .environmentModule
  supportedCategories := [.environmentModule]
  tryFrom host _ := moduleTryFrom (host.activation platform) locator
  found host := (moduleFind (host.activation platform) locator host.moduleListing).filterMap
    fun message =>
      match message with
      | .installation installation => some installation
      | .manager _ => none

/-! ### On macOS, and on Linux -/

/-- `MacPorts::new`. -/
def macPortsCreated (environment : InstallerHost) : CreatedLocator :=
  let manager := findPortManager platform environment
  plainCreated platform .macPorts .macPorts (fun host => macPortsTryFrom platform host manager)
    (macPortsExecutables platform)

/-- `MacFramework::from`. -/
def macFrameworkCreated (environment : InstallerHost) : CreatedLocator :=
  let versionRoots := frameworkVersionRoots platform environment
  plainCreated platform .macFramework .macFramework (macFrameworkTryFrom platform)
    fun host => macFrameworkExecutables platform host versionRoots

/-- `LinuxGlobalR::new`. -/
def linuxGlobalCreated : CreatedLocator where
  kind := .linuxGlobal
  supportedCategories := [.linuxGlobal]
  tryFrom host state env :=
    linuxGlobalTryFrom platform host.toGlobalHost (state.linuxGlobalReported env.executable) env
  found host :=
    (((linuxBinDirs platform host.toGlobalHost).flatMap (host.findExecutables platform)).filter
      fun executable => !looksLikeHomebrewPath platform executable).filterMap fun executable =>
        (host.resolvedFrom platform executable).map
          (linuxGlobalInstallation platform host.toGlobalHost)

/-! ### Together -/

/-- `create_locators`, with what `Rig` is configured with afterwards. -/
def createLocators (environment : LocatorsHost) (rigConfigured : Option (Option PathBuf)) :
    List CreatedLocator :=
  let machine := environment.toInstallerHost
  (if platform.windows then
    [registryCreated platform, windowsHqCreated platform machine, scoopCreated platform machine,
      chocolateyCreated platform machine]
  else []) ++
  [pixiCreated platform machine, condaCreated platform,
    rigCreated platform machine rigConfigured] ++
  (if platform.windows then []
  else
    [homebrewCreated platform machine,
      profileCreated platform .nix (nix platform machine.toGlobalHost),
      profileCreated platform .guix (guix platform machine.toGlobalHost),
      spackCreated platform (spack platform machine.toGlobalHost), rversionsCreated platform,
      moduleCreated platform (.fromEnvironment (environment.activation platform))]) ++
  (if platform.macos then
    [macPortsCreated platform machine, macFrameworkCreated platform machine]
  else []) ++
  if platform.macos || platform.windows then [] else [linuxGlobalCreated platform]

end REnvTools.Program
