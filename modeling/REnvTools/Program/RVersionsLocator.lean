import REnvTools.Lib.PushNew
import REnvTools.Program.Modules
import REnvTools.Program.RVersions

/-!
# The r-versions locator

What becomes of the entries of an `r-versions` file: the commands that prepare the environment of
an entry, the resolution of its executable, and the installations that `find` reports and
`try_from` returns. The mutex around the loaded entries is left out.

SRC: crates/ret-rversions/src/lib.rs:36-227, 269-442
-/

set_option autoImplicit false

namespace REnvTools.Program

variable (host : ActivationHost)

/-! ## The file -/

/-- `find_rversions_file`. -/
def findRversionsFile (userHome xdgConfigHome : Option PathBuf) (xdgConfigDirs : List PathBuf) :
    Option PathBuf :=
  let home := xdgConfigHome.or (userHome.map (·.join ".config"))
  let system := if xdgConfigDirs = [] then [host.pathFrom "/etc/xdg"] else xdgConfigDirs
  let configDirs := home.toList ++ system ++ [host.pathFrom "/etc"]
  let files := (Lib.pushAll [] configDirs).map fun configDir =>
    (configDir.join "rstudio").join "r-versions"
  files.find? host.isFile

/-! ## Entries -/

/-- `combine_startup_command`. -/
def combineStartupCommand (moduleStartupCommand script : Option String) : Option String :=
  match moduleStartupCommand, script with
  | some moduleStartupCommand, some script =>
    some (moduleStartupCommand ++ " && . " ++ quoteShellArgument script)
  | some moduleStartupCommand, none => some moduleStartupCommand
  | none, some script => some (". " ++ quoteShellArgument script)
  | none, none => none

/-- `build_rversions_overlay`. -/
def buildRversionsOverlay (entry : RVersionsEntry) (moduleStartupCommand : Option String) :
    Option RVersionsOverlay :=
  if entry.label.isSome || entry.script.isSome || entry.repo.isSome || entry.library.isSome ||
      entry.module.isSome || moduleStartupCommand.isSome then
    some ⟨entry.label, entry.script, entry.repo, entry.library, entry.module,
      moduleStartupCommand⟩
  else none

/-- `ResolvedRVersionsEntry`. -/
structure ResolvedRVersionsEntry where
  resolved : ResolvedRInstallation
  label : Option String
  startupCommand : Option String
  environmentVariables : Option EnvironmentVariables
  rversionsOverlay : Option RVersionsOverlay

/-- The command that loads the module of an entry. -/
def moduleStartup (modulecmd : Option PathBuf) (entry : RVersionsEntry) : Option String :=
  entry.module.bind fun module =>
    modulecmd.map fun modulecmd => buildModuleStartupCommand host.os modulecmd module

/-- The script in which an entry is resolved, if it is resolved in one. -/
def entryStartup (startupCommand library : Option String) : Option String :=
  if startupCommand.isSome || library.isSome then
    let startup := startupCommand.getD ":"
    some (match library with
      | some library => startup ++ " && export R_LIBS=" ++ quoteShellArgument library
      | none => startup)
  else none

/-- `RVersions::resolve_entry`. -/
def resolveEntry (modulecmd : Option PathBuf) (entry : RVersionsEntry) :
    Option ResolvedRVersionsEntry :=
  let moduleStartupCommand := moduleStartup host modulecmd entry
  if entry.module.isSome && moduleStartupCommand.isNone then none
  else
    let rversionsOverlay := buildRversionsOverlay entry moduleStartupCommand
    let executable := entry.path.bind host.findExecutable
    if entry.path.isSome && executable.isNone then none
    else
      let startupCommand := combineStartupCommand moduleStartupCommand entry.script
      let resolved :=
        match entryStartup startupCommand entry.library with
        | some startup => resolveActivated host executable startup
        | none => executable.bind (resolvedRInstallationFrom host.toLocatorHost)
      resolved.map fun resolved =>
        { resolved := resolved
          label := entry.label
          startupCommand := startupCommand
          environmentVariables := entry.library.map (Finmap.singleton "R_LIBS")
          rversionsOverlay := rversionsOverlay }

/-- `RVersions::load_entries`, of the file that is found. -/
def loadEntries (modulecmd file : Option PathBuf) : List ResolvedRVersionsEntry :=
  if host.os.windows then []
  else
    match file.bind host.readToString with
    | none => []
    | some content =>
      (parseRversionsFile host.pathFrom content).filterMap (resolveEntry host modulecmd)

/-! ## Installations -/

/-- `infer_kind`. -/
def inferKind (executable home : PathBuf) : RInstallationKind :=
  if looksLikeModulePath host.os executable || looksLikeModulePath host.os home then
    .environmentModule
  else .linuxGlobal

/-- `merge_optional_paths`. -/
def mergeOptionalPaths (primary secondary : Option (List PathBuf)) : Option (List PathBuf) :=
  someUnlessEmpty (primary.getD [] ++ secondary.getD [])

/-- `build_installation_from_env`. -/
def buildInstallationFromEnv (env : REnv) (entry : ResolvedRVersionsEntry) : RInstallation :=
  let home := env.home.getD entry.resolved.home
  RInstallationBuilder.build host.os
    { RInstallationBuilder.new (some (inferKind host env.executable home)) with
      displayName := entry.label
      executable := some (host.os.normCase env.executable)
      home := some (host.os.normCase home)
      orthogonal := env.orthogonal.or entry.resolved.orthogonal
      version := env.version.or (some entry.resolved.version)
      arch := env.arch.or (some entry.resolved.arch)
      knownExecutables :=
        (mergeOptionalPaths env.knownExecutables entry.resolved.knownExecutables).map
          (normalizePaths host.os)
      symlinks := (mergeOptionalPaths env.symlinks entry.resolved.symlinks).map
        (normalizePaths host.os)
      discoveredBy := [.locator, .rVersions]
      rversionsOverlay := entry.rversionsOverlay
      startupCommand := entry.startupCommand
      environmentVariables := entry.environmentVariables }

/-- `build_installation_from_resolved`. -/
def buildInstallationFromResolved (entry : ResolvedRVersionsEntry) : RInstallation :=
  let resolved := entry.resolved
  RInstallationBuilder.build host.os
    { RInstallationBuilder.new (some (inferKind host resolved.executable resolved.home)) with
      displayName := entry.label
      executable := some (host.os.normCase resolved.executable)
      home := some (host.os.normCase resolved.home)
      orthogonal := resolved.orthogonal
      version := some resolved.version
      arch := some resolved.arch
      knownExecutables := resolved.knownExecutables.map (normalizePaths host.os)
      symlinks := resolved.symlinks.map (normalizePaths host.os)
      discoveredBy := [.locator, .rVersions]
      rversionsOverlay := entry.rversionsOverlay
      startupCommand := entry.startupCommand
      environmentVariables := entry.environmentVariables }

/-! ## The locator -/

/-- The entry is used as it is: no environment is prepared for it. -/
def ResolvedRVersionsEntry.isPlain (entry : ResolvedRVersionsEntry) : Bool :=
  entry.startupCommand.isNone && entry.environmentVariables.isNone

/-- `RVersions::try_from`, with these entries. -/
def rversionsTryFrom (entries : List ResolvedRVersionsEntry) (env : REnv) :
    Option RInstallation :=
  if host.os.windows then none
  else
    (entries.find? fun entry =>
      entry.isPlain && (decide (entry.resolved.executable = env.executable) ||
        (entry.resolved.knownExecutables.getD []).contains env.executable)).map
      (buildInstallationFromEnv host env)

/-- What `RVersions::find` reports, having loaded these entries. -/
def rversionsFind (entries : List ResolvedRVersionsEntry) : List RInstallation :=
  if host.os.windows then [] else entries.map (buildInstallationFromResolved host)

end REnvTools.Program
