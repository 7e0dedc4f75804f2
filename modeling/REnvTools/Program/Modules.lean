import REnvTools.Program.Details
import REnvTools.Program.Locators
import REnvTools.Program.Reporter

/-!
# Environment modules

The locator of the installations that the `module` command provides: how it finds the command,
which of the modules listed it takes for R, and how it loads one. The commands are asked of the
host.

SRC: crates/ret-module/src/lib.rs:33-273, crates/ret-r-utils/src/env.rs:208-278
-/

set_option autoImplicit false

namespace REnvTools.Program

/-- What the locators that prepare an environment first ask of the machine. -/
structure ActivationHost extends RuntimeHost, LocatorHost where
  getEnvVar : String → Option String
  userHome : Option PathBuf
  pathExists : PathBuf → Bool
  /-- `split_paths` of the variable `PATH`. -/
  searchPath : List PathBuf
  splitPaths : String → List PathBuf
  readToString : PathBuf → Option String
  inferFromPath : PathBuf → Architecture

variable (host : ActivationHost)

/-- `resolve_with_startup`, up to the installation. -/
def resolveActivated (executable : Option PathBuf) (startup : String) :
    Option ResolvedRInstallation :=
  (resolveWithStartup host.toRuntimeHost executable startup).map fun found =>
    buildResolved host.toLocatorHost found.1 found.2

/-! ## Names and paths -/

/-- `str::trim_end_matches` with a text. -/
def trimEndMatches (pattern : List Char) : ℕ → List Char → List Char
  | 0, text => text
  | fuel + 1, text =>
    if pattern ≠ [] ∧ pattern.isSuffixOf text = true then
      trimEndMatches pattern fuel (text.take (text.length - pattern.length))
    else text

/-- The first character is an ASCII digit. -/
def startsWithDigit (text : List Char) : Bool :=
  match text with
  | c :: _ => c.isDigit
  | [] => false

/-- The component is `r-` and a version. -/
def isHyphenated (component : List Char) : Bool :=
  match (toAsciiLowercase (String.ofList component)).toList with
  | 'r' :: '-' :: version => startsWithDigit version
  | _ => false

/-- `is_r_module_name`. -/
def isRModuleName (name : List Char) : Bool :=
  let components := name.splitOn '/'
  (components.zip components.tail).any (fun pair =>
      toAsciiLowercase (String.ofList pair.1) = "r" && startsWithDigit pair.2) ||
    match components.getLast? with
    | none => false
    | some component => isHyphenated component

/-- The name that a line of the listing gives. -/
def moduleNameOf (line : List Char) : Option (List Char) :=
  match (line.dropWhile isWhitespace).takeWhile (!isWhitespace ·) with
  | [] => none
  | word =>
    let name := trimEndMatches "(default)".toList word.length word
    some (trimEndMatches "(D)".toList name.length name)

/-- `parse_r_modules`. -/
def parseRModules (text : List Char) : List String :=
  (lines text).filterMap fun line =>
    (moduleNameOf line).bind fun name =>
      if isRModuleName name then some (String.ofList name) else none

/-- `looks_like_module_path`. -/
def looksLikeModulePath (os : Os) (path : PathBuf) : Bool :=
  ["/modules/", "/modulefiles/", "/easybuild/", "/lmod/", "/spack/opt/", "/apps/",
    "/software/"].any (textContains (os.toStringLossy path))

/-! ## The command -/

/-- `find_modulecmd`. -/
def findModulecmd : Option PathBuf :=
  let value (name : String) : Option String := (host.getEnvVar name).or (host.var name)
  let fromLmodCmd := ((value "LMOD_CMD").map host.pathFrom).filter host.pathExists
  let fromModulesHome := (value "MODULESHOME").bind fun home =>
    let home := host.pathFrom home
    [(home.join "bin").join "modulecmd", (home.join "libexec").join "lmod"].find? host.pathExists
  let common := ["/usr/share/lmod/lmod/libexec/lmod", "/usr/share/Modules/libexec/modulecmd.tcl",
    "/usr/local/Modules/libexec/modulecmd.tcl", "/opt/apps/lmod/lmod/libexec/lmod"]
  ((fromLmodCmd.or fromModulesHome).or ((common.map host.pathFrom).find? host.pathExists)).or
    ((host.searchPath.flatMap fun dir => ["lmod", "modulecmd"].map dir.join).find?
      host.pathExists)

/-- `build_module_startup_command`. -/
def buildModuleStartupCommand (os : Os) (modulecmd : PathBuf) (moduleName : String) : String :=
  "_ret_module_code=\"$(" ++ quoteShellArgument (os.toStringLossy modulecmd) ++ " sh load " ++
    quoteShellArgument moduleName ++ ")\" && eval \"$_ret_module_code\""

/-! ## The locator -/

/-- `EnvironmentModule`. -/
structure EnvironmentModule where
  modulecmd : Option PathBuf
  manager : Option EnvManager

/-- `EnvironmentModule::from`. -/
def EnvironmentModule.fromEnvironment : EnvironmentModule :=
  let modulecmd := findModulecmd host
  ⟨modulecmd, modulecmd.map fun cmd => ⟨cmd, none, .environmentModule⟩⟩

variable (locator : EnvironmentModule)

/-- `EnvironmentModule::installation_from_env`. -/
def installationFromEnv (env : REnv) : Option RInstallation :=
  match env.version, env.home with
  | some version, some home =>
    some (RInstallationBuilder.build host.os
      { RInstallationBuilder.new (some .environmentModule) with
        displayName := some "Module R"
        executable := some (host.os.normCase env.executable)
        home := some (host.os.normCase home)
        orthogonal := env.orthogonal
        version := some version
        arch := env.arch.or (some (host.inferFromPath env.executable))
        manager := locator.manager
        knownExecutables := env.knownExecutables.map (normalizePaths host.os)
        symlinks := env.symlinks.map (normalizePaths host.os) })
  | _, _ => none

/-- `EnvironmentModule::try_from`. -/
def moduleTryFrom (env : REnv) : Option RInstallation :=
  if host.os.windows || env.version.isNone then none
  else
    match env.home with
    | none => none
    | some home =>
      if looksLikeModulePath host.os env.executable || looksLikeModulePath host.os home then
        installationFromEnv host locator env
      else none

/-- What `EnvironmentModule::find` reports for one module. -/
def reportModule (modulecmd : PathBuf) (moduleName : String) : List Message :=
  let startupCommand := buildModuleStartupCommand host.os modulecmd moduleName
  match resolveActivated host none startupCommand with
  | none => []
  | some resolved =>
    match installationFromEnv host locator (resolved.toREnv host.os) with
    | none => []
    | some installation =>
      let installation := RInstallationBuilder.build host.os
        { installation with
          startupCommand := some startupCommand
          locatorMetadata := some (.module moduleName startupCommand) }
      (installation.manager.map Message.manager).toList ++ [.installation installation]

/-- `EnvironmentModule::find`; the listing is asked of the host. -/
def moduleFind (listing : PathBuf → Option (List Char)) : List Message :=
  if host.os.windows then []
  else
    match locator.modulecmd with
    | none => []
    | some modulecmd =>
      (((listing modulecmd).map parseRModules).getD []).flatMap
        (reportModule host locator modulecmd)

end REnvTools.Program
