import REnvTools.Lib.Markers
import REnvTools.Program.Metadata
import REnvTools.Program.Shell

/-!
# The details of an installation

`get_installation_details`, with the processes that it starts, and `resolve_with_startup`. Both
give the arguments that `build_resolved` is called with. A process is asked of the host by its
program and arguments; that it is killed after some time is left to the host. `str::split_once` at
a text is `cutAt`.

SRC: crates/ret-r-utils/src/env.rs:22-23, 85-206, 240-278
-/

set_option autoImplicit false

namespace REnvTools.Program

open Lib

/-- `R_INFO_SEPARATOR`. -/
def rInfoSeparator : String := "ret-r-installation-info"

/-- `R_INFO_CMD`. -/
def rInfoCmd : String :=
  "cat('ret-r-installation-info\\n');cat(paste(R.version$major, R.version$minor, sep='.'), " ++
    "'\\n', sep='');cat(R.home(), '\\n', sep='');cat(R.version$arch, '\\n', sep='')"

variable (host : RuntimeHost)

/-- `parse_installation_details`. -/
def parseInstallationDetails (stdout : List Char) : Option ProbedRuntime :=
  match cutAt rInfoSeparator.toList stdout with
  | none => none
  | some (_, payload) =>
    match ((lines payload).map trim).filter (· ≠ []) with
    | version :: home :: arch :: _ =>
      (architecture arch).map fun arch =>
        let home := host.pathFrom (String.ofList home)
        ⟨home, String.ofList version, arch, [], orthogonal host.os home⟩
    | _ => none

/-- A process that is started. -/
structure ProcessRun where
  executable : PathBuf
  args : List String
  deriving DecidableEq

/-- `run_probe`. -/
def runProbe (process : ProcessRun) : Option (List Char) :=
  (host.run process.executable process.args).map fun stdout => trim stdout.toList

/-- What `read_metadata` finds out about a home, as the arguments of `build_resolved`. -/
def fromMetadata (executable home : PathBuf) : Option ProbedRuntime :=
  (readMetadata host home executable).map fun found =>
    ⟨home, found.version, found.arch, found.files, orthogonal host.os home⟩

/-- The home that is known without starting a process. -/
def staticHome (executable : PathBuf) : Option PathBuf :=
  match launcherHome host executable with
  | some (.literal home) => some home
  | some .query => none
  | none => layoutHome host executable

/-- The process that asks a launcher for its home. -/
def homeProcess (executable : PathBuf) (name : String) : ProcessRun :=
  ⟨if isRscript name then executable.setFileName (if host.os.windows then "R.exe" else "R")
    else executable, ["RHOME"]⟩

/-- The process that asks R itself. -/
def infoProcess (executable : PathBuf) (name : String) : ProcessRun :=
  ⟨executable, if isRscript name then ["--vanilla", "-e", rInfoCmd]
    else ["--vanilla", "-s", "-e", rInfoCmd]⟩

/-- The home that a launcher prints. -/
def printedHome (stdout : List Char) : Option PathBuf :=
  match (lines stdout).getLast? with
  | none => none
  | some line =>
    let path := host.pathFrom (String.ofList (trim line))
    if path.isAbsolute host.os.windows && hasRLayout host path then some path else none

/-- `get_installation_details`, and the processes it has started. -/
def getInstallationDetails (executable : PathBuf) : Option ProbedRuntime × List ProcessRun :=
  let home := staticHome host executable
  match home.bind (fromMetadata host executable) with
  | some runtime => (some runtime, [])
  | none =>
    match executable.fileName with
    | none => (none, [])
    | some name =>
      let process := homeProcess host executable name
      let (queriedHome, started) :=
        if host.isFile process.executable then
          ((runProbe host process).bind (printedHome host), [process])
        else (none, [])
      match queriedHome.bind (fromMetadata host executable) with
      | some runtime => (some runtime, started)
      | none =>
        let process := infoProcess executable name
        let started := started ++ [process]
        match (runProbe host process).bind (parseInstallationDetails host) with
        | none => (none, started)
        | some runtime =>
          (some { runtime with
            orthogonal := ((home.or queriedHome).bind (orthogonal host.os)).or runtime.orthogonal },
            started)

/-! ## In an activation shell -/

/-- The marker of the launcher's line. -/
def launcherMarker : String := "ret-r-launcher\n"

/-- The launcher in the script. -/
def startupLauncher (executable : Option PathBuf) : String :=
  match executable with
  | some path => quoteShellArgument (host.os.toStringLossy path)
  | none => "$(command -v R)"

/-- The script of `resolve_with_startup`. -/
def startupScript (executable : Option PathBuf) (startup : String) : String :=
  let info := quoteShellArgument rInfoCmd
  startup ++ " && _ret_r_exe=" ++ startupLauncher host executable ++
    " && [ -n \"$_ret_r_exe\" ] && printf 'ret-r-launcher\\n%s\\n' \"$_ret_r_exe\"" ++
    " && case \"$_ret_r_exe\" in *Rscript|*Rscript.exe) \"$_ret_r_exe\" --vanilla -e " ++ info ++
    ";; *) \"$_ret_r_exe\" --vanilla -s -e " ++ info ++ ";; esac"

/-- What `resolve_with_startup` makes of the output. -/
def parseStartupOutput (stdout : List Char) : Option (PathBuf × ProbedRuntime) :=
  match cutAt launcherMarker.toList stdout with
  | none => none
  | some (_, payload) =>
    match splitOnce '\n' payload with
    | none => none
    | some (executable, info) =>
      (parseInstallationDetails host info).map fun runtime =>
        (host.pathFrom (String.ofList (executable.rdropWhile (· = '\r'))), runtime)

/-- `resolve_with_startup`; elsewhere than on Unix there is none. -/
def resolveWithStartup (executable : Option PathBuf) (startup : String) :
    Option (PathBuf × ProbedRuntime) :=
  if host.os.windows then none
  else
    (host.run (host.pathFrom "sh") ["-c", startupScript host executable startup]).bind
      fun stdout => parseStartupOutput host stdout.toList

end REnvTools.Program
