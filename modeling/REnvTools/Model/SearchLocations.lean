import REnvTools.Lib.PushNew
import REnvTools.Lib.SortDedup
import REnvTools.Lib.TaskPool
import REnvTools.Program.DirectoryTree

/-!
# The global search locations

Any number of calls of `get_know_global_search_locations` on one `EnvironmentApi`, in any
interleaving. Each of the three sections under the lock is one step; what a call computes
between them depends on the environment and the file system only, which do not change. This is
the version for Unix.

SRC: crates/ret-core/src/os_environment.rs:25-34, 91-167, 179-190
-/

set_option autoImplicit false

namespace REnvTools.Model

open Program Lib

/-! ## What a call computes -/

/-- What the calls ask of the process and of the machine. -/
structure SearchHost where
  getEnvVar : String → Option String
  splitPaths : String → List PathBuf
  pathFrom : String → PathBuf
  normCase : PathBuf → PathBuf
  pathExists : PathBuf → Bool

variable (host : SearchHost)

/-- `get_user_home`. -/
def getUserHome : Option PathBuf :=
  (host.getEnvVar "HOME").map fun home => host.normCase (host.pathFrom home)

/-- The paths that environment variables name. -/
def environmentPaths : List PathBuf :=
  host.splitPaths ((host.getEnvVar "PATH").getD "") ++
    ["R_HOME", "RSTUDIO_WHICH_R"].filterMap fun key => (host.getEnvVar key).map host.pathFrom

/-- The directories that are always looked at. -/
def knownDirectories : List PathBuf :=
  [["bin"], ["etc"], ["lib"], ["lib", "x86_64-linux-gnu"], ["lib64"], ["sbin"], ["snap", "bin"],
    ["usr", "bin"], ["usr", "games"], ["usr", "include"], ["usr", "lib"],
    ["usr", "lib", "x86_64-linux-gnu"], ["usr", "lib64"], ["usr", "libexec"], ["usr", "local"],
    ["usr", "local", "bin"], ["usr", "local", "etc"], ["usr", "local", "games"],
    ["usr", "local", "lib"], ["usr", "local", "sbin"], ["usr", "sbin"], ["usr", "share"],
    ["home", "bin"], ["home", "sbin"], ["opt"], ["opt", "bin"], ["opt", "local", "bin"],
    ["opt", "local", "lib", "R", "bin"], ["opt", "sbin"],
    ["run", "current-system", "sw", "bin"]].map rootedPath

/-- The directories below a home. -/
def homeDirectories (home : PathBuf) : List PathBuf :=
  [(home.join ".local").join "bin", (home.join ".nix-profile").join "bin"]

/-- `paths`, as it is appended. -/
def searchPaths : List PathBuf :=
  let paths := sortDedup (environmentPaths host)
  let paths := pushAll paths knownDirectories
  let paths :=
    match getUserHome host with
    | some home => paths ++ homeDirectories home
    | none => paths
  paths.filter host.pathExists

/-! ## The calls -/

/-- Where a call is: it has found the list empty, has appended or found it filled, or has
returned. -/
inductive LocationsCall
  | called
  | computing
  | cloning
  | returned (locations : List PathBuf)

/-- The steps of a call over `global_search_locations`. -/
inductive LocationsStep : List PathBuf → LocationsCall → List PathBuf → LocationsCall → Prop
  | findEmpty {locations : List PathBuf} (h : locations = []) :
      LocationsStep locations .called locations .computing
  | findFilled {locations : List PathBuf} (h : locations ≠ []) :
      LocationsStep locations .called locations .cloning
  | append {locations : List PathBuf} :
      LocationsStep locations .computing (locations ++ searchPaths host) .cloning
  | clone {locations : List PathBuf} :
      LocationsStep locations .cloning locations (.returned locations)

/-- Calls on one `EnvironmentApi`. -/
def searchLocations : TaskSystem (List PathBuf) LocationsCall Unit where
  init locations := locations = []
  spawn _ call := call = .called
  step _ locations call _ locations' call' :=
    LocationsStep host locations call locations' call'

end REnvTools.Model
