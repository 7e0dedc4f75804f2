import REnvTools.Lib.Markers
import REnvTools.Program.Conda
import REnvTools.Program.CondaEnvName

/-!
# The installation behind a Conda environment

Which installation has created an environment, and which manager of it is reported. The history
of an environment is a text that any tool may have written: where the code takes a part of a line
by its positions, `slice` says whether they are in order.

SRC: crates/ret-conda/src/utils.rs:30-69, 109-125, manager.rs:14-73, 174-201,
lib.rs:197-245, crates/ret-fs/src/path.rs:245-276
-/

set_option autoImplicit false

namespace REnvTools.Program

open Lib

/-! ## Files -/

/-- What is asked of the machine about the files of Conda. -/
structure CondaFiles where
  os : Os
  tree : DirectoryTree
  pathFrom : String → PathBuf
  isSymlink : PathBuf → Bool
  readToString : PathBuf → Option String

variable (files : CondaFiles)

/-- The names whose links `resolve_symlink` follows. -/
def resolvesLinksOf (name : String) : Bool :=
  let nameLower := toAsciiLowercase name
  !("-config".toList.isSuffixOf name.toList || "-build".toList.isSuffixOf name.toList) &&
    ("python".toList.isPrefixOf nameLower.toList || "conda".toList.isPrefixOf nameLower.toList ||
      nameLower = "r" || "rscript".toList.isPrefixOf nameLower.toList)

/-- `resolve_symlink`. -/
def resolveSymlink (exe : PathBuf) : Option PathBuf :=
  exe.fileName.bind fun name =>
    if resolvesLinksOf name && files.isSymlink exe then
      (files.tree.canonicalize exe).filter (· ≠ exe)
    else none

/-! ## The history -/

/-- A range of a text that ends before it begins, or behind the end. -/
structure SliceError where
  deriving DecidableEq

/-- `text[start..stop]`; the code panics where this is an error. -/
def slice (text : List Char) (start stop : ℕ) : Except SliceError (List Char) :=
  if start ≤ stop ∧ stop ≤ text.length then .ok ((text.take stop).drop start) else .error ⟨⟩

/-- `str::find`. -/
def findText (pattern text : List Char) : Option ℕ :=
  (cutAt pattern text).map fun parts => parts.1.length

/-- The folders of an installation that hold its executables. -/
def executableFolders : List String := ["bin", "scripts", "condabin"]

/-- The part of `get_conda_dir_from_cmd` that follows the text of the executable. -/
def condaDirOfExecutable (executable : PathBuf) : Option PathBuf :=
  let condaExecutable := (resolveSymlink files executable).getD executable
  condaExecutable.parent.bind fun parent =>
    parent.fileName.bind fun folder =>
      if toAsciiLowercase folder ∈ executableFolders then parent.parent.map files.os.normCase
      else some (files.os.normCase parent)

/-- `get_conda_dir_from_cmd`. -/
def getCondaDirFromCmd (cmdLine : List Char) : Except SliceError (Option PathBuf) :=
  let lower := cmdLine.map Char.toLower
  match findText "# cmd:".toList lower, findText " create -".toList lower with
  | some start, some stop =>
    (slice cmdLine (start + "# cmd:".length) stop).map fun text =>
      condaDirOfExecutable files (files.pathFrom (String.ofList (trim text)))
  | _, _ => .ok none

/-- The installation at a directory, or at the parent of it. -/
def installAt (condaDir : PathBuf) : Option PathBuf :=
  if files.tree.isCondaInstall condaDir then some condaDir
  else condaDir.parent.filter files.tree.isCondaInstall

/-- `get_conda_installation_used_to_create_conda_env`. -/
def getCondaInstallationUsedToCreateCondaEnv (envPath : PathBuf) :
    Except SliceError (Option PathBuf) :=
  let itself := if files.tree.isCondaInstall envPath then some envPath else none
  match envPath.ancestors[2]?.filter files.tree.isCondaInstall with
  | some parent => .ok (some parent)
  | none =>
    match getCondaCreationLineFromHistory files.readToString envPath with
    | none => .ok itself
    | some line =>
      (getCondaDirFromCmd files line).map fun condaDir =>
        (condaDir.bind (installAt files)).or itself

/-! ## Managers -/

/-- The places below an installation where `get_conda_executable` looks. -/
def condaExecutablePaths (windows : Bool) : List (String × String) :=
  if windows then
    [("Scripts", "conda.exe"), ("Scripts", "conda.bat"), ("bin", "conda.exe"),
      ("bin", "conda.bat"), ("condabin", "conda.bat"), ("condabin", "conda.exe")]
  else [("bin", "conda"), ("condabin", "conda")]

/-- The places below an installation where `get_mamba_executable` looks. -/
def mambaExecutablePaths (windows : Bool) : List (String × String) :=
  if windows then
    [("Scripts", "mamba.exe"), ("Scripts", "mamba.bat"), ("Scripts", "micromamba.exe"),
      ("Scripts", "micromamba.bat"), ("bin", "mamba.exe"), ("bin", "mamba.bat"),
      ("bin", "micromamba.exe"), ("bin", "micromamba.bat"), ("condabin", "mamba.bat"),
      ("condabin", "mamba.exe"), ("condabin", "micromamba.bat"), ("condabin", "micromamba.exe")]
  else [("bin", "mamba"), ("bin", "micromamba"), ("condabin", "mamba"), ("condabin", "micromamba")]

/-- The first of the places at which something exists. -/
def executableAmong (places : List (String × String)) (path : PathBuf) : Option PathBuf :=
  (places.map fun place => (path.join place.1).join place.2).find? files.tree.pathExists

/-- `get_conda_manager`. -/
def getCondaManager (path : PathBuf) : Option CondaManager :=
  (executableAmong files (condaExecutablePaths files.os.windows) path).map fun executable =>
    ⟨executable, none, some path, .conda⟩

/-- `get_mamba_manager`. -/
def getMambaManager (path : PathBuf) : Option CondaManager :=
  (executableAmong files (mambaExecutablePaths files.os.windows) path).map fun executable =>
    ⟨executable, none, some path, .mamba⟩

/-- `is_mamba_executable`. -/
def isMambaExecutable (executable : PathBuf) : Bool :=
  match executable.fileName with
  | none => false
  | some name =>
    "mamba".toList.isPrefixOf (toAsciiLowercase name).toList ||
      "micromamba".toList.isPrefixOf (toAsciiLowercase name).toList

/-- Which of the two managers of an installation `get_manager_for_prefix` returns. -/
def preferredManager (preferMamba : Bool) (conda mamba : Option CondaManager) :
    Option CondaManager :=
  if preferMamba then mamba.or conda else conda.or mamba

/-- The managers that `report_manager_family` caches and reports, in order. -/
def managerFamily (manager : CondaManager) : List CondaManager :=
  manager ::
    match manager.condaDir with
    | none => []
    | some condaDir =>
      (getCondaManager files condaDir).toList ++ (getMambaManager files condaDir).toList

/-- The maps `managers` and `mamba_managers` of the locator, and the configured executable. -/
structure CondaManagers where
  managers : PathBuf → Option CondaManager
  mambaManagers : PathBuf → Option CondaManager
  condaExecutable : Option PathBuf

/-- `Conda::cache_manager`. -/
def CondaManagers.cacheManager (self : CondaManagers) (manager : CondaManager) : CondaManagers :=
  match manager.condaDir with
  | none => self
  | some condaDir =>
    if manager.managerType = .mamba then
      { self with mambaManagers := Function.update self.mambaManagers condaDir (some manager) }
    else { self with managers := Function.update self.managers condaDir (some manager) }

end REnvTools.Program
