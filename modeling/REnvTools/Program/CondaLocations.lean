import REnvTools.Program.CondaManagers

/-!
# Where Conda environments are looked for

`get_conda_environment_paths` and the five sources of directories that it expands: the file
`environments.txt`, the configuration files, the usual places and variables, the executables on
the `PATH` and the configured executable. A YAML text is read by a library, whose result is asked
of the host.

SRC: crates/ret-conda/src/environment_locations.rs:20-339, conda_rc.rs:14-150,
manager.rs:75-118, crates/ret-fs/src/path.rs:280-345
-/

set_option autoImplicit false

namespace REnvTools.Program

open Lib (cutAt sortDedup)

/-- What the program looks at in a YAML document. A mapping has its entries under text keys. -/
inductive Yaml
  | text (value : String)
  | sequence (items : List Yaml)
  | mapping (entries : List (String × Yaml))
  | other

namespace Yaml

/-- `doc[key]`. -/
def get (doc : Yaml) (key : String) : Yaml :=
  match doc with
  | mapping entries => (entries.lookup key).getD other
  | _ => other

/-- `Yaml::as_vec`. -/
def asVec : Yaml → Option (List Yaml)
  | sequence items => some items
  | _ => none

/-- `Yaml::as_str`. -/
def asStr : Yaml → Option String
  | text value => some value
  | _ => none

end Yaml

/-- What is asked of the machine when environments are looked for. -/
structure LocationsHost extends CondaFiles where
  macos : Bool
  /-- `Environment::get_user_home`. -/
  userHome : Option PathBuf
  /-- `std::env::var`, which is also `get_env_var` of the `EnvironmentAdapter`. -/
  var : String → Option String
  /-- `split_paths` of the variable `PATH`, if there is one. -/
  searchPath : Option (List PathBuf)
  /-- `YamlLoader::load_from_str`. -/
  loadYaml : String → Option (List Yaml)

variable (host : LocationsHost)

/-! ## Paths -/

/-- `str::replace` of a text that is not empty by another, as often as the fuel lasts. -/
def replaceText (pattern replacement : List Char) : ℕ → List Char → List Char
  | 0, text => text
  | fuel + 1, text =>
    match cutAt pattern text with
    | none => text
    | some (before, after) => before ++ replacement ++ replaceText pattern replacement fuel after

/-- `ret_fs::path::get_user_home`. -/
def homeOfVariables : Option PathBuf :=
  ((host.var "HOME").or (host.var "USERPROFILE")).map fun home =>
    host.os.normCase (host.pathFrom home)

/-- The part of `expand_path` about the variables that a configuration file may use. -/
def expandVariables (path : PathBuf) : PathBuf :=
  let text := (host.os.toStringLossy path).toList
  let usernameMark := "$\x7bUSERNAME\x7d".toList
  let homeMark := "$\x7bHOME\x7d".toList
  if usernameMark <:+: text ∨ homeMark <:+: text then
    let username := ((host.var "USERNAME").or (host.var "USER")).getD ""
    let home := ((host.var "HOME").or (host.var "USERPROFILE")).getD ""
    let replaced := replaceText usernameMark username.toList text.length text
    host.pathFrom (String.ofList (replaceText homeMark home.toList replaced.length replaced))
  else path

/-- `expand_path`. -/
def expandPath (path : PathBuf) : PathBuf :=
  match path.components with
  | .normal "~" :: rest =>
    match homeOfVariables host with
    | some home => ⟨home.components ++ rest⟩
    | none => expandVariables host path
  | _ => expandVariables host path

/-- `Path::extension`. -/
def PathBuf.extension (path : PathBuf) : Option String :=
  path.fileName.bind fun name =>
    let pieces := name.toList.splitOn '.'
    if pieces.dropLast = [] ∨ pieces.dropLast = [[]] then none
    else pieces.getLast?.map String.ofList

/-! ## Executables -/

/-- `get_conda_bin_names`. -/
def condaBinNames (windows : Bool) : List String :=
  if windows then ["conda.exe", "conda.bat"] else ["conda"]

/-- `get_mamba_bin_names`. -/
def mambaBinNames (windows : Bool) : List String :=
  if windows then ["mamba.exe", "mamba.bat", "micromamba.exe", "micromamba.bat"]
  else ["mamba", "micromamba"]

/-- The first of the names that one of the directories on the `PATH` has. -/
def findBinary (names : List String) : Option PathBuf :=
  host.searchPath.bind fun directories =>
    (directories.flatMap fun directory => names.map directory.join).find? fun executable =>
      host.tree.isFile executable || host.isSymlink executable

/-- `find_conda_binary`. -/
def findCondaBinary : Option PathBuf := findBinary host (condaBinNames host.os.windows)

/-- `find_mamba_binary`. -/
def findMambaBinary : Option PathBuf := findBinary host (mambaBinNames host.os.windows)

/-- What `resolve_conda_executable` makes of an executable that it has found on the `PATH`. -/
def resolveFound (found : PathBuf) : PathBuf := (resolveSymlink host.toCondaFiles found).getD found

/-- `resolve_conda_executable`. -/
def resolveCondaExecutable (exe : PathBuf) : Option PathBuf :=
  let resolved := (resolveSymlink host.toCondaFiles exe).getD exe
  if host.tree.isFile resolved then some resolved
  else if exe.parent.all fun parent => parent.components = [] then
    exe.fileName.bind fun name =>
      let lower := (toAsciiLowercase name).toList
      if "mamba".toList.isPrefixOf lower || "micromamba".toList.isPrefixOf lower then
        (findMambaBinary host).map (resolveFound host)
      else if "conda".toList.isPrefixOf lower then (findCondaBinary host).map (resolveFound host)
      else some resolved
  else some resolved

/-- The directory, or else its parent, if that is an environment. -/
def environmentAt (directory : PathBuf) : Option PathBuf :=
  if host.tree.isCondaEnv directory then some directory
  else directory.parent.filter host.tree.isCondaEnv

/-- `get_conda_dir_from_exe_path`. -/
def getCondaDirFromExePath (exe : PathBuf) : Option PathBuf :=
  (resolveCondaExecutable host exe).bind fun exe =>
    if host.tree.isFile exe then exe.parent.bind (environmentAt host) else environmentAt host exe

/-! ## Sources -/

/-- `get_conda_envs_from_environment_txt`. -/
def getCondaEnvsFromEnvironmentTxt : List PathBuf :=
  match host.userHome with
  | none => []
  | some home =>
    match host.readToString ((home.join ".conda").join "environments.txt") with
    | none => []
    | some contents =>
      ((((lines contents.toList).map trim).filter (· ≠ [])).map fun line =>
        host.os.normCase (host.pathFrom (String.ofList line))).filter host.tree.pathExists

/-- `get_conda_rc_search_paths`. -/
def getCondaRcSearchPaths : List PathBuf :=
  let both := fun directory : PathBuf => [directory.join ".condarc", directory.join "condarc"]
  let system :=
    if host.os.windows then
      (host.var "ProgramData").toList.flatMap fun programData =>
        ["conda", "miniconda", "miniconda3"].flatMap fun name =>
          both ((host.pathFrom programData).join name)
    else ["/etc/conda", "/var/lib/conda"].flatMap fun directory => both (host.pathFrom directory)
  let ofVariables := ["CONDA_ROOT", "CONDA_PREFIX"].flatMap fun name =>
    (host.var name).toList.flatMap fun value => both (expandPath host (host.pathFrom value))
  let user := host.userHome.toList.flatMap fun home =>
    [home.join ".condarc"] ++ both (home.join ".conda") ++
      both ((home.join ".config").join "conda") ++
        [((home.join ".config").join "conda").join "condarc.d", home.join ".mambarc"]
  let condarc := (host.var "CONDARC").toList.map fun value => expandPath host (host.pathFrom value)
  sortDedup (system ++ ofVariables ++ user ++ condarc)

/-- The directory that an item of a list of directories gives. -/
def envDirOfItem (item : Yaml) : Option PathBuf :=
  item.asStr.bind fun value =>
    match trim value.toList with
    | [] => none
    | name => some (expandPath host (host.pathFrom (String.ofList name)))

/-- `parse_conda_rc_contents`. -/
def parseCondaRcContents (contents : String) : Option (List PathBuf) :=
  (host.loadYaml contents).map fun docs =>
    match docs with
    | [] => []
    | doc :: _ =>
      ["envs_dirs", "envs_path"].flatMap fun key =>
        ((doc.get key).asVec.getD []).filterMap (envDirOfItem host)

/-- `parse_conda_rc_file`, or no directories. -/
def parseCondaRcFile (path : PathBuf) : List PathBuf :=
  ((host.readToString path).bind (parseCondaRcContents host)).getD []

/-- The files of a directory `.condarc.d` that are read. -/
def isCondaRcName (path : PathBuf) : Bool :=
  let ext := toAsciiLowercase (path.extension.getD "")
  ext = "yaml" || ext = "yml" || textContains (toAsciiLowercase (path.fileName.getD "")) "condarc"

/-- `get_conda_rc_env_dirs`. -/
def getCondaRcEnvDirs : List PathBuf :=
  sortDedup <| (getCondaRcSearchPaths host).flatMap fun rcPath =>
    if host.tree.isFile rcPath then parseCondaRcFile host rcPath
    else if host.tree.isDir rcPath then
      (((host.tree.readDir rcPath).getD []).map rcPath.join).flatMap fun path =>
        if host.tree.isFile path && isCondaRcName path then parseCondaRcFile host path else []
    else []

/-- The usual places on Unix. -/
def unixPlaces : List PathBuf :=
  let fixed := ["/opt/conda", "/anaconda", "/anaconda3", "/miniconda", "/miniconda3",
    "/miniforge3", "/micromamba"].map host.pathFrom
  let ofHome := host.userHome.toList.flatMap fun home =>
    let prefixes := [home, home.join "opt", home.join ".conda", home.join ".local"] ++
      ["/opt", "/usr/local", "/usr/share"].map host.pathFrom
    let brew :=
      if host.macos then
        ["/opt/homebrew/anaconda3", "/opt/homebrew/miniconda3", "/opt/homebrew/miniforge3"]
      else ["/home/linuxbrew/.linuxbrew/miniconda3", "/home/linuxbrew/.linuxbrew/miniforge3"]
    brew.map host.pathFrom ++
      prefixes.flatMap (fun directory =>
        ["anaconda", "anaconda3", "miniconda", "miniconda3", "miniforge3", "micromamba"].map
          directory.join) ++ [home.join ".conda"]
  fixed ++ ofHome

/-- The usual places on Windows. -/
def windowsPlaces : List PathBuf :=
  let ofVariables := ["USERPROFILE", "ProgramData", "ALLUSERSPROFILE"].flatMap fun name =>
    (host.var name).toList.flatMap fun value =>
      ["anaconda3", "miniconda3", "miniforge3", "micromamba", "Anaconda3", "Miniconda3",
        "Miniforge3"].map (host.pathFrom value).join
  let ofDrive := (host.var "HOMEDRIVE").toList.flatMap fun drive =>
    let drive := if drive.toList.getLast? = some ':' then drive ++ "\\" else drive
    ["anaconda3", "miniconda", "miniconda3", "miniforge3", "micromamba"].map
      (host.pathFrom drive).join
  let ofHome := host.userHome.toList.flatMap fun home =>
    ["anaconda", "anaconda3", "miniconda", "miniconda3", "miniforge3", "micromamba"].map
      home.join ++
      [home.join ".conda", (((home.join "AppData").join "Local").join "conda").join "conda"]
  ofVariables ++ ofDrive ++ ofHome

/-- The variables that name an installation or an environment. -/
def condaVariables : List String := ["CONDA_ROOT", "CONDA_PREFIX", "MAMBA_ROOT_PREFIX", "CONDA_DIR"]

/-- `get_known_conda_install_locations`. -/
def getKnownCondaInstallLocations : List PathBuf :=
  let places := if host.os.windows then windowsPlaces host else unixPlaces host
  let ofVariables := condaVariables.flatMap fun name =>
    (host.var name).toList.map fun value => expandPath host (host.pathFrom value)
  let condaExe := ((host.var "CONDA_EXE").bind fun value =>
    getCondaDirFromExePath host (host.pathFrom value)).toList
  (sortDedup (places ++ ofVariables ++ condaExe)).filter host.tree.pathExists

/-- `get_conda_dirs_from_path_executables`. -/
def getCondaDirsFromPathExecutables : List PathBuf :=
  sortDedup (((findCondaBinary host).bind (getCondaDirFromExePath host)).toList ++
    ((findMambaBinary host).bind (getCondaDirFromExePath host)).toList)

/-- `get_conda_dir_from_executable`. -/
def getCondaDirFromExecutable (condaExecutable : Option PathBuf) : List PathBuf :=
  (condaExecutable.bind (getCondaDirFromExePath host)).toList

/-- What the threads of `get_conda_environment_paths` find, in the order in which they are
joined. -/
def condaDirectories (condaExecutable : Option PathBuf) : List PathBuf :=
  getCondaEnvsFromEnvironmentTxt host ++ getCondaRcEnvDirs host ++
    getKnownCondaInstallLocations host ++ getCondaDirsFromPathExecutables host ++
      getCondaDirFromExecutable host condaExecutable

/-- `get_conda_environment_paths`. -/
def getCondaEnvironmentPaths (condaExecutable : Option PathBuf) : List PathBuf :=
  let envPaths := sortDedup ((condaDirectories host condaExecutable).map host.os.normCase)
  sortDedup ((envPaths.filter host.tree.pathExists).flatMap host.tree.getEnvironments)

end REnvTools.Program
