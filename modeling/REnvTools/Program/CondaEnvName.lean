import REnvTools.Program.CondaEnvironments
import REnvTools.Program.CondaPackages

/-!
# The name of a Conda environment

`get_conda_env_name`, with what it reads of the history of the environment.

SRC: crates/ret-conda/src/utils.rs:57-106
-/

set_option autoImplicit false

namespace REnvTools.Program

/-- `Path::starts_with`. -/
def PathBuf.startsWith (path base : PathBuf) : Bool :=
  base.components.isPrefixOf path.components

/-- The lines that `get_conda_creation_line_from_history` looks for. -/
def isCreationLine (line : List Char) : Bool :=
  "# cmd:".toList.isPrefixOf (line.map Char.toLower) &&
    decide (" create -".toList <:+: line.map Char.toLower)

variable (readToString : PathBuf → Option String)

/-- `get_conda_creation_line_from_history`. -/
def getCondaCreationLineFromHistory (envPath : PathBuf) : Option (List Char) :=
  (readToString ((envPath.join "conda-meta").join "history")).bind fun contents =>
    ((lines contents.toList).map trim).find? isCreationLine

/-- `is_conda_env_name_in_cmd`. -/
def isCondaEnvNameInCmd (cmdLine : List Char) (name : String) : Bool :=
  decide ("-n ".toList ++ name.toList <:+: cmdLine) ||
    decide ("--name ".toList ++ name.toList <:+: cmdLine)

/-- `get_conda_env_name_from_history_file`. -/
def getCondaEnvNameFromHistoryFile (envPath : PathBuf) : Option String :=
  envPath.fileName.bind fun name =>
    match getCondaCreationLineFromHistory readToString envPath with
    | some line => if isCondaEnvNameInCmd line name then some name else none
    | none => none

/-- `get_conda_env_name`. -/
def getCondaEnvName (tree : DirectoryTree) (condaPrefix : PathBuf) (condaDir : Option PathBuf) :
    Option String :=
  let name := if tree.isCondaInstall condaPrefix then some "base" else condaPrefix.fileName
  match condaDir with
  | some condaDir =>
    if condaPrefix.startsWith condaDir then name
    else getCondaEnvNameFromHistoryFile readToString condaPrefix
  | none => name

end REnvTools.Program
