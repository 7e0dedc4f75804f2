import REnvTools.Lib.PushNew
import REnvTools.Lib.SortDedup
import REnvTools.Program.DirectoryTree

/-!
# Looking for executables

`find_executables` and the layouts it looks at. A directory of a layout is the list of the names
that lead to it from the root; the target of the build is asked of the caller.

SRC: crates/ret-r-utils/src/executable.rs:14-19, 39-94, 112-148, 191-203
-/

set_option autoImplicit false

namespace REnvTools.Program

open Lib

/-- `Path::join` with one name after another. -/
def PathBuf.joinAll (path : PathBuf) (names : List String) : PathBuf :=
  names.foldl PathBuf.join path

variable (windows : Bool) (architecture : String)

/-- `arches` of `executable_candidates_for_platform`. -/
def arches : List String :=
  match architecture with
  | "aarch64" | "arm64" => ["aarch64", "arm64", "x64", "i386"]
  | "x86" | "i386" | "i686" => ["i386", "x64", "aarch64", "arm64"]
  | _ => ["x64", "aarch64", "arm64", "i386"]

/-- `directories` of `executable_candidates_for_platform`, seen from the root. -/
def layoutDirectories : List (List String) :=
  (if windows then
    [["Scripts"], ["Library", "bin"], ["Library", "lib", "R", "bin"],
      ["Library", "lib64", "R", "bin"]]
  else []) ++
  [["bin"]] ++
  (if windows then
    (arches architecture).flatMap fun arch =>
      [["bin", arch], [arch], ["lib", "R", "bin", arch], ["lib64", "R", "bin", arch],
        ["Library", "lib", "R", "bin", arch], ["Library", "lib64", "R", "bin", arch]]
  else []) ++
  [["lib", "R", "bin"], ["lib64", "R", "bin"], ["Resources", "bin"], []]

/-- `names` of `executable_candidates_for_platform`. -/
def candidateNames : List String :=
  if windows then ["R.exe", "Rscript.exe"] else ["R", "Rscript"]

/-- The candidate directories of a root. -/
def candidateDirectories (root : PathBuf) : List PathBuf :=
  (layoutDirectories windows architecture).map root.joinAll

/-- `executable_candidates`. -/
def executableCandidates (root : PathBuf) : List PathBuf :=
  (candidateDirectories windows architecture root).flatMap fun directory =>
    (candidateNames windows).map directory.join

/-- The names that `WINDOWS_EXE` or `UNIX_EXE` matches. -/
def executableNames : List String :=
  if windows then ["r", "rscript", "r.exe", "rscript.exe"] else ["r", "rscript"]

/-- `is_r_executable_name`. The names are ASCII and without a `k`, so no other letter becomes one
of theirs in lower case. -/
def isRExecutableName (exe : PathBuf) : Bool :=
  (executableNames windows).contains (toAsciiLowercase (exe.fileName.getD ""))

variable (tree : DirectoryTree)

/-- `extra` of `find_executables`. -/
def extraExecutables (directory : PathBuf) : List PathBuf :=
  match tree.readDir directory with
  | none => []
  | some entries =>
    ((entries.map directory.join).filter fun path =>
      tree.isFile path && isRExecutableName windows path).insertionSort (· ≤ ·)

/-- `find_executables`. -/
def findExecutables (root : PathBuf) : List PathBuf :=
  if tree.isFile root then
    if isRExecutableName windows root then [root] else []
  else
    let candidates := executableCandidates windows architecture root
    let directories := sortDedup (candidates.filterMap PathBuf.parent)
    directories.foldl (fun executables directory =>
      pushAll executables (extraExecutables windows tree directory))
      (candidates.filter tree.isFile)

/-- `find_executable`. -/
def findExecutable (root : PathBuf) : Option PathBuf :=
  (findExecutables windows architecture tree root).head?

end REnvTools.Program
