import REnvTools.Lib.GraphSearch
import REnvTools.Program.DirectoryTree
import Mathlib.Data.List.Sort

/-!
# The recursive search

The walk through the directories below a search root. The stack of `pending` directories is
a list that begins with its top.

SRC: crates/ret/src/find.rs:299-323, crates/ret-r-utils/src/executable.rs:205-226
-/

set_option autoImplicit false

namespace REnvTools.Program

open REnvTools.Lib

/-- `folders_to_ignore`. -/
def foldersToIgnore : List String :=
  ["node_modules", ".cargo", ".devcontainer", ".github", ".git", ".cache", ".vscode",
    ".Rproj.user", "renv", "library"]

/-- `should_search_for_installations_in_path`; a path ends with a folder if that is its last
component. -/
def shouldSearchForInstallationsInPath (path : PathBuf) : Bool :=
  !foldersToIgnore.any fun folder => path.components.getLast? = some (.normal folder)

/-- The directories that follow one in `collect_recursive_search_paths`: none after an
environment, else its children that are to be searched, in order. -/
def childrenToSearch (tree : DirectoryTree) (directory : PathBuf) : List PathBuf :=
  if tree.isCondaEnv directory || tree.isPixiEnv directory then []
  else
    match tree.readDir directory with
    | none => []
    | some entries =>
      let children := (entries.map directory.join).filter fun path =>
        tree.isDir path && shouldSearchForInstallationsInPath path
      children.insertionSort (· ≤ ·)

/-- The walk of `collect_recursive_search_paths`: a directory counts as `visited` under its
canonical path. -/
def searchWalk (tree : DirectoryTree) : Walk PathBuf PathBuf where
  key := tree.canonicalize
  next := childrenToSearch tree
  keys := tree.places
  key_mem := tree.canonicalize_mem

/-- `collect_recursive_search_paths`. -/
def collectRecursiveSearchPaths (tree : DirectoryTree) (directory : PathBuf) : List PathBuf :=
  (searchWalk tree).run [directory] [] []

end REnvTools.Program
