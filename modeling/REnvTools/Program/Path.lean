import Mathlib.Data.List.Infix
import Mathlib.Data.List.Lex
import Mathlib.Data.Prod.Lex
import Mathlib.Data.String.Basic
import Mathlib.Order.Lex

/-!
# Paths

`std::path::PathBuf` up to its own equality: two spellings with the same components are
the same path, and the order is that of the components. A path is rendered in the normal
spelling of its components, and its names are text (`to_string_lossy` loses nothing).

What the program asks of the machine it runs on is collected in `Os`: whether it is a
Windows build, `ret_fs::path::norm_case`, and `std::fs::canonicalize` for the time of one
run.
-/

set_option autoImplicit false

namespace REnvTools.Program

/-! ## Components -/

/-- `std::path::Component`; a `drive` is its `Prefix`. -/
inductive Component
  | drive (name : String)
  | rootDir
  | curDir
  | parentDir
  | normal (name : String)

namespace Component

/-- The derived order of the enumeration: the variant first, then the name. -/
def rank : Component → ℕ ×ₗ String
  | drive name => toLex (0, name)
  | rootDir => toLex (1, "")
  | curDir => toLex (2, "")
  | parentDir => toLex (3, "")
  | normal name => toLex (4, name)

/-- INTERNAL: a component is determined by its rank. -/
theorem rank_injective : Function.Injective rank := by
  intro a b h
  cases a <;> cases b <;> simp_all [rank]

instance : LinearOrder Component := LinearOrder.lift' rank rank_injective

/-- The text of a component between separators. -/
def text : Component → String
  | drive name => name
  | rootDir => ""
  | curDir => "."
  | parentDir => ".."
  | normal name => name

end Component

/-! ## Paths -/

/-- `std::path::PathBuf`. -/
@[ext] structure PathBuf where
  components : List Component

namespace PathBuf

/-- INTERNAL: a path is determined by its components. -/
theorem components_injective : Function.Injective components := by
  intro a b h
  exact PathBuf.ext h

instance : LinearOrder PathBuf := LinearOrder.lift' components components_injective

/-- `Path::file_name`: the last component, if it is a name. -/
def fileName (path : PathBuf) : Option String :=
  match path.components.getLast? with
  | some (.normal name) => some name
  | _ => none

/-- `Path::parent`: the path without its last component, unless that is a root. -/
def parent (path : PathBuf) : Option PathBuf :=
  match path.components.getLast? with
  | some (.normal _) | some .curDir | some .parentDir => some ⟨path.components.dropLast⟩
  | _ => none

/-- `Path::join` with a single name. -/
def join (path : PathBuf) (name : String) : PathBuf := ⟨path.components ++ [.normal name]⟩

/-- `PathBuf::set_file_name` with a single name. -/
def setFileName (path : PathBuf) (name : String) : PathBuf :=
  match path.fileName with
  | some _ => ⟨path.components.dropLast ++ [.normal name]⟩
  | none => path.join name

/-- The components in their normal spelling. -/
def render (separator : String) : List Component → String
  | [] => ""
  | .drive name :: rest => name ++ render separator rest
  | .rootDir :: rest => separator ++ render separator rest
  | [c] => c.text
  | c :: rest => c.text ++ separator ++ render separator rest

end PathBuf

/-! ## Text -/

/-- `str::to_ascii_lowercase`. -/
def toAsciiLowercase (s : String) : String := String.ofList (s.toList.map Char.toLower)

/-- `str::contains`. -/
def textContains (s pattern : String) : Bool := decide (pattern.toList <:+: s.toList)

/-! ## The machine -/

/-- The host: the target of the build and the two file-system questions whose answers are
fixed for a run. -/
structure Os where
  windows : Bool
  normCase : PathBuf → PathBuf
  canonicalize : PathBuf → Option PathBuf

namespace Os

variable (os : Os)

/-- `Path::to_string_lossy`. -/
def toStringLossy (path : PathBuf) : String :=
  PathBuf.render (if os.windows then "\\" else "/") path.components

/-- `canonicalize(path).unwrap_or_else(|_| path.clone())`. -/
def canonical (path : PathBuf) : PathBuf := (os.canonicalize path).getD path

end Os

end REnvTools.Program
