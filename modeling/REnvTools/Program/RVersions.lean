import REnvTools.Program.CondaPackages

/-!
# The `r-versions` file

`parse_rversions_file`. The loop over the lines carries the entry that is being read and the
entries that are finished; what it logs is left out. `PathBuf::from` is asked of the host.

SRC: crates/ret-rversions/src/lib.rs:26-34, 229-267, 388-404
-/

set_option autoImplicit false

namespace REnvTools.Program

/-- `RVersionsEntry`. -/
structure RVersionsEntry where
  path : Option PathBuf := none
  label : Option String := none
  module : Option String := none
  script : Option String := none
  repo : Option String := none
  library : Option String := none
  deriving DecidableEq

/-- `has_any_fields`. -/
def hasAnyFields (entry : RVersionsEntry) : Bool :=
  entry.path.isSome || entry.label.isSome || entry.module.isSome || entry.script.isSome ||
    entry.repo.isSome || entry.library.isSome

/-- What the loop of `parse_rversions_file` carries. -/
structure RVersionsState where
  current : RVersionsEntry := {}
  entries : List RVersionsEntry := []

/-- `finish_entry`. -/
def finishEntry (state : RVersionsState) : RVersionsState :=
  if state.current.path.isSome || state.current.module.isSome then
    ⟨{}, state.entries ++ [state.current]⟩
  else if hasAnyFields state.current then { state with current := {} }
  else state

variable (pathFrom : String → PathBuf)

/-- The `match` on the key of a line. -/
def setField (current : RVersionsEntry) (key value : String) : RVersionsEntry :=
  match key with
  | "path" => { current with path := some (pathFrom value) }
  | "label" => { current with label := some value }
  | "module" => { current with module := some value }
  | "script" => { current with script := some value }
  | "repo" => { current with repo := some value }
  | "library" => { current with library := some value }
  | _ => current

/-- The body of the loop of `parse_rversions_file`, for a line that is trimmed. -/
def readTrimmedLine (state : RVersionsState) (trimmedLine : List Char) : RVersionsState :=
  if trimmedLine = [] then finishEntry state
  else if trimmedLine.head? = some '#' then state
  else
    match splitOnce ':' trimmedLine with
    | none =>
      let state := finishEntry state
      { state with
        entries := state.entries ++ [{ path := some (pathFrom (String.ofList trimmedLine)) }] }
    | some (key, value) =>
      { state with
        current := setField pathFrom state.current (toAsciiLowercase (String.ofList (trim key)))
          (String.ofList (trim value)) }

/-- `parse_rversions_file`. -/
def parseRversionsFile (content : String) : List RVersionsEntry :=
  ((lines content.toList ++ [[]]).foldl
    (fun state line => readTrimmedLine pathFrom state (trim line)) {}).entries

end REnvTools.Program
