import REnvTools.Program.RInstallation

/-!
# The configuration and the requests about it

`Configuration` and its generation, the parameters `apply_configuration` gets from a
`configure` request, the configuration it computes from them, and the normalised options
of a `refresh` request.

SRC: crates/ret-core/src/lib.rs:30-45, crates/ret/src/jsonrpc.rs:105-123, 385-540
-/

set_option autoImplicit false

namespace REnvTools.Program

open Lib (sortDedup)

/-! ## Configurations -/

/-- `Configuration`. -/
structure Configuration where
  workspaceDirectories : Option (List PathBuf)
  environmentDirectories : Option (List PathBuf)
  searchDirectories : Option (List PathBuf)
  executables : Option (List PathBuf)
  cacheDirectory : Option PathBuf
  condaExecutable : Option PathBuf
  rigExecutable : Option PathBuf
  deriving DecidableEq

/-- `Configuration::default`. -/
def Configuration.default : Configuration := ⟨none, none, none, none, none, none, none⟩

/-- `ConfigurationState`. -/
structure ConfigurationState where
  generation : ℕ
  config : Configuration
  deriving DecidableEq

/-- `ConfigurationState::default`. -/
def ConfigurationState.default : ConfigurationState := ⟨0, Configuration.default⟩

/-! ## Configure requests -/

/-- The arguments of `apply_configuration`: the options that are used as they came, and
the directories and executables after their patterns were expanded. -/
structure ConfigureOptions where
  workspaceDirectories : Option (List PathBuf)
  environmentDirectories : Option (List PathBuf)
  searchDirectories : Option (List PathBuf)
  executables : Option (List PathBuf)
  condaExecutable : Option PathBuf
  rigExecutable : Option PathBuf
  cacheDirectory : Option PathBuf
  deriving DecidableEq

/-- `next_config` in `apply_configuration`: everything is replaced, but a cache directory
that is not supplied is kept. -/
def nextConfiguration (previous : Configuration) (options : ConfigureOptions) :
    Configuration where
  workspaceDirectories := options.workspaceDirectories
  environmentDirectories := options.environmentDirectories
  searchDirectories := options.searchDirectories
  executables := options.executables
  cacheDirectory := options.cacheDirectory.or previous.cacheDirectory
  condaExecutable := options.condaExecutable
  rigExecutable := options.rigExecutable

/-- What a panic carries. -/
inductive PanicPayload
  | str (message : String)
  | string (message : String)
  | other

/-- `panic_message`. -/
def panicMessage : PanicPayload → String
  | .str message => message
  | .string message => message
  | .other => "unknown panic payload"

/-- The error of a `configure` request whose configuration could not be applied. -/
def configurationFailed (nextGeneration : ℕ) (payload : PanicPayload) : String :=
  "Configuration generation " ++ toString nextGeneration ++ " failed: " ++
    panicMessage payload

/-! ## Refresh options -/

/-- `RefreshOptions`. -/
structure RefreshOptions where
  searchKind : Option RInstallationKind
  searchPaths : Option (List PathBuf)
  deriving DecidableEq

/-- `parse_refresh_options`, from parameters of the right shape; `expandGlobPatterns` is
what the file system answers when the request is parsed. -/
def parseRefreshOptions (os : Os) (expandGlobPatterns : List PathBuf → List PathBuf)
    (params : Option RefreshOptions) : RefreshOptions :=
  let options := params.getD ⟨none, none⟩
  { options with
    searchPaths := options.searchPaths.map fun searchPaths =>
      sortDedup ((expandGlobPatterns searchPaths).map os.normCase) }

/-- Requests that ask for the same kind in the same set of paths get the same options,
whatever the order and the repetitions of their parameters. -/
theorem parseRefreshOptions_congr (os : Os) {expand : List PathBuf → List PathBuf}
    {kind : Option RInstallationKind} {paths paths' : List PathBuf}
    (h : ∀ p, p ∈ (expand paths).map os.normCase ↔ p ∈ (expand paths').map os.normCase) :
    parseRefreshOptions os expand (some ⟨kind, some paths⟩) =
      parseRefreshOptions os expand (some ⟨kind, some paths'⟩) := by
  have hpaths := Lib.sortDedup_congr h
  simp only [parseRefreshOptions, Option.getD_some, Option.map_some, hpaths]

/-- `RefreshKey`. -/
structure RefreshKey where
  options : RefreshOptions
  configurationGeneration : ℕ
  deriving DecidableEq

/-- `RefreshResult`. -/
structure RefreshResult where
  duration : ℕ
  refreshId : ℕ
  deriving DecidableEq

end REnvTools.Program
