import REnvTools.Lib.ForkJoin
import REnvTools.Program.Executables
import REnvTools.Program.Glob
import REnvTools.Program.Reporter
import REnvTools.Program.Search

/-!
# A scan

`find_and_report_installations` and the functions below it, as programs that fork and join
threads. An action is one call that a thread makes: of the reporter, of a locator's `find`, of
`find_executables`, or of `identify_r_installation_using_locators`. A locator's `find` is a program
of its own, since some start threads in it. What it reports, and what an executable is identified
as at each place where the scan comes across it, depends on maps that other threads write into
meanwhile, so the answers are those of one run: two runs have two hosts.

Times and the `Summary` of them are left out.

SRC: crates/ret/src/find.rs:37-297, 325-393, crates/ret/src/jsonrpc.rs:590-670
-/

set_option autoImplicit false

namespace REnvTools.Program

open Lib

/-! ## What a scan asks and does -/

/-- `LocatorKind`. -/
inductive LocatorKind
  | chocolatey | conda | environmentModule | guix | homebrew | linuxGlobal | macFramework
  | macPorts | nix | pixi | rig | rVersions | scoop | spack | windowsHq | windowsRegistry
  deriving DecidableEq, Repr

/-- `RefreshProgressPhase`. -/
inductive RefreshProgressPhase
  | refresh | locators | path | searchPaths | merge
  deriving DecidableEq, Repr

/-- `RefreshProgressStatus`. -/
inductive RefreshProgressStatus
  | started | completed
  deriving DecidableEq, Repr

/-- `RefreshStateSyncScope`. -/
inductive RefreshStateSyncScope
  | full | globalFiltered (kind : RInstallationKind) | workspace
  deriving DecidableEq

/-- Where a scan comes across an executable. -/
inductive ScanSite
  /-- In a directory of the `PATH` or a known one. -/
  | globalPath (path : PathBuf)
  /-- In a directory below one that is searched recursively. -/
  | below (directory path : PathBuf)
  /-- In the list of executables of the configuration. -/
  | configured
  deriving DecidableEq

/-- The thread of a scan that makes a call; the threads that a locator's `find` starts are counted
as this locator's. -/
inductive ScanThread
  | phase (phase : RefreshProgressPhase)
  | locator (kind : LocatorKind)
  | site (site : ScanSite)
  deriving DecidableEq

/-- The phase that a thread belongs to. -/
def ScanThread.phaseOf : ScanThread → RefreshProgressPhase
  | .phase own => own
  | .locator _ => .locators
  | .site (.globalPath _) => .path
  | .site (.below _ _) | .site .configured => .searchPaths

/-- What a thread of a locator's `find` does: it looks at the machine or into the locator's own
map, or it reports. -/
inductive FindCall
  | look
  | report (message : Message)

/-- A call. `progress` is the telemetry event `RefreshProgress`, whose phase and locator are
those of the thread; `sync` is `sync_refresh_locator_state`. -/
inductive ScanCall
  | progress (status : RefreshProgressStatus)
  | find
  | look
  | findExecutables
  | identify (executable : PathBuf)
  | report (message : Message)
  | sync (scope : RefreshStateSyncScope)

/-- The call of a locator's `find`, as one of the scan. -/
def FindCall.scanCall : FindCall → ScanCall
  | .look => .look
  | .report message => .report message

/-- A call and the thread that makes it. -/
structure ScanAction where
  thread : ScanThread
  call : ScanCall

/-- `Locator`, as a scan uses it. -/
structure ScanLocator where
  kind : LocatorKind
  supportedCategories : List RInstallationKind
  find : ForkJoin FindCall

/-- What the locator reports from its `find`, thread by thread. -/
def ScanLocator.found (locator : ScanLocator) : List Message :=
  locator.find.actions.filterMap fun call =>
    match call with
    | .look => none
    | .report message => some message

/-- What a scan asks of the machine and of the locators, with the answers that it gets. -/
structure ScanHost where
  os : Os
  architecture : String
  tree : DirectoryTree
  globalSearchPaths : List PathBuf
  locators : List ScanLocator
  identified : ScanSite → PathBuf → Option RInstallation

/-! ## Searching directories -/

/-- `slice::chunks`, of the first `fuel` elements at least. -/
def chunksUpTo {α : Type} (size : ℕ) : ℕ → List α → List (List α)
  | 0, _ | _ + 1, [] => []
  | fuel + 1, l => l.take size :: chunksUpTo size fuel (l.drop size)

/-- `slice::chunks`. -/
def chunks {α : Type} (size : ℕ) (l : List α) : List (List α) := chunksUpTo size l.length l

/-- INTERNAL: the chunks are the elements in their order. -/
theorem flatten_chunksUpTo {α : Type} {size : ℕ} (hsize : 0 < size) {fuel : ℕ} {l : List α}
    (hfuel : l.length ≤ fuel) : (chunksUpTo size fuel l).flatten = l := by
  induction fuel generalizing l with
  | zero =>
    rw [List.length_eq_zero_iff.mp (Nat.le_zero.mp hfuel)]
    rfl
  | succ fuel ih =>
    cases l with
    | nil => rfl
    | cons a l =>
      have hdrop : ((a :: l).drop size).length ≤ fuel := by
        rw [List.length_drop]
        omega
      rw [chunksUpTo, List.flatten_cons, ih hdrop, List.take_append_drop]
      simp

/-- Cutting a list into chunks loses and repeats nothing. -/
theorem flatten_chunks {α : Type} {size : ℕ} (hsize : 0 < size) (l : List α) :
    (chunks size l).flatten = l :=
  flatten_chunksUpTo hsize (Nat.le_refl _)

/-- INTERNAL: no chunk is too long. -/
theorem length_le_of_mem_chunks {α : Type} {size : ℕ} {l chunk : List α}
    (h : chunk ∈ chunks size l) : chunk.length ≤ size := by
  unfold chunks at h
  generalize l.length = fuel at h
  induction fuel generalizing l with
  | zero => cases h
  | succ fuel ih =>
    cases l with
    | nil => cases h
    | cons a l =>
      rw [chunksUpTo] at h
      · obtain rfl | h := List.mem_cons.mp h
        · rw [List.length_take]
          exact Nat.min_le_left _ _
        · exact ih h
      · simp

/-- `RInstallationBuilder::add_discovery_source`, and `build`. -/
def addDiscoverySource (os : Os) (source : DiscoverySource) (installation : RInstallation) :
    RInstallation :=
  RInstallationBuilder.build os
    { installation with
      discoveredBy :=
        if installation.discoveredBy.contains source then installation.discoveredBy
        else sortDedup (installation.discoveredBy ++ [source]) }

variable (host : ScanHost)

/-- The reports of `identify_r_executables_using_locators` for one executable. -/
def identifiedReports (source : Option DiscoverySource) (identified : Option RInstallation) :
    List Message :=
  match identified with
  | none => []
  | some installation =>
    let installation :=
      match source with
      | some source => addDiscoverySource host.os source installation
      | none => installation
    (installation.manager.map Message.manager).toList ++ [.installation installation]

/-- The calls of `identify_r_executables_using_locators` for one executable. -/
def identifyCalls (source : Option DiscoverySource) (site : ScanSite) (executable : PathBuf) :
    List ScanAction :=
  ⟨.site site, .identify executable⟩ ::
    (identifiedReports host source (host.identified site executable)).map fun message =>
      ⟨.site site, .report message⟩

/-- `identify_r_executables_using_locators`. -/
def identifyRExecutablesUsingLocators (source : Option DiscoverySource) (site : ScanSite)
    (executables : List PathBuf) : ForkJoin ScanAction :=
  .inOrder (executables.map fun executable => .acts (identifyCalls host source site executable))

/-- `find_r_installations_in_paths`: one thread for each path. -/
def findRInstallationsInPaths (paths : List PathBuf) (site : PathBuf → ScanSite)
    (source : DiscoverySource) : ForkJoin ScanAction :=
  .all (paths.map fun item =>
    .seq (.act ⟨.site (site item), .findExecutables⟩)
      (identifyRExecutablesUsingLocators host (some source) (site item)
        (findExecutables host.os.windows host.architecture host.tree item)))

/-- The paths that `find_r_installations_in_directory_recursive` searches. -/
def pathsToSearch (directory : PathBuf) : List PathBuf :=
  sortDedup (collectRecursiveSearchPaths host.tree directory)

/-- `find_r_installations_in_directory_recursive`: 64 paths at a time. -/
def findRInstallationsInDirectoryRecursive (directory : PathBuf) : ForkJoin ScanAction :=
  .inOrder ((chunks 64 (pathsToSearch host directory)).map fun paths =>
    findRInstallationsInPaths host paths (.below directory) .explicitSearch)

/-! ## The phases -/

/-- `report_refresh_progress`, where there is a refresh to report on, around a part of the scan. -/
def withProgress (refresh : Bool) (thread : ScanThread) (body : ForkJoin ScanAction) :
    ForkJoin ScanAction :=
  if refresh then .bracket ⟨thread, .progress .started⟩ ⟨thread, .progress .completed⟩ body
  else body

/-- `search_global`. -/
def searchGlobal : Option SearchScope → Bool
  | some (.global _) | none => true
  | some .searchPaths => false

/-- `search_kind`. -/
def searchKind : Option SearchScope → Option RInstallationKind
  | some (.global kind) => some kind
  | some .searchPaths | none => none

/-- `refresh_sync_scope`. -/
def refreshSyncScope : Option SearchScope → RefreshStateSyncScope
  | some (.global kind) => .globalFiltered kind
  | some .searchPaths => .workspace
  | none => .full

/-- The locators whose `find` a scan calls. -/
def selectedLocators (scope : Option SearchScope) : List ScanLocator :=
  if searchGlobal scope then
    host.locators.filter fun locator =>
      match searchKind scope with
      | some kind => locator.supportedCategories.contains kind
      | none => true
  else []

/-- The thread of one locator, with those that its `find` starts. -/
def locatorThread (refresh : Bool) (locator : ScanLocator) : ForkJoin ScanAction :=
  withProgress refresh (.locator locator.kind)
    (.seq (.act ⟨.locator locator.kind, .find⟩)
      (locator.find.map fun call => ⟨.locator locator.kind, call.scanCall⟩))

/-- What the first thread of `find_and_report_installations` does between its progress events. -/
def locatorsBody (scope : Option SearchScope) (refresh : Bool) : ForkJoin ScanAction :=
  .all ((selectedLocators host scope).map (locatorThread refresh))

/-- What the second thread does. -/
def pathBody (scope : Option SearchScope) : ForkJoin ScanAction :=
  if searchGlobal scope then
    findRInstallationsInPaths host host.globalSearchPaths .globalPath .globalPaths
  else .done

/-- `directories_to_search`. -/
def directoriesToSearch (configuration : Configuration) (scope : Option SearchScope) :
    List PathBuf :=
  sortDedup
    (if searchGlobal scope then
      configuration.workspaceDirectories.getD [] ++ configuration.environmentDirectories.getD [] ++
        configuration.searchDirectories.getD []
    else configuration.searchDirectories.getD [])

/-- What the third thread does. -/
def searchPathsBody (configuration : Configuration) (scope : Option SearchScope) :
    ForkJoin ScanAction :=
  .seq
    (.inOrder ((directoriesToSearch configuration scope).map
      (findRInstallationsInDirectoryRecursive host)))
    (identifyRExecutablesUsingLocators host (some .explicitSearch) .configured
      (configuration.executables.getD []))

/-- The three threads of a scan. -/
def phases (configuration : Configuration) (scope : Option SearchScope) (refresh : Bool) :
    List (ForkJoin ScanAction) :=
  [withProgress refresh (.phase .locators) (locatorsBody host scope refresh),
    withProgress refresh (.phase .path) (pathBody host scope),
    withProgress refresh (.phase .searchPaths) (searchPathsBody host configuration scope)]

/-- `find_and_report_installations`. -/
def findAndReportInstallations (configuration : Configuration) (scope : Option SearchScope)
    (refresh : Bool) : ForkJoin ScanAction :=
  .all (phases host configuration scope refresh)

/-- The scan of `execute_refresh`, from its first to its last progress event. The state of the
locators is synchronised in the merge, unless the configuration has changed (`current`). -/
def executeRefresh (configuration : Configuration) (scope : Option SearchScope) (current : Bool) :
    ForkJoin ScanAction :=
  withProgress true (.phase .refresh)
    (.seq (findAndReportInstallations host configuration scope true)
      (withProgress true (.phase .merge)
        (if current then .act ⟨.phase .merge, .sync (refreshSyncScope scope)⟩ else .done)))

end REnvTools.Program
