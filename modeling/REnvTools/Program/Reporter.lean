import REnvTools.Lib.StableSort
import REnvTools.Program.Installation

/-!
# Reporters

`CacheReporter` over any inner reporter, and the inner reporters it is used with:
`CollectReporter`, which keeps what it is called with, and the two that filter by kind,
`JsonRpcReporter` and `StdioReporter`. A reporter is what its calls do to its state;
`retained` says which of the collected installations `find --json` prints.

SRC: crates/ret-reporter/src/cache.rs, collect.rs, jsonrpc.rs:27-60, stdio.rs:17-97,
crates/ret/src/lib.rs:219-242, crates/ret-core/src/r_installation.rs:135-147
-/

set_option autoImplicit false

namespace REnvTools.Program

/-- `Reporter`, without telemetry. -/
structure Reporter (σ : Type) where
  reportManager : EnvManager → σ → σ
  reportInstallation : RInstallation → σ → σ

/-! ## Inner reporters -/

/-- `CollectReporter`. -/
structure CollectReporter where
  managers : List EnvManager
  installations : List RInstallation

/-- `CollectReporter`, which keeps what is reported. -/
def collectReporter : Reporter CollectReporter where
  reportManager manager s := { s with managers := s.managers ++ [manager] }
  reportInstallation installation s :=
    { s with installations := s.installations ++ [installation] }

/-- The messages of `JsonRpcReporter`. -/
inductive Message
  | manager (manager : EnvManager)
  | installation (installation : RInstallation)

/-- `JsonRpcReporter`, with the messages it sent. -/
def jsonRpcReporter (reportOnly : Option RInstallationKind) : Reporter (List Message) where
  reportManager manager sent := sent ++ [.manager manager]
  reportInstallation installation sent :=
    if reportOnly.isSome ∧ installation.kind ≠ reportOnly then sent
    else sent ++ [.installation installation]

/-- The state of `StdioReporter`: its counts, the installations it keeps by kind, and the
installations it printed. -/
structure StdioReporter where
  managers : EnvManagerType → ℕ
  installations : Option RInstallationKind → ℕ
  installationPaths : Option RInstallationKind → List RInstallation
  printedManagers : List EnvManager
  printed : List RInstallation

/-- The reporter before any report. -/
def StdioReporter.empty : StdioReporter := ⟨fun _ => 0, fun _ => 0, fun _ => [], [], []⟩

/-- `StdioReporter` with the options it is created with. -/
def stdioReporter (printList : Bool) (kind : Option RInstallationKind) :
    Reporter StdioReporter where
  reportManager manager s :=
    { s with
      managers := Function.update s.managers manager.tool (s.managers manager.tool + 1)
      printedManagers := if printList then s.printedManagers ++ [manager] else
        s.printedManagers }
  reportInstallation installation s :=
    if kind.isSome ∧ installation.kind ≠ kind then s
    else
      { s with
        installations := Function.update s.installations installation.kind
          (s.installations installation.kind + 1)
        installationPaths := Function.update s.installationPaths installation.kind
          (s.installationPaths installation.kind ++ [installation])
        printed := if printList then s.printed ++ [installation] else s.printed }

/-! ## The caching decorator -/

/-- `CacheReporter` over an inner reporter with state `σ`. -/
structure CacheReporter (σ : Type) where
  reporter : σ
  reportedManagers : Finmap (fun _ : PathBuf => EnvManager)
  reportedInstallations : Finmap (fun _ : InstallationKey => RInstallation)

namespace CacheReporter

variable {σ : Type}

/-- `CacheReporter::new`. -/
def new (reporter : σ) : CacheReporter σ := ⟨reporter, ∅, ∅⟩

/-- The check `report_manager` makes under the read lock. -/
def hasManager (s : CacheReporter σ) (manager : EnvManager) : Bool :=
  (s.reportedManagers.lookup manager.executable).isSome

/-- The rest of `report_manager`, under the write lock: the check again, then the insertion
and the inner call. -/
def insertManager (inner : Reporter σ) (s : CacheReporter σ) (manager : EnvManager) :
    CacheReporter σ :=
  match s.reportedManagers.lookup manager.executable with
  | some _ => s
  | none =>
    { s with
      reportedManagers := s.reportedManagers.insert manager.executable manager
      reporter := inner.reportManager manager s.reporter }

/-- `report_installation`, which is one section of the write lock. -/
def reportInstallation (os : Os) (inner : Reporter σ) (s : CacheReporter σ)
    (installation : RInstallation) : CacheReporter σ :=
  match getInstallationKey os installation with
  | none => s
  | some key =>
    match s.reportedInstallations.lookup key with
    | some existing =>
      { s with
        reportedInstallations :=
          s.reportedInstallations.insert key (mergeInstallations os existing installation) }
    | none =>
      { s with
        reportedInstallations := s.reportedInstallations.insert key installation
        reporter := inner.reportInstallation installation s.reporter }

/-- The state after a sequence of `report_installation` calls. -/
def reportAll (os : Os) (inner : Reporter σ) (s : CacheReporter σ)
    (installations : List RInstallation) : CacheReporter σ :=
  installations.foldl (reportInstallation os inner) s

end CacheReporter

/-- What `Ord for RInstallation` compares, in this order; `None` comes first. -/
def RInstallation.ordKey (i : RInstallation) : WithBot PathBuf ×ₗ WithBot PathBuf :=
  toLex (i.executable, i.home)

/-- An order in which a hash map may give its values. -/
def IterationOrder (store : Finmap (fun _ : InstallationKey => RInstallation))
    (values : List RInstallation) : Prop :=
  (values : Multiset RInstallation) = store.entries.map (·.2)

/-- `CacheReporter::get_installations`, from the values in the order the map gives them in. -/
def getInstallations (values : List RInstallation) : List RInstallation :=
  Lib.sortByKey RInstallation.ordKey values

/-- The records `find_installations_json` retains for `--kind`. -/
def retained (kind : Option RInstallationKind) (installation : RInstallation) : Prop :=
  match kind with
  | some kind => installation.kind = some kind
  | none => True

end REnvTools.Program
