import REnvTools.Lib.TaskPool
import REnvTools.Program.Reporter

/-!
# Concurrent reports to one `CacheReporter`

The locator and search threads of `find_and_report_installations` call one
`CacheReporter` at the same time. A call of `report_installation` is one section of the
write lock; a call of `report_manager` checks under the read lock and, if the manager was
not there, again under the write lock.

The reports are kept in the order in which their last section ran.

SRC: crates/ret-reporter/src/cache.rs:55-87, crates/ret/src/find.rs:117-260
-/

set_option autoImplicit false

namespace REnvTools.Model

open Program Lib

/-- The decorator over a collecting reporter, and the reports it has dealt with. -/
structure Reporting where
  cache : CacheReporter CollectReporter
  installationReports : List RInstallation
  managerReports : List EnvManager

/-- Where a call of `report_manager` is. -/
inductive ManagerPhase
  | called
  | unseen
  | returned
  deriving DecidableEq, Repr

/-- A call. -/
inductive ReportCall
  | installation (installation : RInstallation) (returned : Bool)
  | manager (manager : EnvManager) (phase : ManagerPhase)

/-- The sections of the calls. -/
inductive ReportStep (os : Os) : Reporting → ReportCall → Reporting → ReportCall → Prop
  | installation {sh : Reporting} {installation : RInstallation} :
      ReportStep os sh (.installation installation false)
        { sh with
          cache := sh.cache.reportInstallation os collectReporter installation
          installationReports := sh.installationReports ++ [installation] }
        (.installation installation true)
  | seen {sh : Reporting} {manager : EnvManager} (h : sh.cache.hasManager manager = true) :
      ReportStep os sh (.manager manager .called)
        { sh with managerReports := sh.managerReports ++ [manager] }
        (.manager manager .returned)
  | unseen {sh : Reporting} {manager : EnvManager}
      (h : sh.cache.hasManager manager = false) :
      ReportStep os sh (.manager manager .called) sh (.manager manager .unseen)
  | insert {sh : Reporting} {manager : EnvManager} :
      ReportStep os sh (.manager manager .unseen)
        { sh with
          cache := sh.cache.insertManager collectReporter manager
          managerReports := sh.managerReports ++ [manager] }
        (.manager manager .returned)

/-- How calls start: what is reported was built. -/
inductive ReportArrival (os : Os) : ReportCall → Prop
  | installation {installation : RInstallation} (h : BuilderBuilt os installation) :
      ReportArrival os (.installation installation false)
  | manager (manager : EnvManager) : ReportArrival os (.manager manager .called)

/-- Any number of calls in any interleaving. -/
def reporters (os : Os) : TaskSystem Reporting ReportCall Unit where
  init sh := sh = ⟨CacheReporter.new ⟨[], []⟩, [], []⟩
  spawn _ := ReportArrival os
  step _ sh call _ sh' call' := ReportStep os sh call sh' call'

/-- The cache and the calls. -/
abbrev ReportingState := TaskSystem.State Reporting ReportCall

end REnvTools.Model
