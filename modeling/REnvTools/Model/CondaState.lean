import REnvTools.Lib.TaskPool
import REnvTools.Program.Conda
import REnvTools.Program.Scan

/-!
# The discovery state of the Conda locator

`self.environments` of one `Conda` locator while any number of calls of `find`, `try_from` and
`sync_refresh_state_from` are under way on it: the threads of `find`, one for each prefix, run
beside the identification of the executables on the `PATH`, and a scan that has ended is copied
into the shared locator while requests are being resolved. Each section under the lock is one
step. What is asked of the machine in between may be answered by another host at each step.

The map is emptied by `clear` only. How often that has happened is counted, and a thread that has
read or written the map notes the count.

SRC: crates/ret-conda/src/lib.rs:291-356, 449-588, crates/ret-core/src/cache.rs:35-60
-/

set_option autoImplicit false

namespace REnvTools.Model

open Program Lib

/-- What there is about a prefix: an installation of Conda in that environment. -/
def DescribesPrefix (condaPrefix : PathBuf) (installation : RInstallation) : Prop :=
  installation.kind = some .conda ∧
    installation.locatorMetadata = some (.conda condaPrefix)

/-- Every installation is found under its own prefix. -/
def KeyedByPrefix (environments : CondaEnvironments) : Prop :=
  ∀ condaPrefix installation, environments condaPrefix = some installation →
    DescribesPrefix condaPrefix installation

/-- `self.environments`, and how often it was emptied. -/
structure CondaState where
  environments : CondaEnvironments
  clears : ℕ

/-- How `report_prefix` ends. -/
inductive FindOutcome
  | notEnvironment
  | known
  | unresolved
  | reported (installation : RInstallation)

/-- Where a thread is: in `find` or in one of the threads that it starts, in `try_from`, or in
`sync_refresh_state_from`. -/
inductive CondaThread
  | clearing
  | cleared
  | finding (condaPrefix : PathBuf)
  | checking (condaPrefix : PathBuf) (manager : Option CondaManager)
  | building (condaPrefix : PathBuf) (manager : Option CondaManager)
  | inserting (condaPrefix : PathBuf) (installation : RInstallation)
  | reporting (condaPrefix : PathBuf) (installation : RInstallation) (clears : ℕ)
  | found (condaPrefix : PathBuf) (outcome : FindOutcome) (clears : ℕ)
  | calling (env : REnv)
  | lookingUp (env : REnv) (condaPrefix : PathBuf)
  | identifying (env : REnv) (condaPrefix : PathBuf)
  | storing (condaPrefix : PathBuf) (installation : RInstallation)
  | declined
  | recalled (condaPrefix : PathBuf) (installation : RInstallation) (clears : ℕ)
  | identified (condaPrefix : PathBuf) (installation : RInstallation) (clears : ℕ)
  | syncing (scope : RefreshStateSyncScope) (source : CondaEnvironments)
  | merging (source : CondaEnvironments)
  | unsynced
  | synced (source : CondaEnvironments) (clears : ℕ)

namespace CondaThread

/-- A call where it begins. `source` is the map of a locator of the same kind. -/
inductive Begins : CondaThread → Prop
  | find : Begins .clearing
  | findPrefix (condaPrefix : PathBuf) : Begins (.finding condaPrefix)
  | tryFrom (env : REnv) : Begins (.calling env)
  | sync (scope : RefreshStateSyncScope) {source : CondaEnvironments}
      (h : KeyedByPrefix source) : Begins (.syncing scope source)

/-- A call that has ended. -/
inductive Ended : CondaThread → Prop
  | cleared : Ended .cleared
  | found {condaPrefix : PathBuf} {outcome : FindOutcome} {clears : ℕ} :
      Ended (.found condaPrefix outcome clears)
  | declined : Ended .declined
  | recalled {condaPrefix : PathBuf} {installation : RInstallation} {clears : ℕ} :
      Ended (.recalled condaPrefix installation clears)
  | identified {condaPrefix : PathBuf} {installation : RInstallation} {clears : ℕ} :
      Ended (.identified condaPrefix installation clears)
  | unsynced : Ended .unsynced
  | synced {source : CondaEnvironments} {clears : ℕ} : Ended (.synced source clears)

end CondaThread

/-- The map with this one entry more, or another one in its place. -/
def CondaState.insert (sh : CondaState) (condaPrefix : PathBuf) (installation : RInstallation) :
    CondaState :=
  { sh with environments := Function.update sh.environments condaPrefix (some installation) }

/-- `LocatorCache::clear`. -/
def CondaState.clear (sh : CondaState) : CondaState := ⟨fun _ => none, sh.clears + 1⟩

/-- `LocatorCache::insert_many`. -/
def CondaState.insertMany (sh : CondaState) (source : CondaEnvironments) : CondaState :=
  { sh with
    environments := fun condaPrefix => (source condaPrefix).or (sh.environments condaPrefix) }

/-- The steps of a thread over the map. -/
inductive CondaStep : CondaState → CondaThread → CondaState → CondaThread → Prop
  | clear {sh : CondaState} : CondaStep sh .clearing sh.clear .cleared
  | askManager {sh : CondaState} (host : CondaHost) {condaPrefix : PathBuf} :
      CondaStep sh (.finding condaPrefix) sh
        (.checking condaPrefix (host.getManagerForPrefix condaPrefix))
  | notEnvironment {sh : CondaState} (host : CondaHost) {condaPrefix : PathBuf}
      {manager : Option CondaManager} (h : host.tree.isCondaEnv condaPrefix = false) :
      CondaStep sh (.checking condaPrefix manager) sh
        (.found condaPrefix .notEnvironment sh.clears)
  | known {sh : CondaState} (host : CondaHost) {condaPrefix : PathBuf}
      {manager : Option CondaManager} {installation : RInstallation}
      (henv : host.tree.isCondaEnv condaPrefix = true)
      (h : sh.environments condaPrefix = some installation) :
      CondaStep sh (.checking condaPrefix manager) sh (.found condaPrefix .known sh.clears)
  | unknown {sh : CondaState} (host : CondaHost) {condaPrefix : PathBuf}
      {manager : Option CondaManager} (henv : host.tree.isCondaEnv condaPrefix = true)
      (h : sh.environments condaPrefix = none) :
      CondaStep sh (.checking condaPrefix manager) sh (.building condaPrefix manager)
  | build {sh : CondaState} (host : CondaHost) {condaPrefix : PathBuf}
      {manager : Option CondaManager} {installation : RInstallation}
      (h : buildPrefix host condaPrefix manager = some installation) :
      CondaStep sh (.building condaPrefix manager) sh (.inserting condaPrefix installation)
  | unresolved {sh : CondaState} (host : CondaHost) {condaPrefix : PathBuf}
      {manager : Option CondaManager} (h : buildPrefix host condaPrefix manager = none) :
      CondaStep sh (.building condaPrefix manager) sh (.found condaPrefix .unresolved sh.clears)
  | insert {sh : CondaState} {condaPrefix : PathBuf} {installation : RInstallation} :
      CondaStep sh (.inserting condaPrefix installation) (sh.insert condaPrefix installation)
        (.reporting condaPrefix installation sh.clears)
  | report {sh : CondaState} {condaPrefix : PathBuf} {installation : RInstallation}
      {clears : ℕ} :
      CondaStep sh (.reporting condaPrefix installation clears) sh
        (.found condaPrefix (.reported installation) clears)
  | locate {sh : CondaState} (host : CondaHost) {env : REnv} {condaPrefix : PathBuf}
      (h : getPrefixFromEnv host env = some condaPrefix) :
      CondaStep sh (.calling env) sh (.lookingUp env condaPrefix)
  | outside {sh : CondaState} (host : CondaHost) {env : REnv}
      (h : getPrefixFromEnv host env = none) : CondaStep sh (.calling env) sh .declined
  | hit {sh : CondaState} (host : CondaHost) {env : REnv} {condaPrefix : PathBuf}
      {installation : RInstallation} (h : sh.environments condaPrefix = some installation) :
      CondaStep sh (.lookingUp env condaPrefix) sh
        (.recalled condaPrefix (knownInstallation host env installation) sh.clears)
  | miss {sh : CondaState} {env : REnv} {condaPrefix : PathBuf}
      (h : sh.environments condaPrefix = none) :
      CondaStep sh (.lookingUp env condaPrefix) sh (.identifying env condaPrefix)
  | identify {sh : CondaState} (host : CondaHost) {env : REnv} {condaPrefix : PathBuf}
      {installation : RInstallation}
      (h : identifyPrefix host env condaPrefix = some installation) :
      CondaStep sh (.identifying env condaPrefix) sh (.storing condaPrefix installation)
  | decline {sh : CondaState} (host : CondaHost) {env : REnv} {condaPrefix : PathBuf}
      (h : identifyPrefix host env condaPrefix = none) :
      CondaStep sh (.identifying env condaPrefix) sh .declined
  | store {sh : CondaState} {condaPrefix : PathBuf} {installation : RInstallation} :
      CondaStep sh (.storing condaPrefix installation) (sh.insert condaPrefix installation)
        (.identified condaPrefix installation sh.clears)
  | syncFull {sh : CondaState} {source : CondaEnvironments} :
      CondaStep sh (.syncing .full source) sh.clear (.merging source)
  | syncFiltered {sh : CondaState} {source : CondaEnvironments} :
      CondaStep sh (.syncing (.globalFiltered .conda) source) sh (.merging source)
  | syncOther {sh : CondaState} {source : CondaEnvironments} {scope : RefreshStateSyncScope}
      (hfull : scope ≠ .full) (hconda : scope ≠ .globalFiltered .conda) :
      CondaStep sh (.syncing scope source) sh .unsynced
  | merge {sh : CondaState} {source : CondaEnvironments} :
      CondaStep sh (.merging source) (sh.insertMany source) (.synced source sh.clears)

/-- Any number of calls on one locator. -/
def condaLocator : TaskSystem CondaState CondaThread Unit where
  init sh := KeyedByPrefix sh.environments ∧ sh.clears = 0
  spawn _ := CondaThread.Begins
  step _ sh thread _ sh' thread' := CondaStep sh thread sh' thread'

end REnvTools.Model
