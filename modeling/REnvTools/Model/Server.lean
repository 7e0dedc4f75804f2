import REnvTools.Lib.TaskPool
import REnvTools.Program.Coordinator

/-!
# The server: refresh and configure requests

The threads of `handle_refresh` and `handle_configure` over the shared `Context`. One
step of a thread is one critical section of the source (of the configuration lock, the
configure mutex or the coordinator's mutex), one call into a locator or a reporter, or
one message sent; between two steps every other thread may run.

The configuration's `RwLock` is its number of `readers`: a read guard held over several
steps counts, a snapshot is a single step, and the commit needs that nobody reads. A scan
runs any number of reporter threads. Panics are steps of their own: `execute_refresh` may
panic wherever its threads are joined, a locator's `configure` on a new configuration,
and (action `unwind`) a refresh thread between its scan and its end.

Parts of the state that the code does not store and no step reads are history: `scans`,
`commits`, `arrivedAt`, the `committed` generation of a notification and the snapshots
`before` and `after` of a `configure` request.

SRC: crates/ret/src/jsonrpc.rs:304-334, 385-483, 560-755
-/

set_option autoImplicit false

namespace REnvTools.Model

open Program Lib

variable {ι ν : Type}

/-! ## Requests, scans and output -/

/-- A `refresh` request: its id, its normalised options, and the generation that was
committed when it arrived. -/
structure RefreshRequest (ι : Type) where
  id : ι
  options : RefreshOptions
  arrivedAt : ℕ

/-- A `configure` request, its patterns expanded. -/
structure ConfigureRequest (ι : Type) where
  id : ι
  options : ConfigureOptions

/-- One call of `execute_refresh`. -/
structure Scan where
  id : ℕ
  options : RefreshOptions
  generation : ℕ

/-- What is written to the client, in order. -/
inductive Output (ι ν : Type)
  | notification (scan : Scan) (payload : ν) (committed : ℕ)
  | refreshed (request : RefreshRequest ι) (result : RefreshResult)
  | refreshError (request : RefreshRequest ι) (code : ℤ) (message : String)
  | configured (request : ConfigureRequest ι) (generation : ℕ)
  | configureError (request : ConfigureRequest ι) (code : ℤ) (message : String)

/-- What `finish_replies` sends to one request. -/
def scanReply (execution : Option RefreshResult) (request : RefreshRequest ι) : Output ι ν :=
  match execution with
  | some result => .refreshed request result
  | none => .refreshError request (-4) "Refresh failed unexpectedly"

/-- The answer to a request that finds the coordinator full. -/
def busyReply (request : RefreshRequest ι) : Output ι ν :=
  .refreshError request (-32000) "Too many joined refresh requests; retry later"

/-- The answer of `spawn_request` to a thread that unwound. -/
def unwoundReply (request : RefreshRequest ι) : Output ι ν :=
  .refreshError request (-32603) "Request failed unexpectedly"

/-- The answer of `handle_configure`. -/
def configureReply (request : ConfigureRequest ι) : Except String ℕ → Output ι ν
  | .ok generation => .configured request generation
  | .error message => .configureError request (-4) message

/-! ## The shared context -/

/-- `RefreshStatePersistence`. -/
inductive RefreshStatePersistence
  | stateless | configuredOnly | selfHydratingCache | syncedDiscoveryState
  deriving DecidableEq, Repr

/-- A locator shared by all requests: the configuration last applied to it as a whole (of
one whose `configure` panicked, whatever that left behind), and the scan its discovery
state was last copied from. -/
structure SharedLocator where
  refreshState : RefreshStatePersistence
  applied : Option Configuration
  synced : Option ℕ

namespace SharedLocator

/-- `Locator::configure`, when it returns. -/
def configure (locator : SharedLocator) (config : Configuration) : SharedLocator :=
  { locator with applied := some config }

/-- The body of the loop of `sync_refresh_locator_state`. -/
def syncRefreshStateFrom (locator : SharedLocator) (scan : Scan) : SharedLocator :=
  match locator.refreshState with
  | .syncedDiscoveryState => { locator with synced := some scan.id }
  | _ => locator

end SharedLocator

/-- `Context`, the process-wide refresh counter and resolution cache directory, and the
client's end of the output. -/
structure Context (ι ν : Type) where
  configuration : ConfigurationState
  readers : ℕ
  configureInProgress : Option ℕ
  locators : List SharedLocator
  cacheDirectory : Option PathBuf
  coordinator : RefreshCoordinator (RefreshRequest ι)
  nextRefreshId : ℕ
  scans : List Scan
  commits : List (ConfigureRequest ι)
  output : List (Output ι ν)

/-- The context the server starts with; its locators are fresh, which is the state the
default configuration puts them in. -/
def Context.Initial (context : Context ι ν) : Prop :=
  context.configuration = ConfigurationState.default ∧ context.readers = 0 ∧
  context.configureInProgress = none ∧
  (∀ locator ∈ context.locators, locator.applied = some Configuration.default) ∧
  context.cacheDirectory = none ∧ context.coordinator = RefreshCoordinator.default ∧
  context.nextRefreshId = 1 ∧ context.scans = [] ∧ context.commits = [] ∧
  context.output = []

/-- The configuration, its generation and the cache directory. -/
structure Snapshot where
  configuration : ConfigurationState
  cacheDirectory : Option PathBuf

/-- The configuration and the cache directory of the context. -/
def Context.snapshot (context : Context ι ν) : Snapshot :=
  ⟨context.configuration, context.cacheDirectory⟩

/-! ## Reporting from a scan -/

/-- A thread that reports through `GenerationGuardedReporter`; `payloads` are what the
inner reporter sends for the report at hand. -/
inductive Worker (ν : Type)
  | ready
  | locked (payloads : List ν)
  | current (payloads : List ν)
  | leaving

/-- `report_if_current`, step by step. The inner reporter may panic half-way, which drops
the read guard as well. -/
inductive WorkerStep (scan : Scan) :
    Context ι ν → Worker ν → Context ι ν → Worker ν → Prop
  | lock {sh : Context ι ν} (payloads : List ν) :
      WorkerStep scan sh .ready { sh with readers := sh.readers + 1 } (.locked payloads)
  | check {sh : Context ι ν} {payloads : List ν} :
      WorkerStep scan sh (.locked payloads) sh
        (if sh.configuration.generation = scan.generation then .current payloads
          else .leaving)
  | emit {sh : Context ι ν} {payload : ν} {payloads : List ν} :
      WorkerStep scan sh (.current (payload :: payloads))
        { sh with
          output := sh.output ++ [.notification scan payload sh.configuration.generation] }
        (.current payloads)
  | stop {sh : Context ι ν} {payloads : List ν} :
      WorkerStep scan sh (.current payloads) sh .leaving
  | unlock {sh : Context ι ν} :
      WorkerStep scan sh .leaving { sh with readers := sh.readers - 1 } .ready

/-- The reporter threads of a scan: a new one starts, or one steps. -/
inductive WorkersStep (scan : Scan) :
    Context ι ν → List (Worker ν) → Context ι ν → List (Worker ν) → Prop
  | start {sh : Context ι ν} {workers : List (Worker ν)} :
      WorkersStep scan sh workers sh (workers ++ [.ready])
  | step {sh sh' : Context ι ν} {workers : List (Worker ν)} {j : ℕ} {w w' : Worker ν}
      (hw : workers[j]? = some w) (h : WorkerStep scan sh w sh' w') :
      WorkersStep scan sh workers sh' (workers.set j w')

/-- The threads of a scope are joined when none is inside a report. -/
def Joined (workers : List (Worker ν)) : Prop := ∀ w ∈ workers, w = .ready

/-! ## Synchronising locator state -/

/-- Where `execute_refresh` is with `sync_refresh_locator_state`. -/
inductive SyncStage
  | searching
  | locked
  | syncing (k : ℕ)
  | unlocking
  | merged

/-- The read-locked block at the end of `execute_refresh`. -/
inductive SyncStep (scan : Scan) : Context ι ν → SyncStage → Context ι ν → SyncStage → Prop
  | lock {sh : Context ι ν} :
      SyncStep scan sh .searching { sh with readers := sh.readers + 1 } .locked
  | check {sh : Context ι ν} :
      SyncStep scan sh .locked sh
        (if sh.configuration.generation = scan.generation then .syncing 0 else .unlocking)
  | sync {sh : Context ι ν} {k : ℕ} {locator : SharedLocator}
      (hk : sh.locators[k]? = some locator) :
      SyncStep scan sh (.syncing k)
        { sh with locators := sh.locators.set k (locator.syncRefreshStateFrom scan) }
        (.syncing (k + 1))
  | synced {sh : Context ι ν} {k : ℕ} (hk : sh.locators[k]? = none) :
      SyncStep scan sh (.syncing k) sh .unlocking
  | unlock {sh : Context ι ν} :
      SyncStep scan sh .unlocking { sh with readers := sh.readers - 1 } .merged

/-- The read guards the block holds. -/
def SyncStage.reads : SyncStage → ℕ
  | searching => 0
  | locked => 1
  | syncing _ => 1
  | unlocking => 1
  | merged => 0

/-! ## Refresh threads -/

/-- Where the thread that got `RefreshRegistration::Start` is. `execution` is the result
of `execute_refresh`, `none` when it panicked; `cause` is the message of a panic of the
coordinator, `none` for any other. -/
inductive OwnerStage (ι ν : Type)
  | starting (configuration : ConfigurationState)
  | executing (scan : Scan) (workers : List (Worker ν)) (sync : SyncStage)
  | executed (scan : Scan) (execution : Option RefreshResult)
  | draining (scan : Scan) (execution : Option RefreshResult)
  | replying (scan : Scan) (execution : Option RefreshResult)
      (pending : List (RefreshRequest ι))
  | reporting (scan : Scan) (workers : List (Worker ν))
  | leaving
  | unwinding (cause : Option String)

/-- Where a refresh thread is in the loop of `handle_refresh`. -/
inductive RefreshPhase (ι ν : Type)
  | looping
  | registering (configuration : ConfigurationState)
  | busy
  | waiting
  | parked
  | owning (guard : RefreshGuard) (stage : OwnerStage ι ν)
  | unwound
  | finished

/-- The key a request registers with. -/
def RefreshRequest.key (request : RefreshRequest ι) (configuration : ConfigurationState) :
    RefreshKey :=
  ⟨request.options, configuration.generation⟩

/-- The phase after `register`. -/
def registered (configuration : ConfigurationState) (key : RefreshKey) :
    RefreshRegistration → RefreshPhase ι ν
  | .start => .owning (RefreshGuard.new key) (.starting configuration)
  | .joined => .finished
  | .wait => .waiting
  | .busy => .busy

/-- The stages from which a refresh thread can unwind: `execute_refresh` runs under
`catch_unwind`, everything after it does not. -/
def OwnerStage.Unwinds : OwnerStage ι ν → Prop
  | executed .. | draining .. | replying .. => True
  | reporting _ workers => Joined workers
  | _ => False

/-- Whether a step is one the code prescribes or a panic outside of `execute_refresh`. -/
inductive Action
  | advance
  | unwind
  deriving DecidableEq, Repr

open OwnerStage RefreshPhase in
/-- The steps of refresh thread `i`. -/
inductive RefreshStep (i : ℕ) (request : RefreshRequest ι) :
    Context ι ν → RefreshPhase ι ν → Action → Context ι ν → RefreshPhase ι ν → Prop
  | snapshot {sh : Context ι ν} :
      RefreshStep i request sh looping .advance sh (registering sh.configuration)
  | register {sh : Context ι ν} {configuration : ConfigurationState}
      {registration : RefreshRegistration} {c : RefreshCoordinator (RefreshRequest ι)}
      (h : sh.coordinator.register request (request.key configuration) = (registration, c)) :
      RefreshStep i request sh (registering configuration) .advance
        { sh with coordinator := c }
        (registered configuration (request.key configuration) registration)
  | busyReply {sh : Context ι ν} :
      RefreshStep i request sh busy .advance
        { sh with output := sh.output ++ [Model.busyReply request] } finished
  | waitUntilIdle {sh : Context ι ν} {returns : Bool}
      {c : RefreshCoordinator (RefreshRequest ι)}
      (h : sh.coordinator.waitUntilIdle i = (returns, c)) :
      RefreshStep i request sh waiting .advance { sh with coordinator := c }
        (if returns then looping else parked)
  | wake {sh : Context ι ν} {returns : Bool} {c : RefreshCoordinator (RefreshRequest ι)}
      (h : (sh.coordinator.unpark i).waitUntilIdle i = (returns, c)) :
      RefreshStep i request sh parked .advance { sh with coordinator := c }
        (if returns then looping else parked)
  | execute {sh : Context ι ν} {guard : RefreshGuard} {configuration : ConfigurationState} :
      RefreshStep i request sh (owning guard (starting configuration)) .advance
        { sh with
          nextRefreshId := sh.nextRefreshId + 1
          scans := sh.scans ++ [⟨sh.nextRefreshId, request.options, configuration.generation⟩] }
        (owning guard
          (executing ⟨sh.nextRefreshId, request.options, configuration.generation⟩ []
            .searching))
  | search {sh sh' : Context ι ν} {guard : RefreshGuard} {scan : Scan}
      {workers workers' : List (Worker ν)} {sync : SyncStage}
      (h : WorkersStep scan sh workers sh' workers') :
      RefreshStep i request sh (owning guard (executing scan workers sync)) .advance sh'
        (owning guard (executing scan workers' sync))
  | sync {sh sh' : Context ι ν} {guard : RefreshGuard} {scan : Scan}
      {workers : List (Worker ν)} {stage stage' : SyncStage} (hjoined : Joined workers)
      (h : SyncStep scan sh stage sh' stage') :
      RefreshStep i request sh (owning guard (executing scan workers stage)) .advance sh'
        (owning guard (executing scan workers stage'))
  | returned {sh : Context ι ν} {guard : RefreshGuard} {scan : Scan}
      {workers : List (Worker ν)} (hjoined : Joined workers) (duration : ℕ) :
      RefreshStep i request sh (owning guard (executing scan workers .merged)) .advance sh
        (owning guard (executed scan (some ⟨duration, scan.id⟩)))
  | panicked {sh : Context ι ν} {guard : RefreshGuard} {scan : Scan}
      {workers : List (Worker ν)} {stage : SyncStage} (hjoined : Joined workers) :
      RefreshStep i request sh (owning guard (executing scan workers stage)) .advance
        { sh with readers := sh.readers - stage.reads }
        (owning guard (executed scan none))
  | beginCompletion {sh : Context ι ν} {guard : RefreshGuard} {scan : Scan}
      {execution : Option RefreshResult} {c : RefreshCoordinator (RefreshRequest ι)}
      (h : sh.coordinator.beginCompletion guard.key = .ok c) :
      RefreshStep i request sh (owning guard (executed scan execution)) .advance
        { sh with coordinator := c } (owning guard (draining scan execution))
  | beginCompletionPanics {sh : Context ι ν} {guard : RefreshGuard} {scan : Scan}
      {execution : Option RefreshResult} {message : String}
      (h : sh.coordinator.beginCompletion guard.key = .error message) :
      RefreshStep i request sh (owning guard (executed scan execution)) .advance sh
        (owning guard (unwinding (some message)))
  | drain {sh : Context ι ν} {guard : RefreshGuard} {scan : Scan}
      {execution : Option RefreshResult} {pending : List (RefreshRequest ι)}
      {c : RefreshCoordinator (RefreshRequest ι)}
      (h : sh.coordinator.drainRequestIds guard.key = .ok (pending, c)) :
      RefreshStep i request sh (owning guard (draining scan execution)) .advance
        { sh with coordinator := c } (owning guard (replying scan execution pending))
  | drainPanics {sh : Context ι ν} {guard : RefreshGuard} {scan : Scan}
      {execution : Option RefreshResult} {message : String}
      (h : sh.coordinator.drainRequestIds guard.key = .error message) :
      RefreshStep i request sh (owning guard (draining scan execution)) .advance sh
        (owning guard (unwinding (some message)))
  | send {sh : Context ι ν} {guard : RefreshGuard} {scan : Scan}
      {execution : Option RefreshResult} {r : RefreshRequest ι}
      {pending : List (RefreshRequest ι)} :
      RefreshStep i request sh (owning guard (replying scan execution (r :: pending)))
        .advance { sh with output := sh.output ++ [scanReply execution r] }
        (owning guard (replying scan execution pending))
  | notEmpty {sh : Context ι ν} {guard : RefreshGuard} {scan : Scan}
      {execution : Option RefreshResult} {c : RefreshCoordinator (RefreshRequest ι)}
      (h : sh.coordinator.completeIfEmpty guard.key = .ok (false, c)) :
      RefreshStep i request sh (owning guard (replying scan execution [])) .advance
        { sh with coordinator := c } (owning guard (draining scan execution))
  | completed {sh : Context ι ν} {guard : RefreshGuard} {scan : Scan}
      {execution : Option RefreshResult} {c : RefreshCoordinator (RefreshRequest ι)}
      (h : sh.coordinator.completeIfEmpty guard.key = .ok (true, c)) :
      RefreshStep i request sh (owning guard (replying scan execution [])) .advance
        { sh with coordinator := c }
        (owning { guard with completed := true }
          (if execution.isSome then reporting scan [] else leaving))
  | completePanics {sh : Context ι ν} {guard : RefreshGuard} {scan : Scan}
      {execution : Option RefreshResult} {message : String}
      (h : sh.coordinator.completeIfEmpty guard.key = .error message) :
      RefreshStep i request sh (owning guard (replying scan execution [])) .advance sh
        (owning guard (unwinding (some message)))
  | telemetry {sh sh' : Context ι ν} {guard : RefreshGuard} {scan : Scan}
      {workers workers' : List (Worker ν)} (h : WorkersStep scan sh workers sh' workers') :
      RefreshStep i request sh (owning guard (reporting scan workers)) .advance sh'
        (owning guard (reporting scan workers'))
  | reported {sh : Context ι ν} {guard : RefreshGuard} {scan : Scan}
      {workers : List (Worker ν)} (hjoined : Joined workers) :
      RefreshStep i request sh (owning guard (reporting scan workers)) .advance sh
        (owning guard leaving)
  | drop {sh : Context ι ν} {guard : RefreshGuard} :
      RefreshStep i request sh (owning guard leaving) .advance
        { sh with coordinator := guard.drop sh.coordinator } finished
  | unwind {sh : Context ι ν} {guard : RefreshGuard} {stage : OwnerStage ι ν}
      (h : stage.Unwinds) :
      RefreshStep i request sh (owning guard stage) .unwind sh
        (owning guard (unwinding none))
  | dropUnwinding {sh : Context ι ν} {guard : RefreshGuard} {cause : Option String} :
      RefreshStep i request sh (owning guard (unwinding cause)) .advance
        { sh with coordinator := guard.drop sh.coordinator } unwound
  | unwoundReply {sh : Context ι ν} :
      RefreshStep i request sh unwound .advance
        { sh with output := sh.output ++ [Model.unwoundReply request] } finished

/-! ## Configure threads -/

/-- What `apply_configuration` computed before it touched anything. -/
structure Plan where
  before : Snapshot
  previous : Configuration
  next : Configuration
  nextGeneration : ℕ

/-- Where a configure thread is; the mutex is held from `locked` to `unlocking`. -/
inductive ConfigurePhase
  | received
  | locked (before : Snapshot)
  | applying (plan : Plan) (k : ℕ)
  | settingCacheDirectory (plan : Plan)
  | committing (plan : Plan)
  | rollingBack (plan : Plan) (k : ℕ) (message : String)
  | unlocking (before : Snapshot) (outcome : Except String ℕ)
  | replying (before after : Snapshot) (outcome : Except String ℕ)
  | finished (before after : Snapshot) (outcome : Except String ℕ)

open ConfigurePhase in
/-- The steps of configure thread `i`. -/
inductive ConfigureStep (i : ℕ) (request : ConfigureRequest ι) :
    Context ι ν → ConfigurePhase → Context ι ν → ConfigurePhase → Prop
  | lock {sh : Context ι ν} (h : sh.configureInProgress = none) :
      ConfigureStep i request sh received { sh with configureInProgress := some i }
        (locked sh.snapshot)
  | plan {sh : Context ι ν} {before : Snapshot} :
      ConfigureStep i request sh (locked before) sh
        (applying
          { before := before
            previous := sh.configuration.config
            next := nextConfiguration sh.configuration.config request.options
            nextGeneration := sh.configuration.generation + 1 } 0)
  | configure {sh : Context ι ν} {plan : Plan} {k : ℕ} {locator : SharedLocator}
      (hk : sh.locators[k]? = some locator) :
      ConfigureStep i request sh (applying plan k)
        { sh with locators := sh.locators.set k (locator.configure plan.next) }
        (applying plan (k + 1))
  | configurePanics {sh : Context ι ν} {plan : Plan} {k : ℕ} {locator : SharedLocator}
      (hk : sh.locators[k]? = some locator) (torn : Option Configuration)
      (payload : PanicPayload) :
      ConfigureStep i request sh (applying plan k)
        { sh with locators := sh.locators.set k { locator with applied := torn } }
        (rollingBack plan 0 (configurationFailed plan.nextGeneration payload))
  | configured {sh : Context ι ν} {plan : Plan} {k : ℕ} (hk : sh.locators[k]? = none) :
      ConfigureStep i request sh (applying plan k) sh (settingCacheDirectory plan)
  | setCacheDirectory {sh : Context ι ν} {plan : Plan} :
      ConfigureStep i request sh (settingCacheDirectory plan)
        { sh with cacheDirectory := request.options.cacheDirectory.or sh.cacheDirectory }
        (committing plan)
  | commit {sh : Context ι ν} {plan : Plan} (h : sh.readers = 0) :
      ConfigureStep i request sh (committing plan)
        { sh with
          configuration := ⟨plan.nextGeneration, plan.next⟩
          commits := sh.commits ++ [request] }
        (unlocking plan.before (.ok plan.nextGeneration))
  | rollback {sh : Context ι ν} {plan : Plan} {k : ℕ} {message : String}
      {locator : SharedLocator} (hk : sh.locators[k]? = some locator) :
      ConfigureStep i request sh (rollingBack plan k message)
        { sh with locators := sh.locators.set k (locator.configure plan.previous) }
        (rollingBack plan (k + 1) message)
  | rolledBack {sh : Context ι ν} {plan : Plan} {k : ℕ} {message : String}
      (hk : sh.locators[k]? = none) :
      ConfigureStep i request sh (rollingBack plan k message) sh
        (unlocking plan.before (.error message))
  | unlock {sh : Context ι ν} {before : Snapshot} {outcome : Except String ℕ} :
      ConfigureStep i request sh (unlocking before outcome)
        { sh with configureInProgress := none } (replying before sh.snapshot outcome)
  | reply {sh : Context ι ν} {before after : Snapshot} {outcome : Except String ℕ} :
      ConfigureStep i request sh (replying before after outcome)
        { sh with output := sh.output ++ [configureReply request outcome] }
        (finished before after outcome)

/-! ## The server -/

/-- A request thread. -/
inductive Task (ι ν : Type)
  | refresh (request : RefreshRequest ι) (phase : RefreshPhase ι ν)
  | configure (request : ConfigureRequest ι) (phase : ConfigurePhase)

/-- How request threads start. The options of a refresh are what parsing gave, with the
file system as it was then. -/
inductive Arrival (os : Os) : Context ι ν → Task ι ν → Prop
  | refresh {sh : Context ι ν} (id : ι) (expand : List PathBuf → List PathBuf)
      (params : Option RefreshOptions) :
      Arrival os sh (.refresh
        ⟨id, parseRefreshOptions os expand params, sh.configuration.generation⟩ .looping)
  | configure {sh : Context ι ν} (request : ConfigureRequest ι) :
      Arrival os sh (.configure request .received)

/-- The steps of request thread `i`. -/
inductive TaskStep (i : ℕ) : Context ι ν → Task ι ν → Action → Context ι ν → Task ι ν → Prop
  | refresh {sh sh' : Context ι ν} {request : RefreshRequest ι} {a : Action}
      {phase phase' : RefreshPhase ι ν} (h : RefreshStep i request sh phase a sh' phase') :
      TaskStep i sh (.refresh request phase) a sh' (.refresh request phase')
  | configure {sh sh' : Context ι ν} {request : ConfigureRequest ι}
      {phase phase' : ConfigurePhase} (h : ConfigureStep i request sh phase sh' phase') :
      TaskStep i sh (.configure request phase) .advance sh' (.configure request phase')

/-- The server: any number of refresh and configure requests, in any interleaving. -/
def server (ι ν : Type) (os : Os) : TaskSystem (Context ι ν) (Task ι ν) Action where
  init := Context.Initial
  spawn := Arrival os
  step := TaskStep

/-- The context and the threads. -/
abbrev ServerState (ι ν : Type) := TaskSystem.State (Context ι ν) (Task ι ν)

/-- No refresh thread panics outside of `execute_refresh`. -/
def NoUnwind (_ : ServerState ι ν) (l : TaskSystem.Label Action) : Prop :=
  ∀ i, l ≠ .step i .unwind

section Runs

variable {os : Os} {s : ServerState ι ν}

/-- A request arrives in a run without unwinding. -/
theorem arrive (h : ((server ι ν os).machine.when NoUnwind).Reachable s) {t : Task ι ν}
    (harrival : Arrival os s.shared t) :
    ((server ι ν os).machine.when NoUnwind).Reachable ⟨s.shared, s.tasks ++ [t]⟩ :=
  .step h ⟨fun _ hl => (by cases hl), TaskSystem.Step.spawn harrival⟩

/-- A thread takes a step in a run without unwinding. -/
theorem advance (h : ((server ι ν os).machine.when NoUnwind).Reachable s) {i : ℕ}
    {t t' : Task ι ν} {sh' : Context ι ν} (ht : s.tasks[i]? = some t)
    (hstep : TaskStep i s.shared t .advance sh' t') :
    ((server ι ν os).machine.when NoUnwind).Reachable ⟨sh', s.tasks.set i t'⟩ :=
  .step h ⟨fun _ hl => (by cases hl), TaskSystem.Step.step ht hstep⟩

end Runs

/-! ## What the steps leave alone -/

section Frames

variable {sh sh' : Context ι ν} {scan : Scan}

/-- A reporter thread moves read guards and writes notifications, nothing else. -/
theorem WorkersStep.frame {workers workers' : List (Worker ν)}
    (h : WorkersStep scan sh workers sh' workers') :
    ∃ readers output, sh' = { sh with readers := readers, output := output } := by
  cases h with
  | start => exact ⟨_, _, rfl⟩
  | step _ h => cases h <;> exact ⟨_, _, rfl⟩

/-- Synchronising moves a read guard and writes the shared locators' discovery state. -/
theorem SyncStep.frame {stage stage' : SyncStage} (h : SyncStep scan sh stage sh' stage') :
    ∃ readers locators, sh' = { sh with readers := readers, locators := locators } := by
  cases h <;> exact ⟨_, _, rfl⟩

/-- A refresh thread never touches the configuration or what configuring guards. -/
theorem RefreshStep.frame {i : ℕ} {request : RefreshRequest ι} {a : Action}
    {phase phase' : RefreshPhase ι ν} (h : RefreshStep i request sh phase a sh' phase') :
    sh'.configuration = sh.configuration ∧
      sh'.configureInProgress = sh.configureInProgress ∧
      sh'.cacheDirectory = sh.cacheDirectory ∧ sh'.commits = sh.commits := by
  cases h with
  | search h =>
    obtain ⟨_, _, rfl⟩ := h.frame
    exact ⟨rfl, rfl, rfl, rfl⟩
  | telemetry h =>
    obtain ⟨_, _, rfl⟩ := h.frame
    exact ⟨rfl, rfl, rfl, rfl⟩
  | sync _ h =>
    obtain ⟨_, _, rfl⟩ := h.frame
    exact ⟨rfl, rfl, rfl, rfl⟩
  | _ => exact ⟨rfl, rfl, rfl, rfl⟩

/-- A configure thread never touches the coordinator or the scans. -/
theorem ConfigureStep.frame {i : ℕ} {request : ConfigureRequest ι}
    {phase phase' : ConfigurePhase} (h : ConfigureStep i request sh phase sh' phase') :
    sh'.coordinator = sh.coordinator ∧ sh'.scans = sh.scans ∧
      sh'.nextRefreshId = sh.nextRefreshId ∧ sh'.readers = sh.readers := by
  cases h <;> exact ⟨rfl, rfl, rfl, rfl⟩

/-- What a configure thread sends is its own answer. -/
theorem ConfigureStep.output {i : ℕ} {request : ConfigureRequest ι}
    {phase phase' : ConfigurePhase} (h : ConfigureStep i request sh phase sh' phase') :
    sh'.output = sh.output ∨
      ∃ outcome, sh'.output = sh.output ++ [configureReply request outcome] := by
  cases h with
  | reply => exact .inr ⟨_, rfl⟩
  | _ => exact .inl rfl

end Frames

end REnvTools.Model
