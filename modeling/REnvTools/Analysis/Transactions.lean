import REnvTools.Analysis.Responses

/-!
# Configuring is transactional

Between taking and releasing the configure mutex a thread knows everything the request
is about: the committed configuration, what has been applied to the shared locators so
far, and the cache directory (`ConfigureFits`). No other thread changes any of it
meanwhile, so the facts of one request at a time carry over to all interleavings.

* `configure_self`, `configure_other`: the step lemmas.
* `transactions`: what holds of every reachable state.
-/

set_option autoImplicit false

namespace REnvTools.Analysis

open Program Lib Model

variable {ι ν : Type} {os : Os}

/-! ## The invariant -/

/-- The configurations last applied to the shared locators. -/
def appliedTo (sh : Context ι ν) : List (Option Configuration) :=
  sh.locators.map (·.applied)

/-- The context between two requests: every locator has the committed configuration, and
the cache directory is the configured one. -/
def Settled (sh : Context ι ν) : Prop :=
  (∀ applied ∈ appliedTo sh, applied = some sh.configuration.config) ∧
    sh.cacheDirectory = sh.configuration.config.cacheDirectory

/-- The plan of a request is about the committed configuration. -/
structure PlanFits (sh : Context ι ν) (request : ConfigureRequest ι) (plan : Plan) :
    Prop where
  before : plan.before = ⟨sh.configuration, sh.configuration.config.cacheDirectory⟩
  previous : plan.previous = sh.configuration.config
  next : plan.next = nextConfiguration sh.configuration.config request.options
  nextGeneration : plan.nextGeneration = sh.configuration.generation + 1

/-- What a request did between two snapshots. -/
def OutcomeFits (request : ConfigureRequest ι) (before after : Snapshot) :
    Except String ℕ → Prop
  | .ok generation =>
    generation = before.configuration.generation + 1 ∧
      after.configuration =
        ⟨generation, nextConfiguration before.configuration.config request.options⟩ ∧
      after.cacheDirectory = request.options.cacheDirectory.or before.cacheDirectory
  | .error _ => after = before

/-- What the thread of a request knows in each phase. -/
def ConfigureFits (sh : Context ι ν) (i : ℕ) (request : ConfigureRequest ι) :
    ConfigurePhase → Prop
  | .received => True
  | .locked before =>
    sh.configureInProgress = some i ∧ Settled sh ∧ before = sh.snapshot
  | .applying plan k =>
    sh.configureInProgress = some i ∧ PlanFits sh request plan ∧
      sh.cacheDirectory = sh.configuration.config.cacheDirectory ∧
      ∀ applied ∈ (appliedTo sh).take k, applied = some plan.next
  | .settingCacheDirectory plan =>
    sh.configureInProgress = some i ∧ PlanFits sh request plan ∧
      sh.cacheDirectory = sh.configuration.config.cacheDirectory ∧
      ∀ applied ∈ appliedTo sh, applied = some plan.next
  | .committing plan =>
    sh.configureInProgress = some i ∧ PlanFits sh request plan ∧
      sh.cacheDirectory = plan.next.cacheDirectory ∧
      ∀ applied ∈ appliedTo sh, applied = some plan.next
  | .rollingBack plan k _ =>
    sh.configureInProgress = some i ∧ PlanFits sh request plan ∧
      sh.cacheDirectory = sh.configuration.config.cacheDirectory ∧
      ∀ applied ∈ (appliedTo sh).take k, applied = some plan.previous
  | .unlocking before outcome =>
    sh.configureInProgress = some i ∧ Settled sh ∧
      OutcomeFits request before sh.snapshot outcome
  | .replying before after outcome => OutcomeFits request before after outcome
  | .finished before after outcome => OutcomeFits request before after outcome

/-- A configure request fits the context. -/
def TaskConfigures (sh : Context ι ν) (i : ℕ) : Task ι ν → Prop
  | .refresh .. => True
  | .configure request phase => ConfigureFits sh i request phase

/-- What holds of the shared context: it is settled while the mutex is free, its
generation counts the commits, and its cache directory is the last one committed. -/
structure ContextFits (sh : Context ι ν) : Prop where
  settled : sh.configureInProgress = none → Settled sh
  generation : sh.configuration.generation = sh.commits.length
  cacheDirectory : sh.configuration.config.cacheDirectory =
    (sh.commits.filterMap (·.options.cacheDirectory)).getLast?

/-! ## Applying a configuration locator by locator -/

section Applying

variable {locators : List SharedLocator} {k : ℕ} {locator : SharedLocator}
  {config : Configuration}

/-- INTERNAL: one more locator has it. -/
theorem take_configure (hk : locators[k]? = some locator)
    (h : ∀ applied ∈ (locators.map (·.applied)).take k, applied = some config) :
    ∀ applied ∈ ((locators.set k (locator.configure config)).map (·.applied)).take (k + 1),
      applied = some config := by
  obtain ⟨hlt, -⟩ := List.getElem?_eq_some_iff.mp hk
  intro applied ha
  rw [List.map_set, List.take_set, List.mem_iff_getElem?] at ha
  obtain ⟨j, hj⟩ := ha
  obtain ⟨-, rfl⟩ | ⟨hne, hold⟩ := Pool.getElem?_set_cases hj
  · rfl
  · apply h
    rw [List.getElem?_take] at hold
    split at hold
    · exact List.mem_iff_getElem?.mpr ⟨j, by rw [List.getElem?_take, if_pos (by omega), hold]⟩
    · cases hold

/-- INTERNAL: past the last locator all of them have it. -/
theorem all_of_take (hk : locators[k]? = none)
    (h : ∀ applied ∈ (locators.map (·.applied)).take k, applied = some config) :
    ∀ applied ∈ locators.map (·.applied), applied = some config := by
  have hlen : locators.length ≤ k := List.getElem?_eq_none_iff.mp hk
  rwa [List.take_of_length_le (by simpa using hlen)] at h

end Applying

/-! ## One step -/

section Step

variable {i j : ℕ} {sh sh' : Context ι ν}

/-- Copying discovery state leaves the applied configurations alone. -/
theorem syncStep_applied {scan : Scan} {stage stage' : SyncStage}
    (h : SyncStep scan sh stage sh' stage') : appliedTo sh' = appliedTo sh := by
  cases h with
  | @sync k locator hk =>
    have hsame : (locator.syncRefreshStateFrom scan).applied = locator.applied := by
      unfold SharedLocator.syncRefreshStateFrom
      split <;> rfl
    obtain ⟨hlt, rfl⟩ := List.getElem?_eq_some_iff.mp hk
    show (sh.locators.set k _).map _ = _
    rw [List.map_set, hsame]
    apply List.ext_getElem?
    intro j
    rw [List.getElem?_set]
    split
    · rename_i hj
      subst hj
      simp [appliedTo, hlt]
    · rfl
  | _ => rfl

/-- INTERNAL: a step of a refresh configures no locator. -/
theorem refreshStep_applied {request : RefreshRequest ι} {a : Action}
    {phase phase' : RefreshPhase ι ν} (h : RefreshStep i request sh phase a sh' phase') :
    appliedTo sh' = appliedTo sh := by
  cases h with
  | search h =>
    obtain ⟨_, _, rfl⟩ := h.frame
    rfl
  | telemetry h =>
    obtain ⟨_, _, rfl⟩ := h.frame
    rfl
  | sync _ h => exact syncStep_applied h
  | _ => rfl

/-- The knowledge of a thread is about four parts of the context. -/
theorem configureFits_congr {request : ConfigureRequest ι} {phase : ConfigurePhase}
    (hconf : sh'.configuration = sh.configuration)
    (hmutex : sh'.configureInProgress = sh.configureInProgress)
    (hdir : sh'.cacheDirectory = sh.cacheDirectory) (happ : appliedTo sh' = appliedTo sh)
    (h : ConfigureFits sh i request phase) : ConfigureFits sh' i request phase := by
  have hsettled : Settled sh → Settled sh' := by
    intro hs
    unfold Settled
    rwa [hconf, hdir, happ]
  have hplan : ∀ plan, PlanFits sh request plan → PlanFits sh' request plan := by
    intro plan hp
    exact ⟨hconf ▸ hp.before, hconf ▸ hp.previous, hconf ▸ hp.next, hconf ▸ hp.nextGeneration⟩
  have hsnap : sh'.snapshot = sh.snapshot := by
    simp only [Context.snapshot, hconf, hdir]
  cases phase with
  | received => trivial
  | locked before => exact ⟨hmutex ▸ h.1, hsettled h.2.1, hsnap ▸ h.2.2⟩
  | applying plan k =>
    exact ⟨hmutex ▸ h.1, hplan _ h.2.1, by rw [hdir, hconf]; exact h.2.2.1,
      happ ▸ h.2.2.2⟩
  | settingCacheDirectory plan =>
    exact ⟨hmutex ▸ h.1, hplan _ h.2.1, by rw [hdir, hconf]; exact h.2.2.1,
      happ ▸ h.2.2.2⟩
  | committing plan =>
    exact ⟨hmutex ▸ h.1, hplan _ h.2.1, hdir ▸ h.2.2.1, happ ▸ h.2.2.2⟩
  | rollingBack plan k message =>
    exact ⟨hmutex ▸ h.1, hplan _ h.2.1, by rw [hdir, hconf]; exact h.2.2.1,
      happ ▸ h.2.2.2⟩
  | unlocking before outcome => exact ⟨hmutex ▸ h.1, hsettled h.2.1, hsnap ▸ h.2.2⟩
  | replying => exact h
  | finished => exact h

/-- **One step of the thread that configures.** -/
theorem configure_self {request : ConfigureRequest ι} {phase phase' : ConfigurePhase}
    (h : ConfigureStep i request sh phase sh' phase') (hsh : ContextFits sh)
    (hp : ConfigureFits sh i request phase) :
    ContextFits sh' ∧ ConfigureFits sh' i request phase' := by
  obtain ⟨hsettled, hgen, hdir⟩ := hsh
  cases h with
  | lock hfree =>
    exact ⟨⟨fun hnone => (Option.some_ne_none _ hnone).elim, hgen, hdir⟩, rfl, hsettled hfree,
      rfl⟩
  | plan =>
    obtain ⟨hmutex, hs, rfl⟩ := hp
    refine ⟨⟨hsettled, hgen, hdir⟩, hmutex, ⟨?_, rfl, rfl, rfl⟩, hs.2, by simp⟩
    simp only [Context.snapshot, hs.2]
  | @configure plan k locator hk =>
    obtain ⟨hmutex, hplan, hd, happ⟩ := hp
    refine ⟨⟨fun hnone => ?_, hgen, hdir⟩, hmutex, ⟨hplan.1, hplan.2, hplan.3, hplan.4⟩, hd,
      take_configure hk happ⟩
    exact absurd (hmutex.symm.trans hnone) (Option.some_ne_none _)
  | @configurePanics plan k locator hk torn payload =>
    obtain ⟨hmutex, hplan, hd, -⟩ := hp
    refine ⟨⟨fun hnone => ?_, hgen, hdir⟩, hmutex, ⟨hplan.1, hplan.2, hplan.3, hplan.4⟩, hd,
      by simp⟩
    exact absurd (hmutex.symm.trans hnone) (Option.some_ne_none _)
  | configured hk =>
    obtain ⟨hmutex, hplan, hd, happ⟩ := hp
    exact ⟨⟨hsettled, hgen, hdir⟩, hmutex, hplan, hd, all_of_take hk happ⟩
  | @setCacheDirectory plan =>
    obtain ⟨hmutex, hplan, hd, happ⟩ := hp
    refine ⟨⟨fun hnone => ?_, hgen, hdir⟩, hmutex, ⟨hplan.1, hplan.2, hplan.3, hplan.4⟩, ?_,
      happ⟩
    · exact absurd (hmutex.symm.trans hnone) (Option.some_ne_none _)
    · simp only [hplan.next, nextConfiguration, hd]
  | @commit plan hreaders =>
    obtain ⟨hmutex, hplan, hd, happ⟩ := hp
    refine ⟨⟨fun _ => ⟨happ, hd⟩, ?_, ?_⟩, hmutex, ⟨happ, hd⟩, ?_, ?_, ?_⟩
    · simp [hplan.nextGeneration, hgen]
    · simp only [hplan.next, nextConfiguration, List.filterMap_append]
      cases hsupplied : request.options.cacheDirectory with
      | none => simp [hsupplied, hdir]
      | some dir => simp [hsupplied]
    · simp [hplan.before, hplan.nextGeneration]
    · simp [Context.snapshot, hplan.before, hplan.next]
    · simp only [Context.snapshot, hd, hplan.before, hplan.next, nextConfiguration]
  | @rollback plan k message locator hk =>
    obtain ⟨hmutex, hplan, hd, happ⟩ := hp
    refine ⟨⟨fun hnone => ?_, hgen, hdir⟩, hmutex, ⟨hplan.1, hplan.2, hplan.3, hplan.4⟩, hd,
      take_configure hk happ⟩
    exact absurd (hmutex.symm.trans hnone) (Option.some_ne_none _)
  -- all locators have the previous configuration again: the snapshot is that of before
  | @rolledBack plan k message hk =>
    obtain ⟨hmutex, hplan, hd, happ⟩ := hp
    have hall := all_of_take hk happ
    rw [hplan.previous] at hall
    refine ⟨⟨hsettled, hgen, hdir⟩, hmutex, ⟨hall, hd⟩, ?_⟩
    show sh.snapshot = plan.before
    rw [hplan.before, Context.snapshot, hd]
  | unlock =>
    obtain ⟨-, hs, hout⟩ := hp
    exact ⟨⟨fun _ => hs, hgen, hdir⟩, hout⟩
  | reply => exact ⟨⟨hsettled, hgen, hdir⟩, hp⟩

/-- Whoever is between taking and releasing the mutex holds it. -/
theorem configureStep_mutex {request : ConfigureRequest ι} {phase phase' : ConfigurePhase}
    (h : ConfigureStep i request sh phase sh' phase') (hp : ConfigureFits sh i request phase)
    (hmutex : sh.configureInProgress = some j) (hij : j ≠ i) :
    sh'.configuration = sh.configuration ∧
      sh'.configureInProgress = sh.configureInProgress ∧
      sh'.cacheDirectory = sh.cacheDirectory ∧ appliedTo sh' = appliedTo sh := by
  have hnot : sh.configureInProgress ≠ some i := by
    rw [hmutex]
    exact fun heq => hij (Option.some.inj heq)
  cases h with
  | lock hfree => exact absurd (hmutex.symm.trans hfree) (Option.some_ne_none _)
  | reply => exact ⟨rfl, rfl, rfl, rfl⟩
  | _ => exact absurd hp.1 hnot

/-- **The steps of the others** leave a configuring thread's knowledge alone. -/
theorem configure_other {request request' : ConfigureRequest ι}
    {phase phase' phase'' : ConfigurePhase}
    (h : ConfigureStep i request sh phase sh' phase') (hp : ConfigureFits sh i request phase)
    (hij : j ≠ i) (hu : ConfigureFits sh j request' phase'') :
    ConfigureFits sh' j request' phase'' := by
  have hheld : sh.configureInProgress = some j → ConfigureFits sh' j request' phase'' := by
    intro hmutex
    obtain ⟨h1, h2, h3, h4⟩ := configureStep_mutex h hp hmutex hij
    exact configureFits_congr h1 h2 h3 h4 hu
  cases phase'' with
  | received => trivial
  | replying => exact hu
  | finished => exact hu
  | _ => exact hheld hu.1

end Step

/-! ## Every reachable state -/

section Runs

variable {s : ServerState ι ν}

/-- **The transaction invariant.** -/
theorem transactions (h : (server ι ν os).Reachable s) :
    ContextFits s.shared ∧
      ∀ (i : ℕ) t, s.tasks[i]? = some t → TaskConfigures s.shared i t := by
  refine TaskSystem.invariant (G := ContextFits) (L := TaskConfigures) ?_ ?_ ?_ ?_ h
  · rintro sh ⟨hconf, -, -, hloc, hdir, -, -, -, hcommits, -⟩
    refine ⟨fun _ => ⟨?_, by rw [hconf, hdir]; rfl⟩, by rw [hconf, hcommits]; rfl,
      by rw [hconf, hcommits]; rfl⟩
    intro applied happlied
    obtain ⟨locator, hlocator, rfl⟩ := List.mem_map.mp happlied
    rw [hloc locator hlocator, hconf]
    rfl
  · intro s t _ _ harrival
    cases harrival <;> trivial
  · intro s i t a sh' t' _ _ hstep hG hL
    cases hstep with
    | refresh h =>
      obtain ⟨hconf, hmutex, hdir, hcommits⟩ := h.frame
      refine ⟨⟨?_, by rw [hconf, hcommits]; exact hG.generation,
        by rw [hconf, hcommits]; exact hG.cacheDirectory⟩, trivial⟩
      intro hfree
      rw [hmutex] at hfree
      simpa only [Settled, hconf, hdir, refreshStep_applied h] using hG.settled hfree
    | configure h => exact configure_self h hG hL
  · intro s i t a sh' t' j u _ _ hstep hij _ _ hL hu
    cases u with
    | refresh => trivial
    | configure request phase =>
      cases hstep with
      | refresh h =>
        obtain ⟨hconf, hmutex, hdir, -⟩ := h.frame
        exact configureFits_congr hconf hmutex hdir (refreshStep_applied h) hu
      | configure h => exact configure_other h hL hij hu

/-- Whether a request has committed. -/
def hasCommitted : ConfigurePhase → Bool
  | .unlocking _ (.ok _) | .replying _ _ (.ok _) | .finished _ _ (.ok _) => true
  | _ => false

/-- The request of a thread, once it has committed. -/
def committedRequests : Task ι ν → Multiset (ConfigureRequest ι)
  | .configure request phase => if hasCommitted phase then {request} else 0
  | .refresh .. => 0

/-- The request of a thread, as long as it has not. -/
def uncommittedRequests : Task ι ν → Multiset (ConfigureRequest ι)
  | .configure request phase => if hasCommitted phase then 0 else {request}
  | .refresh .. => 0

/-- The requests that committed are those whose threads say so, each once. -/
theorem commits_eq (h : (server ι ν os).Reachable s) :
    (↑s.shared.commits : Multiset (ConfigureRequest ι)) =
      (s.tasks.map committedRequests).sum := by
  have hconserved : (↑s.shared.commits : Multiset (ConfigureRequest ι)) +
      (s.tasks.map uncommittedRequests).sum =
        (s.tasks.map fun t => committedRequests t + uncommittedRequests t).sum := by
    refine TaskSystem.conserved_when (C := fun _ _ => True)
      (f := fun sh => (↑sh.commits : Multiset (ConfigureRequest ι))) ?_ ?_ ?_
      (TaskSystem.when_true h)
    · rintro sh ⟨-, -, -, -, -, -, -, -, hcommits, -⟩
      simp [hcommits]
    · intro sh t harrival
      cases harrival <;> simp [committedRequests, uncommittedRequests, hasCommitted]
    · intro s i t a sh' t' _ _ _ hstep
      cases hstep with
      | refresh h =>
        obtain ⟨-, -, -, hcommits⟩ := h.frame
        exact ⟨by rw [hcommits]; rfl, rfl⟩
      | @configure _ request _ _ h =>
        refine ⟨?_, ?_⟩
        · cases h with
          | commit =>
            simp [uncommittedRequests, hasCommitted, ← Multiset.coe_add]
          | @unlock before outcome => cases outcome <;> rfl
          | @reply before after outcome => cases outcome <;> rfl
          | _ => rfl
        · have hsplit : ∀ phase, (committedRequests (.configure request phase : Task ι ν)) +
              uncommittedRequests (.configure request phase : Task ι ν) = {request} := by
            intro phase
            cases hc : hasCommitted phase <;>
              simp [committedRequests, uncommittedRequests, hc]
          rw [hsplit, hsplit]
  rw [List.sum_map_add] at hconserved
  exact add_right_cancel hconserved

/-- A step changes the configuration by committing a request, or not at all. -/
theorem configuration_step {s' : ServerState ι ν} {l : TaskSystem.Label Action}
    (h : (server ι ν os).Reachable s) (hstep : (server ι ν os).machine.step s l s') :
    (s'.shared.configuration = s.shared.configuration ∧
      s'.shared.commits = s.shared.commits) ∨
    ∃ request, s'.shared.commits = s.shared.commits ++ [request] ∧
      s'.shared.configuration = ⟨s.shared.configuration.generation + 1,
        nextConfiguration s.shared.configuration.config request.options⟩ := by
  cases hstep with
  | spawn => exact .inl ⟨rfl, rfl⟩
  | step ht hstep =>
    cases hstep with
    | refresh h =>
      obtain ⟨hconf, -, -, hcommits⟩ := h.frame
      exact .inl ⟨hconf, hcommits⟩
    | @configure _ request _ _ hstep =>
      have hfits := (transactions h).2 _ _ ht
      cases hstep with
      | commit =>
        obtain ⟨-, hplan, -⟩ := hfits
        refine .inr ⟨request, rfl, ?_⟩
        simp only [hplan.next, hplan.nextGeneration]
      | _ => exact .inl ⟨rfl, rfl⟩

/-- The generation never goes back. -/
theorem generation_le_of_step {s' : ServerState ι ν} {l : TaskSystem.Label Action}
    (h : (server ι ν os).Reachable s) (hstep : (server ι ν os).machine.step s l s') :
    s.shared.configuration.generation ≤ s'.shared.configuration.generation := by
  rcases configuration_step h hstep with ⟨hconf, -⟩ | ⟨request, -, hconf⟩
  · rw [hconf]
  · rw [hconf]
    exact Nat.le_succ _

/-- **Configuration is transactional.** The generation counts the successful requests,
and each step that changes the configuration is the commit of one of them; a request that
failed left the configuration, its generation and the cache directory as it found them;
while no request is in progress every shared locator has the committed configuration; and
the configured cache directory is the one supplied last. -/
theorem configuration_transactional (h : (server ι ν os).Reachable s) :
    (s.shared.configuration.generation = s.shared.commits.length ∧
      (↑s.shared.commits : Multiset (ConfigureRequest ι)) =
        (s.tasks.map committedRequests).sum) ∧
    (∀ l s', (server ι ν os).machine.step s l s' →
      (s'.shared.configuration = s.shared.configuration ∧
        s'.shared.commits = s.shared.commits) ∨
      ∃ request, s'.shared.commits = s.shared.commits ++ [request] ∧
        s'.shared.configuration = ⟨s.shared.configuration.generation + 1,
          nextConfiguration s.shared.configuration.config request.options⟩) ∧
    (∀ (i : ℕ) request before after outcome,
      s.tasks[i]? = some (.configure request (.finished before after outcome)) →
      OutcomeFits request before after outcome) ∧
    (s.shared.configureInProgress = none →
      (∀ locator ∈ s.shared.locators,
        locator.applied = some s.shared.configuration.config) ∧
      s.shared.cacheDirectory = s.shared.configuration.config.cacheDirectory) ∧
    s.shared.configuration.config.cacheDirectory =
      (s.shared.commits.filterMap (·.options.cacheDirectory)).getLast? := by
  obtain ⟨hG, hL⟩ := transactions h
  refine ⟨⟨hG.generation, commits_eq h⟩, fun l s' hstep => configuration_step h hstep, ?_,
    ?_, hG.cacheDirectory⟩
  · intro i request before after outcome ht
    exact hL i _ ht
  · intro hfree
    obtain ⟨happlied, hdir⟩ := hG.settled hfree
    refine ⟨fun locator hlocator => ?_, hdir⟩
    exact happlied _ (List.mem_map.mpr ⟨locator, hlocator, rfl⟩)

end Runs

/-! ## The sample run, then a request that succeeds and one that fails -/

/-- The cache directory that is configured. -/
def sampleDirectory : PathBuf := ⟨[.rootDir, .normal "cache"]⟩

/-- The options of the sample configure request. -/
def sampleOptions : ConfigureOptions :=
  ⟨none, none, none, none, none, none, some sampleDirectory⟩

/-- A configure request with these options. -/
def sampleConfigure (id : ℕ) : ConfigureRequest ℕ := ⟨id, sampleOptions⟩

/-- The configuration the first request commits. -/
def sampleConfiguration : Configuration :=
  nextConfiguration Configuration.default sampleOptions

/-- The first configure request was confirmed. -/
def configuredState : ServerState ℕ String :=
  ⟨{ answeredState.shared with
      configuration := ⟨1, sampleConfiguration⟩
      locators := [⟨.syncedDiscoveryState, some sampleConfiguration, some 1⟩]
      cacheDirectory := some sampleDirectory
      commits := [sampleConfigure 9]
      output := answeredState.shared.output ++ [.configured (sampleConfigure 9) 1] },
    answeredState.tasks ++
      [.configure (sampleConfigure 9)
        (.finished ⟨ConfigurationState.default, none⟩
          ⟨⟨1, sampleConfiguration⟩, some sampleDirectory⟩ (.ok 1))]⟩

/-- INTERNAL: the state after the configuration is reached. -/
theorem configuredState_reachable :
    ((server ℕ String sampleOs).machine.when NoUnwind).Reachable configuredState := by
  have h0 := arrive answeredState_reachable (.configure (sampleConfigure 9))
  have h1 := advance (i := 2) h0 rfl (.configure (.lock rfl))
  have h2 := advance (i := 2) h1 rfl (.configure .plan)
  have h3 := advance (i := 2) h2 rfl (.configure (.configure (k := 0) rfl))
  have h4 := advance (i := 2) h3 rfl (.configure (.configured (k := 1) rfl))
  have h5 := advance (i := 2) h4 rfl (.configure .setCacheDirectory)
  have h6 := advance (i := 2) h5 rfl (.configure (.commit rfl))
  have h7 := advance (i := 2) h6 rfl (.configure .unlock)
  exact advance (i := 2) h7 rfl (.configure .reply)

/-- The second one failed on the only locator, which was rolled back. -/
def rolledBackState : ServerState ℕ String :=
  ⟨{ configuredState.shared with
      output := configuredState.shared.output ++
        [.configureError (sampleConfigure 10) (-4)
          (configurationFailed 2 (.str "poisoned"))] },
    configuredState.tasks ++
      [.configure (sampleConfigure 10)
        (.finished configuredState.shared.snapshot configuredState.shared.snapshot
          (.error (configurationFailed 2 (.str "poisoned"))))]⟩

/-- INTERNAL: the state after a failed configuration is reached. -/
theorem rolledBackState_reachable :
    ((server ℕ String sampleOs).machine.when NoUnwind).Reachable rolledBackState := by
  have h0 := arrive configuredState_reachable (.configure (sampleConfigure 10))
  have h1 := advance (i := 3) h0 rfl (.configure (.lock rfl))
  have h2 := advance (i := 3) h1 rfl (.configure .plan)
  have h3 := advance (i := 3) h2 rfl
    (.configure (.configurePanics (k := 0) rfl none (.str "poisoned")))
  have h4 := advance (i := 3) h3 rfl (.configure (.rollback (k := 0) rfl))
  have h5 := advance (i := 3) h4 rfl (.configure (.rolledBack (k := 1) rfl))
  have h6 := advance (i := 3) h5 rfl (.configure .unlock)
  exact advance (i := 3) h6 rfl (.configure .reply)

/-- The theorem for a configuration that has been rolled back. -/
theorem configuration_transactional_rolledBack :
    rolledBackState.shared.configuration.generation =
        rolledBackState.shared.commits.length ∧
      ∀ locator ∈ rolledBackState.shared.locators,
        locator.applied = some rolledBackState.shared.configuration.config :=
  have h := configuration_transactional rolledBackState_reachable.of_when
  ⟨h.1.1, (h.2.2.2.1 rfl).1⟩

end REnvTools.Analysis
