import REnvTools.Model.Server

/-!
# Who owns the coordinator

The coordinator knows its owner by the key of the refresh alone. `GuardFits` says what
the state must be for the guard of a thread in a given stage; together with the count of
guards that are not completed, which is `1` exactly when the coordinator is not idle, it
is inductive (`coordination`). Everything about ownership is read off it: there is one
owner, its key is the active key, no transition meets a state it panics on, and dropping
a guard never resets somebody else's scan.
-/

set_option autoImplicit false

namespace REnvTools.Analysis

open Program Lib Model

variable {ι ν : Type} {os : Os}

/-! ## The invariant -/

/-- What the coordinator's state is while a guard is in a stage. -/
def GuardFits (state : RefreshCoordinatorState (RefreshRequest ι)) (guard : RefreshGuard) :
    OwnerStage ι ν → Prop
  | .starting _ | .executing .. | .executed .. =>
    guard.completed = false ∧ state.isRunning = true ∧ state.activeKey? = some guard.key
  | .draining .. | .replying .. =>
    guard.completed = false ∧ state.isRunning = false ∧ state.activeKey? = some guard.key
  | .reporting .. | .leaving => guard.completed = true
  | .unwinding cause =>
    cause = none ∧ (guard.completed = false → state.activeKey? = some guard.key)

/-- A refresh that owns the guard fits the coordinator. -/
def PhaseFits (state : RefreshCoordinatorState (RefreshRequest ι)) :
    RefreshPhase ι ν → Prop
  | .owning guard stage => GuardFits state guard stage
  | _ => True

/-- So does its thread; what a configure request does is left open. -/
def TaskFits (sh : Context ι ν) (_ : ℕ) : Task ι ν → Prop
  | .refresh _ phase => PhaseFits sh.coordinator.state phase
  | .configure .. => True

/-- What holds of the coordinator itself: its bound, and that nobody sleeps un-notified
while it is idle. -/
def CoordinatorFits (c : RefreshCoordinator (RefreshRequest ι)) : Prop :=
  c.state.requestIds.length ≤ maxJoinedRefreshRequests ∧ (c.state = .idle → c.waiters = [])

/-- `1` while the phase holds a guard that is not completed. -/
def livePhase : RefreshPhase ι ν → ℕ
  | .owning guard _ => if guard.completed then 0 else 1
  | _ => 0

/-- `1` while the thread holds a guard that is not completed. -/
def live : Task ι ν → ℕ
  | .refresh _ phase => livePhase phase
  | .configure .. => 0

/-! ## Fitting states -/

section Fits

variable {state state' : RefreshCoordinatorState (RefreshRequest ι)} {guard : RefreshGuard}
  {stage : OwnerStage ι ν}

/-- A completed guard fits any state. -/
theorem guardFits_of_completed (h : GuardFits state guard stage)
    (hc : guard.completed = true) : GuardFits state' guard stage := by
  cases stage <;> simp_all [GuardFits]

/-- Fitting looks at the key and at whether the scan still runs only. -/
theorem guardFits_congr (hkey : state'.activeKey? = state.activeKey?)
    (hrun : state'.isRunning = state.isRunning) (h : GuardFits state guard stage) :
    GuardFits state' guard stage := by
  cases stage <;> simpa only [GuardFits, hkey, hrun] using h

/-- The key of a guard that is not completed is the active key. -/
theorem activeKey?_of_guardFits (h : GuardFits state guard stage)
    (hc : guard.completed = false) : state.activeKey? = some guard.key := by
  cases stage with
  | starting => exact h.2.2
  | executing => exact h.2.2
  | executed => exact h.2.2
  | draining => exact h.2.2
  | replying => exact h.2.2
  | reporting => exact absurd hc (by simp [show guard.completed = true from h])
  | leaving => exact absurd hc (by simp [show guard.completed = true from h])
  | unwinding => exact h.2 hc

/-- INTERNAL: a coordinator that runs the key runs a refresh of it. -/
theorem running_of_isRunning (hrun : state.isRunning = true)
    (hkey : state.activeKey? = some guard.key) :
    ∃ active, state = .running active ∧ active.key = guard.key := by
  cases state with
  | idle => simp at hrun
  | running active => exact ⟨active, rfl, by simpa using hkey⟩
  | completing active => simp at hrun

/-- INTERNAL: a coordinator that does not run the key completes a refresh of it. -/
theorem completing_of_not_isRunning (hrun : state.isRunning = false)
    (hkey : state.activeKey? = some guard.key) :
    ∃ active, state = .completing active ∧ active.key = guard.key := by
  cases state with
  | idle => simp at hkey
  | running active => simp at hrun
  | completing active => exact ⟨active, rfl, by simpa using hkey⟩

/-- **What draining can do** to a coordinator that has stopped running: it takes the requests of
the completing refresh. -/
theorem drainRequestIds_ok {c c' : RefreshCoordinator (RefreshRequest ι)}
    {pending : List (RefreshRequest ι)} (hrun : c.state.isRunning = false)
    (hkey : c.state.activeKey? = some guard.key)
    (h : c.drainRequestIds guard.key = .ok (pending, c')) :
    ∃ active, c.state = .completing active ∧ active.key = guard.key ∧
      pending = active.requestIds ∧
      c' = { c with state := .completing { active with requestIds := [] } } := by
  obtain ⟨active, hstate, heq⟩ := completing_of_not_isRunning hrun hkey
  rw [RefreshCoordinator.drainRequestIds_of_completing hstate heq] at h
  cases h
  exact ⟨active, hstate, heq, rfl, rfl⟩

end Fits

/-! ## One step -/

section Step

variable {i : ℕ} {request : RefreshRequest ι} {sh sh' : Context ι ν} {a : Action}
  {phase phase' : RefreshPhase ι ν}

/-- INTERNAL: waiting changes no state. -/
theorem waitUntilIdle_state {c c' : RefreshCoordinator (RefreshRequest ι)} {returns : Bool}
    (h : c.waitUntilIdle i = (returns, c')) : c'.state = c.state := by
  unfold RefreshCoordinator.waitUntilIdle at h
  split at h <;> cases h <;> rfl

/-- Nobody parks on an idle coordinator. -/
theorem waitUntilIdle_fits {c c' : RefreshCoordinator (RefreshRequest ι)} {returns : Bool}
    (h : c.waitUntilIdle i = (returns, c')) (hc : CoordinatorFits c) : CoordinatorFits c' := by
  unfold RefreshCoordinator.waitUntilIdle at h
  split at h
  · cases h
    exact hc
  · rename_i hne
    cases h
    exact ⟨hc.1, fun hidle => absurd hidle hne⟩

/-- Waking a thread keeps the coordinator fit. -/
theorem unpark_fits {c : RefreshCoordinator (RefreshRequest ι)} (hc : CoordinatorFits c) :
    CoordinatorFits (c.unpark i) := by
  refine ⟨hc.1, fun hidle => ?_⟩
  have hnil : c.waiters = [] := hc.2 hidle
  simp [RefreshCoordinator.unpark, hnil]

/-- The idle coordinator is fit. -/
theorem idle_fits :
    CoordinatorFits (⟨.idle, []⟩ : RefreshCoordinator (RefreshRequest ι)) :=
  ⟨by simp [maxJoinedRefreshRequests], fun _ => rfl⟩

/-- Dropping a guard that fits is the end of its own refresh or changes nothing. -/
theorem drop_fits {c : RefreshCoordinator (RefreshRequest ι)} {guard : RefreshGuard}
    (stage : OwnerStage ι ν) (hc : CoordinatorFits c)
    (h : GuardFits c.state guard stage) :
    CoordinatorFits (guard.drop c) ∧
      (guard.drop c).state.occupied + livePhase (.owning guard stage) = c.state.occupied := by
  cases hcompleted : guard.completed with
  | true => exact ⟨by simpa [RefreshGuard.drop, hcompleted] using hc,
      by simp [RefreshGuard.drop, livePhase, hcompleted]⟩
  | false =>
    have hkey := activeKey?_of_guardFits h hcompleted
    obtain ⟨active, hactive, heq⟩ := Option.map_eq_some_iff.mp hkey
    have hdrop : guard.drop c = ⟨.idle, []⟩ := by
      rw [RefreshGuard.drop, hcompleted]
      exact RefreshCoordinator.forceIdle_of_active hactive heq
    have hocc : c.state.occupied = 1 := by
      cases hs : c.state <;> simp_all
    exact ⟨hdrop ▸ idle_fits, by simp [hdrop, livePhase, hcompleted, hocc]⟩

/-- **One step of an owner or of a thread on its way.** The bound, the guards and the
occupation of the coordinator stay in step. -/
theorem coordination_self (h : RefreshStep i request sh phase a sh' phase')
    (hc : CoordinatorFits sh.coordinator) (hp : PhaseFits sh.coordinator.state phase) :
    sh'.coordinator.state.occupied + livePhase phase =
        sh.coordinator.state.occupied + livePhase phase' ∧
      CoordinatorFits sh'.coordinator ∧ PhaseFits sh'.coordinator.state phase' := by
  cases h with
  | snapshot => exact ⟨rfl, hc, trivial⟩
  | @register configuration registration c h =>
    rcases RefreshCoordinator.register_cases h with ⟨rfl, hidle, rfl⟩ |
      ⟨rfl, hwait, hrun, active, hactive, hkey, hlen, hactive'⟩ | ⟨rfl, rfl⟩ | ⟨rfl, rfl⟩
    · refine ⟨by simp [hidle, livePhase, registered, RefreshGuard.new], ⟨?_, ?_⟩, ?_⟩
      · simp [maxJoinedRefreshRequests]
      · intro hidle'
        cases hidle'
      · exact ⟨rfl, rfl, rfl⟩
    · refine ⟨?_, ⟨?_, ?_⟩, trivial⟩
      · cases hs : sh.coordinator.state <;> cases hs' : c.state <;>
          simp_all [livePhase, registered]
      · simp only [RefreshCoordinatorState.requestIds, hactive', Option.map_some,
          Option.getD_some, List.length_append, List.length_singleton]
        omega
      · intro hidle
        rw [show c.state = .idle from hidle] at hactive'
        cases hactive'
    · exact ⟨rfl, hc, trivial⟩
    · exact ⟨rfl, hc, trivial⟩
  | busyReply => exact ⟨rfl, hc, trivial⟩
  | @waitUntilIdle returns c h =>
    have hstate := waitUntilIdle_state h
    refine ⟨?_, waitUntilIdle_fits h hc, ?_⟩
    · cases returns <;> simp [hstate, livePhase]
    · cases returns <;> trivial
  | @wake returns c h =>
    have hstate := waitUntilIdle_state h
    refine ⟨?_, waitUntilIdle_fits h (unpark_fits hc), ?_⟩
    · cases returns <;> simp [hstate, livePhase, RefreshCoordinator.unpark]
    · cases returns <;> trivial
  | execute => exact ⟨rfl, hc, hp⟩
  | search h =>
    obtain ⟨_, _, rfl⟩ := h.frame
    exact ⟨rfl, hc, hp⟩
  | sync _ h =>
    obtain ⟨_, _, rfl⟩ := h.frame
    exact ⟨rfl, hc, hp⟩
  | returned => exact ⟨rfl, hc, hp⟩
  | panicked => exact ⟨rfl, hc, hp⟩
  | @beginCompletion guard scan execution c h =>
    obtain ⟨hcompleted, -, -⟩ := hp
    obtain ⟨active, hstate, heq, rfl⟩ := RefreshCoordinator.beginCompletion_ok h
    refine ⟨by simp [hstate, livePhase], ⟨?_, by simp⟩, ?_⟩
    · simpa [hstate] using hc.1
    · simp [PhaseFits, GuardFits, hcompleted, heq]
  | @beginCompletionPanics guard scan execution message h =>
    obtain ⟨hcompleted, hrun, hkey⟩ := hp
    obtain ⟨active, hstate, heq⟩ := running_of_isRunning hrun hkey
    rw [RefreshCoordinator.beginCompletion_of_running hstate heq] at h
    cases h
  | @drain guard scan execution pending c h =>
    obtain ⟨hcompleted, hrun, hkey⟩ := hp
    obtain ⟨active, hstate, heq, -, rfl⟩ := drainRequestIds_ok hrun hkey h
    refine ⟨by simp [hstate, livePhase], ⟨by simp, by simp⟩, ?_⟩
    simp [PhaseFits, GuardFits, hcompleted, heq]
  | @drainPanics guard scan execution message h =>
    obtain ⟨hcompleted, hrun, hkey⟩ := hp
    obtain ⟨active, hstate, heq⟩ := completing_of_not_isRunning hrun hkey
    rw [RefreshCoordinator.drainRequestIds_of_completing hstate heq] at h
    cases h
  | send => exact ⟨rfl, hc, hp⟩
  | @notEmpty guard scan execution c h =>
    obtain rfl := RefreshCoordinator.completeIfEmpty_false h
    exact ⟨rfl, hc, hp⟩
  | @completed guard scan execution c h =>
    obtain ⟨hcompleted, -, -⟩ := hp
    obtain ⟨active, hstate, -, -, rfl⟩ := RefreshCoordinator.completeIfEmpty_true h
    refine ⟨by simp [hstate, livePhase, hcompleted], idle_fits, ?_⟩
    cases execution <;> rfl
  | @completePanics guard scan execution message h =>
    obtain ⟨hcompleted, hrun, hkey⟩ := hp
    obtain ⟨active, hstate, heq⟩ := completing_of_not_isRunning hrun hkey
    rw [RefreshCoordinator.completeIfEmpty_of_completing hstate heq] at h
    split at h <;> cases h
  | telemetry h =>
    obtain ⟨_, _, rfl⟩ := h.frame
    exact ⟨rfl, hc, hp⟩
  | reported => exact ⟨rfl, hc, hp⟩
  | drop =>
    obtain ⟨hc', hocc⟩ := drop_fits .leaving hc hp
    exact ⟨hocc, hc', trivial⟩
  | unwind =>
    exact ⟨rfl, hc, rfl, activeKey?_of_guardFits hp⟩
  | @dropUnwinding _ cause =>
    obtain ⟨hc', hocc⟩ := drop_fits (.unwinding cause) hc hp
    exact ⟨hocc, hc', trivial⟩
  | unwoundReply => exact ⟨rfl, hc, trivial⟩

/-- **The steps of the others.** While another thread's guard is live the coordinator is
occupied by it, so a step that is not this thread's changes neither the active key nor
whether the scan runs. -/
theorem coordination_other (h : RefreshStep i request sh phase a sh' phase')
    (hp : PhaseFits sh.coordinator.state phase)
    {guard : RefreshGuard} {stage : OwnerStage ι ν}
    (hle : livePhase phase + livePhase (.owning guard stage : RefreshPhase ι ν) ≤
      sh.coordinator.state.occupied)
    (hu : GuardFits sh.coordinator.state guard stage) :
    GuardFits sh'.coordinator.state guard stage := by
  cases hcompleted : guard.completed with
  | true => exact guardFits_of_completed hu hcompleted
  | false =>
    -- this guard occupies the coordinator alone, so any guard of the stepping thread is done
    have hone := RefreshCoordinatorState.occupied_le_one sh.coordinator.state
    have howner : livePhase (.owning guard stage : RefreshPhase ι ν) = 1 := by
      simp [livePhase, hcompleted]
    have hlive : livePhase phase = 0 := by omega
    have hkey := activeKey?_of_guardFits hu hcompleted
    have hdead : ∀ {g : RefreshGuard} {st : OwnerStage ι ν},
        phase = .owning g st → g.completed = true := by
      rintro g st rfl
      cases hg : g.completed with
      | true => rfl
      | false => simp [livePhase, hg] at hlive
    cases h with
    | snapshot => exact hu
    | @register configuration registration c h =>
      rcases RefreshCoordinator.register_cases h with ⟨rfl, hidle, rfl⟩ |
        ⟨rfl, hwait, hrun, active, hactive, hkey', hlen, hactive'⟩ | ⟨rfl, rfl⟩ | ⟨rfl, rfl⟩
      · simp [hidle] at hkey
      · refine guardFits_congr ?_ hrun hu
        simp [RefreshCoordinatorState.activeKey?, hactive, hactive']
      · exact hu
      · exact hu
    | busyReply => exact hu
    | waitUntilIdle h =>
      have hstate := waitUntilIdle_state h
      show GuardFits (RefreshCoordinator.state _) guard stage
      rwa [hstate]
    | wake h =>
      have hstate := waitUntilIdle_state h
      show GuardFits (RefreshCoordinator.state _) guard stage
      rwa [hstate]
    | execute => exact hu
    | search h =>
      obtain ⟨_, _, rfl⟩ := h.frame
      exact hu
    | sync _ h =>
      obtain ⟨_, _, rfl⟩ := h.frame
      exact hu
    | returned => exact hu
    | panicked => exact hu
    | beginCompletion => exact absurd (hdead rfl) (by simp [hp.1])
    | beginCompletionPanics => exact hu
    | drain => exact absurd (hdead rfl) (by simp [hp.1])
    | drainPanics => exact hu
    | send => exact hu
    | notEmpty => exact absurd (hdead rfl) (by simp [hp.1])
    | completed => exact absurd (hdead rfl) (by simp [hp.1])
    | completePanics => exact hu
    | telemetry h =>
      obtain ⟨_, _, rfl⟩ := h.frame
      exact hu
    | reported => exact hu
    | drop => simpa [RefreshGuard.drop, hdead rfl] using hu
    | unwind => exact hu
    | dropUnwinding => simpa [RefreshGuard.drop, hdead rfl] using hu
    | unwoundReply => exact hu

end Step

/-! ## Every reachable state -/

/-- **The coordination invariant.** -/
theorem coordination {s : ServerState ι ν} (h : (server ι ν os).Reachable s) :
    s.shared.coordinator.state.occupied = (s.tasks.map live).sum ∧
      CoordinatorFits s.shared.coordinator ∧
      ∀ i t, s.tasks[i]? = some t → TaskFits s.shared i t := by
  refine TaskSystem.invariant_ledger (f := fun sh => sh.coordinator.state.occupied)
    (G := fun sh => CoordinatorFits sh.coordinator) ?_ ?_ ?_ ?_ h
  · intro sh hinit
    rw [hinit.2.2.2.2.2.1]
    exact ⟨rfl, idle_fits⟩
  · intro s t _ _ harrival
    cases harrival <;> exact ⟨rfl, trivial⟩
  · intro s i t a sh' t' _ _ hstep _ hG hL
    cases hstep with
    | refresh h => exact coordination_self h hG hL
    | configure h =>
      obtain ⟨hc, -⟩ := h.frame
      exact ⟨by rw [hc]; rfl, by rw [hc]; exact hG, trivial⟩
  · intro s i t a sh' t' j u _ _ hstep _ _ hle hG hL hu
    cases hstep with
    | configure h =>
      obtain ⟨hc, -⟩ := h.frame
      cases u with
      | configure => trivial
      | refresh =>
        show PhaseFits sh'.coordinator.state _
        rw [hc]
        exact hu
    | refresh h =>
      cases u with
      | configure => trivial
      | refresh request phase =>
        cases phase with
        | owning guard stage => exact coordination_other h hL hle hu
        | _ => trivial

/-! ## Ownership -/

/-- Thread `i` holds `guard`, which is not completed. -/
def OwnsAt (s : ServerState ι ν) (i : ℕ) (guard : RefreshGuard) : Prop :=
  guard.completed = false ∧
    ∃ request stage, s.tasks[i]? = some (.refresh request (.owning guard stage))

/-- Thread `i` is inside `execute_refresh`. -/
def ExecutesAt (s : ServerState ι ν) (i : ℕ) : Prop :=
  ∃ request guard scan workers sync,
    s.tasks[i]? = some (.refresh request (.owning guard (.executing scan workers sync)))

/-- Thread `i` sleeps in `wait_until_idle`. -/
def ParkedAt (s : ServerState ι ν) (i : ℕ) : Prop :=
  ∃ request, s.tasks[i]? = some (.refresh request .parked)

section Ownership

variable {s : ServerState ι ν} {i j : ℕ} {guard guard' : RefreshGuard}

/-- INTERNAL: a task that owns the refresh counts once. -/
theorem live_of_ownsAt (h : OwnsAt s i guard) :
    ∃ t, s.tasks[i]? = some t ∧ live t = 1 := by
  obtain ⟨hcompleted, request, stage, ht⟩ := h
  exact ⟨_, ht, by simp [live, livePhase, hcompleted]⟩

/-- INTERNAL: a task that counts owns the refresh. -/
theorem ownsAt_of_live {t : Task ι ν} (ht : s.tasks[i]? = some t) (hlive : live t ≠ 0) :
    ∃ guard, OwnsAt s i guard := by
  cases t with
  | configure => simp [live] at hlive
  | refresh request phase =>
    cases phase with
    | owning guard stage =>
      refine ⟨guard, ?_, request, stage, ht⟩
      cases hc : guard.completed with
      | false => rfl
      | true => simp [live, livePhase, hc] at hlive
    | _ => simp [live, livePhase] at hlive

variable (h : (server ι ν os).Reachable s)

include h

/-- There is never more than one guard that is not completed. -/
theorem ownsAt_unique (hi : OwnsAt s i guard) (hj : OwnsAt s j guard') : i = j := by
  obtain ⟨t, ht, hlive⟩ := live_of_ownsAt hi
  obtain ⟨u, hu, hlive'⟩ := live_of_ownsAt hj
  by_contra hne
  have hsum := Pool.add_le_sum_map live hne ht hu
  have hone := RefreshCoordinatorState.occupied_le_one s.shared.coordinator.state
  have hocc := (coordination h).1
  omega

/-- The coordinator is busy exactly if a task owns the refresh. -/
theorem occupied_iff_ownsAt :
    s.shared.coordinator.state ≠ .idle ↔ ∃ i guard, OwnsAt s i guard := by
  have hocc := (coordination h).1
  rw [Ne, ← RefreshCoordinatorState.occupied_eq_zero, hocc]
  constructor
  · intro hne
    by_contra hnone
    apply hne
    rw [List.sum_eq_zero]
    intro n hn
    obtain ⟨t, ht, rfl⟩ := List.mem_map.mp hn
    obtain ⟨i, hi⟩ := List.mem_iff_getElem?.mp ht
    by_contra hlive
    obtain ⟨guard, hguard⟩ := ownsAt_of_live hi hlive
    exact hnone ⟨i, guard, hguard⟩
  · rintro ⟨i, guard, hguard⟩
    obtain ⟨t, ht, hlive⟩ := live_of_ownsAt hguard
    have hle := Pool.le_sum_map live ht
    omega

/-- INTERNAL: the refresh of the coordinator has the key that its owner holds. -/
theorem fits_of_ownsAt (hi : OwnsAt s i guard) :
    s.shared.coordinator.state.activeKey? = some guard.key := by
  obtain ⟨hcompleted, request, stage, ht⟩ := hi
  exact activeKey?_of_guardFits ((coordination h).2.2 _ _ ht) hcompleted

/-- INTERNAL: the task that executes the refresh owns it. -/
theorem ownsAt_of_executesAt (hi : ExecutesAt s i) : ∃ guard, OwnsAt s i guard := by
  obtain ⟨request, guard, scan, workers, sync, ht⟩ := hi
  have hfits := (coordination h).2.2 _ _ ht
  exact ⟨guard, hfits.1, request, _, ht⟩

/-- Only the owner makes the coordinator idle. -/
theorem ownsAt_of_released {s' : ServerState ι ν} {a : Action}
    (hstep : (server ι ν os).machine.step s (.step i a) s')
    (hbusy : s.shared.coordinator.state ≠ .idle)
    (hidle : s'.shared.coordinator.state = .idle) : ∃ guard, OwnsAt s i guard := by
  obtain ⟨-, hG, hL⟩ := coordination h
  cases hstep with
  | step ht hstep =>
    cases hstep with
    | configure hstep =>
      exact absurd (hstep.frame.1 ▸ hidle) hbusy
    | @refresh _ _ _ phase phase' hstep =>
      have hmove := (coordination_self hstep hG (hL _ _ ht)).1
      rw [show _ = RefreshCoordinatorState.idle from hidle] at hmove
      have hocc : s.shared.coordinator.state.occupied ≠ 0 := fun hz =>
        hbusy (RefreshCoordinatorState.occupied_eq_zero.mp hz)
      refine ownsAt_of_live ht ?_
      show livePhase phase ≠ 0
      simp only [RefreshCoordinatorState.occupied_idle] at hmove
      omega

/-- **Coordinator ownership.** In every reachable state: the coordinator is busy exactly
when one thread holds a guard that is not completed, and that guard's key is the active
key; at most one thread executes a refresh; no thread unwinds from a key/state mismatch;
only the owner's steps release the coordinator; the ids it holds are bounded; and while
it is idle nobody sleeps without having been notified. -/
theorem coordinator_ownership :
    (s.shared.coordinator.state ≠ .idle ↔ ∃! i, ∃ guard, OwnsAt s i guard) ∧
    (∀ i j guard guard', OwnsAt s i guard → OwnsAt s j guard' → i = j) ∧
    (∀ i guard, OwnsAt s i guard →
      s.shared.coordinator.state.activeKey? = some guard.key) ∧
    (∀ i j, ExecutesAt s i → ExecutesAt s j → i = j) ∧
    (∀ (i : ℕ) request guard cause,
      s.tasks[i]? = some (.refresh request (.owning guard (.unwinding cause))) →
      cause = none) ∧
    (∀ i a s', (server ι ν os).machine.step s (.step i a) s' →
      s.shared.coordinator.state ≠ .idle → s'.shared.coordinator.state = .idle →
      ∃ guard, OwnsAt s i guard) ∧
    s.shared.coordinator.state.requestIds.length ≤ maxJoinedRefreshRequests ∧
    (s.shared.coordinator.state = .idle →
      ∀ i, ParkedAt s i → i ∉ s.shared.coordinator.waiters) := by
  refine ⟨?_, fun i j g g' hi hj => ownsAt_unique h hi hj,
    fun i g hi => fits_of_ownsAt h hi, ?_, ?_,
    fun i a s' hstep hbusy hidle => ownsAt_of_released h hstep hbusy hidle,
    (coordination h).2.1.1, ?_⟩
  · rw [occupied_iff_ownsAt h]
    constructor
    · rintro ⟨i, guard, hi⟩
      exact ⟨i, ⟨guard, hi⟩, fun j ⟨guard', hj⟩ => ownsAt_unique h hj hi⟩
    · rintro ⟨i, ⟨guard, hi⟩, -⟩
      exact ⟨i, guard, hi⟩
  · intro i j hi hj
    obtain ⟨guard, hi⟩ := ownsAt_of_executesAt h hi
    obtain ⟨guard', hj⟩ := ownsAt_of_executesAt h hj
    exact ownsAt_unique h hi hj
  · intro i request guard cause ht
    exact ((coordination h).2.2 _ _ ht).1
  · intro hidle i _
    rw [(coordination h).2.1.2 hidle]
    exact List.not_mem_nil

end Ownership

/-! ## A run in which two requests share a scan -/

/-- The host of the sample run. -/
def sampleOs : Os := ⟨false, id, some⟩

/-- A server with one locator, before any request. -/
def sampleContext : Context ℕ String where
  configuration := ConfigurationState.default
  readers := 0
  configureInProgress := none
  locators := [⟨.syncedDiscoveryState, some Configuration.default, none⟩]
  cacheDirectory := none
  coordinator := RefreshCoordinator.default
  nextRefreshId := 1
  scans := []
  commits := []
  output := []

/-- A request for a refresh, which arrives at the first generation. -/
def sampleRequest (id : ℕ) : RefreshRequest ℕ := ⟨id, ⟨none, none⟩, 0⟩

/-- The key of these requests. -/
def sampleKey : RefreshKey := ⟨⟨none, none⟩, 0⟩

/-- The scan that answers them. -/
def sampleScan : Scan := ⟨1, ⟨none, none⟩, 0⟩

/-- The first request executes, the second has joined. -/
def joinedState : ServerState ℕ String :=
  ⟨{ sampleContext with
      coordinator := ⟨.running ⟨sampleKey, [sampleRequest 7, sampleRequest 8]⟩, []⟩
      nextRefreshId := 2
      scans := [sampleScan] },
    [.refresh (sampleRequest 7)
        (.owning (RefreshGuard.new sampleKey) (.executing sampleScan [] .searching)),
      .refresh (sampleRequest 8) .finished]⟩

/-- INTERNAL: the state with a joined request is reached. -/
theorem joinedState_reachable :
    ((server ℕ String sampleOs).machine.when NoUnwind).Reachable joinedState := by
  have h0 : ((server ℕ String sampleOs).machine.when NoUnwind).Reachable ⟨sampleContext, []⟩ :=
    .init ⟨by simp [server, Context.Initial, sampleContext], rfl⟩
  have h1 := arrive h0 (.refresh 7 id none)
  have h2 := arrive h1 (.refresh 8 id none)
  have h3 := advance (i := 0) h2 rfl (.refresh .snapshot)
  have h4 := advance (i := 0) h3 rfl (.refresh (.register rfl))
  have h5 := advance (i := 1) h4 rfl (.refresh .snapshot)
  have h6 := advance (i := 1) h5 rfl (.refresh (.register rfl))
  exact advance (i := 0) h6 rfl (.refresh .execute)

/-- The theorem for a refresh that a second request has joined. -/
theorem coordinator_ownership_joined : ∃! i, ∃ guard, OwnsAt joinedState i guard :=
  (coordinator_ownership joinedState_reachable.of_when).1.mp (by rintro ⟨⟩)

end REnvTools.Analysis
