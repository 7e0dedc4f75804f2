import REnvTools.Analysis.Transactions

/-!
# Which scan answers a request

A request joins a refresh of its own key only, and the key carries the options and the
generation of the snapshot it was made from. The generation never goes back, so the
snapshot is at least as new as what was committed when the request arrived, however often
it waited and looked again. `Suits` is that relation between a request and a key; it
holds wherever a request is held (`freshness`) until the scan of that key answers it.
-/

set_option autoImplicit false

namespace REnvTools.Analysis

open Program Lib Model

variable {ι ν : Type} {os : Os}

/-! ## The invariant -/

/-- A refresh of this key may answer the request. -/
def Suits (key : RefreshKey) (request : RefreshRequest ι) : Prop :=
  request.options = key.options ∧ request.arrivedAt ≤ key.configurationGeneration

/-- A scan of this key has been executed. -/
def ScanOf (scans : List Scan) (key : RefreshKey) (scan : Scan) : Prop :=
  scan ∈ scans ∧ scan.options = key.options ∧ scan.generation = key.configurationGeneration

/-- The result names its scan. -/
def ResultOf (scan : Scan) (execution : Option RefreshResult) : Prop :=
  ∀ result, execution = some result → result.refreshId = scan.id

/-- The scan of an owner has the options and the generation of its key, and answers the requests
that it drained. -/
def StageFresh (scans : List Scan) (key : RefreshKey) : OwnerStage ι ν → Prop
  | .starting configuration => configuration.generation = key.configurationGeneration
  | .executing scan .. => ScanOf scans key scan
  | .executed scan execution | .draining scan execution =>
    ScanOf scans key scan ∧ ResultOf scan execution
  | .replying scan execution pending =>
    ScanOf scans key scan ∧ ResultOf scan execution ∧ ∀ r ∈ pending, Suits key r
  | _ => True

/-- A refresh knows a generation that is not older than the arrival of its request. -/
def PhaseFresh (scans : List Scan) (request : RefreshRequest ι) : RefreshPhase ι ν → Prop
  | .registering configuration => request.arrivedAt ≤ configuration.generation
  | .owning guard stage =>
    guard.key.options = request.options ∧ StageFresh scans guard.key stage
  | _ => True

/-- What a thread knows suits its request. -/
def TaskFresh (sh : Context ι ν) (_ : ℕ) : Task ι ν → Prop
  | .refresh request phase =>
    request.arrivedAt ≤ sh.configuration.generation ∧ PhaseFresh sh.scans request phase
  | .configure .. => True

/-- The scans have distinct ids below the counter. -/
def ScansNumbered (sh : Context ι ν) : Prop :=
  (sh.scans.map (·.id)).Nodup ∧ ∀ scan ∈ sh.scans, scan.id < sh.nextRefreshId

/-- The requests the coordinator holds suit the active key. -/
def HeldSuit (state : RefreshCoordinatorState (RefreshRequest ι)) : Prop :=
  ∀ active, state.active? = some active → ∀ r ∈ active.requestIds, Suits active.key r

/-- A result that was sent is that of a scan that suited its request. -/
def Answers (scans : List Scan) (output : List (Output ι ν)) : Prop :=
  ∀ request result, .refreshed request result ∈ output →
    ∃ scan ∈ scans, scan.id = result.refreshId ∧ scan.options = request.options ∧
      request.arrivedAt ≤ scan.generation

/-- The scans are numbered, and the requests that are held or answered suit theirs. -/
structure ContextFresh (sh : Context ι ν) : Prop where
  numbered : ScansNumbered sh
  held : HeldSuit sh.coordinator.state
  answers : Answers sh.scans sh.output

/-! ## Growing histories -/

section Grow

variable {scans scans' : List Scan} {output : List (Output ι ν)}

/-- INTERNAL: answered requests remain answered when scans are added. -/
theorem Answers.mono (h : Answers scans output) (hsub : ∀ scan ∈ scans, scan ∈ scans') :
    Answers scans' output := by
  intro request result hmem
  obtain ⟨scan, hscan, hrest⟩ := h request result hmem
  exact ⟨scan, hsub scan hscan, hrest⟩

/-- What is written last must answer its request. -/
theorem Answers.append (h : Answers scans output) {o : Output ι ν}
    (ho : ∀ request result, o = .refreshed request result →
      ∃ scan ∈ scans, scan.id = result.refreshId ∧ scan.options = request.options ∧
        request.arrivedAt ≤ scan.generation) : Answers scans (output ++ [o]) := by
  intro request result hmem
  rcases List.mem_append.mp hmem with hmem | hmem
  · exact h request result hmem
  · exact ho request result (List.mem_singleton.mp hmem).symm

/-- INTERNAL: an owner remains fresh when scans are added. -/
theorem stageFresh_mono {key : RefreshKey} {stage : OwnerStage ι ν}
    (hsub : ∀ scan ∈ scans, scan ∈ scans') (h : StageFresh scans key stage) :
    StageFresh scans' key stage := by
  cases stage with
  | starting => exact h
  | executing => exact ⟨hsub _ h.1, h.2⟩
  | executed => exact ⟨⟨hsub _ h.1.1, h.1.2⟩, h.2⟩
  | draining => exact ⟨⟨hsub _ h.1.1, h.1.2⟩, h.2⟩
  | replying => exact ⟨⟨hsub _ h.1.1, h.1.2⟩, h.2⟩
  | _ => trivial

/-- INTERNAL: a request remains fresh when scans are added. -/
theorem phaseFresh_mono {request : RefreshRequest ι} {phase : RefreshPhase ι ν}
    (hsub : ∀ scan ∈ scans, scan ∈ scans') (h : PhaseFresh scans request phase) :
    PhaseFresh scans' request phase := by
  cases phase with
  | registering => exact h
  | owning => exact ⟨h.1, stageFresh_mono hsub h.2⟩
  | _ => trivial

end Grow

/-! ## One step -/

section Step

variable {i : ℕ} {request : RefreshRequest ι} {sh sh' : Context ι ν} {a : Action}
  {phase phase' : RefreshPhase ι ν} {scan : Scan}

/-- Reporting sends no result. -/
theorem workersStep_answers {workers workers' : List (Worker ν)}
    (h : WorkersStep scan sh workers sh' workers') (hsh : ContextFresh sh) :
    ContextFresh sh' ∧ sh'.scans = sh.scans := by
  obtain ⟨hnum, hheld, hans⟩ := hsh
  cases h with
  | start => exact ⟨⟨hnum, hheld, hans⟩, rfl⟩
  | step _ h =>
    cases h with
    | emit =>
      refine ⟨⟨hnum, hheld, hans.append ?_⟩, rfl⟩
      rintro _ _ ⟨⟩
    | _ => exact ⟨⟨hnum, hheld, hans⟩, rfl⟩

/-- Going idle or giving the held requests away leaves nothing unsuitable. -/
theorem heldSuit_drop {c : RefreshCoordinator (RefreshRequest ι)} {guard : RefreshGuard}
    (h : HeldSuit c.state) : HeldSuit (guard.drop c).state := by
  unfold RefreshGuard.drop RefreshCoordinator.forceIdle
  split
  · exact h
  · split
    · split
      · rintro active ⟨⟩
      · exact h
    · exact h

/-- INTERNAL: a request that suits the active key joins. -/
theorem heldSuit_join {state state' : RefreshCoordinatorState (RefreshRequest ι)}
    {active active' : ActiveRefresh (RefreshRequest ι)} (h : HeldSuit state)
    (hactive : state.active? = some active) (hactive' : state'.active? = some active')
    (hkey : active'.key = active.key) (hids : active'.requestIds = active.requestIds ++ [request])
    (hsuits : Suits active.key request) : HeldSuit state' := by
  intro joined hjoined r hr
  obtain rfl : active' = joined := Option.some.inj (hactive'.symm.trans hjoined)
  rw [hkey]
  rw [hids] at hr
  rcases List.mem_append.mp hr with hr | hr
  · exact h active hactive r hr
  · obtain rfl := List.mem_singleton.mp hr
    exact hsuits

/-- INTERNAL: one more scan, with the next id. -/
theorem scansNumbered_append (h : ScansNumbered sh) (hid : scan.id = sh.nextRefreshId) :
    ((sh.scans ++ [scan]).map (·.id)).Nodup ∧
      ∀ other ∈ sh.scans ++ [scan], other.id < sh.nextRefreshId + 1 := by
  constructor
  · rw [List.map_append, List.nodup_append]
    refine ⟨h.1, by simp, ?_⟩
    rintro _ hmem _ hnew rfl
    obtain ⟨other, hother, hsame⟩ := List.mem_map.mp hmem
    have hlt := h.2 other hother
    simp only [List.map_cons, List.map_nil, List.mem_singleton] at hnew
    omega
  · intro other hother
    rcases List.mem_append.mp hother with hother | hother
    · exact Nat.lt_succ_of_lt (h.2 other hother)
    · rw [List.mem_singleton.mp hother, hid]
      exact Nat.lt_succ_self _

/-- **One step of a refresh thread.** -/
theorem refresh_fresh (h : RefreshStep i request sh phase a sh' phase')
    (hfits : PhaseFits sh.coordinator.state phase) (hsh : ContextFresh sh)
    (harrived : request.arrivedAt ≤ sh.configuration.generation)
    (hp : PhaseFresh sh.scans request phase) :
    ContextFresh sh' ∧ PhaseFresh sh'.scans request phase' ∧
      ∀ scan ∈ sh.scans, scan ∈ sh'.scans := by
  have hsame : ∀ scan ∈ sh.scans, scan ∈ sh.scans := fun _ h => h
  obtain ⟨hnum, hheld, hans⟩ := hsh
  have herror : ∀ r code message,
      Answers sh.scans (sh.output ++ [(.refreshError r code message : Output ι ν)]) := by
    intro r code message
    refine hans.append ?_
    rintro _ _ ⟨⟩
  cases h with
  | snapshot => exact ⟨⟨hnum, hheld, hans⟩, harrived, hsame⟩
  | @register configuration registration c h =>
    rcases RefreshCoordinator.register_cases h with ⟨rfl, hidle, rfl⟩ |
      ⟨rfl, -, -, active, hactive, hkey, -, hactive'⟩ | ⟨rfl, rfl⟩ | ⟨rfl, rfl⟩
    · refine ⟨⟨hnum, ?_, hans⟩, ⟨rfl, rfl⟩, hsame⟩
      rintro _ ⟨⟩ r hr
      obtain rfl := List.mem_singleton.mp hr
      exact ⟨rfl, hp⟩
    · have hsuits : Suits active.key request := ⟨by rw [hkey]; rfl, by rw [hkey]; exact hp⟩
      exact ⟨⟨hnum, heldSuit_join hheld hactive hactive' rfl rfl hsuits, hans⟩, trivial, hsame⟩
    · exact ⟨⟨hnum, hheld, hans⟩, trivial, hsame⟩
    · exact ⟨⟨hnum, hheld, hans⟩, trivial, hsame⟩
  | busyReply => exact ⟨⟨hnum, hheld, herror _ _ _⟩, trivial, hsame⟩
  | @waitUntilIdle returns c h =>
    refine ⟨⟨hnum, ?_, hans⟩, by cases returns <;> trivial, hsame⟩
    exact waitUntilIdle_state h ▸ hheld
  | @wake returns c h =>
    have hstate : c.state = sh.coordinator.state := (waitUntilIdle_state h).trans rfl
    refine ⟨⟨hnum, ?_, hans⟩, by cases returns <;> trivial, hsame⟩
    exact hstate ▸ hheld
  | @execute guard configuration =>
    obtain ⟨hopt, hgen⟩ := hp
    have hsub : ∀ scan ∈ sh.scans, scan ∈ sh.scans ++
        [(⟨sh.nextRefreshId, request.options, configuration.generation⟩ : Scan)] :=
      fun scan hscan => List.mem_append_left _ hscan
    refine ⟨⟨scansNumbered_append hnum rfl, hheld, hans.mono hsub⟩,
      ⟨hopt, ?_, hopt.symm, hgen⟩, hsub⟩
    exact List.mem_append_right _ (List.mem_singleton.mpr rfl)
  | search h =>
    obtain ⟨hsh', hscans⟩ := workersStep_answers h ⟨hnum, hheld, hans⟩
    rw [hscans]
    exact ⟨hsh', hp, hsame⟩
  | sync _ h =>
    obtain ⟨_, _, rfl⟩ := h.frame
    exact ⟨⟨hnum, hheld, hans⟩, hp, hsame⟩
  | returned =>
    refine ⟨⟨hnum, hheld, hans⟩, ⟨hp.1, hp.2, ?_⟩, hsame⟩
    rintro _ ⟨⟩
    rfl
  | panicked =>
    refine ⟨⟨hnum, hheld, hans⟩, ⟨hp.1, hp.2, ?_⟩, hsame⟩
    rintro _ ⟨⟩
  | beginCompletion h =>
    obtain ⟨active, hstate, -, rfl⟩ := RefreshCoordinator.beginCompletion_ok h
    refine ⟨⟨hnum, ?_, hans⟩, hp, hsame⟩
    rintro _ ⟨⟩
    exact hheld active (by rw [hstate]; rfl)
  -- the requests move to the guard, and with them that the key of its scan suits them
  | drain h =>
    obtain ⟨-, hrun, hkey⟩ := hfits
    obtain ⟨active, hstate, heq, rfl, rfl⟩ := drainRequestIds_ok hrun hkey h
    refine ⟨⟨hnum, ?_, hans⟩, ⟨hp.1, hp.2.1, hp.2.2, ?_⟩, hsame⟩
    · rintro _ ⟨⟩ r hr
      cases hr
    · rw [← heq]
      exact hheld active (by rw [hstate]; rfl)
  | @send guard scan execution r pending =>
    obtain ⟨hopt, hscan, hres, hsuits⟩ := hp
    refine ⟨⟨hnum, hheld, ?_⟩,
      ⟨hopt, hscan, hres, fun r' hr' => hsuits r' (List.mem_cons_of_mem _ hr')⟩, hsame⟩
    refine hans.append ?_
    intro r' result ho
    cases execution with
    | none => cases ho
    | some result =>
      cases ho
      -- a reply goes to a request that the scan of the guard suits
      obtain ⟨hropt, hrgen⟩ := hsuits r (List.mem_cons_self ..)
      exact ⟨scan, hscan.1, (hres result rfl).symm, by rw [hscan.2.1, hropt],
        by rw [hscan.2.2]; exact hrgen⟩
  | notEmpty h =>
    obtain rfl := RefreshCoordinator.completeIfEmpty_false h
    exact ⟨⟨hnum, hheld, hans⟩, ⟨hp.1, hp.2.1, hp.2.2.1⟩, hsame⟩
  | @completed guard scan execution c h =>
    obtain ⟨active, -, -, -, rfl⟩ := RefreshCoordinator.completeIfEmpty_true h
    refine ⟨⟨hnum, ?_, hans⟩, ⟨hp.1, by cases execution <;> trivial⟩, hsame⟩
    rintro _ ⟨⟩
  | telemetry h =>
    obtain ⟨hsh', hscans⟩ := workersStep_answers h ⟨hnum, hheld, hans⟩
    rw [hscans]
    exact ⟨hsh', hp, hsame⟩
  | drop => exact ⟨⟨hnum, heldSuit_drop hheld, hans⟩, trivial, hsame⟩
  | dropUnwinding => exact ⟨⟨hnum, heldSuit_drop hheld, hans⟩, trivial, hsame⟩
  | unwoundReply => exact ⟨⟨hnum, hheld, herror _ _ _⟩, trivial, hsame⟩
  | _ => exact ⟨⟨hnum, hheld, hans⟩, ⟨hp.1, trivial⟩, hsame⟩

end Step

/-! ## Every reachable state -/

section Runs

variable {s : ServerState ι ν}

/-- **The freshness invariant.** -/
theorem freshness (h : (server ι ν os).Reachable s) :
    ContextFresh s.shared ∧ ∀ (i : ℕ) t, s.tasks[i]? = some t → TaskFresh s.shared i t := by
  refine TaskSystem.invariant (G := ContextFresh) (L := TaskFresh) ?_ ?_ ?_ ?_ h
  · rintro sh ⟨-, -, -, -, -, hcoord, -, hscans, -, hout⟩
    refine ⟨⟨by simp [hscans], by simp [hscans]⟩, ?_, ?_⟩
    · rw [hcoord]
      rintro active ⟨⟩
    · rw [hout]
      intro request result hmem
      cases hmem
  · intro s t _ _ harrival
    cases harrival with
    | refresh => exact ⟨le_refl _, trivial⟩
    | configure => trivial
  · intro s i t a sh' t' hs ht hstep hG hL
    have hmono : s.shared.configuration.generation ≤ sh'.configuration.generation :=
      generation_le_of_step hs (TaskSystem.Step.step ht hstep)
    have hfits := (coordination hs).2.2 i t ht
    cases hstep with
    | refresh h =>
      obtain ⟨hsh', hp', -⟩ := refresh_fresh h hfits hG hL.1 hL.2
      exact ⟨hsh', hL.1.trans hmono, hp'⟩
    | configure h =>
      obtain ⟨hcoord, hscans, hnext, -⟩ := h.frame
      refine ⟨⟨?_, by rw [hcoord]; exact hG.held, ?_⟩, trivial⟩
      · rw [ScansNumbered, hscans, hnext]
        exact hG.numbered
      · rw [hscans]
        rcases h.output with heq | ⟨outcome, heq⟩
        · rw [heq]
          exact hG.answers
        · rw [heq]
          refine hG.answers.append ?_
          intro _ _ ho
          cases outcome <;> cases ho
  · intro s i t a sh' t' j u hs ht hstep _ _ hG hL hu
    have hmono : s.shared.configuration.generation ≤ sh'.configuration.generation :=
      generation_le_of_step hs (TaskSystem.Step.step ht hstep)
    cases u with
    | configure => trivial
    | refresh request phase =>
      refine ⟨hu.1.trans hmono, ?_⟩
      cases hstep with
      | refresh h =>
        have hfits := (coordination hs).2.2 i _ ht
        exact phaseFresh_mono (refresh_fresh h hfits hG hL.1 hL.2).2.2 hu.2
      | configure h =>
        rw [h.frame.2.1]
        exact hu.2

/-- **Freshness and sound joining.** The result that answers a request is that of one scan
with exactly the request's options, executed under a configuration at least as new as the
one committed when the request arrived; and whatever a running or completing refresh
holds at any time has the options of its scan and arrived under no newer configuration. -/
theorem refresh_freshness (h : (server ι ν os).Reachable s) :
    (∀ request result, .refreshed request result ∈ s.shared.output →
      ∃ scan ∈ s.shared.scans, scan.id = result.refreshId ∧
        (∀ other ∈ s.shared.scans, other.id = result.refreshId → other = scan) ∧
        scan.options = request.options ∧ request.arrivedAt ≤ scan.generation) ∧
    (∀ active, s.shared.coordinator.state.active? = some active →
      ∀ request ∈ active.requestIds, request.options = active.key.options ∧
        request.arrivedAt ≤ active.key.configurationGeneration) ∧
    (∀ (i : ℕ) request guard scan workers sync,
      s.tasks[i]? =
        some (.refresh request (.owning guard (.executing scan workers sync))) →
      s.shared.coordinator.state.activeKey? = some ⟨scan.options, scan.generation⟩) := by
  obtain ⟨hG, hL⟩ := freshness h
  refine ⟨?_, hG.held, ?_⟩
  · intro request result hmem
    obtain ⟨scan, hscan, hid, hopt, hgen⟩ := hG.answers request result hmem
    refine ⟨scan, hscan, hid, ?_, hopt, hgen⟩
    intro other hother hid'
    exact List.inj_on_of_nodup_map hG.numbered.1 hother hscan (hid'.trans hid.symm)
  · intro i request guard scan workers sync ht
    obtain ⟨-, -, hscan⟩ := (hL i _ ht).2
    have hfits := (coordination h).2.2 i _ ht
    rw [show s.shared.coordinator.state.activeKey? = some guard.key from hfits.2.2,
      hscan.1, hscan.2]

end Runs

/-- The theorem for a refresh that has been answered. -/
theorem refresh_freshness_answered :
    ∃ scan ∈ answeredState.shared.scans, scan.id = 1 ∧
      (∀ other ∈ answeredState.shared.scans, other.id = 1 → other = scan) ∧
      scan.options = (sampleRequest 8).options ∧
      (sampleRequest 8).arrivedAt ≤ scan.generation :=
  (refresh_freshness answeredState_reachable.of_when).1 (sampleRequest 8) ⟨5, 1⟩
    (by simp [answeredState])

end REnvTools.Analysis
