import REnvTools.Analysis.Coordination

/-!
# One response for each refresh request

The id of a request is in one place at a time: with its own thread until it registers,
in the coordinator, with the thread that drained it, and at last in the output. Each
step moves ids between two of these places (`refresh_moves`), so together they are what
was received.

A thread that unwinds after its scan loses what it drained and may answer its own request
twice, so this is about runs without the action `unwind`: only `execute_refresh` panics.
-/

set_option autoImplicit false

namespace REnvTools.Analysis

open Program Lib Model

variable {ι ν : Type} {os : Os}

/-! ## Where the ids are -/

/-- The request an output answers. -/
def answered? : Output ι ν → Option ι
  | .refreshed request _ => some request.id
  | .refreshError request _ _ => some request.id
  | _ => none

/-- The requests that the output answers. -/
def answeredIds (output : List (Output ι ν)) : Multiset ι := ↑(output.filterMap answered?)

/-- The ids the coordinator holds. -/
def heldIds (state : RefreshCoordinatorState (RefreshRequest ι)) : Multiset ι :=
  ↑(state.requestIds.map (·.id))

/-- The request of a refresh that has not put it into the coordinator yet. -/
def phaseUnregistered (request : RefreshRequest ι) : RefreshPhase ι ν → Multiset ι
  | .looping | .registering _ | .busy | .waiting | .parked => {request.id}
  | _ => 0

/-- The request of a thread that has not put it into the coordinator yet. -/
def unregisteredIds : Task ι ν → Multiset ι
  | .refresh request phase => phaseUnregistered request phase
  | .configure .. => 0

/-- The requests a refresh drained and has still to answer. -/
def phaseDraining : RefreshPhase ι ν → Multiset ι
  | .owning _ (.replying _ _ pending) => ↑(pending.map (·.id))
  | _ => 0

/-- The requests a thread drained and has still to answer. -/
def drainingIds : Task ι ν → Multiset ι
  | .refresh _ phase => phaseDraining phase
  | .configure .. => 0

/-- The request a thread was started for. -/
def receivedIds : Task ι ν → Multiset ι
  | .refresh request _ => {request.id}
  | .configure .. => 0

/-- The responses `handle_refresh` gives of its own accord: the result of a scan, the
error of a scan, or that the coordinator is full. -/
def ProperResponse (o : Output ι ν) : Prop :=
  (∃ request result, o = .refreshed request result) ∨ (∃ request, o = scanReply none request) ∨
    ∃ request, o = busyReply request

/-- The refresh has not unwound. -/
def NotUnwound : RefreshPhase ι ν → Prop
  | .owning _ (.unwinding _) | .unwound => False
  | _ => True

/-- The thread has not unwound. -/
def TaskNotUnwound : Task ι ν → Prop
  | .refresh _ phase => NotUnwound phase
  | .configure .. => True

/-! ## One step -/

section Step

variable {i : ℕ} {request : RefreshRequest ι} {sh sh' : Context ι ν} {a : Action}
  {phase phase' : RefreshPhase ι ν} {scan : Scan}

/-- INTERNAL: the answered requests of two outputs. -/
@[simp] theorem answeredIds_append (output o : List (Output ι ν)) :
    answeredIds (output ++ o) = answeredIds output + answeredIds o := by
  simp only [answeredIds, List.filterMap_append, Multiset.coe_add]

/-- The answer to a configure request answers no refresh. -/
theorem answered?_configureReply (r : ConfigureRequest ι) (outcome : Except String ℕ) :
    answered? (configureReply r outcome : Output ι ν) = none := by
  cases outcome <;> rfl

/-- INTERNAL: the reply to a request answers this request. -/
@[simp] theorem answeredIds_scanReply (execution : Option RefreshResult)
    (r : RefreshRequest ι) : answeredIds [(scanReply execution r : Output ι ν)] = {r.id} := by
  cases execution <;> rfl

/-- What reporting writes answers nobody. -/
theorem workersStep_answeredIds {workers workers' : List (Worker ν)}
    (h : WorkersStep scan sh workers sh' workers') :
    answeredIds sh'.output = answeredIds sh.output ∧ sh'.coordinator = sh.coordinator := by
  cases h with
  | start => exact ⟨rfl, rfl⟩
  | step _ h =>
    cases h with
    | @emit payload payloads =>
      have hnone : answeredIds
          [(.notification scan payload sh.configuration.generation : Output ι ν)] = 0 := rfl
      exact ⟨by simp [hnone], rfl⟩
    | _ => exact ⟨rfl, rfl⟩

/-- **A step moves ids** between its own thread, the coordinator and the output, and
loses none. -/
theorem refresh_moves (h : RefreshStep i request sh phase .advance sh' phase')
    (hp : PhaseFits sh.coordinator.state phase) (hw : NotUnwound phase) :
    answeredIds sh'.output + heldIds sh'.coordinator.state +
        (phaseDraining phase' + phaseUnregistered request phase') =
      answeredIds sh.output + heldIds sh.coordinator.state +
        (phaseDraining phase + phaseUnregistered request phase) := by
  cases h with
  | snapshot => rfl
  | @register configuration registration c h =>
    rcases RefreshCoordinator.register_cases h with ⟨rfl, hidle, rfl⟩ |
      ⟨rfl, hwait, hrun, active, hactive, hkey, hlen, hactive'⟩ | ⟨rfl, rfl⟩ | ⟨rfl, rfl⟩
    · simp [heldIds, hidle, registered, phaseDraining, phaseUnregistered]
    -- the id goes from the request to the active refresh
    · have hheld : heldIds c.state = heldIds sh.coordinator.state + {request.id} := by
        simp [heldIds, RefreshCoordinatorState.requestIds, hactive, hactive',
          ← Multiset.coe_add]
      simp only [hheld, registered, phaseDraining, phaseUnregistered]
      abel
    · rfl
    · rfl
  | busyReply =>
    have hbusy : answeredIds [(busyReply request : Output ι ν)] = {request.id} := rfl
    simp only [answeredIds_append, hbusy, phaseDraining, phaseUnregistered]
    abel
  | @waitUntilIdle returns c h =>
    have hstate : c.state = sh.coordinator.state := waitUntilIdle_state h
    cases returns <;> simp [hstate, phaseDraining, phaseUnregistered]
  | @wake returns c h =>
    have hstate := waitUntilIdle_state h
    cases returns <;>
      simp [hstate, RefreshCoordinator.unpark, phaseDraining, phaseUnregistered]
  | execute => rfl
  | search h =>
    obtain ⟨hanswered, hc⟩ := workersStep_answeredIds h
    simp [hanswered, hc, phaseDraining, phaseUnregistered]
  | sync _ h =>
    obtain ⟨_, _, rfl⟩ := h.frame
    rfl
  | returned => rfl
  | panicked => rfl
  | beginCompletion h =>
    obtain ⟨active, hstate, -, rfl⟩ := RefreshCoordinator.beginCompletion_ok h
    simp [heldIds, hstate, phaseDraining, phaseUnregistered]
  | beginCompletionPanics => rfl
  | drain h =>
    obtain ⟨-, hrun, hkey⟩ := hp
    obtain ⟨active, hstate, -, rfl, rfl⟩ := drainRequestIds_ok hrun hkey h
    simp [heldIds, hstate, phaseDraining, phaseUnregistered]
  | drainPanics => rfl
  | @send guard scan execution r pending =>
    -- the id of the first pending request goes to the output
    have hpending : (↑((r :: pending).map (·.id)) : Multiset ι) =
        {r.id} + ↑(pending.map (·.id)) := rfl
    simp only [answeredIds_append, answeredIds_scanReply, phaseDraining, hpending,
      phaseUnregistered]
    abel
  | notEmpty h =>
    obtain rfl := RefreshCoordinator.completeIfEmpty_false h
    simp [phaseDraining, phaseUnregistered]
  | @completed guard scan execution c h =>
    obtain ⟨active, hstate, -, hempty, rfl⟩ := RefreshCoordinator.completeIfEmpty_true h
    cases execution <;>
      simp [heldIds, hstate, hempty, phaseDraining, phaseUnregistered]
  | completePanics => simp [phaseDraining, phaseUnregistered]
  | telemetry h =>
    obtain ⟨hanswered, hc⟩ := workersStep_answeredIds h
    simp [hanswered, hc, phaseDraining, phaseUnregistered]
  | reported => rfl
  | @drop guard =>
    have hdrop : guard.drop sh.coordinator = sh.coordinator := by
      simp [RefreshGuard.drop, show guard.completed = true from hp]
    simp [hdrop, phaseDraining, phaseUnregistered]
  | dropUnwinding => exact hw.elim
  | unwoundReply => exact hw.elim

/-- What a thread that does not unwind sends is a proper response. -/
theorem refresh_proper (h : RefreshStep i request sh phase .advance sh' phase')
    (hw : NotUnwound phase)
    (hsh : ∀ o ∈ sh.output, answered? o ≠ none → ProperResponse o) :
    ∀ o ∈ sh'.output, answered? o ≠ none → ProperResponse o := by
  have happend : ∀ o : Output ι ν, (answered? o ≠ none → ProperResponse o) →
      ∀ x ∈ sh.output ++ [o], answered? x ≠ none → ProperResponse x := by
    intro o ho x hx
    rcases List.mem_append.mp hx with hx | hx
    · exact hsh x hx
    · obtain rfl := List.mem_singleton.mp hx
      exact ho
  have hworkers : ∀ {scan : Scan} {workers workers' : List (Worker ν)},
      WorkersStep scan sh workers sh' workers' →
      ∀ o ∈ sh'.output, answered? o ≠ none → ProperResponse o := by
    intro scan workers workers' h
    cases h with
    | start => exact hsh
    | step _ h =>
      cases h with
      | emit => exact happend _ fun ho => absurd rfl ho
      | _ => exact hsh
  cases h with
  | busyReply => exact happend _ fun _ => .inr (.inr ⟨request, rfl⟩)
  | search h => exact hworkers h
  | telemetry h => exact hworkers h
  | sync _ h =>
    obtain ⟨_, _, rfl⟩ := h.frame
    exact hsh
  | @send guard scan execution r pending =>
    refine happend _ fun _ => ?_
    cases execution with
    | none => exact .inr (.inl ⟨r, rfl⟩)
    | some result => exact .inl ⟨r, result, rfl⟩
  | unwoundReply => exact hw.elim
  | _ => exact hsh

/-- A thread that does not unwind stays so, but for a mismatch of the coordinator. -/
theorem notUnwound_step (h : RefreshStep i request sh phase .advance sh' phase')
    (hp : PhaseFits sh'.coordinator.state phase') (hw : NotUnwound phase) :
    NotUnwound phase' := by
  cases h with
  | @register configuration registration c h => cases registration <;> trivial
  | @waitUntilIdle returns c h => cases returns <;> trivial
  | @wake returns c h => cases returns <;> trivial
  | @completed guard scan execution c h => cases execution <;> trivial
  | beginCompletionPanics => exact absurd hp.1 (by simp)
  | drainPanics => exact absurd hp.1 (by simp)
  | completePanics => exact absurd hp.1 (by simp)
  | dropUnwinding => exact hw.elim
  | _ => trivial

end Step

/-! ## Every run without unwinding -/

section Runs

variable {s : ServerState ι ν}

/-- INTERNAL: a step that does not unwind advances. -/
theorem eq_advance_of_noUnwind {i : ℕ} {a : Action} (hC : NoUnwind s (.step i a)) :
    a = .advance := by
  cases a with
  | advance => rfl
  | unwind => exact absurd rfl (hC i)

/-- No thread has unwound in a run in which none does. -/
theorem notUnwound_of_reachable (h : ((server ι ν os).machine.when NoUnwind).Reachable s) :
    (∀ o ∈ s.shared.output, answered? o ≠ none → ProperResponse o) ∧
      ∀ (i : ℕ) t, s.tasks[i]? = some t → TaskNotUnwound t := by
  refine TaskSystem.invariant_when
    (G := fun sh => ∀ o ∈ sh.output, answered? o ≠ none → ProperResponse o)
    (L := fun _ _ t => TaskNotUnwound t) ?_ ?_ ?_ ?_ h
  · intro sh hinit o ho
    rw [hinit.2.2.2.2.2.2.2.2.2] at ho
    cases ho
  · intro s t _ _ _ harrival
    cases harrival <;> trivial
  · intro s i t a sh' t' hs hC ht hstep hG hL
    have hi : i < s.tasks.length := (List.getElem?_eq_some_iff.mp ht).1
    have hfits := coordination (.step hs.of_when (TaskSystem.Step.step ht hstep))
    have hfits' := hfits.2.2 i t' (List.getElem?_set_self hi)
    cases hstep with
    | @refresh _ _ _ phase phase' h =>
      obtain rfl := eq_advance_of_noUnwind hC
      exact ⟨refresh_proper h hL hG, notUnwound_step h hfits' hL⟩
    | configure h =>
      refine ⟨?_, trivial⟩
      rcases h.output with heq | ⟨outcome, heq⟩
      · rwa [heq]
      · intro o ho hanswered
        rw [heq] at ho
        rcases List.mem_append.mp ho with ho | ho
        · exact hG o ho hanswered
        · obtain rfl := List.mem_singleton.mp ho
          exact absurd (answered?_configureReply _ _) hanswered
  · intro s i t a sh' t' j u _ _ _ _ _ _ _ _ hu
    exact hu

/-- The ids are conserved. -/
theorem ids_conserved (h : ((server ι ν os).machine.when NoUnwind).Reachable s) :
    answeredIds s.shared.output + heldIds s.shared.coordinator.state +
        (s.tasks.map fun t => drainingIds t + unregisteredIds t).sum =
      (s.tasks.map receivedIds).sum := by
  refine TaskSystem.conserved_when
    (f := fun sh => answeredIds sh.output + heldIds sh.coordinator.state) ?_ ?_ ?_ h
  · intro sh hinit
    rw [hinit.2.2.2.2.2.1, hinit.2.2.2.2.2.2.2.2.2]
    rfl
  · intro sh t harrival
    cases harrival <;> simp [drainingIds, phaseDraining, unregisteredIds, phaseUnregistered,
      receivedIds]
  · intro s i t a sh' t' hs hC ht hstep
    have hfits := (coordination hs.of_when).2.2 i t ht
    have hw := (notUnwound_of_reachable hs).2 i t ht
    cases hstep with
    | @refresh _ _ _ phase phase' h =>
      obtain rfl := eq_advance_of_noUnwind hC
      exact ⟨refresh_moves h hfits hw, rfl⟩
    | configure h =>
      refine ⟨?_, rfl⟩
      obtain ⟨hc, -⟩ := h.frame
      have hanswered : answeredIds sh'.output = answeredIds s.shared.output := by
        rcases h.output with heq | ⟨outcome, heq⟩
        · rw [heq]
        · rw [heq, answeredIds_append]
          simp [answeredIds, answered?_configureReply]
      rw [hc, hanswered]
      rfl

/-- When every refresh thread has finished, the coordinator is idle and nobody holds an
id. -/
theorem idle_of_finished (h : (server ι ν os).Reachable s)
    (hfinished : ∀ t ∈ s.tasks, ∀ request phase, t = .refresh request phase →
      phase = .finished) :
    s.shared.coordinator.state = .idle ∧
      (s.tasks.map fun t => drainingIds t + unregisteredIds t).sum = 0 := by
  have hzero : ∀ t ∈ s.tasks, live t = 0 ∧ drainingIds t + unregisteredIds t = 0 := by
    intro t ht
    cases t with
    | configure => exact ⟨rfl, rfl⟩
    | refresh request phase =>
      obtain rfl := hfinished _ ht _ _ rfl
      exact ⟨rfl, rfl⟩
  constructor
  · apply RefreshCoordinatorState.occupied_eq_zero.mp
    rw [(coordination h).1]
    apply List.sum_eq_zero
    intro n hn
    obtain ⟨t, ht, rfl⟩ := List.mem_map.mp hn
    exact (hzero t ht).1
  · apply List.sum_eq_zero
    intro n hn
    obtain ⟨t, ht, rfl⟩ := List.mem_map.mp hn
    exact (hzero t ht).2

/-- **Exactly one response per refresh request**, in every run in which only
`execute_refresh` panics: no id is lost or answered twice, and when the refresh threads
have finished each request has exactly one response, which is the result or the error of
a scan or the busy error. -/
theorem exactly_one_response
    (h : ((server ι ν os).machine.when NoUnwind).Reachable s) :
    answeredIds s.shared.output +
        (heldIds s.shared.coordinator.state + (s.tasks.map drainingIds).sum) +
        (s.tasks.map unregisteredIds).sum = (s.tasks.map receivedIds).sum ∧
    ((∀ t ∈ s.tasks, ∀ request phase, t = .refresh request phase → phase = .finished) →
      answeredIds s.shared.output = (s.tasks.map receivedIds).sum) ∧
    (∀ o ∈ s.shared.output, answered? o ≠ none → ProperResponse o) := by
  have hids := ids_conserved h
  refine ⟨?_, ?_, (notUnwound_of_reachable h).1⟩
  · rw [← hids, List.sum_map_add]
    abel
  · intro hfinished
    obtain ⟨hidle, hnone⟩ := idle_of_finished h.of_when hfinished
    rw [← hids, hidle, hnone]
    simp [heldIds]

end Runs

/-! ## The sample run to its end -/

/-- The shared scan reported one installation, was synchronised and answered both. -/
def answeredState : ServerState ℕ String :=
  ⟨{ sampleContext with
      locators := [⟨.syncedDiscoveryState, some Configuration.default, some 1⟩]
      nextRefreshId := 2
      scans := [sampleScan]
      output := [.notification sampleScan "R 4.4.1" 0, .refreshed (sampleRequest 7) ⟨5, 1⟩,
        .refreshed (sampleRequest 8) ⟨5, 1⟩] },
    [.refresh (sampleRequest 7) .finished, .refresh (sampleRequest 8) .finished]⟩

/-- INTERNAL: the state after the answers is reached. -/
theorem answeredState_reachable :
    ((server ℕ String sampleOs).machine.when NoUnwind).Reachable answeredState := by
  have hjoined : Joined [(Worker.ready : Worker String)] := by
    intro w hw
    exact List.mem_singleton.mp hw
  have hnone : Joined ([] : List (Worker String)) := by
    intro w hw
    cases hw
  have h0 := joinedState_reachable
  have h1 := advance (i := 0) h0 rfl (.refresh (.search .start))
  have h2 := advance (i := 0) h1 rfl (.refresh (.search (.step (j := 0) rfl
    (.lock ["R 4.4.1"]))))
  have h3 := advance (i := 0) h2 rfl (.refresh (.search (.step (j := 0) rfl .check)))
  have h4 := advance (i := 0) h3 rfl (.refresh (.search (.step (j := 0) rfl .emit)))
  have h5 := advance (i := 0) h4 rfl (.refresh (.search (.step (j := 0) rfl .stop)))
  have h6 := advance (i := 0) h5 rfl (.refresh (.search (.step (j := 0) rfl .unlock)))
  have h7 := advance (i := 0) h6 rfl (.refresh (.sync hjoined .lock))
  have h8 := advance (i := 0) h7 rfl (.refresh (.sync hjoined .check))
  have h9 := advance (i := 0) h8 rfl (.refresh (.sync hjoined (.sync (k := 0) rfl)))
  have h10 := advance (i := 0) h9 rfl (.refresh (.sync hjoined (.synced (k := 1) rfl)))
  have h11 := advance (i := 0) h10 rfl (.refresh (.sync hjoined .unlock))
  have h12 := advance (i := 0) h11 rfl (.refresh (.returned hjoined 5))
  have h13 := advance (i := 0) h12 rfl (.refresh (.beginCompletion rfl))
  have h14 := advance (i := 0) h13 rfl (.refresh (.drain rfl))
  have h15 := advance (i := 0) h14 rfl (.refresh .send)
  have h16 := advance (i := 0) h15 rfl (.refresh .send)
  have h17 := advance (i := 0) h16 rfl (.refresh (.completed rfl))
  have h18 := advance (i := 0) h17 rfl (.refresh (.reported hnone))
  exact advance (i := 0) h18 rfl (.refresh .drop)

/-- The theorem for a state in which the requests have been answered. -/
theorem exactly_one_response_answered :
    answeredIds answeredState.shared.output = (answeredState.tasks.map receivedIds).sum :=
  (exactly_one_response answeredState_reachable).2.1 (by
    intro t ht request phase heq
    subst heq
    simp only [answeredState, List.mem_cons, List.not_mem_nil, or_false] at ht
    rcases ht with ht | ht <;> cases ht <;> rfl)

end REnvTools.Analysis
