import REnvTools.Analysis.Transactions

/-!
# Generation fencing

A reporter thread compares generations and reports under one read guard, and so does the
block that synchronises the shared locators; the commit waits for the guards. The number
of readers is the sum of the guards the threads hold (`reads`), so at a commit nobody is
between a comparison and what it protects.

* `fencing`: the invariant, with the readers counted thread by thread.
* `generation_fencing`: what a client sees.
-/

set_option autoImplicit false

namespace REnvTools.Analysis

open Program Lib Model

variable {ι ν : Type} {os : Os}

/-! ## Read guards -/

/-- The read guard that a reporter thread holds. -/
def workerReads : Worker ν → ℕ
  | .ready => 0
  | _ => 1

/-- The read guards of a refresh and its reporter threads. -/
def phaseReads : RefreshPhase ι ν → ℕ
  | .owning _ (.executing _ workers sync) => (workers.map workerReads).sum + sync.reads
  | .owning _ (.reporting _ workers) => (workers.map workerReads).sum
  | _ => 0

/-- The read guards of the configuration a thread and its reporter threads hold. -/
def reads : Task ι ν → ℕ
  | .refresh _ phase => phaseReads phase
  | .configure .. => 0

/-- INTERNAL: workers that have been joined hold no read guard. -/
theorem sum_workerReads_of_joined {workers : List (Worker ν)} (h : Joined workers) :
    (workers.map workerReads).sum = 0 := by
  apply List.sum_eq_zero
  intro n hn
  obtain ⟨w, hw, rfl⟩ := List.mem_map.mp hn
  rw [h w hw]
  rfl

/-! ## The invariant -/

/-- Past its comparison, a report is about the committed generation. -/
def WorkerFenced (generation : ℕ) (scan : Scan) : Worker ν → Prop
  | .current _ => scan.generation = generation
  | _ => True

/-- The state of the locators is taken over while the generation of the scan is the committed one.
-/
def SyncFenced (generation : ℕ) (scan : Scan) : SyncStage → Prop
  | .syncing _ => scan.generation = generation
  | _ => True

/-- What the threads of a scan write is about the committed generation. -/
def PhaseFenced (generation : ℕ) : RefreshPhase ι ν → Prop
  | .owning _ (.executing scan workers sync) =>
    (∀ w ∈ workers, WorkerFenced generation scan w) ∧ SyncFenced generation scan sync
  | .owning _ (.reporting scan workers) => ∀ w ∈ workers, WorkerFenced generation scan w
  | _ => True

/-- A generation that is about to be confirmed has been committed. -/
def ReplyFenced (generation : ℕ) : ConfigurePhase → Prop
  | .unlocking _ (.ok n) | .replying _ _ (.ok n) => n ≤ generation
  | _ => True

/-- What a thread is about to write is fenced. -/
def TaskFenced (sh : Context ι ν) (_ : ℕ) : Task ι ν → Prop
  | .refresh _ phase => PhaseFenced sh.configuration.generation phase
  | .configure _ phase => ReplyFenced sh.configuration.generation phase

/-- The later output is not a notification of an older generation than the earlier output
confirms. -/
def NotStale (earlier later : Output ι ν) : Prop :=
  ∀ request n scan payload committed, earlier = .configured request n →
    later = .notification scan payload committed → n ≤ scan.generation

/-- What has been written is fenced. -/
structure OutputFenced (generation : ℕ) (output : List (Output ι ν)) : Prop where
  current : ∀ scan payload committed,
    .notification scan payload committed ∈ output → committed = scan.generation
  confirmed : ∀ request n, .configured request n ∈ output → n ≤ generation
  ordered : output.Pairwise NotStale

/-! ## Output -/

section Output

variable {generation generation' : ℕ} {output : List (Output ι ν)}

/-- What was fenced remains so when the generation grows. -/
theorem OutputFenced.mono (h : OutputFenced generation output)
    (hle : generation ≤ generation') : OutputFenced generation' output :=
  ⟨h.current, fun request n hn => (h.confirmed request n hn).trans hle, h.ordered⟩

/-- What is written last must be of the current generation. -/
theorem OutputFenced.append (h : OutputFenced generation output) {o : Output ι ν}
    (hcurrent : ∀ scan payload committed, o = .notification scan payload committed →
      committed = scan.generation ∧ scan.generation = generation)
    (hconfirmed : ∀ request n, o = .configured request n → n ≤ generation) :
    OutputFenced generation (output ++ [o]) := by
  refine ⟨?_, ?_, ?_⟩
  · intro scan payload committed hmem
    rcases List.mem_append.mp hmem with hmem | hmem
    · exact h.current _ _ _ hmem
    · exact (hcurrent _ _ _ (List.mem_singleton.mp hmem).symm).1
  · intro request n hmem
    rcases List.mem_append.mp hmem with hmem | hmem
    · exact h.confirmed _ _ hmem
    · exact hconfirmed _ _ (List.mem_singleton.mp hmem).symm
  · rw [List.pairwise_append]
    refine ⟨h.ordered, List.pairwise_singleton _ _, ?_⟩
    rintro earlier hearlier later hlater request n scan payload committed rfl rfl
    have hn := h.confirmed _ _ hearlier
    have hgen := (hcurrent _ _ _ (List.mem_singleton.mp hlater).symm).2
    omega

end Output

/-! ## One step -/

section Step

variable {i : ℕ} {sh sh' : Context ι ν} {scan : Scan}

/-- Without read guards nothing is past its comparison. -/
theorem phaseFenced_of_no_reads {generation : ℕ} {phase : RefreshPhase ι ν}
    (h : phaseReads phase = 0) : PhaseFenced generation phase := by
  have hworkers : ∀ (scan : Scan) (workers : List (Worker ν)),
      (workers.map workerReads).sum = 0 →
      ∀ w ∈ workers, WorkerFenced generation scan w := by
    intro scan workers hsum w hw
    have hle : workerReads w ≤ (workers.map workerReads).sum :=
      List.single_le_sum (fun _ _ => Nat.zero_le _) _ (List.mem_map_of_mem hw)
    cases w with
    | current => simp only [workerReads] at hle; omega
    | _ => trivial
  cases phase with
  | owning guard stage =>
    cases stage with
    | executing scan workers sync =>
      simp only [phaseReads] at h
      refine ⟨hworkers scan workers (by omega), ?_⟩
      cases sync with
      | syncing => simp only [SyncStage.reads] at h; omega
      | _ => trivial
    | reporting scan workers => exact hworkers scan workers h
    | _ => trivial
  | _ => trivial

/-- One step of the reporter threads of a scan. -/
theorem workersStep_fenced {workers workers' : List (Worker ν)}
    (h : WorkersStep scan sh workers sh' workers')
    (hle : (workers.map workerReads).sum ≤ sh.readers)
    (hout : OutputFenced sh.configuration.generation sh.output)
    (hw : ∀ w ∈ workers, WorkerFenced sh.configuration.generation scan w) :
    sh'.readers + (workers.map workerReads).sum =
        sh.readers + (workers'.map workerReads).sum ∧
      sh'.configuration = sh.configuration ∧
      OutputFenced sh.configuration.generation sh'.output ∧
      ∀ w ∈ workers', WorkerFenced sh.configuration.generation scan w := by
  cases h with
  | start =>
    refine ⟨by simp [workerReads], rfl, hout, fun w hmem => ?_⟩
    rcases List.mem_append.mp hmem with hmem | hmem
    · exact hw w hmem
    · obtain rfl := List.mem_singleton.mp hmem
      trivial
  | @step _ _ j w w' hj h =>
    have hsum := Pool.sum_map_set workerReads hj w'
    have hone := Pool.le_sum_map workerReads hj
    have hself := hw w (List.mem_of_getElem? hj)
    have hset : WorkerFenced sh.configuration.generation scan w' →
        ∀ x ∈ workers.set j w', WorkerFenced sh.configuration.generation scan x := by
      intro hw' x hx
      rcases List.mem_or_eq_of_mem_set hx with hx | rfl
      · exact hw x hx
      · exact hw'
    cases h with
    | lock payloads =>
      simp only [workerReads] at hsum
      exact ⟨by simp only; omega, rfl, hout, hset trivial⟩
    -- compared under the read lock: until that is released, the generation is that of the scan
    | @check payloads =>
      have hsame : workerReads (if sh.configuration.generation = scan.generation
          then Worker.current payloads else .leaving) = 1 := by
        split <;> rfl
      rw [hsame] at hsum
      simp only [workerReads] at hsum
      refine ⟨by omega, rfl, hout, hset ?_⟩
      split
      · rename_i heq
        exact heq.symm
      · trivial
    | emit =>
      simp only [workerReads] at hsum
      refine ⟨by simp only; omega, rfl, hout.append ?_ ?_, hset hself⟩
      · rintro _ _ _ ⟨⟩
        exact ⟨Eq.symm hself, hself⟩
      · rintro _ _ ⟨⟩
    | stop =>
      simp only [workerReads] at hsum
      exact ⟨by omega, rfl, hout, hset trivial⟩
    | unlock =>
      simp only [workerReads] at hsum hone
      exact ⟨by simp only; omega, rfl, hout, hset trivial⟩

/-- One step of the synchronising block. -/
theorem syncStep_fenced {stage stage' : SyncStage} (h : SyncStep scan sh stage sh' stage')
    (hle : stage.reads ≤ sh.readers)
    (hs : SyncFenced sh.configuration.generation scan stage) :
    sh'.readers + stage.reads = sh.readers + stage'.reads ∧
      sh'.configuration = sh.configuration ∧ sh'.output = sh.output ∧
      SyncFenced sh.configuration.generation scan stage' := by
  cases h with
  | lock => exact ⟨rfl, rfl, rfl, trivial⟩
  | check =>
    refine ⟨by split <;> rfl, rfl, rfl, ?_⟩
    split
    · rename_i heq
      exact heq.symm
    · trivial
  | sync => exact ⟨rfl, rfl, rfl, hs⟩
  | synced => exact ⟨rfl, rfl, rfl, trivial⟩
  | unlock =>
    simp only [SyncStage.reads] at hle
    exact ⟨by simp only [SyncStage.reads]; omega, rfl, rfl, trivial⟩

/-- **One step of a refresh thread**: it accounts for its read guards, and its output
keeps the fence. -/
theorem refresh_fenced {request : RefreshRequest ι} {a : Action}
    {phase phase' : RefreshPhase ι ν} (h : RefreshStep i request sh phase a sh' phase')
    (hle : phaseReads phase ≤ sh.readers)
    (hout : OutputFenced sh.configuration.generation sh.output)
    (hp : PhaseFenced sh.configuration.generation phase) :
    sh'.readers + phaseReads phase = sh.readers + phaseReads phase' ∧
      OutputFenced sh.configuration.generation sh'.output ∧
      PhaseFenced sh.configuration.generation phase' := by
  have hplain : ∀ r : RefreshRequest ι, ∀ o : Output ι ν,
      (∃ result, o = .refreshed r result) ∨ (∃ code message, o = .refreshError r code message) →
      OutputFenced sh.configuration.generation (sh.output ++ [o]) := by
    rintro r o ho
    refine hout.append ?_ ?_
    · rintro _ _ _ rfl
      rcases ho with ⟨_, ho⟩ | ⟨_, _, ho⟩ <;> cases ho
    · rintro _ _ rfl
      rcases ho with ⟨_, ho⟩ | ⟨_, _, ho⟩ <;> cases ho
  cases h with
  | @register configuration registration c h =>
    cases registration <;> exact ⟨rfl, hout, trivial⟩
  | busyReply => exact ⟨rfl, hplain request _ (.inr ⟨_, _, rfl⟩), trivial⟩
  | @waitUntilIdle returns c h => cases returns <;> exact ⟨rfl, hout, trivial⟩
  | @wake returns c h => cases returns <;> exact ⟨rfl, hout, trivial⟩
  | execute => exact ⟨rfl, hout, by simp [PhaseFenced, SyncFenced]⟩
  | search h =>
    simp only [phaseReads] at hle ⊢
    obtain ⟨hreads, -, hout', hw⟩ := workersStep_fenced h (by omega) hout hp.1
    exact ⟨by omega, hout', hw, hp.2⟩
  | sync hjoined h =>
    simp only [phaseReads] at hle ⊢
    obtain ⟨hreads, -, hout', hs⟩ := syncStep_fenced h (by omega) hp.2
    exact ⟨by omega, hout' ▸ hout, hp.1, hs⟩
  | returned hjoined =>
    refine ⟨?_, hout, trivial⟩
    simp [phaseReads, sum_workerReads_of_joined hjoined, SyncStage.reads]
  | panicked hjoined =>
    refine ⟨?_, hout, trivial⟩
    simp only [phaseReads, sum_workerReads_of_joined hjoined] at hle ⊢
    omega
  | @send guard scan execution r pending =>
    refine ⟨rfl, hplain r _ ?_, trivial⟩
    cases execution with
    | none => exact .inr ⟨_, _, rfl⟩
    | some result => exact .inl ⟨result, rfl⟩
  | @completed guard scan execution c h =>
    cases execution with
    | none => exact ⟨rfl, hout, trivial⟩
    | some result => exact ⟨rfl, hout, by simp [PhaseFenced]⟩
  | telemetry h =>
    obtain ⟨hreads, -, hout', hw⟩ := workersStep_fenced h hle hout hp
    exact ⟨hreads, hout', hw⟩
  | reported hjoined =>
    refine ⟨?_, hout, trivial⟩
    simp [phaseReads, sum_workerReads_of_joined hjoined]
  | @unwind guard stage h =>
    refine ⟨?_, hout, trivial⟩
    cases stage with
    | reporting scan workers => simp [phaseReads, sum_workerReads_of_joined h]
    | executing => exact h.elim
    | _ => rfl
  | unwoundReply => exact ⟨rfl, hplain request _ (.inr ⟨_, _, rfl⟩), trivial⟩
  | _ => exact ⟨rfl, hout, trivial⟩

/-- One step of a configure thread. -/
theorem configure_fenced {request : ConfigureRequest ι} {phase phase' : ConfigurePhase}
    (h : ConfigureStep i request sh phase sh' phase')
    (hle : sh.configuration.generation ≤ sh'.configuration.generation)
    (hout : OutputFenced sh.configuration.generation sh.output)
    (hp : ReplyFenced sh.configuration.generation phase) :
    OutputFenced sh'.configuration.generation sh'.output ∧
      ReplyFenced sh'.configuration.generation phase' := by
  cases h with
  | @unlock before outcome => cases outcome <;> exact ⟨hout, hp⟩
  | @reply before after outcome =>
    refine ⟨hout.append ?_ ?_, ?_⟩
    · rintro _ _ _ ho
      cases outcome <;> cases ho
    · rintro _ _ ho
      cases outcome <;> cases ho
      exact hp
    · cases outcome <;> trivial
  | commit => exact ⟨hout.mono hle, le_refl _⟩
  | _ => exact ⟨hout, trivial⟩

end Step

/-! ## Every reachable state -/

section Runs

variable {s : ServerState ι ν}

/-- **The fencing invariant.** -/
theorem fencing (h : (server ι ν os).Reachable s) :
    s.shared.readers = (s.tasks.map reads).sum ∧
      OutputFenced s.shared.configuration.generation s.shared.output ∧
      ∀ (i : ℕ) t, s.tasks[i]? = some t → TaskFenced s.shared i t := by
  refine TaskSystem.invariant_ledger (f := fun sh => sh.readers)
    (G := fun sh => OutputFenced sh.configuration.generation sh.output) ?_ ?_ ?_ ?_ h
  · rintro sh ⟨-, hreaders, -, -, -, -, -, -, -, hout⟩
    rw [hout]
    exact ⟨hreaders, by simp, by simp, List.Pairwise.nil⟩
  · intro s t _ _ harrival
    cases harrival <;> exact ⟨rfl, trivial⟩
  · intro s i t a sh' t' hs ht hstep hle hG hL
    have hmono : s.shared.configuration.generation ≤ sh'.configuration.generation :=
      generation_le_of_step hs (TaskSystem.Step.step ht hstep)
    cases hstep with
    | @refresh _ _ _ phase phase' h =>
      obtain ⟨hreads, hout, hp⟩ := refresh_fenced h hle hG hL
      have hconf := h.frame.1
      refine ⟨hreads, by rwa [hconf], ?_⟩
      show PhaseFenced sh'.configuration.generation phase'
      rwa [hconf]
    | configure h =>
      obtain ⟨hout, hp⟩ := configure_fenced h hmono hG hL
      exact ⟨by rw [h.frame.2.2.2]; rfl, hout, hp⟩
  · intro s i t a sh' t' j u hs ht hstep _ _ hle _ _ hu
    have hmono : s.shared.configuration.generation ≤ sh'.configuration.generation :=
      generation_le_of_step hs (TaskSystem.Step.step ht hstep)
    cases u with
    | configure request phase =>
      cases phase with
      | unlocking _ outcome =>
        cases outcome with
        | ok n => exact Nat.le_trans hu hmono
        | error => trivial
      | replying _ _ outcome =>
        cases outcome with
        | ok n => exact Nat.le_trans hu hmono
        | error => trivial
      | _ => trivial
    | refresh request phase =>
      show PhaseFenced sh'.configuration.generation phase
      cases hstep with
      | refresh h =>
        rw [h.frame.1]
        exact hu
      | configure h =>
        cases h with
        | commit hreaders =>
          -- the commit had to wait for every read guard, so the other thread holds none
          apply phaseFenced_of_no_reads
          simp only [reads, hreaders] at hle
          omega
        | _ => exact hu

/-- **Generation fencing.** A notification is sent while the generation of its scan is the
committed one; locator state is synchronised while the generation of the scan is the
committed one; and after the response that confirms a configuration there is no
notification of an older one. -/
theorem generation_fencing (h : (server ι ν os).Reachable s) :
    (∀ scan payload committed,
      .notification scan payload committed ∈ s.shared.output →
      committed = scan.generation) ∧
    (∀ (i : ℕ) request guard scan workers k,
      s.tasks[i]? =
        some (.refresh request (.owning guard (.executing scan workers (.syncing k)))) →
      s.shared.configuration.generation = scan.generation) ∧
    s.shared.output.Pairwise NotStale := by
  obtain ⟨-, hout, hL⟩ := fencing h
  refine ⟨hout.current, ?_, hout.ordered⟩
  intro i request guard scan workers k ht
  have hfenced : scan.generation = s.shared.configuration.generation := (hL i _ ht).2
  exact hfenced.symm

end Runs

/-- The theorem for a configuration that is confirmed after a refresh. -/
theorem generation_fencing_configured : configuredState.shared.output.Pairwise NotStale :=
  (generation_fencing configuredState_reachable.of_when).2.2

end REnvTools.Analysis
