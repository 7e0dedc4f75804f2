import REnvTools.Analysis.ScanRuns

/-!
# The progress of a refresh

What a client can tell from the progress events of a refresh, at every moment of every run: a
phase or a locator that has not started has done nothing, one that has started has done part of
its work, and one that has completed has done all of it. The merge starts after the whole scan.
-/

set_option autoImplicit false

namespace REnvTools.Analysis

open Program Lib Lib.ForkJoin

variable {host : ScanHost} {configuration : Configuration} {scope : Option SearchScope}

/-- The phases of a scan and what they do between their progress events. -/
def phaseBodies (host : ScanHost) (configuration : Configuration) (scope : Option SearchScope) :
    List (RefreshProgressPhase × ForkJoin ScanAction) :=
  [(.locators, locatorsBody host scope true), (.path, pathBody host scope),
    (.searchPaths, searchPathsBody host configuration scope)]

/-- The progress event of a thread. -/
def progress (thread : ScanThread) (status : RefreshProgressStatus) : ScanAction :=
  ⟨thread, .progress status⟩

/-- What is done between the progress events of the whole refresh. -/
def refreshBody (host : ScanHost) (configuration : Configuration) (scope : Option SearchScope)
    (current : Bool) : ForkJoin ScanAction :=
  .seq (findAndReportInstallations host configuration scope true)
    (.bracket (progress (.phase .merge) .started) (progress (.phase .merge) .completed)
      (if current then .act ⟨.phase .merge, .sync (refreshSyncScope scope)⟩ else .done))

/-- The call belongs to the scan. -/
def ScanAction.scans (action : ScanAction) : Bool :=
  action.thread.phaseOf ≠ .refresh && action.thread.phaseOf ≠ .merge

/-! ## The parts of a refresh -/

/-- INTERNAL: the program of a refresh is bracketed. -/
theorem executeRefresh_eq (current : Bool) :
    executeRefresh host configuration scope current =
      .bracket (progress (.phase .refresh) .started) (progress (.phase .refresh) .completed)
        (refreshBody host configuration scope current) := rfl

/-- INTERNAL: so is each of its parts. -/
theorem findAndReport_eq :
    findAndReportInstallations host configuration scope true =
      .all ((phaseBodies host configuration scope).map fun part =>
        .bracket (progress (.phase part.1) .started) (progress (.phase part.1) .completed)
          part.2) := rfl

/-- Each phase is the phase of its threads. -/
theorem phaseOf_phaseBodies : ∀ part ∈ phaseBodies host configuration scope,
    ∀ action ∈ part.2.actions, action.thread.phaseOf = part.1 := by
  simp only [phaseBodies, List.forall_mem_cons, List.not_mem_nil, false_imp_iff, implies_true,
    and_true]
  exact ⟨phaseOf_locatorsBody true, phaseOf_pathBody, phaseOf_searchPathsBody⟩

/-- INTERNAL: a phase with its progress events. -/
theorem phaseOf_bracket {part : RefreshProgressPhase × ForkJoin ScanAction}
    (hpart : part ∈ phaseBodies host configuration scope) :
    ∀ action ∈ (ForkJoin.bracket (progress (.phase part.1) .started)
      (progress (.phase part.1) .completed) part.2).actions,
      action.thread.phaseOf = part.1 := by
  rw [actions_bracket, List.forall_mem_cons, List.forall_mem_append, List.forall_mem_singleton]
  exact ⟨rfl, phaseOf_phaseBodies part hpart, rfl⟩

/-- INTERNAL: every call of a scan is one of a scanning phase. -/
theorem scans_findAndReport : ∀ action ∈
    (findAndReportInstallations host configuration scope true).actions,
    ScanAction.scans action = true := by
  intro action h
  rw [findAndReport_eq, actions_all, List.flatMap_map] at h
  obtain ⟨part, hpart, h⟩ := List.mem_flatMap.mp h
  have hphase := phaseOf_bracket hpart action h
  unfold ScanAction.scans
  rw [hphase]
  simp only [phaseBodies, List.mem_cons, List.not_mem_nil, or_false] at hpart
  obtain rfl | rfl | rfl := hpart <;> rfl

/-- INTERNAL: no call of the merge is one of a scanning phase. -/
theorem scans_merge {current : Bool} : ∀ action ∈
    (ForkJoin.bracket (progress (.phase .merge) .started) (progress (.phase .merge) .completed)
      (if current then .act ⟨.phase .merge, .sync (refreshSyncScope scope)⟩ else .done)).actions,
    action.thread = .phase .merge := by
  rw [actions_bracket, List.forall_mem_cons, List.forall_mem_append, List.forall_mem_singleton]
  refine ⟨rfl, ?_, rfl⟩
  intro action h
  split at h
  · rw [List.mem_singleton.mp h]
  · cases h

/-! ## What a filter sees of a refresh -/

variable {current : Bool} {trace : List ScanAction} {r : ForkJoin ScanAction}

/-- INTERNAL: the scan as a part of a run of the refresh. -/
theorem exists_scan {P : ScanAction → Bool} (hP : ∀ action, P action = true →
      ScanAction.scans action = true)
    (hruns : Runs (executeRefresh host configuration scope current) trace r) :
    ∃ middle p', trace.filter P = middle.filter P ∧
      Runs (findAndReportInstallations host configuration scope true) middle p' := by
  have hnot : ∀ {action : ScanAction}, ScanAction.scans action = false → P action = false := by
    intro action hscans
    by_contra hpass
    rw [hP action (Bool.eq_true_of_not_eq_false hpass)] at hscans
    cases hscans
  rw [executeRefresh_eq] at hruns
  obtain ⟨body, p', hbody, hruns⟩ := hruns.filter_bracket (hnot rfl) (hnot rfl)
  have hmerge : ∀ action ∈ (ForkJoin.bracket (progress (.phase .merge) .started)
      (progress (.phase .merge) .completed)
      (if current then .act ⟨.phase .merge, .sync (refreshSyncScope scope)⟩ else .done)).actions,
        P action = false := by
    intro action h
    refine hnot ?_
    unfold ScanAction.scans
    rw [scans_merge action h]
    rfl
  obtain ⟨middle, p', hmiddle, hruns⟩ := hruns.filter_first hmerge
  exact ⟨middle, p', hbody.trans hmiddle, hruns⟩

/-- INTERNAL: one phase as a part of a run of the scan. -/
theorem exists_phase {part : RefreshProgressPhase × ForkJoin ScanAction}
    (hpart : part ∈ phaseBodies host configuration scope)
    (hruns : Runs (findAndReportInstallations host configuration scope true) trace r) :
    ∃ r', Runs (.bracket (progress (.phase part.1) .started) (progress (.phase part.1) .completed)
      part.2) (trace.filter fun action => action.thread.phaseOf = part.1) r' := by
  rw [findAndReport_eq] at hruns
  obtain ⟨before, after, hsplit⟩ := List.append_of_mem hpart
  -- the phases are listed once each
  have hnodup : ((phaseBodies host configuration scope).map Prod.fst).Nodup := by
    simp only [phaseBodies, List.map_cons, List.map_nil]
    decide
  rw [hsplit, List.map_append, List.map_cons, List.nodup_middle, List.nodup_cons,
    ← List.map_append] at hnodup
  rw [hsplit, List.map_append, List.map_cons] at hruns
  obtain ⟨r', hphase, -⟩ := hruns.filter_all
    (P := fun action => action.thread.phaseOf = part.1)
    (fun action h => decide_eq_true (phaseOf_bracket hpart action h)) (by
      intro q hq action h
      rw [← List.map_append] at hq
      obtain ⟨other, hother, rfl⟩ := List.mem_map.mp hq
      have hmem : other ∈ phaseBodies host configuration scope := by
        rw [hsplit]
        exact (List.perm_middle.mem_iff).mpr (List.mem_cons_of_mem part hother)
      rw [phaseOf_bracket hmem action h]
      refine decide_eq_false fun heq => hnodup.1 ?_
      rw [← heq]
      exact List.mem_map_of_mem hother)
  exact ⟨r', hphase⟩

/-- INTERNAL: one locator as a part of a run of its phase. -/
theorem exists_locator (hkinds : (host.locators.map (·.kind)).Nodup) {locator : ScanLocator}
    (hlocator : locator ∈ selectedLocators host scope)
    (hruns : Runs (locatorsBody host scope true) trace r) :
    ∃ r', Runs (locatorThread true locator)
      (trace.filter fun action => action.thread = .locator locator.kind) r' := by
  obtain ⟨before, after, hsplit, hdistinct⟩ := exists_selected_split hkinds hlocator
  unfold locatorsBody at hruns
  rw [hsplit, List.map_append, List.map_cons] at hruns
  obtain ⟨r', hthread, -⟩ := hruns.filter_all
    (P := fun action => action.thread = .locator locator.kind)
    (fun action h => decide_eq_true (thread_locatorThread action h)) (by
      intro q hq action h
      rw [← List.map_append] at hq
      obtain ⟨other, hother, rfl⟩ := List.mem_map.mp hq
      rw [thread_locatorThread action h]
      exact decide_eq_false fun heq => hdistinct other hother (ScanThread.locator.inj heq))
  exact ⟨r', hthread⟩

/-! ## What the events say -/

/-- **The progress events tell the truth**, at every moment of every run of a refresh. What a
phase has done so far is nothing before it has started, part of its work until it has completed,
and then all of it; so it is with each locator that is asked, and with the refresh as a whole.
When the merge starts, everything that the scan does has been done. The locators that the program
makes are of different kinds (`nodup_kinds_createLocators`). -/
theorem refresh_progress (hkinds : (host.locators.map (·.kind)).Nodup)
    (hruns : Runs (executeRefresh host configuration scope current) trace r) :
    Bracketed (progress (.phase .refresh) .started) (progress (.phase .refresh) .completed)
      (refreshBody host configuration scope current).actions trace ∧
    (∀ part ∈ phaseBodies host configuration scope,
      Bracketed (progress (.phase part.1) .started) (progress (.phase part.1) .completed)
        part.2.actions (trace.filter fun action => action.thread.phaseOf = part.1)) ∧
    (∀ locator ∈ selectedLocators host scope,
      Bracketed (progress (.locator locator.kind) .started)
        (progress (.locator locator.kind) .completed) (locatorCalls locator)
        (trace.filter fun action => action.thread = .locator locator.kind)) ∧
    (progress (.phase .merge) .started ∈ trace →
      (trace.filter ScanAction.scans).Perm
        (findAndReportInstallations host configuration scope true).actions) := by
  have hphases : ∀ part ∈ phaseBodies host configuration scope, ∃ r',
      Runs (.bracket (progress (.phase part.1) .started) (progress (.phase part.1) .completed)
        part.2) (trace.filter fun action => action.thread.phaseOf = part.1) r' := by
    intro part hpart
    obtain ⟨middle, p', hmiddle, hscan⟩ :=
      exists_scan (P := fun action => action.thread.phaseOf = part.1) (fun action h => by
        unfold ScanAction.scans
        rw [of_decide_eq_true h]
        simp only [phaseBodies, List.mem_cons, List.not_mem_nil, or_false] at hpart
        obtain rfl | rfl | rfl := hpart <;> rfl) hruns
    rw [hmiddle]
    exact exists_phase hpart hscan
  refine ⟨?_, fun part hpart => ?_, fun locator hlocator => ?_, fun hmerge => ?_⟩
  · rw [executeRefresh_eq] at hruns
    exact hruns.bracketed.1
  · obtain ⟨r', hphase⟩ := hphases part hpart
    exact hphase.bracketed.1
  · obtain ⟨r', hphase⟩ := hphases (.locators, locatorsBody host scope true) List.mem_cons_self
    obtain ⟨middle, p', hmiddle, hbody⟩ := hphase.filter_bracket
      (P := fun action => action.thread = .locator locator.kind) rfl rfl
    have hwithin : (trace.filter fun action => action.thread.phaseOf = .locators).filter
        (fun action => action.thread = .locator locator.kind) =
          trace.filter fun action => action.thread = .locator locator.kind := by
      rw [List.filter_filter]
      refine List.filter_congr fun action _ => ?_
      by_cases hthread : action.thread = .locator locator.kind
      · simp [hthread, ScanThread.phaseOf]
      · simp [hthread]
    rw [← hwithin, hmiddle]
    obtain ⟨r', hthread⟩ := exists_locator hkinds hlocator hbody
    have hcalls := hthread.bracketed.1
    rw [actions_locatorBody] at hcalls
    exact hcalls
  · rw [executeRefresh_eq] at hruns
    have hscans : ∀ {action : ScanAction}, action.thread = .phase .refresh ∨
        action.thread = .phase .merge → ScanAction.scans action = false := by
      intro action h
      unfold ScanAction.scans
      obtain h | h := h <;> rw [h] <;> rfl
    obtain ⟨opening, rest, p₁, p₂, rfl, -, hopening, hrest, -⟩ := runs_seq hruns
    obtain ⟨body, closing, p₃, p₄, rfl, -, hbody, hclosing, -⟩ := runs_seq hrest
    obtain ⟨scan, merge, p₅, p₆, rfl, -, hscan, hmerges, hlate⟩ := runs_seq hbody
    -- the brackets and the scan do not start the merge
    have hstarted : merge ≠ [] := by
      rintro rfl
      rw [List.append_nil, List.mem_append, List.mem_append] at hmerge
      obtain h | h | h := hmerge
      · cases List.mem_singleton.mp (hopening.mem_actions h)
      · have hnot := scans_findAndReport _ (hscan.mem_actions h)
        rw [hscans (.inr rfl)] at hnot
        cases hnot
      · cases List.mem_singleton.mp (hclosing.mem_actions h)
    have hcompletes : Completes (findAndReportInstallations host configuration scope true) scan :=
      ⟨p₅, hscan, hlate.resolve_left hstarted⟩
    have hopen : opening.filter ScanAction.scans = [] := hopening.filter_eq_nil fun action h => by
      rw [List.mem_singleton.mp h]
      rfl
    have hclose : closing.filter ScanAction.scans = [] := hclosing.filter_eq_nil fun action h => by
      rw [List.mem_singleton.mp h]
      rfl
    have hnone : merge.filter ScanAction.scans = [] := hmerges.filter_eq_nil fun action h =>
      hscans (.inr (scans_merge action h))
    rw [List.filter_append, List.filter_append, List.filter_append, hopen, hclose, hnone,
      List.nil_append, List.append_nil, List.append_nil,
      hscan.filter_eq_self scans_findAndReport]
    exact hcompletes.perm

/-- A refresh that is over. -/
theorem refresh_progress_path :
    Bracketed (progress (.phase .refresh) .started) (progress (.phase .refresh) .completed)
      (refreshBody pathScan Configuration.default none true).actions
      (executeRefresh pathScan Configuration.default none true).actions := by
  obtain ⟨r, hruns, -⟩ :=
    completes_actions (executeRefresh pathScan Configuration.default none true)
  exact (refresh_progress (by decide) hruns).1

end REnvTools.Analysis
