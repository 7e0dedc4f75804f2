import Mathlib.Algebra.Order.BigOperators.Group.List
import REnvTools.Program.Locators
import REnvTools.Program.Scan

/-!
# What a scan does, however its threads are interleaved

`sites` lists where a scan looks, without threads and chunks, and `scanCalls` what it does
there. A complete scan makes these calls, each as often as the list has it; a scan that is not
complete can go on. While a scan runs, no more than 64 of its threads search below the
directories of the configuration, and no more belong to a locator than its `find` starts
(`ready_scan_le`).
-/

set_option autoImplicit false

namespace REnvTools.Analysis

open Program Lib Lib.ForkJoin

variable (host : ScanHost) (configuration : Configuration) (scope : Option SearchScope)

/-! ## The calls of a scan -/

/-- The source that a scan records for what it comes across at a site. -/
def siteSource : ScanSite → DiscoverySource
  | .globalPath _ => .globalPaths
  | .below _ _ | .configured => .explicitSearch

/-- The sites of a scan. -/
def sites : List ScanSite :=
  (if searchGlobal scope then host.globalSearchPaths.map .globalPath else []) ++
    ((directoriesToSearch configuration scope).flatMap fun directory =>
      (pathsToSearch host directory).map (.below directory)) ++
    [.configured]

/-- The executables at a site. -/
def executablesAt : ScanSite → List PathBuf
  | .globalPath path | .below _ path =>
    findExecutables host.os.windows host.architecture host.tree path
  | .configured => configuration.executables.getD []

/-- The calls at a site: the search for executables, unless they are configured, and then for
each executable its identification and the reports of it. -/
def siteCalls (site : ScanSite) : List ScanAction :=
  (match site with
    | .globalPath _ | .below _ _ => [⟨.site site, .findExecutables⟩]
    | .configured => []) ++
  (executablesAt host configuration site).flatMap
    (identifyCalls host (some (siteSource site)) site)

/-- The calls of a locator's threads. -/
def locatorCalls (locator : ScanLocator) : List ScanAction :=
  ⟨.locator locator.kind, .find⟩ ::
    locator.find.actions.map fun call => ⟨.locator locator.kind, call.scanCall⟩

/-- The calls of a scan, without the progress that it reports. -/
def scanCalls : List ScanAction :=
  (selectedLocators host scope).flatMap locatorCalls ++
    (sites host configuration scope).flatMap (siteCalls host configuration)

/-- The call is no progress event. -/
def ScanAction.works (action : ScanAction) : Bool :=
  match action.call with
  | .progress _ => false
  | .find | .look | .findExecutables | .identify _ | .report _ | .sync _ => true

/-- What is reported. -/
def reportsIn (trace : List ScanAction) : List Message :=
  trace.filterMap fun action =>
    match action.call with
    | .report message => some message
    | .progress _ | .find | .look | .findExecutables | .identify _ | .sync _ => none

/-! ### The actions of the programs -/

variable {host configuration scope}

/-- INTERNAL: the calls for one executable are no progress events. -/
theorem works_identifyCalls {source : Option DiscoverySource} {site : ScanSite}
    {executable : PathBuf} {action : ScanAction}
    (h : action ∈ identifyCalls host source site executable) : ScanAction.works action = true := by
  obtain rfl | h := List.mem_cons.mp h
  · rfl
  · obtain ⟨message, _, rfl⟩ := List.mem_map.mp h
    rfl

/-- INTERNAL: the calls at a site are no progress events. -/
theorem works_siteCalls {site : ScanSite} {action : ScanAction}
    (h : action ∈ siteCalls host configuration site) : ScanAction.works action = true := by
  obtain h | h := List.mem_append.mp h
  · cases site with
    | globalPath | below =>
      obtain rfl := List.mem_singleton.mp h
      rfl
    | configured => cases h
  · obtain ⟨executable, _, h⟩ := List.mem_flatMap.mp h
    exact works_identifyCalls h

/-- INTERNAL: the calls of a locator are no progress events. -/
theorem works_locatorCalls {locator : ScanLocator} {action : ScanAction}
    (h : action ∈ locatorCalls locator) : ScanAction.works action = true := by
  obtain rfl | h := List.mem_cons.mp h
  · rfl
  · obtain ⟨call, _, rfl⟩ := List.mem_map.mp h
    cases call <;> rfl

/-- INTERNAL: progress events are left out of what a part of the scan does. -/
theorem filter_withProgress (refresh : Bool) (thread : ScanThread) (body : ForkJoin ScanAction) :
    (withProgress refresh thread body).actions.filter ScanAction.works =
      body.actions.filter ScanAction.works := by
  unfold withProgress
  split
  · rw [actions_bracket, List.filter_cons_of_neg (by simp [ScanAction.works]), List.filter_append,
      List.filter_cons_of_neg (by simp [ScanAction.works]), List.filter_nil, List.append_nil]
  · rfl

/-- INTERNAL: a list of calls is left as it is. -/
theorem filter_works {calls : List ScanAction}
    (h : ∀ action ∈ calls, ScanAction.works action = true) :
    calls.filter ScanAction.works = calls :=
  List.filter_eq_self.mpr h

/-- INTERNAL: the calls for the executables of one place. -/
theorem actions_identifyRExecutables (source : Option DiscoverySource) (site : ScanSite)
    (executables : List PathBuf) :
    (identifyRExecutablesUsingLocators host source site executables).actions =
      executables.flatMap (identifyCalls host source site) := by
  unfold identifyRExecutablesUsingLocators
  rw [actions_inOrder, List.flatMap_map]
  exact List.flatMap_congr fun executable _ => actions_acts _

/-- The calls of `find_r_installations_in_paths` are those at its sites. -/
theorem actions_findRInstallationsInPaths (configuration : Configuration) (paths : List PathBuf)
    {site : PathBuf → ScanSite} {source : DiscoverySource}
    (hsite : ∀ path, (site path = .globalPath path ∨
      ∃ directory, site path = .below directory path) ∧ siteSource (site path) = source) :
    (findRInstallationsInPaths host paths site source).actions =
      paths.flatMap fun path => siteCalls host configuration (site path) := by
  unfold findRInstallationsInPaths
  rw [actions_all, List.flatMap_map]
  refine List.flatMap_congr fun path _ => ?_
  obtain ⟨hpath, rfl⟩ := hsite path
  rw [ForkJoin.actions, actions_identifyRExecutables]
  obtain hpath | ⟨directory, hpath⟩ := hpath
  · rw [hpath]
    rfl
  · rw [hpath]
    rfl

/-- **The chunks of a recursive search** are not seen in what it does. -/
theorem actions_findRInstallationsInDirectory (configuration : Configuration)
    (directory : PathBuf) :
    (findRInstallationsInDirectoryRecursive host directory).actions =
      (pathsToSearch host directory).flatMap fun path =>
        siteCalls host configuration (.below directory path) := by
  unfold findRInstallationsInDirectoryRecursive
  rw [actions_inOrder, List.flatMap_map]
  have hchunks := flatten_chunks (show 0 < 64 by decide) (pathsToSearch host directory)
  conv_rhs => rw [← hchunks, List.flatten_eq_flatMap, List.flatMap_assoc]
  refine List.flatMap_congr fun paths _ => ?_
  exact actions_findRInstallationsInPaths configuration paths fun path =>
    ⟨.inr ⟨directory, rfl⟩, rfl⟩

/-- INTERNAL: the calls of a locator between its progress events. -/
theorem actions_locatorBody (locator : ScanLocator) :
    (ForkJoin.seq (.act ⟨.locator locator.kind, .find⟩) (locator.find.map fun call =>
      (⟨.locator locator.kind, call.scanCall⟩ : ScanAction))).actions = locatorCalls locator := by
  rw [ForkJoin.actions, actions_map]
  rfl

/-- INTERNAL: the work of the first phase. -/
theorem filter_locatorsBody (refresh : Bool) :
    (locatorsBody host scope refresh).actions.filter ScanAction.works =
      (selectedLocators host scope).flatMap locatorCalls := by
  unfold locatorsBody
  rw [actions_all, List.flatMap_map, List.filter_flatMap]
  refine List.flatMap_congr fun locator _ => ?_
  unfold locatorThread
  rw [filter_withProgress, actions_locatorBody]
  exact filter_works fun action h => works_locatorCalls h

/-- INTERNAL: the work of the second phase. -/
theorem filter_pathBody (configuration : Configuration) :
    (pathBody host scope).actions.filter ScanAction.works =
      ((if searchGlobal scope then host.globalSearchPaths.map ScanSite.globalPath else []).flatMap
        (siteCalls host configuration)) := by
  unfold pathBody
  split
  · rw [actions_findRInstallationsInPaths configuration _
      fun path => ⟨.inl rfl, rfl⟩, List.flatMap_map]
    refine filter_works fun action h => ?_
    obtain ⟨path, _, h⟩ := List.mem_flatMap.mp h
    exact works_siteCalls h
  · rfl

/-- INTERNAL: the work of the third phase. -/
theorem filter_searchPathsBody :
    (searchPathsBody host configuration scope).actions.filter ScanAction.works =
      ((directoriesToSearch configuration scope).flatMap fun directory =>
        (pathsToSearch host directory).map (ScanSite.below directory)).flatMap
          (siteCalls host configuration) ++
      siteCalls host configuration .configured := by
  unfold searchPathsBody
  rw [ForkJoin.actions, List.filter_append, actions_inOrder,
    List.flatMap_map, actions_identifyRExecutables]
  congr 1
  · rw [List.flatMap_assoc, List.filter_flatMap]
    refine List.flatMap_congr fun directory _ => ?_
    rw [actions_findRInstallationsInDirectory configuration, List.flatMap_map]
    refine filter_works fun action h => ?_
    obtain ⟨path, _, h⟩ := List.mem_flatMap.mp h
    exact works_siteCalls h
  · refine filter_works fun action h => ?_
    obtain ⟨executable, _, h⟩ := List.mem_flatMap.mp h
    exact works_identifyCalls h

/-- INTERNAL: the work of the three phases together. -/
theorem filter_findAndReport (refresh : Bool) :
    (findAndReportInstallations host configuration scope refresh).actions.filter ScanAction.works =
      scanCalls host configuration scope := by
  unfold findAndReportInstallations phases scanCalls sites
  rw [actions_all, List.filter_flatMap]
  simp only [List.flatMap_cons, List.flatMap_nil, List.append_nil, filter_withProgress,
    filter_locatorsBody, filter_pathBody configuration, filter_searchPathsBody,
    List.flatMap_append, List.append_assoc]

/-! ## Runs -/

/-- INTERNAL: progress events report nothing. -/
theorem reportsIn_filter (trace : List ScanAction) :
    reportsIn (trace.filter ScanAction.works) = reportsIn trace := by
  unfold reportsIn
  rw [List.filterMap_filter]
  refine List.filterMap_congr fun action _ => ?_
  obtain ⟨thread, call⟩ := action
  cases call <;> rfl

/-- **A complete scan**, in whatever order its threads take their steps, calls `find` of each
selected locator once, searches each site and identifies what it finds there once, and reports
what these calls give; and every scan can be completed. -/
theorem scan_calls (refresh : Bool) :
    (∀ trace, Completes (findAndReportInstallations host configuration scope refresh) trace →
      (trace.filter ScanAction.works).Perm (scanCalls host configuration scope) ∧
      (reportsIn trace).Perm (reportsIn (scanCalls host configuration scope))) ∧
    ∀ trace r, Runs (findAndReportInstallations host configuration scope refresh) trace r →
      ∃ rest, Completes (findAndReportInstallations host configuration scope refresh)
        (trace ++ rest) := by
  refine ⟨fun trace hcompletes => ?_, fun trace r hruns => hruns.extend⟩
  have hcalls := hcompletes.perm.filter ScanAction.works
  rw [filter_findAndReport] at hcalls
  refine ⟨hcalls, ?_⟩
  rw [← reportsIn_filter]
  exact hcalls.filterMap _

/-! ## How many threads search -/

/-- INTERNAL: a part of the scan that reports its progress needs no further thread. -/
theorem peak_withProgress_le {P : ScanAction → Bool} (refresh : Bool) (thread : ScanThread)
    (body : ForkJoin ScanAction) :
    (withProgress refresh thread body).peak P ≤ max 1 (body.peak P) := by
  have hact : ∀ action, (ForkJoin.act action).peak P ≤ 1 := by
    intro action
    unfold peak
    split <;> omega
  unfold withProgress
  split
  · have hfirst := hact ⟨thread, .progress .started⟩
    have hlast := hact ⟨thread, .progress .completed⟩
    simp only [bracket, peak] at hfirst hlast ⊢
    omega
  · exact Nat.le_max_right _ _

/-- INTERNAL: executables are identified one after the other. -/
theorem peak_identifyRExecutables_le {P : ScanAction → Bool} (source : Option DiscoverySource)
    (site : ScanSite) (executables : List PathBuf) :
    (identifyRExecutablesUsingLocators host source site executables).peak P ≤ 1 := by
  refine peak_inOrder_le fun p hp => ?_
  obtain ⟨executable, _, rfl⟩ := List.mem_map.mp hp
  exact peak_acts_le _

/-- INTERNAL: there is one thread for each path. -/
theorem peak_findRInstallationsInPaths_le {P : ScanAction → Bool} (paths : List PathBuf)
    (site : PathBuf → ScanSite) (source : DiscoverySource) :
    (findRInstallationsInPaths host paths site source).peak P ≤ paths.length := by
  unfold findRInstallationsInPaths
  refine (peak_all_le 1 fun p hp => ?_).trans (by simp)
  obtain ⟨path, _, rfl⟩ := List.mem_map.mp hp
  refine max_le ?_ (peak_identifyRExecutables_le _ _ _)
  unfold peak
  split <;> omega

/-- INTERNAL: the explicit search runs a chunk at a time. -/
theorem peak_searchPathsBody_le {P : ScanAction → Bool} :
    (searchPathsBody host configuration scope).peak P ≤ 64 := by
  refine max_le ?_ ?_
  · refine peak_inOrder_le fun p hp => ?_
    obtain ⟨directory, _, rfl⟩ := List.mem_map.mp hp
    refine peak_inOrder_le fun p hp => ?_
    obtain ⟨paths, hpaths, rfl⟩ := List.mem_map.mp hp
    exact (peak_findRInstallationsInPaths_le _ _ _).trans (length_le_of_mem_chunks hpaths)
  · exact (peak_identifyRExecutables_le _ _ _).trans (by decide)

/-- How many threads of a locator may be at work at the same time: its own, or those that its
`find` has started. -/
def ScanLocator.threads (locator : ScanLocator) : ℕ := max 1 (locator.find.peak fun _ => true)

/-- INTERNAL: the threads of one locator. -/
theorem peak_locatorThread_le {P : ScanAction → Bool} (refresh : Bool) (locator : ScanLocator) :
    (locatorThread refresh locator).peak P ≤ ScanLocator.threads locator := by
  refine (peak_withProgress_le _ _ _).trans (max_le (Nat.le_max_left _ _) (max_le ?_ ?_))
  · unfold peak
    split
    · exact Nat.le_max_left _ _
    · exact Nat.zero_le _
  · rw [peak_map]
    exact (peak_le_peak_true _).trans (Nat.le_max_right _ _)

/-- INTERNAL: the threads of the selected locators. -/
theorem peak_locatorsBody_le {P : ScanAction → Bool} (refresh : Bool) :
    (locatorsBody host scope refresh).peak P ≤
      ((selectedLocators host scope).map ScanLocator.threads).sum := by
  unfold locatorsBody
  rw [peak_all, List.map_map]
  exact List.sum_le_sum fun locator _ => peak_locatorThread_le refresh locator

/-- INTERNAL: there is one thread for each global path. -/
theorem peak_pathBody_le {P : ScanAction → Bool} :
    (pathBody host scope).peak P ≤ host.globalSearchPaths.length := by
  unfold pathBody
  split
  · exact peak_findRInstallationsInPaths_le _ _ _
  · exact Nat.zero_le _

/-- INTERNAL: the thread of a part of the scan that reports its progress. -/
theorem forall_withProgress {Q : ScanAction → Prop} {refresh : Bool} {thread : ScanThread}
    {body : ForkJoin ScanAction} (hbody : ∀ action ∈ body.actions, Q action)
    (hthread : ∀ status, Q ⟨thread, .progress status⟩) :
    ∀ action ∈ (withProgress refresh thread body).actions, Q action := by
  unfold withProgress
  split
  · rw [actions_bracket, List.forall_mem_cons, List.forall_mem_append, List.forall_mem_singleton]
    exact ⟨hthread _, hbody, hthread _⟩
  · exact hbody

/-- INTERNAL: the calls at a site are made by its thread. -/
theorem thread_siteCalls {site : ScanSite} {action : ScanAction}
    (h : action ∈ siteCalls host configuration site) : action.thread = .site site := by
  obtain h | h := List.mem_append.mp h
  · cases site with
    | globalPath | below =>
      obtain rfl := List.mem_singleton.mp h
      rfl
    | configured => cases h
  · obtain ⟨executable, _, h⟩ := List.mem_flatMap.mp h
    obtain rfl | h := List.mem_cons.mp h
    · rfl
    · obtain ⟨message, _, rfl⟩ := List.mem_map.mp h
      rfl

/-- INTERNAL: a locator's thread. -/
theorem thread_locatorThread {refresh : Bool} {locator : ScanLocator} :
    ∀ action ∈ (locatorThread refresh locator).actions, action.thread = .locator locator.kind := by
  refine forall_withProgress (fun action h => ?_) fun _ => rfl
  rw [actions_locatorBody] at h
  obtain rfl | h := List.mem_cons.mp h
  · rfl
  · obtain ⟨message, _, rfl⟩ := List.mem_map.mp h
    rfl

/-- The threads of the first phase. -/
theorem phaseOf_locatorsBody (refresh : Bool) :
    ∀ action ∈ (locatorsBody host scope refresh).actions, action.thread.phaseOf = .locators := by
  intro action h
  unfold locatorsBody at h
  rw [actions_all, List.flatMap_map] at h
  obtain ⟨locator, _, h⟩ := List.mem_flatMap.mp h
  rw [thread_locatorThread action h]
  rfl

/-- The threads of the second phase. -/
theorem phaseOf_pathBody :
    ∀ action ∈ (pathBody host scope).actions, action.thread.phaseOf = .path := by
  intro action h
  unfold pathBody at h
  split at h
  · rw [actions_findRInstallationsInPaths Configuration.default _
      fun path => ⟨.inl rfl, rfl⟩] at h
    obtain ⟨path, _, h⟩ := List.mem_flatMap.mp h
    rw [thread_siteCalls h]
    rfl
  · cases h

/-- The threads of the third phase. -/
theorem phaseOf_searchPathsBody :
    ∀ action ∈ (searchPathsBody host configuration scope).actions,
      action.thread.phaseOf = .searchPaths := by
  intro action h
  unfold searchPathsBody at h
  rw [ForkJoin.actions, actions_inOrder, List.flatMap_map, actions_identifyRExecutables] at h
  obtain h | h := List.mem_append.mp h
  · obtain ⟨directory, _, h⟩ := List.mem_flatMap.mp h
    rw [actions_findRInstallationsInDirectory configuration] at h
    obtain ⟨path, _, h⟩ := List.mem_flatMap.mp h
    rw [thread_siteCalls h]
    rfl
  · have hsite : action ∈ siteCalls host configuration .configured := h
    rw [thread_siteCalls hsite]
    rfl

/-- INTERNAL: the selected locators are some of all. -/
theorem sublist_selectedLocators : (selectedLocators host scope).Sublist host.locators := by
  unfold selectedLocators
  split
  · exact List.filter_sublist
  · exact List.nil_sublist _

/-- INTERNAL: the other selected locators, if each kind is there once. -/
theorem exists_selected_split (hkinds : (host.locators.map (·.kind)).Nodup)
    {locator : ScanLocator} (hlocator : locator ∈ selectedLocators host scope) :
    ∃ before after, selectedLocators host scope = before ++ locator :: after ∧
      ∀ other ∈ before ++ after, other.kind ≠ locator.kind := by
  have hsublist : (selectedLocators host scope).Sublist host.locators := sublist_selectedLocators
  have hnodup := (hsublist.map (·.kind)).nodup hkinds
  obtain ⟨before, after, hsplit⟩ := List.append_of_mem hlocator
  rw [hsplit, List.map_append, List.map_cons, List.nodup_middle, List.nodup_cons,
    ← List.map_append] at hnodup
  refine ⟨before, after, hsplit, fun other hother heq => hnodup.1 ?_⟩
  rw [← heq]
  exact List.mem_map_of_mem hother

/-- INTERNAL: a phase without such calls. -/
theorem peak_phase_eq_zero {P : ScanAction → Bool} {refresh : Bool}
    {phase : RefreshProgressPhase} {body : ForkJoin ScanAction}
    (hbody : ∀ action ∈ body.actions, action.thread.phaseOf = phase)
    (hP : ∀ action, action.thread.phaseOf = phase → P action = false) :
    (withProgress refresh (.phase phase) body).peak P = 0 :=
  peak_eq_zero fun action h => hP action (forall_withProgress (Q := fun action =>
    action.thread.phaseOf = phase) hbody (fun _ => rfl) action h)

/-- INTERNAL: the calls of one locator are those of one thread of the first phase. -/
theorem peak_locator_le (hkinds : (host.locators.map (·.kind)).Nodup) {refresh : Bool}
    {locator : ScanLocator} (hlocator : locator ∈ selectedLocators host scope) :
    (findAndReportInstallations host configuration scope refresh).peak
      (fun action => action.thread = .locator locator.kind) ≤ ScanLocator.threads locator := by
  have hother : ∀ {phase : RefreshProgressPhase}, phase ≠ .locators → ∀ action : ScanAction,
      action.thread.phaseOf = phase → decide (action.thread = .locator locator.kind) = false := by
    intro phase hne action hphase
    refine decide_eq_false fun hthread => hne ?_
    rw [← hphase, hthread]
    rfl
  have hprogress : (withProgress refresh (.phase .locators) (locatorsBody host scope refresh)).peak
      (fun action => action.thread = .locator locator.kind) ≤
        max 0 ((locatorsBody host scope refresh).peak fun action =>
          action.thread = .locator locator.kind) := by
    unfold withProgress
    split
    · simp [bracket, peak]
    · exact Nat.le_max_right _ _
  simp only [findAndReportInstallations, phases, all_cons, all_nil, peak, Nat.add_zero,
    peak_phase_eq_zero phaseOf_pathBody (hother (by decide)),
    peak_phase_eq_zero phaseOf_searchPathsBody (hother (by decide))]
  refine hprogress.trans (max_le (Nat.zero_le _) ?_)
  obtain ⟨before, after, hsplit, hdistinct⟩ := exists_selected_split hkinds hlocator
  unfold locatorsBody
  rw [hsplit, List.map_append, List.map_cons, peak_all_of_split]
  · exact peak_locatorThread_le refresh locator
  · intro q hq
    rw [← List.map_append] at hq
    obtain ⟨other, hmem, rfl⟩ := List.mem_map.mp hq
    refine peak_eq_zero fun action h => ?_
    rw [thread_locatorThread action h]
    exact decide_eq_false fun heq => hdistinct other hmem (ScanThread.locator.inj heq)

/-- **How many threads of a scan are at work** at a moment: of the explicit search at most 64,
however many directories there are, of a locator at most those that its `find` has started, and
beside them at most one for each global path, or one for a phase that has none. -/
theorem ready_scan_le (hkinds : (host.locators.map (·.kind)).Nodup) (refresh : Bool)
    {trace : List ScanAction} {r : ForkJoin ScanAction}
    (hruns : Runs (findAndReportInstallations host configuration scope refresh) trace r) :
    r.ready (fun action => action.thread.phaseOf = .searchPaths) ≤ 64 ∧
    (∀ locator ∈ selectedLocators host scope,
      r.ready (fun action => action.thread = .locator locator.kind) ≤
        ScanLocator.threads locator) ∧
    r.ready (fun _ => true) ≤
      max 1 ((selectedLocators host scope).map ScanLocator.threads).sum +
        max 1 host.globalSearchPaths.length + 64 := by
  have hsearch : ∀ P, (withProgress refresh (.phase .searchPaths)
      (searchPathsBody host configuration scope)).peak P ≤ 64 := fun P =>
    (peak_withProgress_le _ _ _).trans (max_le (by decide) peak_searchPathsBody_le)
  refine ⟨hruns.ready_le.trans ?_, fun locator hlocator => hruns.ready_le.trans
    (peak_locator_le hkinds hlocator), hruns.ready_le.trans ?_⟩
  · have hother : ∀ {phase : RefreshProgressPhase}, phase ≠ .searchPaths →
        ∀ action : ScanAction, action.thread.phaseOf = phase →
          decide (action.thread.phaseOf = .searchPaths) = false := by
      intro phase hne action hphase
      rw [hphase]
      exact decide_eq_false hne
    simp only [findAndReportInstallations, phases, all_cons, all_nil, peak,
      peak_phase_eq_zero (phaseOf_locatorsBody refresh) (hother (by decide)),
      peak_phase_eq_zero phaseOf_pathBody (hother (by decide)), Nat.zero_add, Nat.add_zero]
    exact hsearch _
  · have hwide : ∀ {thread : ScanThread} {body : ForkJoin ScanAction} {bound : ℕ},
        body.peak (fun _ => true) ≤ bound →
        (withProgress refresh thread body).peak (fun _ => true) ≤ max 1 bound := fun hbody =>
      (peak_withProgress_le _ _ _).trans (max_le_max (Nat.le_refl 1) hbody)
    simp only [findAndReportInstallations, phases, all_cons, all_nil, peak, Nat.add_zero]
    rw [Nat.add_assoc]
    exact Nat.add_le_add (hwide (peak_locatorsBody_le refresh))
      (Nat.add_le_add (hwide peak_pathBody_le) (hsearch _))

/-! ## A launcher in the `PATH` -/

/-- The launcher. -/
def pathLauncher : PathBuf := rootedPath ["bin", "R"]

/-- A machine on which the runtime of every executable is the same. -/
def pathMachine : LocatorHost where
  os := ⟨false, id, fun _ => none⟩
  isDir _ := false
  findExecutable _ := none
  isSymlink _ := false
  probe _ := some ⟨rootedPath ["lib", "R"], "4.4.2", .x64, [], none⟩

/-- A scan with one locator and one path. -/
def pathScan : ScanHost where
  os := pathMachine.os
  architecture := "x86_64"
  tree := plainTree [rootedPath [], rootedPath ["bin"]] [pathLauncher] (by decide)
  globalSearchPaths := [rootedPath ["bin"]]
  locators := [⟨.conda, [.conda], .act .look⟩]
  identified _ executable := identifyRInstallationUsingLocators pathMachine
    (REnv.new pathMachine.os executable none none) [] [rootedPath ["bin"]]

end REnvTools.Analysis
