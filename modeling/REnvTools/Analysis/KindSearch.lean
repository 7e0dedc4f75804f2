import REnvTools.Analysis.LocatorFinds

/-!
# A scan for one kind

A scan for one kind of installation calls `find` only of the locators that declare the kind. That
nothing of this kind gets lost, `kind_search_complete`, rests on what the locators declare
(`declared_of_findsAs`): whatever a scan for all kinds reports of this kind is reported by a thread
that the scan for the kind has too, and what these threads do is a run of that scan.
-/

set_option autoImplicit false

namespace REnvTools.Analysis

open Lib Lib.ForkJoin Program Model

/-- The installations of a kind that are reported. -/
def reportedOfKind (kind : RInstallationKind) (trace : List ScanAction) : List RInstallation :=
  (installationsIn (reportsIn trace)).filter fun installation =>
    decide (installation.kind = some kind)

/-- The thread is one that a scan for the kind has: it belongs to no locator, or to one that
declares the kind. -/
def InKindScan (host : ScanHost) (kind : RInstallationKind) (thread : ScanThread) : Bool :=
  match thread with
  | .locator locatorKind => (selectedLocators host (some (.global kind))).any (·.kind = locatorKind)
  | .phase _ | .site _ => true

variable {host : ScanHost} {kind : RInstallationKind}

/-! ## Leaving locators out -/

/-- INTERNAL: the threads of the phases and the sites stay. -/
theorem inKindScan_of_phase {phase : RefreshProgressPhase} {thread : ScanThread}
    (h : thread.phaseOf = phase) (hphase : phase ≠ .locators) :
    InKindScan host kind thread = true := by
  cases thread with
  | phase | site => rfl
  | locator => exact absurd h.symm hphase

/-- INTERNAL: of the locators those stay that declare the kind. -/
theorem inKindScan_locator (hkinds : (host.locators.map (·.kind)).Nodup) {locator : ScanLocator}
    (hmem : locator ∈ host.locators) :
    InKindScan host kind (.locator locator.kind) =
      locator.supportedCategories.contains kind := by
  rw [Bool.eq_iff_iff]
  show ((host.locators.filter fun other => other.supportedCategories.contains kind).any
    fun other => decide (other.kind = locator.kind)) = true ↔ _
  rw [List.any_eq_true]
  constructor
  · rintro ⟨other, hother, hsame⟩
    obtain ⟨hother, hdeclares⟩ := List.mem_filter.mp hother
    rwa [← List.inj_on_of_nodup_map hkinds hother hmem (of_decide_eq_true hsame)]
  · exact fun hdeclares => ⟨locator, List.mem_filter.mpr ⟨hmem, hdeclares⟩, decide_eq_true rfl⟩

variable {configuration : Configuration} {refresh : Bool}

/-- INTERNAL: the locators' phase. -/
theorem projects_locatorsBody (hkinds : (host.locators.map (·.kind)).Nodup) :
    Projects (fun action => InKindScan host kind action.thread) (locatorsBody host none refresh)
      (locatorsBody host (some (.global kind)) refresh) := by
  have hlocators : ∀ locator ∈ host.locators, ∀ action ∈ (locatorThread refresh locator).actions,
      InKindScan host kind action.thread = locator.supportedCategories.contains kind := by
    intro locator hmem action haction
    rw [thread_locatorThread action haction]
    exact inKindScan_locator hkinds hmem
  have hall : selectedLocators host none = host.locators := List.filter_true _
  unfold locatorsBody
  rw [hall]
  exact Projects.all_filter
    (fun locator hmem hkeep action haction => (hlocators locator hmem action haction).trans hkeep)
    (fun locator hmem hkeep action haction => (hlocators locator hmem action haction).trans hkeep)

/-- INTERNAL: a phase that is the same in both scans. -/
theorem projects_phase {phase : RefreshProgressPhase} {body : ForkJoin ScanAction}
    (hbody : ∀ action ∈ body.actions, action.thread.phaseOf = phase) (hphase : phase ≠ .locators) :
    Projects (fun action => InKindScan host kind action.thread)
      (withProgress refresh (.phase phase) body) (withProgress refresh (.phase phase) body) :=
  .self fun action haction => inKindScan_of_phase (forall_withProgress
    (Q := fun action => action.thread.phaseOf = phase) hbody (fun _ => rfl) action haction) hphase

/-- INTERNAL: what a scan for all kinds does, without the locators that do not declare the kind, is
what a scan for the kind does. -/
theorem projects_findAndReport (hkinds : (host.locators.map (·.kind)).Nodup) :
    Projects (fun action => InKindScan host kind action.thread)
      (findAndReportInstallations host configuration none refresh)
      (findAndReportInstallations host configuration (some (.global kind)) refresh) := by
  have hlocators : Projects (fun action => InKindScan host kind action.thread)
      (withProgress refresh (.phase .locators) (locatorsBody host none refresh))
      (withProgress refresh (.phase .locators)
        (locatorsBody host (some (.global kind)) refresh)) := by
    unfold withProgress
    split
    · exact (projects_locatorsBody hkinds).bracket rfl rfl
    · exact projects_locatorsBody hkinds
  have hpath : Projects (fun action => InKindScan host kind action.thread)
      (withProgress refresh (.phase .path) (pathBody host none))
      (withProgress refresh (.phase .path) (pathBody host none)) :=
    projects_phase phaseOf_pathBody (by decide)
  have hsearch : Projects (fun action => InKindScan host kind action.thread)
      (withProgress refresh (.phase .searchPaths) (searchPathsBody host configuration none))
      (withProgress refresh (.phase .searchPaths) (searchPathsBody host configuration none)) :=
    projects_phase phaseOf_searchPathsBody (by decide)
  have hdone :
      Projects (fun action : ScanAction => InKindScan host kind action.thread) .done .done :=
    .self fun action h => absurd h List.not_mem_nil
  -- the other two phases do not depend on the kind
  exact hlocators.par (hpath.par (hsearch.par hdone))

/-! ## What is reported of the kind -/

/-- INTERNAL: leaving out calls that report nothing of the kind. -/
theorem reportedOfKind_filter {P : ScanAction → Bool} {trace : List ScanAction}
    (h : ∀ action ∈ trace, ∀ installation, action.call = .report (.installation installation) →
      installation.kind = some kind → P action = true) :
    reportedOfKind kind (trace.filter P) = reportedOfKind kind trace := by
  induction trace with
  | nil => rfl
  | cons action trace ih =>
    rw [List.forall_mem_cons] at h
    have hrest := ih h.2
    have hcons : ∀ rest, reportedOfKind kind (action :: rest) =
        reportedOfKind kind [action] ++ reportedOfKind kind rest := by
      intro rest
      unfold reportedOfKind installationsIn reportsIn
      rw [← List.singleton_append, List.filterMap_append, List.filterMap_append,
        List.filter_append]
    cases hP : P action with
    | true => rw [List.filter_cons_of_pos hP, hcons, hcons trace, hrest]
    | false =>
      rw [List.filter_cons_of_neg (by simp [hP]), hrest, hcons]
      have hnone : reportedOfKind kind [action] = [] := by
        refine List.filter_eq_nil_iff.mpr fun installation hmem hof => ?_
        obtain ⟨thread, hreport⟩ := mem_reportsIn.mp (mem_installationsIn.mp hmem)
        obtain rfl := List.mem_singleton.mp hreport
        rw [h.1 installation rfl (of_decide_eq_true hof)] at hP
        cases hP
      rw [hnone, List.nil_append]

/-- INTERNAL: a report of a scan is of a locator's `find` or of a site. -/
theorem report_of_mem_findAndReport {scope : Option SearchScope} {thread : ScanThread}
    {message : Message}
    (h : ⟨thread, .report message⟩ ∈
      (findAndReportInstallations host configuration scope refresh).actions) :
    (∃ locator ∈ selectedLocators host scope, thread = .locator locator.kind ∧
      .report message ∈ locator.find.actions) ∨ ∃ site, thread = .site site := by
  have hcall : (⟨thread, .report message⟩ : ScanAction) ∈ scanCalls host configuration scope := by
    rw [← filter_findAndReport refresh]
    exact List.mem_filter.mpr ⟨h, rfl⟩
  obtain hcall | hcall := List.mem_append.mp hcall
  · obtain ⟨locator, hlocator, hcall⟩ := List.mem_flatMap.mp hcall
    obtain ⟨call, hmem, heq⟩ := List.mem_map.mp ((List.mem_cons.mp hcall).resolve_left nofun)
    refine .inl ⟨locator, hlocator, (congrArg ScanAction.thread heq).symm, ?_⟩
    cases call with
    | look => cases heq
    | report =>
      cases heq
      exact hmem
  · obtain ⟨site, _, hcall⟩ := List.mem_flatMap.mp hcall
    exact .inr ⟨site, thread_siteCalls hcall⟩

/-- **A scan for one kind misses none of it.** In every run of a scan for all kinds, whatever is
reported of the kind is reported by a thread that the scan for the kind has too. Without the calls
of the locators that do not declare the kind, the run is one of the scan for the kind in which
every call is answered as it was, complete if the run is; and it reports the same installations of
the kind, in the same order. -/
theorem kind_search_complete {platform : Platform}
    (hnorm : ∀ path, platform.normCase (platform.normCase path) = platform.normCase path)
    {listing : LocatorKind → LocatorsHost} {environment : LocatorsHost}
    {rigConfigured : Option (Option PathBuf)} {host : ScanHost}
    (hscan : ScansWith platform listing (createLocators platform environment rigConfigured) host)
    (configuration : Configuration) (kind : RInstallationKind) {refresh : Bool}
    {trace : List ScanAction} {r : ForkJoin ScanAction}
    (hruns : Runs (findAndReportInstallations host configuration none refresh) trace r) :
    (∀ action ∈ trace, ∀ installation, action.call = .report (.installation installation) →
      installation.kind = some kind → InKindScan host kind action.thread = true) ∧
    (∃ r', Runs (findAndReportInstallations host configuration (some (.global kind)) refresh)
        (trace.filter fun action => InKindScan host kind action.thread) r' ∧
      (r.finished = true → r'.finished = true)) ∧
    reportedOfKind kind (trace.filter fun action => InKindScan host kind action.thread) =
      reportedOfKind kind trace := by
  have hkinds := nodup_kinds_of_scansWith hscan
  have hthreads : ∀ action ∈ trace, ∀ installation,
      action.call = .report (.installation installation) → installation.kind = some kind →
        InKindScan host kind action.thread = true := by
    rintro ⟨thread, call⟩ hmem installation rfl hof
    obtain ⟨locator, hlocator, rfl, hreport⟩ | ⟨site, rfl⟩ :=
      report_of_mem_findAndReport (hruns.mem_actions hmem)
    · have hmember := sublist_selectedLocators.subset hlocator
      obtain ⟨made, hmade, -, hcategories, hfinds⟩ := exists_created_of_mem hscan hmember
      obtain ⟨declared, hdeclared, hinstallation⟩ :=
        declared_of_findsAs hnorm hmade hfinds hreport
      rw [inKindScan_locator hkinds hmember, List.contains_iff_mem, hcategories]
      rwa [← Option.some.inj (hinstallation.symm.trans hof)]
    · rfl
  exact ⟨hthreads, projects_findAndReport hkinds _ _ hruns, reportedOfKind_filter hthreads⟩

/-- A scan of a Linux machine whose threads run one after the other: its R of the distribution is
reported, and is reported by the scan for such an R. -/
theorem kind_search_complete_distro :
    reportedOfKind .linuxGlobal
        (findAndReportInstallations distroScan Configuration.default none true).actions ≠ [] ∧
    ∃ trace, Completes (findAndReportInstallations distroScan Configuration.default
        (some (.global .linuxGlobal)) true) trace ∧
      reportedOfKind .linuxGlobal trace = reportedOfKind .linuxGlobal
        (findAndReportInstallations distroScan Configuration.default none true).actions := by
  obtain ⟨r, hruns, hfinished⟩ :=
    completes_actions (findAndReportInstallations distroScan Configuration.default none true)
  obtain ⟨-, ⟨r', hruns', hcomplete⟩, hsame⟩ := kind_search_complete (fun _ => rfl)
    scansWith_distroScan Configuration.default .linuxGlobal hruns
  exact ⟨by decide +kernel, _, ⟨r', hruns', hcomplete hfinished⟩, hsame⟩

end REnvTools.Analysis
