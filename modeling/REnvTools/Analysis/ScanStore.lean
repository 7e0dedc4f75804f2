import REnvTools.Analysis.ReportOrder
import REnvTools.Analysis.ScanRuns
import REnvTools.Program.Locators

/-!
# What a scan leaves in the store

The reports of a complete scan end in the map of `CacheReporter`. The order in which the threads
of the scan reported decides at most between values that contradict each other, and an executable
that the scan comes across and whose runtime can be found out ends in a record that says where
it was discovered.
-/

set_option autoImplicit false

namespace REnvTools.Analysis

open Program Lib Lib.ForkJoin

/-- The installations among the messages. -/
def installationsIn (messages : List Message) : List RInstallation :=
  messages.filterMap fun message =>
    match message with
    | .installation installation => some installation
    | .manager _ => none

/-- The map that `CacheReporter` holds after these calls. -/
def scanned (os : Os) (trace : List ScanAction) :
    Finmap (fun _ : InstallationKey => RInstallation) :=
  finalMap os collectReporter ⟨[], []⟩ (installationsIn (reportsIn trace))

/-- What the locators report comes from the builder. -/
def FindBuilt (host : ScanHost) : Prop :=
  ∀ locator ∈ host.locators, ∀ installation, Message.installation installation ∈ locator.found →
    BuilderBuilt host.os installation

variable {host : ScanHost} {configuration : Configuration} {scope : Option SearchScope}

/-! ## The reports of a scan -/

/-- INTERNAL: the installations among the messages. -/
theorem mem_installationsIn {messages : List Message} {installation : RInstallation} :
    installation ∈ installationsIn messages ↔ .installation installation ∈ messages := by
  unfold installationsIn
  rw [List.mem_filterMap]
  constructor
  · rintro ⟨message, hmem, heq⟩
    cases message with
    | manager => cases heq
    | installation =>
      cases heq
      exact hmem
  · exact fun hmem => ⟨_, hmem, rfl⟩

/-- INTERNAL: a report is a call of the trace. -/
theorem mem_reportsIn {trace : List ScanAction} {message : Message} :
    message ∈ reportsIn trace ↔ ∃ thread, ⟨thread, .report message⟩ ∈ trace := by
  unfold reportsIn
  rw [List.mem_filterMap]
  constructor
  · rintro ⟨⟨thread, call⟩, hmem, heq⟩
    cases call <;> cases heq
    exact ⟨thread, hmem⟩
  · rintro ⟨thread, hmem⟩
    exact ⟨_, hmem, rfl⟩

/-- INTERNAL: the calls of a locator report what its `find` reports. -/
theorem reportsIn_locatorCalls (locator : ScanLocator) :
    reportsIn (locatorCalls locator) = locator.found := by
  unfold reportsIn locatorCalls ScanLocator.found
  rw [List.filterMap_cons, List.filterMap_map]
  refine List.filterMap_congr fun call _ => ?_
  cases call <;> rfl

/-- INTERNAL: the installation that is reported for an identified one comes from the builder. -/
theorem builderBuilt_identifiedReports {source : DiscoverySource}
    {identified : Option RInstallation} {installation : RInstallation}
    (h : .installation installation ∈ identifiedReports host (some source) identified) :
    BuilderBuilt host.os installation := by
  cases identified with
  | none => cases h
  | some existing =>
    obtain h | h := List.mem_append.mp h
    · cases hmanager : (addDiscoverySource host.os source existing).manager <;> simp [hmanager] at h
    · cases List.mem_singleton.mp h
      exact ⟨_, rfl⟩

/-- INTERNAL: what a scan reports comes from the builder. -/
theorem builderBuilt_of_scanCalls (hfound : FindBuilt host) :
    ∀ installation ∈ installationsIn (reportsIn (scanCalls host configuration scope)),
      BuilderBuilt host.os installation := by
  intro installation h
  obtain ⟨thread, h⟩ := mem_reportsIn.mp (mem_installationsIn.mp h)
  unfold scanCalls at h
  obtain h | h := List.mem_append.mp h
  · obtain ⟨locator, hlocator, h⟩ := List.mem_flatMap.mp h
    have hmessage : .installation installation ∈ reportsIn (locatorCalls locator) :=
      mem_reportsIn.mpr ⟨thread, h⟩
    rw [reportsIn_locatorCalls] at hmessage
    exact hfound locator (sublist_selectedLocators.subset hlocator) installation hmessage
  · obtain ⟨site, _, h⟩ := List.mem_flatMap.mp h
    obtain h | h := List.mem_append.mp h
    · cases site with
      | globalPath | below => cases List.mem_singleton.mp h
      | configured => cases h
    · obtain ⟨executable, _, h⟩ := List.mem_flatMap.mp h
      obtain h | h := List.mem_cons.mp h
      · cases h
      · obtain ⟨message, hmessage, heq⟩ := List.mem_map.mp h
        cases heq
        exact builderBuilt_identifiedReports hmessage

/-- INTERNAL: the reports of a complete scan, whatever the order. -/
theorem reports_perm {refresh : Bool} {trace : List ScanAction}
    (h : Completes (findAndReportInstallations host configuration scope refresh) trace) :
    (installationsIn (reportsIn trace)).Perm
      (installationsIn (reportsIn (scanCalls host configuration scope))) := by
  have hcalls := h.perm.filter ScanAction.works
  rw [filter_findAndReport] at hcalls
  rw [← reportsIn_filter]
  exact (hcalls.filterMap _).filterMap _

/-! ## The store of a scan -/

/-- INTERNAL: the keys are those of the reports. -/
theorem mem_scanned {os : Os} {trace : List ScanAction} {k : InstallationKey} :
    k ∈ scanned os trace ↔ ∃ installation ∈ installationsIn (reportsIn trace),
      getInstallationKey os installation = some k := by
  unfold scanned
  rw [finalMap_eq, KeyedStore.mem_run]

/-- **The store that a scan leaves**, over every order of its threads' calls: its keys are those
of the reports of the selected locators and of the sites. Two scans may get different answers, since
what a thread finds depends on what others have found before; but under a key for which both make
the same reports, in whatever order, their records differ at most in fields in which these reports
contradict each other. -/
theorem scan_store {host' : ScanHost} (hos : host'.os = host.os) (h : NormIdempotent host.os)
    (hfound : FindBuilt host) (hfound' : FindBuilt host') {configuration' : Configuration}
    {scope' : Option SearchScope} {refresh refresh' : Bool} {trace trace' : List ScanAction}
    (htrace : Completes (findAndReportInstallations host configuration scope refresh) trace)
    (htrace' : Completes (findAndReportInstallations host' configuration' scope' refresh')
      trace') :
    (∀ k, k ∈ scanned host.os trace ↔
      ∃ installation, .installation installation ∈ reportsIn (scanCalls host configuration scope) ∧
        getInstallationKey host.os installation = some k) ∧
    ∀ k r r', (reportsOf host.os k (installationsIn (reportsIn trace))).Perm
        (reportsOf host.os k (installationsIn (reportsIn trace'))) →
      (scanned host.os trace).lookup k = some r → (scanned host.os trace').lookup k = some r' →
      SameUpToChoice host.os (reportsOf host.os k (installationsIn (reportsIn trace))) r r' ∧
      (OneValued host.os (reportsOf host.os k (installationsIn (reportsIn trace))) → r = r') := by
  have hperm := reports_perm htrace
  have hbuilt : ∀ i ∈ installationsIn (reportsIn trace), BuilderBuilt host.os i := fun i hi =>
    builderBuilt_of_scanCalls hfound i (hperm.mem_iff.mp hi)
  have hbuilt' : ∀ i ∈ installationsIn (reportsIn trace'), BuilderBuilt host.os i := fun i hi =>
    hos ▸ builderBuilt_of_scanCalls hfound' i ((reports_perm htrace').mem_iff.mp hi)
  refine ⟨fun k => ?_, fun k r r' hboth hr hr' => ?_⟩
  · rw [mem_scanned]
    simp only [hperm.mem_iff, mem_installationsIn]
  · unfold scanned at hr hr'
    rw [finalMap_eq] at hr hr'
    exact ⟨sameUpToChoice_of_perm h hbuilt hbuilt' hboth hr hr',
      fun hone => eq_of_oneValued h hone hbuilt hbuilt' hboth hr hr'⟩

/-- INTERNAL: the only locator finds nothing. -/
theorem findBuilt_pathScan : FindBuilt pathScan := by
  intro locator hlocator installation hmem
  obtain rfl := List.mem_singleton.mp hlocator
  cases hmem

/-- The same machine in a scan whose locator finds an R of its own as well. -/
def otherPathScan : ScanHost :=
  { pathScan with
    locators := [⟨.conda, [.conda], .seq (.act .look) (.act (.report (.installation
      (RInstallationBuilder.build pathScan.os
        { RInstallationBuilder.new (some .conda) with
          executable := some (rootedPath ["opt", "bin", "R"]) }))))⟩] }

/-- INTERNAL: its report comes from the builder. -/
theorem findBuilt_otherPathScan : FindBuilt otherPathScan := by
  intro locator hlocator installation hmem
  obtain rfl := List.mem_singleton.mp hlocator
  obtain rfl := Message.installation.inj (List.mem_singleton.mp hmem)
  exact ⟨_, rfl⟩

/-- The key of the launcher in the `PATH`. -/
def pathKey : InstallationKey where
  home := some (rootedPath ["lib", "R"])
  launchDirectory := some (rootedPath ["bin"])
  launcherName := some "R"
  architecture := some "x86_64"
  startup := none
  environment := []

/-- The record of the launcher is the same in both scans. -/
theorem scan_store_path :
    ∃ k r r', (scanned pathScan.os
        (findAndReportInstallations pathScan Configuration.default none false).actions).lookup k =
          some r ∧
      (scanned pathScan.os
        (findAndReportInstallations otherPathScan Configuration.default none true).actions).lookup
          k = some r' ∧
      SameUpToChoice pathScan.os (reportsOf pathScan.os k (installationsIn (reportsIn
        (findAndReportInstallations pathScan Configuration.default none false).actions))) r r' := by
  have hreports : reportsOf pathScan.os pathKey (installationsIn (reportsIn
        (findAndReportInstallations pathScan Configuration.default none false).actions)) =
      reportsOf pathScan.os pathKey (installationsIn (reportsIn
        (findAndReportInstallations otherPathScan Configuration.default none true).actions)) := by
    decide +kernel
  have hsome : reportsOf pathScan.os pathKey (installationsIn (reportsIn
      (findAndReportInstallations pathScan Configuration.default none false).actions)) ≠ [] := by
    decide +kernel
  obtain ⟨report, hreport⟩ := List.exists_mem_of_ne_nil _ hsome
  have hreport' := hreports ▸ hreport
  obtain ⟨r, hr⟩ := Option.isSome_iff_exists.mp (Finmap.lookup_isSome.mpr (mem_scanned.mpr
    ⟨report, KeyedStore.mem_reportsOf.mp hreport⟩))
  obtain ⟨r', hr'⟩ := Option.isSome_iff_exists.mp (Finmap.lookup_isSome.mpr (mem_scanned.mpr
    ⟨report, KeyedStore.mem_reportsOf.mp hreport'⟩))
  exact ⟨pathKey, r, r', hr, hr', ((@scan_store pathScan Configuration.default none
    otherPathScan rfl (fun _ => rfl) findBuilt_pathScan findBuilt_otherPathScan
    Configuration.default none false true _ _ (completes_actions _) (completes_actions _)).2
      pathKey r r' (List.Perm.of_eq hreports) hr hr').1⟩

/-! ## Executables that a scan comes across -/

/-- INTERNAL: the source is among those of the installation that is reported. -/
theorem mem_discoveredBy_add (os : Os) (source : DiscoverySource) (installation : RInstallation) :
    source ∈ (addDiscoverySource os source installation).discoveredBy := by
  unfold addDiscoverySource
  show source ∈ sortDedup _
  rw [mem_sortDedup]
  by_cases hmem : source ∈ installation.discoveredBy
  · rw [if_pos (List.contains_iff_mem.mpr hmem), if_neg fun h => List.ne_nil_of_mem hmem h.1]
    exact hmem
  · have hadded : source ∈ sortDedup (installation.discoveredBy ++ [source]) :=
      mem_sortDedup.mpr (List.mem_append_right _ List.mem_cons_self)
    rw [if_neg (mt List.contains_iff_mem.mp hmem), if_neg fun h => List.ne_nil_of_mem hadded h.1]
    exact hadded

/-- INTERNAL: adding a source keeps what is known. -/
theorem mem_knownPaths_add {os : Os} {source : DiscoverySource} {installation : RInstallation}
    {path : PathBuf} (h : path ∈ knownPaths installation) (hnorm : os.normCase path = path) :
    path ∈ knownPaths (addDiscoverySource os source installation) := by
  unfold addDiscoverySource
  rw [knownPaths_build, mem_normalizePaths]
  exact ⟨path, List.mem_append_left _ h, hnorm⟩

/-- What is identified of an executable whose runtime can be found out: the executable is the
installation's and is known of it. -/
theorem identified_resolved {machine : LocatorHost} (env : REnv) (locators : List Locator)
    (globalSearchPaths : List PathBuf) {runtime : ProbedRuntime}
    (h : NormIdempotent machine.os) (hprobe : machine.probe env.executable = some runtime) :
    ∃ installation, identifyRInstallationUsingLocators machine env locators globalSearchPaths =
        some installation ∧
      installation.executable ≠ none ∧
      machine.os.normCase env.executable ∈ knownPaths installation := by
  have hresolved : resolvedRInstallationFrom machine env.executable =
      some (buildResolved machine env.executable runtime) := by
    unfold resolvedRInstallationFrom
    rw [hprobe]
    rfl
  have hexecutable : (buildResolved machine env.executable runtime).executable =
      machine.os.normCase env.executable := rfl
  have hmerged : ∀ existing : RInstallation,
      machine.os.normCase env.executable ∈ knownPaths (markLocatorDiscovery machine.os
        (mergeResolvedInstallation machine.os existing
          (buildResolved machine env.executable runtime))) := by
    intro existing
    unfold markLocatorDiscovery mergeResolvedInstallation
    rw [knownPaths_build, mem_normalizePaths]
    refine ⟨machine.os.normCase env.executable, List.mem_append_right _ ?_, h _⟩
    rw [RInstallationBuilder.build_executable, hexecutable, h]
    exact List.mem_cons_self
  unfold identifyRInstallationUsingLocators
  rw [hresolved]
  simp only
  split
  · exact ⟨_, rfl, Option.some_ne_none _, hmerged _⟩
  · split
    · exact ⟨_, rfl, Option.some_ne_none _, hmerged _⟩
    · refine ⟨_, rfl, Option.some_ne_none _, ?_⟩
      unfold createUnknownInstallation
      rw [knownPaths_build, mem_normalizePaths]
      refine ⟨machine.os.normCase env.executable, List.mem_append_right _ ?_, h _⟩
      rw [hexecutable, h]
      exact List.mem_cons_self

/-- **A scan loses no executable**: whatever it comes across at one of its sites and whose runtime
can be found out there ends, in every order of its threads' calls, in a record that knows the
executable and the way by which it was discovered. -/
theorem scan_coverage (h : NormIdempotent host.os) (hfound : FindBuilt host) {refresh : Bool}
    {trace : List ScanAction}
    (htrace : Completes (findAndReportInstallations host configuration scope refresh) trace)
    {site : ScanSite} (hsite : site ∈ sites host configuration scope) {executable : PathBuf}
    (hexecutable : executable ∈ executablesAt host configuration site) {machine : LocatorHost}
    {locators : List Locator} (hos : machine.os = host.os)
    (hidentified : host.identified site executable =
      identifyRInstallationUsingLocators machine (REnv.new host.os executable none none) locators
        host.globalSearchPaths)
    (hprobe : (machine.probe (host.os.normCase executable)).isSome = true) :
    ∃ k r, (scanned host.os trace).lookup k = some r ∧
      host.os.normCase executable ∈ knownPaths r ∧ siteSource site ∈ r.discoveredBy := by
  obtain ⟨runtime, hprobe⟩ := Option.isSome_iff_exists.mp hprobe
  have hidem : NormIdempotent machine.os := hos ▸ h
  obtain ⟨existing, hexisting, hsome, hknown⟩ :=
    identified_resolved (REnv.new host.os executable none none) locators host.globalSearchPaths
      hidem hprobe
  rw [hexisting] at hidentified
  rw [hos] at hknown
  have hspelling : host.os.normCase (REnv.new host.os executable none none).executable =
      host.os.normCase executable := h executable
  rw [hspelling] at hknown
  -- the installation that the scan reports for the executable
  let reported := addDiscoverySource host.os (siteSource site) existing
  have hmem : reported ∈ installationsIn (reportsIn (scanCalls host configuration scope)) := by
    rw [mem_installationsIn, mem_reportsIn]
    refine ⟨.site site, List.mem_append_right _ (List.mem_flatMap.mpr ⟨site, hsite, ?_⟩)⟩
    refine List.mem_append_right _ (List.mem_flatMap.mpr ⟨executable, hexecutable, ?_⟩)
    unfold identifyCalls
    rw [hidentified]
    refine List.mem_cons_of_mem _ (List.mem_map.mpr ⟨.installation reported, ?_, rfl⟩)
    exact List.mem_append_right _ List.mem_cons_self
  have hperm := reports_perm htrace
  have hbuilt : ∀ i ∈ installationsIn (reportsIn trace), BuilderBuilt host.os i := fun i hi =>
    builderBuilt_of_scanCalls hfound i (hperm.mem_iff.mp hi)
  obtain ⟨k, hkey⟩ : ∃ k, getInstallationKey host.os reported = some k := by
    unfold getInstallationKey
    rw [if_neg fun hnone => hsome hnone.2]
    exact ⟨_, rfl⟩
  have hstored : k ∈ (filedInstallations host.os (installationsIn (reportsIn trace))).store :=
    (KeyedStore.mem_run _ k).mpr ⟨reported, hperm.mem_iff.mpr hmem, hkey⟩
  obtain ⟨r, hr⟩ := Option.isSome_iff_exists.mp (Finmap.lookup_isSome.mpr hstored)
  have hreport : reported ∈ reportsOf host.os k (installationsIn (reportsIn trace)) :=
    KeyedStore.mem_reportsOf.mpr ⟨hperm.mem_iff.mpr hmem, hkey⟩
  obtain ⟨hpaths, -, hsources⟩ := collections_of_lookup h hbuilt hr
  refine ⟨k, r, by rw [scanned, finalMap_eq, hr], ?_, ?_⟩
  · unfold knownPaths at hpaths ⊢
    rw [hpaths, getD_someUnlessEmpty, mem_sortDedup]
    exact List.mem_flatMap.mpr ⟨reported, hreport, mem_knownPaths_add hknown (h executable)⟩
  · rw [hsources, mem_sortDedup]
    exact List.mem_flatMap.mpr ⟨reported, hreport, mem_discoveredBy_add _ _ _⟩

/-- The launcher in the `PATH` is stored. -/
theorem scan_coverage_path :
    ∃ k r, (scanned pathScan.os
        (findAndReportInstallations pathScan Configuration.default none false).actions).lookup k =
          some r ∧
      pathLauncher ∈ knownPaths r ∧ DiscoverySource.globalPaths ∈ r.discoveredBy :=
  @scan_coverage pathScan Configuration.default none (fun _ => rfl) findBuilt_pathScan false _
    (completes_actions _) (.globalPath (rootedPath ["bin"])) (by decide) pathLauncher (by decide)
    pathMachine [] rfl rfl rfl

end REnvTools.Analysis
