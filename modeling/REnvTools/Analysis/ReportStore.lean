import REnvTools.Analysis.Merging
import REnvTools.Lib.KeyedStore
import REnvTools.Model.Reporters

/-!
# The store of `CacheReporter`

The decorator is a keyed store: installations are merged under their key, managers keep
the first report of their executable. `reportInstallation_file` and `insertManager_file`
say so of one section, `reporting` of every interleaving of the calls; the rest is the
store's own theory, with the facts about merges put in.
-/

set_option autoImplicit false

namespace REnvTools.Analysis

open Program Lib Model

variable {os : Os}

/-! ## One section -/

/-- The installations as a keyed store. -/
def installationStore (cache : CacheReporter CollectReporter) :
    KeyedStore.State RInstallation InstallationKey :=
  ⟨cache.reportedInstallations, cache.reporter.installations⟩

/-- The managers as a keyed store. -/
def managerStore (cache : CacheReporter CollectReporter) :
    KeyedStore.State EnvManager PathBuf :=
  ⟨cache.reportedManagers, cache.reporter.managers⟩

/-- The key of a manager. -/
def managerKey (manager : EnvManager) : Option PathBuf := some manager.executable

/-- The first report of a manager is kept. -/
def keepExisting (existing _new : EnvManager) : EnvManager := existing

section Sections

variable {cache : CacheReporter CollectReporter}

/-- Reporting an installation files it in the store. -/
theorem reportInstallation_file (installation : RInstallation) :
    installationStore (cache.reportInstallation os collectReporter installation) =
      KeyedStore.file (getInstallationKey os) (mergeInstallations os)
        (installationStore cache) installation := by
  unfold CacheReporter.reportInstallation KeyedStore.file installationStore
  cases hkey : getInstallationKey os installation with
  | none => rfl
  | some key =>
    cases hlookup : cache.reportedInstallations.lookup key with
    | none => simp only [hlookup, collectReporter]
    | some existing => simp only [hlookup]

/-- INTERNAL: it leaves the managers as they are. -/
theorem reportInstallation_managers (installation : RInstallation) :
    managerStore (cache.reportInstallation os collectReporter installation) =
      managerStore cache := by
  unfold CacheReporter.reportInstallation managerStore
  cases hkey : getInstallationKey os installation with
  | none => rfl
  | some key =>
    cases hlookup : cache.reportedInstallations.lookup key with
    | none => simp only [hlookup, collectReporter]
    | some existing => simp only [hlookup]

/-- Filing a manager that is there changes nothing. -/
theorem file_manager_of_seen {manager existing : EnvManager}
    (h : cache.reportedManagers.lookup manager.executable = some existing) :
    KeyedStore.file managerKey keepExisting (managerStore cache) manager =
      managerStore cache := by
  have hsame : cache.reportedManagers.insert manager.executable existing =
      cache.reportedManagers := by
    apply Finmap.ext_lookup
    intro path
    by_cases hpath : path = manager.executable
    · rw [hpath, Finmap.lookup_insert, h]
    · rw [Finmap.lookup_insert_of_ne _ hpath]
  simp only [KeyedStore.file, managerKey, managerStore, h, keepExisting, hsame]

/-- Reporting a manager files it in the store. -/
theorem insertManager_file (manager : EnvManager) :
    managerStore (cache.insertManager collectReporter manager) =
      KeyedStore.file managerKey keepExisting (managerStore cache) manager := by
  cases h : cache.reportedManagers.lookup manager.executable with
  | none =>
    simp only [CacheReporter.insertManager, h, KeyedStore.file, managerKey, managerStore,
      collectReporter]
  | some existing =>
    rw [file_manager_of_seen h]
    simp only [CacheReporter.insertManager, h]

/-- INTERNAL: it leaves the installations as they are. -/
theorem insertManager_installations (manager : EnvManager) :
    installationStore (cache.insertManager collectReporter manager) =
      installationStore cache := by
  unfold CacheReporter.insertManager installationStore
  cases h : cache.reportedManagers.lookup manager.executable with
  | none => rfl
  | some existing => rfl

end Sections

/-! ## A sequence of calls -/

/-- The store after the installation reports, one after the other. -/
abbrev filedInstallations (os : Os) (reports : List RInstallation) :
    KeyedStore.State RInstallation InstallationKey :=
  KeyedStore.run (getInstallationKey os) (mergeInstallations os) reports

/-- The reports of a key. -/
abbrev reportsOf (os : Os) (k : InstallationKey) (reports : List RInstallation) :
    List RInstallation :=
  KeyedStore.reportsOf (getInstallationKey os) k reports

/-- INTERNAL: the last report is filed last. -/
theorem filedInstallations_concat (reports : List RInstallation) (i : RInstallation) :
    filedInstallations os (reports ++ [i]) =
      KeyedStore.file (getInstallationKey os) (mergeInstallations os)
        (filedInstallations os reports) i :=
  KeyedStore.run_concat reports i

/-- After a sequence of calls the decorator holds the filed reports, and the inner reporter
was called with those that were forwarded. -/
theorem reportAll_eq {σ : Type} (inner : Reporter σ) (s : σ) (reports : List RInstallation) :
    CacheReporter.reportAll os inner (CacheReporter.new s) reports =
      { reporter := (filedInstallations os reports).forwarded.foldl
          (fun s i => inner.reportInstallation i s) s
        reportedManagers := ∅
        reportedInstallations := (filedInstallations os reports).store } := by
  induction reports using List.reverseRecOn with
  | nil => rfl
  | append_singleton reports i ih =>
    rw [CacheReporter.reportAll, List.foldl_append]
    rw [CacheReporter.reportAll] at ih
    rw [ih, List.foldl_cons, List.foldl_nil, filedInstallations_concat]
    unfold CacheReporter.reportInstallation KeyedStore.file
    cases hkey : getInstallationKey os i with
    | none => rfl
    | some key =>
      cases hlookup : (filedInstallations os reports).store.lookup key with
      | none => simp only [hlookup, List.foldl_append, List.foldl_cons, List.foldl_nil]
      | some existing => simp only [hlookup]

/-- The final map, whatever the inner reporter. -/
def finalMap {σ : Type} (os : Os) (inner : Reporter σ) (s : σ) (reports : List RInstallation) :
    Finmap (fun _ : InstallationKey => RInstallation) :=
  (CacheReporter.reportAll os inner (CacheReporter.new s) reports).reportedInstallations

/-- The map after all reports is the store that they are filed in. -/
theorem finalMap_eq {σ : Type} (inner : Reporter σ) (s : σ) (reports : List RInstallation) :
    finalMap os inner s reports = (filedInstallations os reports).store := by
  rw [finalMap, reportAll_eq]

/-! ## Every interleaving -/

/-- The cache is what its reports make of it, in the order they were dealt with. -/
structure ReportingFits (os : Os) (sh : Reporting) : Prop where
  installations : installationStore sh.cache = filedInstallations os sh.installationReports
  managers : managerStore sh.cache =
    KeyedStore.run managerKey keepExisting sh.managerReports
  built : ∀ installation ∈ sh.installationReports, BuilderBuilt os installation

/-- A reported installation was made by a builder. -/
def CallBuilt (os : Os) : ReportCall → Prop
  | .installation installation _ => BuilderBuilt os installation
  | .manager .. => True

/-- One section of a call. -/
theorem reporting_self {sh sh' : Reporting} {call call' : ReportCall}
    (h : ReportStep os sh call sh' call') (hsh : ReportingFits os sh)
    (hcall : CallBuilt os call) : ReportingFits os sh' ∧ CallBuilt os call' := by
  obtain ⟨hinst, hman, hbuilt⟩ := hsh
  cases h with
  | @installation installation =>
    refine ⟨⟨?_, ?_, ?_⟩, hcall⟩
    · rw [reportInstallation_file, hinst, filedInstallations_concat]
    · rw [reportInstallation_managers, hman]
    · intro i hi
      rcases List.mem_append.mp hi with hi | hi
      · exact hbuilt i hi
      · exact List.mem_singleton.mp hi ▸ hcall
  | @seen manager hseen =>
    refine ⟨⟨hinst, ?_, hbuilt⟩, trivial⟩
    obtain ⟨existing, hexisting⟩ := Option.isSome_iff_exists.mp hseen
    rw [KeyedStore.run_concat, ← hman, file_manager_of_seen hexisting]
  | unseen => exact ⟨⟨hinst, hman, hbuilt⟩, trivial⟩
  | insert =>
    refine ⟨⟨?_, ?_, hbuilt⟩, trivial⟩
    · rw [insertManager_installations, hinst]
    · rw [insertManager_file, hman, KeyedStore.run_concat]

section Runs

variable {s : ReportingState}

/-- **The reporter fits its reports** in every reachable state. -/
theorem reporting (h : (reporters os).Reachable s) : ReportingFits os s.shared := by
  refine (TaskSystem.invariant (G := ReportingFits os) (L := fun _ _ => CallBuilt os)
    ?_ ?_ ?_ ?_ h).1
  · rintro sh rfl
    exact ⟨rfl, rfl, by simp⟩
  · intro s call _ _ harrival
    cases harrival with
    | installation hbuilt => exact hbuilt
    | manager => trivial
  · intro s i call _ sh' call' _ _ hstep hG hL
    exact reporting_self hstep hG hL
  · intro s i call _ sh' call' j other _ _ _ _ _ _ _ hu
    exact hu

/-- The installation of a call that has returned. -/
def returnedInstallation : ReportCall → Multiset RInstallation
  | .installation installation true => {installation}
  | _ => 0

/-- The manager of a call that has returned. -/
def returnedManager : ReportCall → Multiset EnvManager
  | .manager manager .returned => {manager}
  | _ => 0

/-- The installation of a call that has not returned yet. -/
def unreturnedInstallation : ReportCall → Multiset RInstallation
  | .installation installation false => {installation}
  | _ => 0

/-- The manager of a call that has not returned yet. -/
def unreturnedManager : ReportCall → Multiset EnvManager
  | .manager manager .called | .manager manager .unseen => {manager}
  | _ => 0

/-- The reports are those of the calls that have returned. -/
theorem reports_eq (h : (reporters os).Reachable s) :
    (↑s.shared.installationReports : Multiset RInstallation) =
        (s.tasks.map returnedInstallation).sum ∧
      (↑s.shared.managerReports : Multiset EnvManager) =
        (s.tasks.map returnedManager).sum := by
  have hinst : (↑s.shared.installationReports : Multiset RInstallation) +
      (s.tasks.map unreturnedInstallation).sum =
        (s.tasks.map fun c => returnedInstallation c + unreturnedInstallation c).sum := by
    refine TaskSystem.conserved_when (C := fun _ _ => True)
      (f := fun sh : Reporting => (↑sh.installationReports : Multiset RInstallation))
      ?_ ?_ ?_ (TaskSystem.when_true h)
    · rintro sh rfl
      rfl
    · intro sh call harrival
      cases harrival <;> rfl
    · intro s i call _ sh' call' _ _ _ hstep
      cases hstep with
      | installation => exact ⟨by simp [unreturnedInstallation, ← Multiset.coe_add], rfl⟩
      | _ => exact ⟨rfl, rfl⟩
  have hman : (↑s.shared.managerReports : Multiset EnvManager) +
      (s.tasks.map unreturnedManager).sum =
        (s.tasks.map fun c => returnedManager c + unreturnedManager c).sum := by
    refine TaskSystem.conserved_when (C := fun _ _ => True)
      (f := fun sh : Reporting => (↑sh.managerReports : Multiset EnvManager))
      ?_ ?_ ?_ (TaskSystem.when_true h)
    · rintro sh rfl
      rfl
    · intro sh call harrival
      cases harrival <;> rfl
    · intro s i call _ sh' call' _ _ _ hstep
      cases hstep with
      | installation => exact ⟨rfl, rfl⟩
      | unseen => exact ⟨rfl, rfl⟩
      | _ => exact ⟨by simp [unreturnedManager, ← Multiset.coe_add], rfl⟩
  rw [List.sum_map_add] at hinst hman
  exact ⟨add_right_cancel hinst, add_right_cancel hman⟩

end Runs

/-! ## The stored record -/

/-- What every merge of reports of a key keeps. -/
def StoredUnder (os : Os) (k : InstallationKey) (r : RInstallation) : Prop :=
  Built os r ∧ getInstallationKey os r = some k

section Records

variable {k : InstallationKey} {reports : List RInstallation} {r : RInstallation}

/-- INTERNAL: the reports of a key are stored under it. -/
theorem storedUnder_of_mem_reportsOf (h : NormIdempotent os)
    (hbuilt : ∀ i ∈ reports, BuilderBuilt os i) :
    ∀ i ∈ reportsOf os k reports, StoredUnder os k i := by
  intro i hi
  obtain ⟨hmem, hkey⟩ := KeyedStore.mem_reportsOf.mp hi
  exact ⟨built_of_builderBuilt h (hbuilt i hmem), hkey⟩

/-- INTERNAL: so is the record that the store has of the key. -/
theorem storedUnder_of_lookup (h : KeyPreserving os)
    (hbuilt : ∀ i ∈ reports, BuilderBuilt os i)
    (hr : (filedInstallations os reports).store.lookup k = some r) : StoredUnder os k r := by
  have hmerge : ∀ a b, StoredUnder os k a → StoredUnder os k b →
      StoredUnder os k (mergeInstallations os a b) := fun a b ha hb =>
    ⟨built_merge h.idempotent, key_merge h ha.2 hb.2⟩
  rw [KeyedStore.lookup_run] at hr
  exact KeyedStore.mergeAll_induction hmerge
    (storedUnder_of_mem_reportsOf h.idempotent hbuilt) hr

/-- **The collections of a stored record** are the unions over the reports of its key. -/
theorem collections_of_lookup (h : NormIdempotent os)
    (hbuilt : ∀ i ∈ reports, BuilderBuilt os i)
    (hr : (filedInstallations os reports).store.lookup k = some r) :
    r.knownExecutables =
        someUnlessEmpty (sortDedup ((reportsOf os k reports).flatMap knownPaths)) ∧
      r.symlinks =
        someUnlessEmpty (sortDedup ((reportsOf os k reports).flatMap symlinkPaths)) ∧
      r.discoveredBy = sortDedup ((reportsOf os k reports).flatMap (·.discoveredBy)) := by
  have hmerge : ∀ a b, Built os a → Built os b → Built os (mergeInstallations os a b) :=
    fun _ _ _ _ => built_merge h
  have hall : ∀ i ∈ reportsOf os k reports, Built os i := fun i hi =>
    (storedUnder_of_mem_reportsOf h hbuilt i hi).1
  rw [KeyedStore.lookup_run] at hr
  have hbuilt' : Built os r := KeyedStore.mergeAll_induction hmerge hall hr
  have hknown : knownPaths r = sortDedup ((reportsOf os k reports).flatMap knownPaths) := by
    apply (pairwise_knownPaths hbuilt').eq_of_mem_iff (pairwise_sortDedup _)
    intro p
    rw [KeyedStore.mergeAll_iff (Q := fun r => p ∈ knownPaths r) hmerge
      (fun a b ha hb => mem_knownPaths_merge h ha hb p) hall hr]
    simp
  have hsymlinks :
      symlinkPaths r = sortDedup ((reportsOf os k reports).flatMap symlinkPaths) := by
    apply (pairwise_symlinkPaths hbuilt').eq_of_mem_iff (pairwise_sortDedup _)
    intro p
    rw [KeyedStore.mergeAll_iff (Q := fun r => p ∈ symlinkPaths r) hmerge
      (fun a b ha hb => mem_symlinkPaths_merge h ha hb p) hall hr]
    simp
  refine ⟨?_, ?_, ?_⟩
  · rw [knownExecutables_of_built hbuilt', hknown]
  · rw [symlinks_of_built hbuilt', hsymlinks]
  · apply (pairwise_discoveredBy hbuilt').eq_of_mem_iff (pairwise_sortDedup _)
    intro source
    rw [KeyedStore.mergeAll_iff (Q := fun r => source ∈ r.discoveredBy) hmerge
      (fun a b ha hb => mem_discoveredBy_merge ha hb source) hall hr]
    simp

end Records

/-! ## The store after any interleaving -/

/-- **The invariant of `CacheReporter`.** The reports dealt with are those of the calls
that returned. There is one record for each key reported, it has that key, and its three
collections are the sorted unions over the reports of the key; the inner reporter was
called with the first report of each key and of each manager's executable, and with
nothing else. -/
theorem cacheReporter_store {s : ReportingState} (h : KeyPreserving os)
    (hs : (reporters os).Reachable s) :
    ((↑s.shared.installationReports : Multiset RInstallation) =
        (s.tasks.map returnedInstallation).sum ∧
      (↑s.shared.managerReports : Multiset EnvManager) =
        (s.tasks.map returnedManager).sum) ∧
    (∀ k, k ∈ s.shared.cache.reportedInstallations ↔
      ∃ i ∈ s.shared.installationReports, getInstallationKey os i = some k) ∧
    (∀ k r, s.shared.cache.reportedInstallations.lookup k = some r →
      getInstallationKey os r = some k ∧
      r.knownExecutables = someUnlessEmpty
        (sortDedup ((reportsOf os k s.shared.installationReports).flatMap knownPaths)) ∧
      r.symlinks = someUnlessEmpty
        (sortDedup ((reportsOf os k s.shared.installationReports).flatMap symlinkPaths)) ∧
      r.discoveredBy =
        sortDedup ((reportsOf os k s.shared.installationReports).flatMap (·.discoveredBy))) ∧
    (∀ k, reportsOf os k s.shared.cache.reporter.installations =
      (reportsOf os k s.shared.installationReports).take 1) ∧
    (∀ i ∈ s.shared.cache.reporter.installations, ∃ k, getInstallationKey os i = some k) ∧
    (∀ path, s.shared.cache.reporter.managers.filter (·.executable = path) =
      (s.shared.managerReports.filter (·.executable = path)).take 1) := by
  obtain ⟨hinst, hman, hbuilt⟩ := reporting hs
  have hstore : s.shared.cache.reportedInstallations =
      (filedInstallations os s.shared.installationReports).store :=
    congrArg KeyedStore.State.store hinst
  have hforwarded : s.shared.cache.reporter.installations =
      (filedInstallations os s.shared.installationReports).forwarded :=
    congrArg KeyedStore.State.forwarded hinst
  have hmanagers : s.shared.cache.reporter.managers =
      (KeyedStore.run managerKey keepExisting s.shared.managerReports).forwarded :=
    congrArg KeyedStore.State.forwarded hman
  refine ⟨reports_eq hs, ?_, ?_, ?_, ?_, ?_⟩
  · intro k
    rw [hstore]
    exact KeyedStore.mem_run _ k
  · intro k r hr
    rw [hstore] at hr
    exact ⟨(storedUnder_of_lookup h hbuilt hr).2,
      collections_of_lookup h.idempotent hbuilt hr⟩
  · intro k
    rw [hforwarded]
    exact KeyedStore.forwarded_run _ k
  · intro i hi
    rw [hforwarded] at hi
    exact KeyedStore.key_of_mem_forwarded hi
  · intro path
    have hfilter : ∀ managers : List EnvManager,
        managers.filter (·.executable = path) =
          KeyedStore.reportsOf managerKey path managers := by
      intro managers
      simp [KeyedStore.reportsOf, managerKey]
    rw [hfilter, hfilter, hmanagers]
    exact KeyedStore.forwarded_run _ path

/-! ## Two launchers of one installation -/

/-- A host on which every path is as it should be. -/
def plainOs : Os := ⟨false, id, fun _ => none⟩

/-- INTERNAL: paths have one spelling on this machine. -/
theorem plainOs_keyPreserving : KeyPreserving plainOs := ⟨fun _ => rfl, fun _ => rfl⟩

/-- The home `/opt/R`. -/
def optR : PathBuf := ⟨[.rootDir, .normal "opt", .normal "R"]⟩

/-- A report of a launcher under `/opt/R`. -/
def sampleReport (launcher : String) (kind : RInstallationKind) : RInstallation :=
  RInstallationBuilder.build plainOs
    { RInstallationBuilder.new (some kind) with
      executable := some ((optR.join "bin").join launcher)
      home := some optR }

/-- INTERNAL: the sample reports are built. -/
theorem sampleReport_builderBuilt (launcher : String) (kind : RInstallationKind) :
    BuilderBuilt plainOs (sampleReport launcher kind) := ⟨_, rfl⟩

/-- The key of both launchers. -/
def sampleInstallationKey : InstallationKey :=
  ⟨some optR, some (optR.join "bin"), some "R", none, none, []⟩

/-- The state after the two reports. -/
def reportedState : ReportingState :=
  ⟨⟨(((CacheReporter.new ⟨[], []⟩).reportInstallation plainOs collectReporter
        (sampleReport "Rscript" .linuxGlobal)).reportInstallation plainOs collectReporter
        (sampleReport "R" .rig)),
      [sampleReport "Rscript" .linuxGlobal, sampleReport "R" .rig], []⟩,
    [.installation (sampleReport "R" .rig) true,
      .installation (sampleReport "Rscript" .linuxGlobal) true]⟩

/-- INTERNAL: the state after the reports is reached. -/
theorem reportedState_reachable : (reporters plainOs).Reachable reportedState := by
  have h0 : (reporters plainOs).Reachable ⟨⟨CacheReporter.new ⟨[], []⟩, [], []⟩, []⟩ :=
    .init ⟨rfl, rfl⟩
  have h1 := Machine.Reachable.step h0 (TaskSystem.Step.spawn
    (ReportArrival.installation (sampleReport_builderBuilt "R" .rig)))
  have h2 := Machine.Reachable.step h1 (TaskSystem.Step.spawn
    (ReportArrival.installation (sampleReport_builderBuilt "Rscript" .linuxGlobal)))
  have h3 := Machine.Reachable.step h2
    (TaskSystem.Step.step (i := 1) (a := ()) rfl ReportStep.installation)
  exact Machine.Reachable.step h3
    (TaskSystem.Step.step (i := 0) (a := ()) rfl ReportStep.installation)

/-- The theorem for a state with a stored report. -/
theorem cacheReporter_store_reported :
    sampleInstallationKey ∈ reportedState.shared.cache.reportedInstallations :=
  ((cacheReporter_store plainOs_keyPreserving reportedState_reachable).2.1
    sampleInstallationKey).mpr
    ⟨sampleReport "R" .rig, by simp [reportedState], by decide⟩

end REnvTools.Analysis
