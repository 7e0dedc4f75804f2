import REnvTools.Analysis.Merging
import REnvTools.Model.GlobalLocators

/-!
# What the locators of global installations find

The loops of `find` skip what has been reported, and several threads may do this at once, beside
calls of `try_from` and other calls of `find` that empty the map. `global_locators_find` says that
no executable gets lost in this: what a thread was given and what can be resolved is listed by
something that was reported. `global_locators_recall` says what `try_from` makes of it.
-/

set_option autoImplicit false

namespace REnvTools.Analysis

open Lib Program Model

/-- Unix, where a path is in normal form as it is. -/
structure OnUnix (platform : Platform) : Prop where
  notWindows : platform.windows = false
  normCase : ∀ path, platform.normCase path = path

/-! ## What is built -/

section Built

variable {platform : Platform} {host : GlobalHost} {resolved : ResolvedRInstallation}

/-- INTERNAL: what the builder was given is known. -/
theorem mem_knownPaths_of_builder (hunix : OnUnix platform) {b : RInstallationBuilder}
    {path : PathBuf} (h : path ∈ b.knownExecutables.getD [] ++ b.executable.toList) :
    path ∈ knownPaths (b.build (host.os platform)) := by
  rw [knownPaths_build]
  exact mem_normalizePaths.mpr ⟨path, h, hunix.normCase path⟩

/-- INTERNAL: paths that were normalised are the paths. -/
theorem mem_normalizePaths_unix (hunix : OnUnix platform) {paths : List PathBuf}
    {path : PathBuf} : path ∈ normalizePaths (host.os platform) paths ↔ path ∈ paths := by
  rw [mem_normalizePaths]
  constructor
  · rintro ⟨other, hmem, rfl⟩
    show platform.normCase other ∈ paths
    rwa [hunix.normCase other]
  · exact fun h => ⟨path, h, hunix.normCase path⟩

/-- INTERNAL: the environment of a resolved executable. -/
theorem executable_toREnv (hunix : OnUnix platform) :
    (resolved.toREnv (host.os platform)).executable = resolved.executable :=
  hunix.normCase _

/-- INTERNAL: the home of a resolved executable. -/
theorem home_toREnv (hunix : OnUnix platform) :
    (resolved.toREnv (host.os platform)).home = some resolved.home :=
  congrArg some (hunix.normCase _)

/-- Where an installation lists an executable, it is kept under what it lists. -/
theorem insertedEntries_of_mem {installation : RInstallation} {path : PathBuf}
    (h : path ∈ knownPaths installation) :
    insertedEntries installation = knownPaths installation := by
  unfold insertedEntries
  unfold knownPaths at h ⊢
  split
  · rename_i hnil
    rw [hnil] at h
    cases h
  · rename_i hcons
    exact hcons.symm

/-- The resolved executable is the one that was asked for. -/
theorem executable_of_resolvedFrom (hunix : OnUnix platform) {executable : PathBuf}
    (h : host.resolvedFrom platform executable = some resolved) :
    resolved.executable = executable := by
  obtain ⟨runtime, -, rfl⟩ := Option.map_eq_some_iff.mp h
  exact hunix.normCase executable

/-- INTERNAL: what is asked of an installation before it is added to the cache. -/
theorem accepts_of_fields {installation : RInstallation}
    (hknown : resolved.executable ∈ knownPaths installation)
    (hversion : installation.version = some resolved.version)
    (hhome : installation.home = some resolved.home)
    (harch : installation.arch = some resolved.arch) : resolved.accepts installation = true := by
  unfold ResolvedRInstallation.accepts
  unfold knownPaths at hknown
  rw [hversion, hhome, harch]
  simpa using hknown

/-- INTERNAL: what the locators of package managers build. -/
theorem accepts_packageManagerInstallation (hunix : OnUnix platform) (kind : RInstallationKind)
    (displayName : String) (manager : Option EnvManager)
    (executable resolvedExecutable : PathBuf) :
    resolved.accepts (packageManagerInstallation platform host kind displayName manager
      (resolved.toREnv (host.os platform)) executable resolvedExecutable resolved.home) = true := by
  refine accepts_of_fields (mem_knownPaths_of_builder hunix ?_) rfl ?_ rfl
  · refine List.mem_append_left _ ((mem_normalizePaths_unix hunix).mpr ?_)
    refine List.mem_append_right _ (List.mem_append_left _ ?_)
    rw [executable_toREnv hunix]
    exact List.mem_cons_self
  · exact congrArg some (hunix.normCase _)

/-- INTERNAL: what the profile locators build. -/
theorem profileTryFrom_eq_some {locator : ProfileLocator} {env : REnv}
    {installation : RInstallation}
    (h : profileTryFrom platform host locator env = some installation) :
    ∃ home, env.home = some home ∧
      installation = packageManagerInstallation platform host locator.kind locator.displayName
        locator.manager env env.executable (resolvedExecutableOf host env) home := by
  unfold profileTryFrom at h
  split at h
  · cases h
  · obtain ⟨-, -, h⟩ := Option.bind_eq_some_iff.mp h
    obtain ⟨home, hhome, h⟩ := Option.bind_eq_some_iff.mp h
    split at h
    · cases h
    · exact ⟨home, hhome, (Option.some.inj h).symm⟩

/-- INTERNAL: what the Spack locator builds. -/
theorem spackInstallationFromEnv_eq_some {locator : SpackLocator} {env : REnv}
    {installation : RInstallation}
    (h : spackInstallationFromEnv platform host locator env = some installation) :
    ∃ home, env.home = some home ∧
      installation = packageManagerInstallation platform host .spack "Spack R" locator.manager
        env (resolvedExecutableOf host env) (resolvedExecutableOf host env) home := by
  obtain ⟨-, -, h⟩ := Option.bind_eq_some_iff.mp h
  obtain ⟨home, hhome, h⟩ := Option.map_eq_some_iff.mp h
  exact ⟨home, hhome, h.symm⟩

/-- INTERNAL: `LinuxGlobalR` lists the resolved executable. -/
theorem mem_knownPaths_linuxGlobalInstallation (hunix : OnUnix platform) :
    resolved.executable ∈ knownPaths (linuxGlobalInstallation platform host resolved) := by
  refine mem_knownPaths_of_builder hunix (List.mem_append_right _ ?_)
  show resolved.executable ∈
    [platform.normCase (resolved.toREnv (host.os platform)).executable]
  rw [hunix.normCase, executable_toREnv hunix]
  exact List.mem_singleton_self _

/-- The two ways in which the entries of an installation are chosen agree. -/
theorem linuxGlobalEntries_eq (hunix : OnUnix platform) :
    linuxGlobalEntries (resolved.toREnv (host.os platform))
      (linuxGlobalInstallation platform host resolved) =
      insertedEntries (linuxGlobalInstallation platform host resolved) := by
  have hmem := @mem_knownPaths_linuxGlobalInstallation platform host resolved hunix
  rw [insertedEntries_of_mem hmem]
  unfold linuxGlobalEntries
  unfold knownPaths at hmem ⊢
  split
  · rename_i hnil
    rw [hnil] at hmem
    cases hmem
  · rename_i hcons
    exact hcons.symm

/-- INTERNAL: what `LinuxGlobalR` builds. -/
theorem accepts_linuxGlobalInstallation (hunix : OnUnix platform) :
    resolved.accepts (linuxGlobalInstallation platform host resolved) = true := by
  refine accepts_of_fields (mem_knownPaths_linuxGlobalInstallation hunix) rfl ?_ rfl
  show (resolved.toREnv (host.os platform)).home.map platform.normCase = _
  rw [home_toREnv hunix, Option.map_some, hunix.normCase]

/-- A locator accepts what it builds, and gives it its kind. -/
theorem accepts_of_installationOf (hunix : OnUnix platform) {locator : GlobalLocator}
    (hmade : MadeLocator platform locator) {installation : RInstallation}
    (h : locator.installationOf host resolved = some installation) :
    resolved.accepts installation = true ∧ installation.kind = some locator.kind := by
  have hprofile : ∀ profile : ProfileLocator,
      profileTryFrom platform host profile (resolved.toREnv (host.os platform)) =
        some installation →
      resolved.accepts installation = true ∧ installation.kind = some profile.kind := by
    intro profile h
    obtain ⟨home, hhome, rfl⟩ := profileTryFrom_eq_some h
    cases hhome.symm.trans (home_toREnv hunix)
    exact ⟨accepts_packageManagerInstallation hunix _ _ _ _ _, rfl⟩
  cases hmade with
  | linuxGlobal =>
    cases Option.some.inj h
    exact ⟨accepts_linuxGlobalInstallation hunix, rfl⟩
  | nix start => exact hprofile _ h
  | guix start => exact hprofile _ h
  | spack start =>
    replace h : spackInstallationFromEnv platform host (spack platform start)
      (resolved.toREnv (host.os platform)) = some installation := h
    obtain ⟨home, hhome, rfl⟩ := spackInstallationFromEnv_eq_some h
    cases hhome.symm.trans (home_toREnv hunix)
    exact ⟨accepts_packageManagerInstallation hunix _ _ _ _ _, rfl⟩

/-- What `try_from` answers is what the map has, or lists the executable and is of the locator's
kind. -/
theorem tryFrom_eq_some (hunix : OnUnix platform) {locator : GlobalLocator}
    (hmade : MadeLocator platform locator) {stored : Option RInstallation} {env : REnv}
    {installation : RInstallation} (h : locator.tryFrom host stored env = some installation) :
    stored = some installation ∨
      env.executable ∈ knownPaths installation ∧ installation.kind = some locator.kind := by
  have hmanager : ∀ kind displayName manager executable resolvedExecutable home,
      env.executable ∈ knownPaths (packageManagerInstallation platform host kind displayName
        manager env executable resolvedExecutable home) := by
    intro kind displayName manager executable resolvedExecutable home
    refine mem_knownPaths_of_builder hunix (List.mem_append_left _ ?_)
    refine (mem_normalizePaths_unix hunix).mpr (List.mem_append_right _ ?_)
    exact List.mem_append_left _ List.mem_cons_self
  cases hmade with
  | linuxGlobal =>
    replace h : linuxGlobalTryFrom platform host stored env = some installation := h
    unfold linuxGlobalTryFrom at h
    dsimp only at h
    split at h
    · cases h
    · obtain ⟨-, -, h⟩ := Option.bind_eq_some_iff.mp h
      obtain ⟨parent, -, h⟩ := Option.bind_eq_some_iff.mp h
      split at h
      · cases h
      · obtain h | ⟨-, h⟩ := Option.or_eq_some_iff.mp h
        · exact .inl h
        · cases Option.some.inj h
          refine .inr ⟨mem_knownPaths_of_builder hunix (List.mem_append_right _ ?_), rfl⟩
          show env.executable ∈ [platform.normCase env.executable]
          rw [hunix.normCase]
          exact List.mem_singleton_self _
  | nix start | guix start =>
    obtain ⟨home, -, rfl⟩ := profileTryFrom_eq_some h
    exact .inr ⟨hmanager _ _ _ _ _ _, rfl⟩
  | spack start =>
    replace h : spackTryFrom platform host (spack platform start) stored env =
      some installation := h
    unfold spackTryFrom at h
    split at h
    · cases h
    · obtain ⟨-, -, h⟩ := Option.bind_eq_some_iff.mp h
      obtain h | ⟨-, h⟩ := Option.or_eq_some_iff.mp h
      · exact .inl h
      · obtain ⟨home, -, h⟩ := Option.bind_eq_some_iff.mp h
        split at h
        · obtain ⟨home, -, rfl⟩ := spackInstallationFromEnv_eq_some h
          exact .inr ⟨hmanager _ _ _ _ _ _, rfl⟩
        · cases h

end Built

/-! ## What is reported -/

section Runs

variable {platform : Platform} {locator : GlobalLocator} {hosts : Set GlobalHost}

/-- The installation is what the locator makes of the executable on this host, as it may be added
to the cache, and lists the executable. -/
structure FoundFor (platform : Platform) (locator : GlobalLocator) (host : GlobalHost)
    (executable : PathBuf) (installation : RInstallation) : Prop where
  made : ∃ resolved, host.resolvedFrom platform executable = some resolved ∧
    locator.installationOf host resolved = some installation ∧
    resolved.accepts installation = true
  kind : installation.kind = some locator.kind
  listed : executable ∈ knownPaths installation
  notIgnored : locator.ignores executable = false

variable (hunix : OnUnix platform) (hmade : MadeLocator platform locator)
  {s : GlobalState}
  (h : (locator.discovery platform hosts).system.Reachable s)

include hunix hmade h

/-- What is put into the map was found for its executable. -/
theorem foundFor_of_insertion {i : ℕ} {t : GlobalThread}
    (ht : s.tasks[i]? = some t) {insertion : GlobalReport}
    (hmem : insertion ∈ t.insertions) :
    ∃ host ∈ hosts, FoundFor platform locator host insertion.item insertion.record := by
  obtain ⟨hignores, ⟨host, hhost, hanswer⟩, -⟩ := Discovery.insertion_probed h ht hmem
  obtain ⟨resolved, hresolved, hinstallation⟩ := Option.bind_eq_some_iff.mp hanswer.symm
  obtain ⟨haccepts, hkind⟩ := accepts_of_installationOf hunix hmade hinstallation
  refine ⟨host, hhost, ⟨resolved, hresolved, hinstallation, haccepts⟩, hkind, ?_, hignores⟩
  rw [← executable_of_resolvedFrom hunix hresolved]
  unfold ResolvedRInstallation.accepts at haccepts
  simp only [Bool.and_eq_true] at haccepts
  simpa [knownPaths] using haccepts.1.1.1

/-- INTERNAL: the keys of what is put into the map. -/
theorem keys_of_insertion {i : ℕ} {t : GlobalThread}
    (ht : s.tasks[i]? = some t) {insertion : GlobalReport}
    (hmem : insertion ∈ t.insertions) :
    (locator.discovery platform hosts).keys insertion.record = knownPaths insertion.record := by
  obtain ⟨host, -, hfound⟩ := foundFor_of_insertion hunix hmade h ht hmem
  exact insertedEntries_of_mem hfound.listed

/-- When all threads have ended, what can be resolved is listed by a report. -/
theorem exists_report_of_mem_items
    (hended : ∀ (i : ℕ) (t : GlobalThread), s.tasks[i]? = some t → t.Ended)
    {i : ℕ} {t : GlobalThread} (ht : s.tasks[i]? = some t) {executable : PathBuf}
    (hexecutable : executable ∈ t.items) (hignores : locator.ignores executable = false)
    (hresolves : ∀ host ∈ hosts,
      (locator.installationFor platform host executable).isSome = true) :
    ∃ (j : ℕ) (u : GlobalThread) (report : GlobalReport), s.tasks[j]? = some u ∧
      report ∈ u.reports ∧ executable ∈ knownPaths report.record := by
  obtain hignored | ⟨host, hhost, hnone⟩ | ⟨j, u, insertion, hu, hmem, hlists⟩ :=
    Discovery.covered h ht (hended i t ht) hexecutable
  · exact absurd (hignores.symm.trans hignored) Bool.false_ne_true
  · have hsome := hresolves host hhost
    rw [← hnone] at hsome
    cases hsome
  · refine ⟨j, u, insertion, hu, (hended j u hu).reports_eq ▸ hmem, ?_⟩
    obtain rfl | hlists := hlists
    · obtain ⟨_, -, hfound⟩ := foundFor_of_insertion hunix hmade h hu hmem
      exact hfound.listed
    · rwa [keys_of_insertion hunix hmade h hu hmem] at hlists

end Runs

/-- **No executable gets lost.** In every interleaving of the threads of `find` and the calls of
`try_from` on one locator of global installations, on a machine that changes as it likes between
these hosts: what is reported is what the locator makes of an executable, as it may be added to
the cache, and lists the executable; no thread reports an executable that an earlier report of its
own lists, as long as the map is not emptied; and when all threads have ended, every executable
that a thread was given, that is not left to others and that can be resolved is listed by
something that was reported. -/
theorem global_locators_find {platform : Platform} (hunix : OnUnix platform)
    {locator : GlobalLocator} (hmade : MadeLocator platform locator) (hosts : Set GlobalHost)
    {s : GlobalState}
    (h : (locator.discovery platform hosts).system.Reachable s) :
    (∀ (i : ℕ) (t : GlobalThread), s.tasks[i]? = some t →
      (∀ report ∈ t.reports, ∃ host ∈ hosts,
        FoundFor platform locator host report.item report.record) ∧
      t.reports.Pairwise fun earlier later =>
        earlier.clears = later.clears → later.item ∉ knownPaths earlier.record) ∧
    ((∀ (i : ℕ) (t : GlobalThread), s.tasks[i]? = some t → t.Ended) →
      ∀ (i : ℕ) (t : GlobalThread), s.tasks[i]? = some t →
      ∀ executable ∈ t.items, locator.ignores executable = false →
        (∀ host ∈ hosts, (locator.installationFor platform host executable).isSome = true) →
        ∃ (j : ℕ) (u : GlobalThread) (report : GlobalReport), s.tasks[j]? = some u ∧
          report ∈ u.reports ∧ executable ∈ knownPaths report.record) := by
  refine ⟨fun i t ht => ⟨fun report hreport => ?_, ?_⟩, ?_⟩
  · exact foundFor_of_insertion hunix hmade h ht (Discovery.Thread.mem_insertions_of_mem_reports
      hreport)
  · have hsublist : t.reports.Sublist t.insertions := by
      cases t with
      | working => exact List.sublist_append_left _ _
      | clearing | asking | answered => exact List.Sublist.refl _
    refine ((Discovery.insertions_fresh h ht).pairwise.sublist hsublist).imp_of_mem ?_
    intro earlier later hearlier _ hfresh hclears
    rw [← keys_of_insertion hunix hmade h ht
      (Discovery.Thread.mem_insertions_of_mem_reports hearlier)]
    exact hfresh hclears
  · exact fun hended i t ht executable => exists_report_of_mem_items hunix hmade h hended ht

/-! ## What is recalled -/

/-- The environments for which `try_from` answers with what the map has. -/
inductive AsksMap (platform : Platform) : GlobalLocator → REnv → Prop
  | linuxGlobal {env : REnv} {parent : PathBuf} (hmacos : platform.macos = false)
      (hversion : env.version.isSome = true) (hparent : env.executable.parent = some parent)
      (hbin : isGlobalBin platform parent = true)
      (hbrew : looksLikeHomebrewPath platform env.executable = false) :
      AsksMap platform (linuxGlobalLocator platform) env
  | spack {locator : SpackLocator} {env : REnv} (hversion : env.version.isSome = true) :
      AsksMap platform (spackLocator platform locator) env

/-- INTERNAL: `try_from` answers with what the map has. -/
theorem tryFrom_of_asksMap {platform : Platform} (hunix : OnUnix platform)
    {locator : GlobalLocator} {env : REnv} (hasks : AsksMap platform locator env)
    (host : GlobalHost) (stored : RInstallation) :
    locator.tryFrom host (some stored) env = some stored := by
  cases hasks with
  | linuxGlobal hmacos hversion hparent hbin hbrew =>
    obtain ⟨version, hversion⟩ := Option.isSome_iff_exists.mp hversion
    show linuxGlobalTryFrom platform host (some stored) env = some stored
    simp [linuxGlobalTryFrom, hmacos, hunix.notWindows, hversion, hparent, hbin, hbrew]
  | spack hversion =>
    obtain ⟨version, hversion⟩ := Option.isSome_iff_exists.mp hversion
    show spackTryFrom platform host _ (some stored) env = some stored
    simp [spackTryFrom, hunix.notWindows, hversion]

/-- **What was found is recognised again.** Whatever `try_from` answers for an executable, at
whatever moment it asks the map, is of the locator's kind and lists the executable, and what it
has from the map was found by `find`. And from the moment in which something is reported until
the map is emptied, `try_from` answers for each executable that the report lists with something
that `find` has found, whatever the paths of the executable look like to a locator that asks the
map. -/
theorem global_locators_recall {platform : Platform} (hunix : OnUnix platform)
    {locator : GlobalLocator} (hmade : MadeLocator platform locator) (hosts : Set GlobalHost)
    {s : GlobalState}
    (h : (locator.discovery platform hosts).system.Reachable s) :
    (∀ (i : ℕ) (answer : Option RInstallation) (clears : ℕ) (host : GlobalHost) (env : REnv)
        (installation : RInstallation),
      s.tasks[i]? = some (.answered env.executable answer clears) →
      locator.tryFrom host answer env = some installation →
      installation.kind = some locator.kind ∧ env.executable ∈ knownPaths installation) ∧
    ∀ (i : ℕ) (t : GlobalThread) (report : GlobalReport), s.tasks[i]? = some t →
      report ∈ t.reports → report.clears = s.shared.clears →
      ∀ host env, env.executable ∈ knownPaths report.record →
      AsksMap platform locator env →
      ∃ found, locator.tryFrom host (s.shared.entries env.executable) env = some found ∧
        env.executable ∈ knownPaths found ∧
        ∃ finder ∈ hosts, ∃ item, FoundFor platform locator finder item found := by
  constructor
  · intro i answer clears host env installation ht hanswer
    obtain hstored | ⟨hlists, hkind⟩ := tryFrom_eq_some hunix hmade hanswer
    · subst hstored
      obtain ⟨j, u, insertion, hu, hmem, -, hrecord, hkey⟩ :=
        Discovery.saw_inserted h ht .answered
      cases hrecord installation rfl
      obtain ⟨_, -, hfound⟩ := foundFor_of_insertion hunix hmade h hu hmem
      rw [keys_of_insertion hunix hmade h hu hmem] at hkey
      exact ⟨hfound.kind, hkey⟩
    · exact ⟨hkind, hlists⟩
  · intro i t report ht hreport hclears host env hlists hasks
    have hmem := Discovery.Thread.mem_insertions_of_mem_reports hreport
    rw [← keys_of_insertion hunix hmade h ht hmem] at hlists
    have hkept := (Discovery.keys_kept h ht report hmem).2 hclears env.executable hlists
    obtain ⟨found, hentry⟩ := Option.isSome_iff_exists.mp hkept
    obtain ⟨j, u, insertion, hu, hput, -, rfl, hkey⟩ := Discovery.entry_inserted h hentry
    rw [keys_of_insertion hunix hmade h hu hput] at hkey
    obtain ⟨finder, hfinder, hfound⟩ := foundFor_of_insertion hunix hmade h hu hput
    refine ⟨insertion.record, ?_, hkey, finder, hfinder, insertion.item, hfound⟩
    rw [hentry]
    exact tryFrom_of_asksMap hunix hasks host insertion.record

/-! ## Two machines -/

section Examples

/-- Linux, on an `x86_64`. -/
def linuxPlatform : Platform := ⟨false, false, "x86_64", id, unixPath, fun _ => .x64⟩

/-- INTERNAL: it is Unix. -/
theorem onUnix_linuxPlatform : OnUnix linuxPlatform := ⟨rfl, fun _ => rfl⟩

/-- What the threads of `find` have done to these executables, one after the other. -/
def findLogs (locator : GlobalLocator) (host : GlobalHost) :
    List (List (Discovery.Event PathBuf RInstallation)) × Discovery.Shared PathBuf RInstallation :=
  (locator.discovery linuxPlatform {host}).exploreEach
    (locator.installationFor linuxPlatform host) ⟨fun _ => none, 1⟩ (locator.threads host)

/-- `find` has emptied the map, and its threads have run one after the other. -/
def findState (locator : GlobalLocator) (host : GlobalHost) : GlobalState :=
  ⟨(findLogs locator host).2,
    .working [] .idle [] :: (findLogs locator host).1.map (Discovery.Thread.working [] .idle)⟩

variable (locator : GlobalLocator) (host : GlobalHost)

/-- INTERNAL: the threads get there. -/
theorem reachable_findState :
    (locator.discovery linuxPlatform {host}).system.Reachable (findState locator host) := by
  have hprobe : ∀ executable, (locator.discovery linuxPlatform {host}).probe executable
      (locator.installationFor linuxPlatform host executable) := fun _ => ⟨host, rfl, rfl⟩
  exact Discovery.reachable_cleared hprobe (.inl rfl) fun _ hitems => .inr ⟨host, rfl, hitems⟩

/-- INTERNAL: the threads have ended, and the map has not been emptied since they reported. -/
theorem ended_findState {i : ℕ} {t : GlobalThread}
    (h : (findState locator host).tasks[i]? = some t) :
    t.Ended ∧ ∀ report ∈ t.reports,
      report.clears = (findState locator host).shared.clears := by
  obtain rfl | hmem := List.mem_cons.mp (List.mem_of_getElem? h)
  · exact ⟨.worked, fun report hreport => absurd hreport List.not_mem_nil⟩
  · obtain ⟨log, hlog, rfl⟩ := List.mem_map.mp hmem
    obtain ⟨hclears, hreports⟩ := @Discovery.clears_exploreEach PathBuf RInstallation _
      (locator.discovery linuxPlatform {host}) (locator.installationFor linuxPlatform host)
      ⟨fun _ => none, 1⟩ (locator.threads host)
    exact ⟨.worked, fun report hreport => (hreports log hlog report hreport).trans hclears.symm⟩

/-- INTERNAL: what a thread was given. -/
theorem mem_items_findState {executables : List PathBuf} (h : executables ∈ locator.threads host)
    {executable : PathBuf} (hmem : executable ∈ executables) :
    ∃ (i : ℕ) (t : GlobalThread), (findState locator host).tasks[i]? = some t ∧
      executable ∈ t.items := by
  have hitems := @Discovery.map_items_exploreEach PathBuf RInstallation _
    (locator.discovery linuxPlatform {host}) (locator.installationFor linuxPlatform host)
    ⟨fun _ => none, 1⟩ (locator.threads host)
  rw [← hitems] at h
  obtain ⟨log, hlog, rfl⟩ := List.mem_map.mp h
  obtain ⟨i, hi⟩ := List.mem_iff_getElem?.mp (List.mem_cons_of_mem (.working [] .idle [])
    (List.mem_map_of_mem (f := Discovery.Thread.working [] .idle) hlog))
  exact ⟨i, _, hi, List.mem_append_left _ hmem⟩

/-- The R of the distribution. -/
def distroR : PathBuf := rootedPath ["usr", "bin", "R"]

/-- A machine with the R of the distribution. -/
def distroHost : GlobalHost where
  tree := plainTree [rootedPath [], rootedPath ["usr"], rootedPath ["usr", "bin"]] [distroR]
    (by decide)
  isSymlink _ := false
  probe executable :=
    if executable = distroR then some ⟨rootedPath ["usr", "lib", "R"], "4.4.1", .x64, [], none⟩
    else none
  userHome := none
  envVar _ := none
  processVar _ := none
  searchPath := []
  spackFind _ := none

/-- It is found by one of the four threads, of which there is one for each directory. -/
theorem global_locators_find_distro :
    ((linuxGlobalLocator linuxPlatform).threads distroHost).length = 4 ∧
    ∃ (j : ℕ) (u : GlobalThread) (report : GlobalReport),
      (findState (linuxGlobalLocator linuxPlatform) distroHost).tasks[j]? = some u ∧
      report ∈ u.reports ∧ distroR ∈ knownPaths report.record := by
  have hbin : rootedPath ["usr", "bin"] ∈ linuxBinDirs linuxPlatform distroHost := by decide
  have hmem : distroR ∈ distroHost.findExecutables linuxPlatform (rootedPath ["usr", "bin"]) := by
    decide
  obtain ⟨i, t, ht, hitem⟩ := mem_items_findState (linuxGlobalLocator linuxPlatform) distroHost
    (List.mem_map_of_mem hbin) hmem
  refine ⟨by decide, (global_locators_find onUnix_linuxPlatform .linuxGlobal {distroHost}
    (reachable_findState (linuxGlobalLocator linuxPlatform) distroHost)).2
      (fun i t ht => (ended_findState _ _ ht).1) i t ht distroR hitem (by decide) ?_⟩
  rintro host rfl
  rfl

/-- An R that Spack has installed outside its own directories. -/
def customR : PathBuf := rootedPath ["srv", "R"]

/-- A machine whose Spack knows of it. -/
def customHost : GlobalHost where
  tree := plainTree [rootedPath [], rootedPath ["srv"], rootedPath ["opt"],
    rootedPath ["opt", "spack"], rootedPath ["opt", "spack", "bin"]]
    [customR, rootedPath ["opt", "spack", "bin", "spack"]] (by decide)
  isSymlink _ := false
  probe executable :=
    if executable = customR then some ⟨rootedPath ["srv"], "4.4.1", .x64, [], none⟩ else none
  userHome := none
  envVar _ := none
  processVar _ := none
  searchPath := []
  spackFind _ := some "r@4.4.1  /srv\n"

/-- The locator on this machine. -/
def customSpack : SpackLocator := spack linuxPlatform customHost

/-- INTERNAL: the loop comes to the R. -/
theorem customR_mem_spackExecutables :
    customR ∈ spackExecutables linuxPlatform customHost customSpack := by
  have hprefix : rootedPath ["srv"] ∈ spackPrefixes linuxPlatform customHost customSpack := by
    have hmanager : findSpackManager linuxPlatform customHost =
        some ⟨rootedPath ["opt", "spack", "bin", "spack"], none, .spack⟩ := by decide
    refine mem_sortDedup.mpr (List.mem_append_left _ ?_)
    show _ ∈ ((findSpackManager linuxPlatform customHost).map _).getD []
    rw [hmanager]
    decide
  exact List.mem_flatMap.mpr ⟨_, hprefix, by decide⟩

/-- What has been found once is answered again, though nothing about the path says Spack. -/
theorem global_locators_recall_custom :
    looksLikeSpackPath linuxPlatform customR = false ∧
      ∃ found, spackTryFrom linuxPlatform customHost customSpack
        ((findState (spackLocator linuxPlatform customSpack) customHost).shared.entries customR)
        (REnv.new unixOs customR none (some "4.4.1")) = some found ∧
          customR ∈ knownPaths found := by
  have hreached := reachable_findState (spackLocator linuxPlatform customSpack) customHost
  obtain ⟨i, t, ht, hitem⟩ := mem_items_findState (spackLocator linuxPlatform customSpack)
    customHost (List.mem_singleton_self _) customR_mem_spackExecutables
  have hresolves : ∀ host ∈ ({customHost} : Set GlobalHost),
      ((spackLocator linuxPlatform customSpack).installationFor linuxPlatform host
        customR).isSome = true := by
    rintro host rfl
    rfl
  obtain ⟨j, u, report, hu, hreport, hlists⟩ := exists_report_of_mem_items onUnix_linuxPlatform
    (.spack customHost) hreached (fun i t ht => (ended_findState _ _ ht).1) ht hitem rfl
    hresolves
  obtain ⟨found, hanswer, hfound, -⟩ := (global_locators_recall onUnix_linuxPlatform
    (.spack customHost) {customHost} hreached).2 j u report hu hreport
    ((ended_findState _ _ hu).2 report hreport) customHost
    (REnv.new unixOs customR none (some "4.4.1")) hlists (.spack rfl)
  exact ⟨by decide, found, hanswer, hfound⟩

end Examples

end REnvTools.Analysis
