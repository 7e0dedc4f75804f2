import REnvTools.Analysis.AllLocators
import REnvTools.Analysis.ScanStore
import REnvTools.Model.LocatorFinds

/-!
# The locators of a scan

A scan goes through the locators that the program makes, of which there is one of each kind
(`nodup_kinds_createLocators`). From what their `find` is in a scan follow that a locator reports
only installations of kinds that it declares (`declared_of_findsAs`) and how many threads a scan
has at work (`scan_parallelism`).
-/

set_option autoImplicit false

namespace REnvTools.Analysis

open Lib Lib.ForkJoin Program Model

variable {platform : Platform} {listing : LocatorKind → LocatorsHost}

/-- INTERNAL: what an element of the second list is paired with. -/
theorem exists_mem_left_of_forall₂ {α β : Type} {R : α → β → Prop} {l : List α} {l' : List β}
    (h : List.Forall₂ R l l') {b : β} (hb : b ∈ l') : ∃ a ∈ l, R a b := by
  induction h with
  | nil => cases hb
  | cons hab _ ih =>
    obtain rfl | hb := List.mem_cons.mp hb
    · exact ⟨_, List.mem_cons_self, hab⟩
    · obtain ⟨a, ha, hR⟩ := ih hb
      exact ⟨a, List.mem_cons_of_mem _ ha, hR⟩

/-! ## The kinds of the locators -/

/-- The kinds of the locators, in their order. -/
theorem kinds_createLocators (platform : Platform) (environment : LocatorsHost)
    (rigConfigured : Option (Option PathBuf)) :
    (createLocators platform environment rigConfigured).map (·.kind) =
      (if platform.windows then [.windowsRegistry, .windowsHq, .scoop, .chocolatey] else []) ++
      [.pixi, .conda, .rig] ++
      (if platform.windows then []
        else [.homebrew, .nix, .guix, .spack, .rVersions, .environmentModule]) ++
      (if platform.macos then [.macPorts, .macFramework] else []) ++
      if platform.macos || platform.windows then [] else [.linuxGlobal] := by
  unfold createLocators
  cases platform.windows <;> cases platform.macos <;> rfl

/-- **There is one locator of each kind.** -/
theorem nodup_kinds_createLocators (platform : Platform) (environment : LocatorsHost)
    (rigConfigured : Option (Option PathBuf)) :
    ((createLocators platform environment rigConfigured).map (·.kind)).Nodup := by
  rw [kinds_createLocators]
  cases platform.windows <;> cases platform.macos <;> decide

/-- INTERNAL: the locators of a scan have the kinds of those that were made. -/
theorem kinds_of_scansWith {created : List CreatedLocator} {host : ScanHost}
    (hscan : ScansWith platform listing created host) :
    host.locators.map (·.kind) = created.map (·.kind) := by
  unfold ScansWith at hscan
  generalize host.locators = scanned at hscan ⊢
  induction hscan with
  | nil => rfl
  | cons hlocator _ ih => rw [List.map_cons, List.map_cons, ih, hlocator.1]

/-- The locators of a scan are of different kinds. -/
theorem nodup_kinds_of_scansWith {environment : LocatorsHost}
    {rigConfigured : Option (Option PathBuf)} {host : ScanHost}
    (hscan : ScansWith platform listing (createLocators platform environment rigConfigured) host) :
    (host.locators.map (·.kind)).Nodup := by
  rw [kinds_of_scansWith hscan]
  exact nodup_kinds_createLocators platform environment rigConfigured

/-- INTERNAL: what a locator of a scan is made from. -/
theorem exists_created_of_mem {created : List CreatedLocator} {host : ScanHost}
    (hscan : ScansWith platform listing created host) {scanned : ScanLocator}
    (hmem : scanned ∈ host.locators) :
    ∃ locator ∈ created, scanned.kind = locator.kind ∧
      scanned.supportedCategories = locator.supportedCategories ∧
      FindsAs platform (listing locator.kind) locator scanned.find :=
  exists_mem_left_of_forall₂ hscan hmem

/-! ## What `find` reports -/

/-- INTERNAL: what is reported for a prefix describes it. -/
theorem describes_of_mem_condaFind {s : TaskSystem.State CondaState CondaThread}
    (h : condaLocator.Reachable s) {paths : List PathBuf}
    {prefixes : List (List EnvManager × FindOutcome)}
    (hprefixes : List.Forall₂ (fun condaPrefix thread =>
      ∃ clears, CondaThread.found condaPrefix thread.2 clears ∈ s.tasks) paths prefixes)
    {installation : RInstallation}
    (hmem : .report (.installation installation) ∈ (condaFind prefixes).actions) :
    ∃ condaPrefix ∈ paths, DescribesPrefix condaPrefix installation := by
  have hthread : ∃ thread ∈ prefixes,
      .report (.installation installation) ∈ condaPrefixCalls thread.1 thread.2 := by
    rw [actions_condaFind] at hmem
    obtain hmem | hmem := List.mem_append.mp ((List.mem_cons.mp hmem).resolve_left nofun)
    · cases List.eq_of_mem_replicate hmem
    · exact List.mem_flatMap.mp hmem
  obtain ⟨⟨managers, outcome⟩, hthread, hcall⟩ := hthread
  obtain ⟨condaPrefix, hprefix, clears, hended⟩ := exists_mem_left_of_forall₂ hprefixes hthread
  obtain ⟨i, hi⟩ := List.mem_iff_getElem?.mp hended
  have hdescribes := (conda_describes h).2 i _ hi
  refine ⟨condaPrefix, hprefix, ?_⟩
  cases outcome with
  | reported reported =>
    have hsame : installation = reported := by
      simpa [condaPrefixCalls] using hcall
    rw [hsame]
    exact hdescribes
  | notEnvironment | known | unresolved => simp [condaPrefixCalls] at hcall

/-- INTERNAL: what is reported by a thread for a directory is what the locator makes of a resolved
executable. -/
theorem made_of_mem_linuxGlobalFind {hosts : Set GlobalHost} {s : GlobalState}
    (h : ((linuxGlobalLocator platform).discovery platform hosts).system.Reachable s)
    {logs : List (List (Discovery.Event PathBuf RInstallation))}
    (hlogs : ∀ log ∈ logs, Discovery.Thread.working [] .idle log ∈ s.tasks)
    {installation : RInstallation}
    (hmem : .report (.installation installation) ∈ (linuxGlobalFind logs).actions) :
    ∃ host resolved, installation = linuxGlobalInstallation platform host resolved := by
  have hlog : ∃ log ∈ logs, .report (.installation installation) ∈ binCalls log := by
    rw [actions_linuxGlobalFind] at hmem
    exact List.mem_flatMap.mp ((List.mem_cons.mp hmem).resolve_left nofun)
  obtain ⟨log, hlog, hcall⟩ := hlog
  obtain hcall | hcall := List.mem_cons.mp hcall
  · cases hcall
  · obtain ⟨event, hevent, hcall⟩ := List.mem_flatMap.mp hcall
    obtain hcall | hcall := List.mem_cons.mp hcall
    · cases hcall
    · obtain ⟨insertion, hinsertion, heq⟩ := Option.mem_map.mp (Option.mem_toList.mp hcall)
      cases heq
      obtain ⟨i, hi⟩ := List.mem_iff_getElem?.mp (hlogs log hlog)
      have hreport : insertion ∈ (Discovery.Thread.working [] .idle log).insertions :=
        List.mem_append_left _ (List.mem_filterMap.mpr ⟨event, hevent, hinsertion⟩)
      obtain ⟨-, ⟨host, -, hanswer⟩, -⟩ := Discovery.insertion_probed h hi hreport
      obtain ⟨resolved, -, hmade⟩ := Option.bind_eq_some_iff.mp hanswer.symm
      exact ⟨host, resolved, (Option.some.inj hmade).symm⟩

/-- **A locator reports only what it declares**, whatever its threads and other calls on it do. -/
theorem declared_of_findsAs
    (hnorm : ∀ path, platform.normCase (platform.normCase path) = platform.normCase path)
    {environment : LocatorsHost} {rigConfigured : Option (Option PathBuf)}
    {locator : CreatedLocator}
    (hlocator : locator ∈ createLocators platform environment rigConfigured)
    {machine : LocatorsHost} {program : ForkJoin FindCall}
    (h : FindsAs platform machine locator program) {installation : RInstallation}
    (hmem : .report (.installation installation) ∈ program.actions) :
    ∃ kind ∈ locator.supportedCategories, installation.kind = some kind := by
  cases h with
  | alone _ _ hfound =>
    rw [actions_acts] at hmem
    obtain ⟨machine, hfound⟩ := hfound installation hmem
    exact (sound_of_mem_createLocators hnorm hlocator).found machine installation hfound
  | conda h hprefixes =>
    obtain ⟨condaPrefix, -, hdescribes⟩ := describes_of_mem_condaFind h hprefixes hmem
    exact ⟨.conda, List.mem_cons_self, hdescribes.1⟩
  | linuxGlobal h hended =>
    obtain ⟨host, resolved, rfl⟩ := made_of_mem_linuxGlobalFind h hended hmem
    exact ⟨.linuxGlobal, List.mem_cons_self, rfl⟩

/-! ## How many threads are at work -/

/-- INTERNAL: the threads that `find` starts. -/
theorem peak_findsAs_le {machine : LocatorsHost} {locator : CreatedLocator}
    {program : ForkJoin FindCall} (h : FindsAs platform machine locator program) :
    max 1 (program.peak fun _ => true) ≤ findThreads platform machine locator.kind := by
  cases h with
  | alone hconda hlinux =>
    refine (max_le (Nat.le_refl 1) (peak_acts_le _)).trans ?_
    unfold findThreads
    split
    · contradiction
    · contradiction
    · exact Nat.le_refl 1
  | @conda s h prefixes hprefixes =>
    have hthreads : (ForkJoin.all (prefixes.map fun thread =>
        ForkJoin.acts (condaPrefixCalls thread.1 thread.2))).peak (fun _ => true) ≤
          machine.condaEnvironmentPaths.length := by
      refine (peak_all_le 1 fun p hp => ?_).trans ?_
      · obtain ⟨thread, _, rfl⟩ := List.mem_map.mp hp
        exact peak_acts_le _
      · rw [List.length_map, Nat.mul_one, hprefixes.length_eq]
    show max 1 (max 1 (max 5 _)) ≤ max 5 _
    omega
  | @linuxGlobal hosts s h logs hended hlogs =>
    have hthreads : (ForkJoin.all (logs.map fun log =>
        ForkJoin.acts (binCalls log))).peak (fun _ => true) ≤
          (linuxBinDirs platform machine.toGlobalHost).length := by
      refine (peak_all_le 1 fun p hp => ?_).trans ?_
      · obtain ⟨log, _, rfl⟩ := List.mem_map.mp hp
        exact peak_acts_le _
      · rw [List.length_map, Nat.mul_one, hlogs.length_eq]
    show max 1 (max 1 _) ≤ max 1 _
    omega

/-- INTERNAL: the threads of a locator of a scan. -/
theorem threads_le_of_mem {created : List CreatedLocator} {host : ScanHost}
    (hscan : ScansWith platform listing created host) {locator : ScanLocator}
    (hmem : locator ∈ host.locators) :
    ScanLocator.threads locator ≤ findThreads platform (listing locator.kind) locator.kind := by
  obtain ⟨made, -, hkind, -, hfinds⟩ := exists_created_of_mem hscan hmem
  rw [hkind]
  exact peak_findsAs_le hfinds

/-- **The parallelism of a scan is bounded.** At every moment at most 64 threads of the explicit
search are at work, however many directories there are. Of the locators' threads at most one of
each is, but of `Conda` five or one for each prefix, and of `LinuxGlobalR` one for each directory
that it looks through; and at most one for each global path, or one for a phase that has none. -/
theorem scan_parallelism {environment : LocatorsHost} {rigConfigured : Option (Option PathBuf)}
    {host : ScanHost}
    (hscan : ScansWith platform listing (createLocators platform environment rigConfigured) host)
    {configuration : Configuration} {scope : Option SearchScope} {refresh : Bool}
    {trace : List ScanAction} {r : ForkJoin ScanAction}
    (hruns : Runs (findAndReportInstallations host configuration scope refresh) trace r) :
    r.ready (fun action => action.thread.phaseOf = .searchPaths) ≤ 64 ∧
    (∀ locator ∈ selectedLocators host scope,
      r.ready (fun action => action.thread = .locator locator.kind) ≤
        findThreads platform (listing locator.kind) locator.kind) ∧
    r.ready (fun _ => true) ≤
      max 1 ((selectedLocators host scope).map fun locator =>
        findThreads platform (listing locator.kind) locator.kind).sum +
          max 1 host.globalSearchPaths.length + 64 := by
  obtain ⟨hsearch, hlocators, hall⟩ :=
    ready_scan_le (nodup_kinds_of_scansWith hscan) refresh hruns
  have hmade : ∀ locator ∈ selectedLocators host scope,
      ScanLocator.threads locator ≤ findThreads platform (listing locator.kind) locator.kind :=
    fun locator hlocator => threads_le_of_mem hscan (sublist_selectedLocators.subset hlocator)
  have hsum := List.sum_le_sum hmade
  refine ⟨hsearch, fun locator hlocator => ?_, ?_⟩
  · exact (hlocators locator hlocator).trans (hmade locator hlocator)
  · omega

/-! ## The R of a distribution in a scan -/

section Examples

/-- What `find` of each locator is on the machine, if its threads run one after the other. -/
def distroFind (locator : CreatedLocator) : ForkJoin FindCall :=
  match locator.kind with
  | .conda => condaFind []
  | .linuxGlobal => linuxGlobalFind (findLogs (linuxGlobalLocator linuxPlatform) distroHost).1
  | _ => .acts (.look :: (locator.found distroMachine).map fun installation =>
      .report (.installation installation))

/-- A scan of the machine. -/
def distroScan : ScanHost where
  os := distroHost.os linuxPlatform
  architecture := linuxPlatform.architecture
  tree := distroHost.tree
  globalSearchPaths := [rootedPath ["usr", "bin"]]
  locators := (createLocators linuxPlatform distroMachine none).map fun locator =>
    ⟨locator.kind, locator.supportedCategories, distroFind locator⟩
  identified _ _ := none

/-- INTERNAL: the threads of `LinuxGlobalR` there. -/
theorem findsAs_linuxGlobal_distro : FindsAs linuxPlatform distroMachine
    (linuxGlobalCreated linuxPlatform)
    (linuxGlobalFind (findLogs (linuxGlobalLocator linuxPlatform) distroHost).1) := by
  have hitems := @Discovery.map_items_exploreEach PathBuf RInstallation _
    ((linuxGlobalLocator linuxPlatform).discovery linuxPlatform {distroHost})
    ((linuxGlobalLocator linuxPlatform).installationFor linuxPlatform distroHost)
    ⟨fun _ => none, 1⟩ ((linuxGlobalLocator linuxPlatform).threads distroHost)
  refine .linuxGlobal (reachable_findState (linuxGlobalLocator linuxPlatform) distroHost)
    (fun log hlog => List.mem_cons_of_mem _ (List.mem_map_of_mem hlog)) ?_
  have hlisted : List.Forall₂ (fun items executables => items = executables)
      ((findLogs (linuxGlobalLocator linuxPlatform) distroHost).1.map fun log =>
        log.map Discovery.Event.item) ((linuxGlobalLocator linuxPlatform).threads distroHost) := by
    rw [List.forall₂_eq_eq_eq]
    exact hitems
  unfold linuxGlobalLocator at hlisted
  rw [List.forall₂_map_left_iff, List.forall₂_map_right_iff] at hlisted
  exact (hlisted.imp fun log bin hlog => ⟨distroHost, rfl, hlog⟩).flip

/-- INTERNAL: `find` of each locator there. -/
theorem findsAs_distro {locator : CreatedLocator}
    (h : locator ∈ createLocators linuxPlatform distroMachine none) :
    FindsAs linuxPlatform distroMachine locator (distroFind locator) := by
  have honly :=
    List.inj_on_of_nodup_map (nodup_kinds_createLocators linuxPlatform distroMachine none)
  unfold distroFind
  split
  · rename_i hkind
    have hconda : condaCreated linuxPlatform ∈ createLocators linuxPlatform distroMachine none :=
      List.mem_cons_of_mem _ List.mem_cons_self
    rw [honly h hconda hkind]
    exact .conda (s := ⟨⟨fun _ => none, 0⟩, []⟩) (.init ⟨⟨keyedByPrefix_empty, rfl⟩, rfl⟩) .nil
  · rename_i hkind
    have hlinux : linuxGlobalCreated linuxPlatform ∈
        createLocators linuxPlatform distroMachine none :=
      List.mem_append_right _ List.mem_cons_self
    rw [honly h hlinux hkind]
    exact findsAs_linuxGlobal_distro
  · rename_i hconda hlinux
    refine .alone hconda hlinux fun installation hmem => ?_
    obtain ⟨found, hfound, heq⟩ := List.mem_map.mp ((List.mem_cons.mp hmem).resolve_left nofun)
    cases heq
    exact ⟨distroMachine, hfound⟩

/-- INTERNAL: the locators of the scan. -/
theorem scansWith_distroScan : ScansWith linuxPlatform (fun _ => distroMachine)
    (createLocators linuxPlatform distroMachine none) distroScan := by
  unfold ScansWith distroScan
  rw [List.forall₂_map_right_iff, List.forall₂_same]
  exact fun locator hmem => ⟨rfl, rfl, findsAs_distro hmem⟩

/-- The theorem for a moment at which `Conda` has started five threads. -/
theorem scan_parallelism_distro :
    ∃ r, Runs (findAndReportInstallations distroScan Configuration.default none false)
        [⟨.locator .conda, .find⟩, ⟨.locator .conda, .look⟩] r ∧
      r.ready (fun action => action.thread = .locator .conda) = 5 ∧
      r.ready (fun action => action.thread = .locator .conda) ≤
        findThreads linuxPlatform distroMachine .conda := by
  -- the map has been emptied, and the five places are next
  have hthread : Runs (locatorThread false ⟨.conda, [.conda], condaFind []⟩)
      [⟨.locator .conda, .find⟩, ⟨.locator .conda, .look⟩] _ :=
    .cons (.first (.act _)) (.cons (.second rfl (.first (.act _))) (.nil _))
  have hruns : Runs (findAndReportInstallations distroScan Configuration.default none false)
      [⟨.locator .conda, .find⟩, ⟨.locator .conda, .look⟩] _ := hthread.left.right.left
  have hconda : (⟨.conda, [.conda], condaFind []⟩ : ScanLocator) ∈
      selectedLocators distroScan none := List.mem_cons_of_mem _ List.mem_cons_self
  exact ⟨_, hruns, rfl, (scan_parallelism scansWith_distroScan hruns).2.1 _ hconda⟩

end Examples

end REnvTools.Analysis
