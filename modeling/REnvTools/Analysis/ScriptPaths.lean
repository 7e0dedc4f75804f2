import REnvTools.Analysis.Resolution
import REnvTools.Analysis.ScriptAccount
import REnvTools.Program.GlobalLocators

/-!
# Whose script path a resolved installation has

Resolving keeps the launcher it was asked about, also when a locator reports the installation
under another one, as Spack does with a link that leads into its store. The script path is
inferred when a locator builds its record, and rebuilding the record keeps it. So the script path
lies beside the launcher exactly if the account of what the locators report has none from another
directory (`script_path_follows_iff`).
-/

set_option autoImplicit false

namespace REnvTools.Analysis

open REnvTools.Lib REnvTools.Program KeyedStore

variable {host : LocatorHost} {os : Os}

/-! ## The script beside a launcher -/

/-- The file is named `R` or `Rscript`, with or without `.exe`. -/
def NamesLauncher (executable : PathBuf) : Prop :=
  ∃ name, executable.fileName = some name ∧
    toAsciiLowercase name ∈ ["r", "r.exe", "rscript", "rscript.exe"]

/-- The `Rscript` in the directory of a launcher. -/
def scriptBeside (executable : PathBuf) : PathBuf :=
  let name := (executable.fileName.map toAsciiLowercase).getD ""
  if name = "r" then executable.setFileName "Rscript"
  else if name = "r.exe" then executable.setFileName "Rscript.exe"
  else executable

/-- The script path lies beside the installation's own executable. -/
def ScriptFollows (os : Os) (i : RInstallation) : Prop :=
  ∃ executable, i.executable = some executable ∧
    i.scriptPath = some (os.normCase (scriptBeside executable))

/-- From a launcher the script beside it is inferred, whatever the home. -/
theorem inferScriptPath_of_namesLauncher {executable : PathBuf} (h : NamesLauncher executable)
    (home : Option PathBuf) (arch : Option Architecture) :
    inferScriptPath os (some executable) home arch = some (scriptBeside executable) := by
  obtain ⟨name, hname, hmem⟩ := h
  unfold inferScriptPath scriptBeside
  rw [hname]
  simp only [List.mem_cons, List.not_mem_nil, or_false] at hmem
  rcases hmem with hlower | hlower | hlower | hlower <;> simp [hname, hlower]

/-! ## What a rebuilt record keeps -/

/-- INTERNAL: a script path that is kept, or else the inferred one. -/
theorem map_or_eq_some_iff {x : Option PathBuf} {y : PathBuf} :
    (x.or (some y)).map os.normCase = some (os.normCase y) ↔
      ∀ path, x = some path → os.normCase path = os.normCase y := by
  cases x with
  | none => simp
  | some path => simp

/-- Merging a runtime into a record keeps the script path of the record. -/
theorem scriptFollows_mergeResolved_iff {resolved : ResolvedRInstallation}
    (h : NamesLauncher (os.normCase resolved.executable)) (i : RInstallation) :
    ScriptFollows os (mergeResolvedInstallation os i resolved) ↔
      ∀ path, i.scriptPath = some path →
        os.normCase path = os.normCase (scriptBeside (os.normCase resolved.executable)) := by
  have hexecutable : (mergeResolvedInstallation os i resolved).executable =
      some (os.normCase resolved.executable) := rfl
  have hscript : (mergeResolvedInstallation os i resolved).scriptPath =
      (i.scriptPath.or (some (scriptBeside (os.normCase resolved.executable)))).map
        os.normCase := by
    rw [← @inferScriptPath_of_namesLauncher os _ h (some (os.normCase resolved.home))
      (some resolved.arch)]
    rfl
  unfold ScriptFollows
  rw [hexecutable, hscript, ← map_or_eq_some_iff]
  constructor
  · rintro ⟨executable, heq, hpath⟩
    cases heq
    exact hpath
  · exact fun hpath => ⟨_, rfl, hpath⟩

/-- Marking the discovery leaves the script path beside the executable. -/
theorem scriptFollows_markLocatorDiscovery_iff (h : NormIdempotent os)
    (b : RInstallationBuilder) :
    ScriptFollows os (markLocatorDiscovery os (b.build os)) ↔ ScriptFollows os (b.build os) := by
  have hagree := agree_markLocatorDiscovery h b
  unfold AgreeExceptDiscovery at hagree
  have hexecutable := congrArg RInstallation.executable hagree
  have hscript := congrArg RInstallation.scriptPath hagree
  change RInstallation.executable _ = RInstallation.executable _ at hexecutable
  change RInstallation.scriptPath _ = RInstallation.scriptPath _ at hscript
  unfold ScriptFollows
  rw [hexecutable, hscript]

/-- The fallback of identification infers the script path from the runtime. -/
theorem scriptFollows_createUnknown {resolved : ResolvedRInstallation}
    (h : NamesLauncher (os.normCase resolved.executable)) (kind : Option RInstallationKind) :
    ScriptFollows os (createUnknownInstallation os resolved kind) := by
  refine ⟨os.normCase resolved.executable, rfl, ?_⟩
  rw [← Option.map_some, ← @inferScriptPath_of_namesLauncher os _ h
    (some (os.normCase resolved.home)) (some resolved.arch)]
  rfl

/-- The fallback of resolution infers it from the executable that was asked about. -/
theorem scriptPath_createUnknownFromRaw (h : NormIdempotent os) {executable : PathBuf}
    (hlauncher : NamesLauncher (os.normCase executable)) (globalSearchPaths : List PathBuf) :
    (createUnknownInstallationFromRaw os (REnv.new os executable none none)
      globalSearchPaths).scriptPath =
        some (os.normCase (scriptBeside (os.normCase executable))) := by
  have hagain : os.normCase (os.normCase executable) = os.normCase executable := h executable
  rw [← Option.map_some, ← @inferScriptPath_of_namesLauncher os _ hlauncher
    ((REnv.new os executable none none).home.map os.normCase) none, ← hagain]
  rfl

/-! ## What the locators report -/

/-- What the locators return for the runtime's environment, or else for the one given. -/
def locatorReports (os : Os) (locators : List Locator) (resolved : ResolvedRInstallation)
    (env : REnv) : List RInstallation :=
  if locators.filterMap (· (resolved.toREnv os)) = [] then locators.filterMap (· env)
  else locators.filterMap (· (resolved.toREnv os))

/-- The account of the reports has no script path but the one beside the executable. -/
def ReportedBeside (os : Os) (locators : List Locator) (resolved : ResolvedRInstallation)
    (env : REnv) : Prop :=
  ∀ account, accountOf os (locatorReports os locators resolved env) = some account →
    ∀ path, account.scriptPath = some path →
      os.normCase path = os.normCase (scriptBeside (os.normCase resolved.executable))

/-- INTERNAL: the same of the record that the reports are merged into. -/
def MergedBeside (os : Os) (locators : List Locator) (resolved : ResolvedRInstallation)
    (env : REnv) : Prop :=
  ∀ record,
    mergeAll (mergeInstallations os) (locatorReports os locators resolved env) = some record →
    ∀ path, record.scriptPath = some path →
      os.normCase path = os.normCase (scriptBeside (os.normCase resolved.executable))

/-- The locators report what builders have built that were set up by their setters. -/
def ReportBuilt (os : Os) (locators : List Locator) : Prop :=
  ∀ locator ∈ locators, ∀ env i, locator env = some i → BuiltBySetters os i

/-- INTERNAL: what such locators report is in normal form. -/
theorem built_of_mem_locatorReports (h : NormIdempotent os) {locators : List Locator}
    (hlocators : ReportBuilt os locators) {resolved : ResolvedRInstallation} {env : REnv} :
    ∀ i ∈ locatorReports os locators resolved env, Built os i ∧ NormalPaths os i := by
  intro i hi
  have hreport : ∃ asked, i ∈ locators.filterMap (· asked) := by
    unfold locatorReports at hi
    split at hi
    · exact ⟨_, hi⟩
    · exact ⟨_, hi⟩
  obtain ⟨asked, hi⟩ := hreport
  obtain ⟨locator, hlocator, hi⟩ := List.mem_filterMap.mp hi
  exact built_of_builtBySetters h (hlocators locator hlocator asked i hi)

/-- INTERNAL: the account of the reports has the script path of the record. -/
theorem reportedBeside_iff_merged (h : NormIdempotent os) {locators : List Locator}
    (hlocators : ReportBuilt os locators) {resolved : ResolvedRInstallation} {env : REnv} :
    MergedBeside os locators resolved env ↔ ReportedBeside os locators resolved env := by
  unfold MergedBeside ReportedBeside
  rw [← map_of_mergeAll h (built_of_mem_locatorReports h hlocators)]
  cases mergeAll (mergeInstallations os) (locatorReports os locators resolved env) with
  | none => simp
  | some record =>
    simp only [Option.map_some, Option.some.injEq, forall_eq']
    rfl

/-- INTERNAL: identification merges what the locators return. -/
theorem identifyInstallationWithoutResolution_eq (locators : List Locator) (env : REnv) :
    identifyInstallationWithoutResolution os locators env =
      mergeAll (mergeInstallations os) (locators.filterMap (· env)) := by
  unfold identifyInstallationWithoutResolution mergeAll
  cases locators.filterMap (· env) <;> rfl

/-- INTERNAL: the record that a runtime is merged into is the merge of the reports. -/
theorem identified_or_eq (locators : List Locator) (resolved : ResolvedRInstallation)
    (env : REnv) :
    (identifyInstallationWithoutResolution os locators (resolved.toREnv os)).or
        (identifyInstallationWithoutResolution os locators env) =
      mergeAll (mergeInstallations os) (locatorReports os locators resolved env) := by
  rw [identifyInstallationWithoutResolution_eq, identifyInstallationWithoutResolution_eq]
  unfold locatorReports
  split
  · rename_i hnil
    rw [hnil]
    rfl
  · rename_i hne
    obtain ⟨record, hrecord⟩ := Option.ne_none_iff_exists'.mp (mt mergeAll_eq_none.mp hne)
    rw [hrecord, Option.some_or]

/-- INTERNAL: a merge of two records with script paths has the path of one of them. -/
theorem exists_scriptPath_merge (h : NormIdempotent os) {P : PathBuf → Prop} {a b : RInstallation}
    (ha : ∃ path, a.scriptPath = some path ∧ P (os.normCase path))
    (hb : ∃ path, b.scriptPath = some path ∧ P (os.normCase path)) :
    ∃ path, (mergeInstallations os a b).scriptPath = some path ∧ P (os.normCase path) := by
  obtain ⟨primary, secondary, ⟨path, hpath, hP⟩, -, heq⟩ := merge_cases_of
    (P := fun i : RInstallation => ∃ path, i.scriptPath = some path ∧ P (os.normCase path)) os ha hb
  have hagain : os.normCase (os.normCase path) = os.normCase path := h path
  refine ⟨os.normCase path, ?_, hagain.symm ▸ hP⟩
  rw [heq]
  show (((primary.scriptPath.or secondary.scriptPath).map os.normCase).or _).map os.normCase = _
  rw [hpath, Option.some_or, Option.map_some, Option.some_or, Option.map_some, hagain]

/-- INTERNAL: so has the merge of all reports. -/
theorem exists_scriptPath_mergeAll (h : NormIdempotent os) {P : PathBuf → Prop}
    {reports : List RInstallation} {record : RInstallation}
    (hreports : ∀ report ∈ reports,
      ∃ path, report.scriptPath = some path ∧ P (os.normCase path))
    (hrecord : mergeAll (mergeInstallations os) reports = some record) :
    ∃ path, record.scriptPath = some path ∧ P (os.normCase path) :=
  mergeAll_induction
    (P := fun i : RInstallation => ∃ path, i.scriptPath = some path ∧ P (os.normCase path))
    (fun _ _ => exists_scriptPath_merge h) hreports hrecord

/-- INTERNAL: if all reports have the script path beside the executable, so has their merge. -/
theorem mergedBeside_of_reports (h : NormIdempotent os) {locators : List Locator}
    {resolved : ResolvedRInstallation} {env : REnv}
    (hreports : ∀ report ∈ locatorReports os locators resolved env, ∃ path,
      report.scriptPath = some path ∧
        os.normCase path = os.normCase (scriptBeside (os.normCase resolved.executable))) :
    MergedBeside os locators resolved env := by
  intro record hrecord path hpath
  obtain ⟨found, hfound, hbeside⟩ := exists_scriptPath_mergeAll (P := fun found =>
    found = os.normCase (scriptBeside (os.normCase resolved.executable))) h hreports hrecord
  rw [hpath] at hfound
  cases hfound
  exact hbeside

/-- INTERNAL: if none of the reports has, neither has their merge. -/
theorem not_mergedBeside_of_reports (h : NormIdempotent os) {locators : List Locator}
    {resolved : ResolvedRInstallation} {env : REnv}
    (hsome : locatorReports os locators resolved env ≠ [])
    (hreports : ∀ report ∈ locatorReports os locators resolved env, ∃ path,
      report.scriptPath = some path ∧
        os.normCase path ≠ os.normCase (scriptBeside (os.normCase resolved.executable))) :
    ¬MergedBeside os locators resolved env := by
  intro hmerged
  obtain ⟨record, hrecord⟩ := Option.ne_none_iff_exists'.mp (mt mergeAll_eq_none.mp hsome)
  obtain ⟨path, hpath, hother⟩ := exists_scriptPath_mergeAll (P := fun found =>
    found ≠ os.normCase (scriptBeside (os.normCase resolved.executable))) h hreports hrecord
  exact hother (hmerged record hrecord path hpath)

/-! ## Identification and resolution -/

section Both

variable {locators : List Locator} {globalSearchPaths : List PathBuf} {runtime : ProbedRuntime}

/-- INTERNAL: the executable of the runtime has the name of the one that was probed. -/
theorem namesLauncher_buildResolved (h : NormIdempotent host.os) {executable : PathBuf}
    (hlauncher : NamesLauncher (host.os.normCase executable)) :
    NamesLauncher (host.os.normCase (buildResolved host executable runtime).executable) := by
  have hagain : host.os.normCase (host.os.normCase executable) = host.os.normCase executable :=
    h executable
  rw [buildResolved_executable, hagain]
  exact hlauncher

/-- INTERNAL: identification with a runtime. -/
theorem identify_scriptFollows_iff (h : NormIdempotent host.os) {env : REnv}
    (hprobe : host.probe env.executable = some runtime)
    (hlauncher : NamesLauncher (host.os.normCase env.executable)) :
    (∃ i, identifyRInstallationUsingLocators host env locators globalSearchPaths = some i ∧
        ScriptFollows host.os i) ↔
      MergedBeside host.os locators (buildResolved host env.executable runtime) env := by
  have hnames : NamesLauncher
      (host.os.normCase (buildResolved host env.executable runtime).executable) :=
    namesLauncher_buildResolved h hlauncher
  have hidentify := identifyRInstallationUsingLocators_eq locators globalSearchPaths
    (resolvedRInstallationFrom_of_probe hprobe)
  rw [hidentify, identified_or_eq]
  simp only [Option.some.injEq, exists_eq_left']
  unfold MergedBeside
  cases mergeAll (mergeInstallations host.os)
      (locatorReports host.os locators (buildResolved host env.executable runtime) env) with
  | none =>
    apply iff_of_true
    · exact scriptFollows_createUnknown hnames _
    · intro i hi
      cases hi
  | some i =>
    have hmark := @scriptFollows_markLocatorDiscovery_iff host.os h
    rw [Option.map_some, Option.getD_some]
    refine (hmark _).trans ((scriptFollows_mergeResolved_iff hnames i).trans ?_)
    simp only [Option.some.injEq, forall_eq']

/-- INTERNAL: resolution of an executable with a runtime. -/
theorem resolve_scriptFollows_iff (h : NormIdempotent host.os) {given executable : PathBuf}
    (hgiven : (if host.isDir given then host.findExecutable given else some given) =
      some executable)
    (hprobe : host.probe executable = some runtime)
    (hlauncher : NamesLauncher (host.os.normCase executable)) :
    (∃ discovered i, resolveInstallation host given locators globalSearchPaths =
        some ⟨discovered, some i⟩ ∧ ScriptFollows host.os i) ↔
      MergedBeside host.os locators (buildResolved host executable runtime)
        (REnv.new host.os executable none none) := by
  have hnames : NamesLauncher
      (host.os.normCase (buildResolved host executable runtime).executable) :=
    namesLauncher_buildResolved h hlauncher
  obtain ⟨discovered, hresolve⟩ :=
    resolveInstallation_eq locators globalSearchPaths hgiven hprobe
  rw [hresolve]
  have hresult : ∀ j, (∃ discovered' i, (some ⟨discovered, some j⟩ : Option ResolvedInstallation) =
      some ⟨discovered', some i⟩ ∧ ScriptFollows host.os i) ↔ ScriptFollows host.os j := by
    intro j
    constructor
    · rintro ⟨discovered', i, heq, hfollows⟩
      cases heq
      exact hfollows
    · exact fun hfollows => ⟨discovered, j, rfl, hfollows⟩
  rw [hresult, scriptFollows_mergeResolved_iff hnames]
  unfold MergedBeside recognised
  rw [identified_or_eq]
  cases mergeAll (mergeInstallations host.os) (locatorReports host.os locators
      (buildResolved host executable runtime) (REnv.new host.os executable none none)) with
  | none =>
    -- no locator knows the launcher: the script path of the fallback is the one beside it
    apply iff_of_true
    · intro path hpath
      rw [Option.getD_none, scriptPath_createUnknownFromRaw h hlauncher] at hpath
      cases hpath
      have hagain : host.os.normCase (buildResolved host executable runtime).executable =
          host.os.normCase executable := h executable
      rw [hagain]
      exact h _
    · intro i hi
      cases hi
  | some i => simp only [Option.getD_some, Option.some.injEq, forall_eq']

end Both

/-- **The script path follows the executable** exactly if the account of the locators' reports has
none from another directory. So it is if each report has the script path beside the executable, and
so it is not if each report has another one; the account decides where the reports disagree. -/
theorem script_path_follows_iff (h : NormIdempotent host.os) {locators : List Locator}
    (hlocators : ReportBuilt host.os locators) (globalSearchPaths : List PathBuf) :
    (∀ (env : REnv) (runtime : ProbedRuntime), host.probe env.executable = some runtime →
      NamesLauncher (host.os.normCase env.executable) →
        ((∃ i, identifyRInstallationUsingLocators host env locators globalSearchPaths = some i ∧
            ScriptFollows host.os i) ↔
          ReportedBeside host.os locators (buildResolved host env.executable runtime) env)) ∧
    (∀ (given executable : PathBuf) (runtime : ProbedRuntime),
      (if host.isDir given then host.findExecutable given else some given) = some executable →
      host.probe executable = some runtime → NamesLauncher (host.os.normCase executable) →
        ((∃ discovered i, resolveInstallation host given locators globalSearchPaths =
            some ⟨discovered, some i⟩ ∧ ScriptFollows host.os i) ↔
          ReportedBeside host.os locators (buildResolved host executable runtime)
            (REnv.new host.os executable none none))) ∧
    ∀ (resolved : ResolvedRInstallation) (env : REnv),
      ((∀ report ∈ locatorReports host.os locators resolved env, ∃ path,
          report.scriptPath = some path ∧ host.os.normCase path =
            host.os.normCase (scriptBeside (host.os.normCase resolved.executable))) →
        ReportedBeside host.os locators resolved env) ∧
      (locatorReports host.os locators resolved env ≠ [] →
        (∀ report ∈ locatorReports host.os locators resolved env, ∃ path,
          report.scriptPath = some path ∧ host.os.normCase path ≠
            host.os.normCase (scriptBeside (host.os.normCase resolved.executable))) →
        ¬ReportedBeside host.os locators resolved env) := by
  refine ⟨fun env runtime hprobe hlauncher => ?_, fun given executable runtime hgiven hprobe
    hlauncher => ?_, fun resolved env => ⟨fun hreports => ?_, fun hsome hreports => ?_⟩⟩
  · rw [← reportedBeside_iff_merged h hlocators]
    exact identify_scriptFollows_iff h hprobe hlauncher
  · rw [← reportedBeside_iff_merged h hlocators]
    exact resolve_scriptFollows_iff h hgiven hprobe hlauncher
  · rw [← reportedBeside_iff_merged h hlocators]
    exact mergedBeside_of_reports h hreports
  · rw [← reportedBeside_iff_merged h hlocators]
    exact not_mergedBeside_of_reports h hsome hreports

/-! ## A link into the store of Spack -/

/-- The launcher in the store. -/
def storedLauncher : PathBuf := rootedPath ["opt", "spack", "opt", "spack", "r", "bin", "R"]

/-- The link to it. -/
def launcherLink : PathBuf := rootedPath ["home", "user", "bin", "R"]

/-- A tree with the launcher and the link. -/
def storeTree : DirectoryTree :=
  linkedTree
    [rootedPath [], rootedPath ["home"], rootedPath ["home", "user"],
      rootedPath ["home", "user", "bin"], rootedPath ["opt"], rootedPath ["opt", "spack"],
      rootedPath ["opt", "spack", "opt"], rootedPath ["opt", "spack", "opt", "spack"],
      rootedPath ["opt", "spack", "opt", "spack", "r"],
      rootedPath ["opt", "spack", "opt", "spack", "r", "bin"]]
    [storedLauncher] launcherLink storedLauncher (by decide) (by decide) (by decide)

/-- The runtime in the store. -/
def storeRuntime : ProbedRuntime :=
  ⟨rootedPath ["opt", "spack", "opt", "spack", "r", "rlib", "R"], "4.4.1", .x64, [], none⟩

/-- The machine, on which every executable has this runtime. -/
def storeHost : GlobalHost where
  tree := storeTree
  isSymlink path := decide (path = launcherLink)
  probe _ := some storeRuntime
  userHome := none
  envVar _ := none
  processVar _ := none
  searchPath := []
  spackFind _ := none

/-- It runs Linux. -/
def storePlatform : Platform := ⟨false, false, "x86_64", id, unixPath, fun _ => .x64⟩

/-- The machine as identification asks it. -/
def storeMachine : LocatorHost where
  os := storeHost.os storePlatform
  isDir := storeTree.isDir
  findExecutable root := (storeHost.findExecutables storePlatform root).head?
  isSymlink := storeHost.isSymlink
  probe := storeHost.probe

/-- `Spack`, before its `find` has reported anything. -/
def storeLocator : Locator :=
  spackTryFrom storePlatform storeHost (spack storePlatform storeHost) none

/-- The builder's installations whose script path was not set. -/
def BuiltWithoutScript (os : Os) (i : RInstallation) : Prop :=
  ∃ b : RInstallationBuilder, SetUp os b ∧ b.scriptPath = none ∧ i = b.build os

/-- What Spack reports was built without a script path. -/
theorem builtWithoutScript_storeLocator {env : REnv} {i : RInstallation}
    (h : storeLocator env = some i) : BuiltWithoutScript storeMachine.os i := by
  have hbuilt : ∃ executable resolvedExecutable home, i = packageManagerInstallation storePlatform
      storeHost .spack "Spack R" (spack storePlatform storeHost).manager env executable
        resolvedExecutable home := by
    unfold storeLocator spackTryFrom at h
    rw [if_neg (by decide)] at h
    obtain ⟨version, hversion, h⟩ := Option.bind_eq_some_iff.mp h
    rw [Option.none_or] at h
    obtain ⟨home, hhome, h⟩ := Option.bind_eq_some_iff.mp h
    split at h
    · unfold spackInstallationFromEnv at h
      rw [hversion, hhome] at h
      cases h
      exact ⟨_, _, _, rfl⟩
    · cases h
  obtain ⟨executable, resolvedExecutable, home, rfl⟩ := hbuilt
  unfold packageManagerInstallation
  refine ⟨_, ?_, ?_, rfl⟩
  · exact .setter (.home (some home) (.executable (some executable) (.new none))) rfl rfl
  · rfl

/-- INTERNAL: it was set up by the setters. -/
theorem reportBuilt_storeLocator : ReportBuilt storeMachine.os [storeLocator] := by
  intro locator hmem env i hi
  rw [List.mem_singleton.mp hmem] at hi
  obtain ⟨b, hb, -, rfl⟩ := builtWithoutScript_storeLocator hi
  exact ⟨b, hb, rfl⟩

/-- INTERNAL: the link is named as a launcher is, and so is what it leads to. -/
theorem namesLauncher_store : NamesLauncher (storeMachine.os.normCase launcherLink) ∧
    NamesLauncher (storeMachine.os.normCase storedLauncher) :=
  ⟨⟨"R", by decide, by decide⟩, "R", by decide, by decide⟩

/-- What is found of the launcher itself has the script path beside it. -/
theorem script_path_follows_store :
    ∃ i, identifyRInstallationUsingLocators storeMachine
        (REnv.new storeMachine.os storedLauncher none none) [storeLocator] [] = some i ∧
      ScriptFollows storeMachine.os i := by
  obtain ⟨hidentify, -, hreports⟩ :=
    @script_path_follows_iff storeMachine (fun _ => rfl) _ reportBuilt_storeLocator []
  rw [hidentify _ storeRuntime rfl namesLauncher_store.2]
  apply (hreports _ _).1
  have hbeside : ∀ report ∈ locatorReports storeMachine.os [storeLocator]
      (buildResolved storeMachine storedLauncher storeRuntime)
        (REnv.new storeMachine.os storedLauncher none none),
      report.scriptPath = some (storedLauncher.setFileName "Rscript") := by
    decide +kernel
  exact fun report hmem => ⟨_, hbeside report hmem, by decide⟩

/-- The script path need not lie beside the executable, though no locator has set one: Spack's is
that of the launcher in its store, and identification keeps the link. -/
theorem script_path_of_target :
    ¬∀ (host : LocatorHost) (locators : List Locator) (globalSearchPaths : List PathBuf)
      (env : REnv), NormIdempotent host.os →
      (∀ locator ∈ locators, ∀ asked i, locator asked = some i → BuiltWithoutScript host.os i) →
      (host.probe env.executable).isSome → NamesLauncher (host.os.normCase env.executable) →
      ∃ i, identifyRInstallationUsingLocators host env locators globalSearchPaths = some i ∧
        ScriptFollows host.os i := by
  intro hclaim
  obtain ⟨i, hi, executable, hexecutable, hscript⟩ := hclaim storeMachine [storeLocator] []
    (REnv.new storeMachine.os launcherLink none none) (fun _ => rfl)
    (fun locator hmem asked i hi => by
      rw [List.mem_singleton.mp hmem] at hi
      exact builtWithoutScript_storeLocator hi) rfl namesLauncher_store.1
  have hfound : (identifyRInstallationUsingLocators storeMachine
      (REnv.new storeMachine.os launcherLink none none) [storeLocator] []).map
        (fun i => (i.executable, i.scriptPath)) =
      some (some launcherLink, some (storedLauncher.setFileName "Rscript")) := by
    decide +kernel
  rw [hi, Option.map_some, hexecutable, hscript] at hfound
  obtain ⟨hlink, hpath⟩ := Prod.mk.inj (Option.some.inj hfound)
  cases hlink
  revert hpath
  decide

end REnvTools.Analysis
