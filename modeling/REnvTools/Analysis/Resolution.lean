import REnvTools.Analysis.Merging
import REnvTools.Program.DirectoryTree
import REnvTools.Program.Locators

/-!
# Resolving against identifying

Whenever a locator recognises an executable, resolving it and identifying it merge the same
installations with the same runtime, and only `discovered_by` differs. If none does, each
path has its own fallback: they differ in where they look for a global search path, and in
the home from which the script path is inferred.
-/

set_option autoImplicit false

namespace REnvTools.Analysis

open REnvTools.Lib REnvTools.Program

/-- The two installations agree on every field but `discovered_by`. -/
def AgreeExceptDiscovery (installation other : RInstallation) : Prop :=
  { installation with discoveredBy := [] } = { other with discoveredBy := [] }

/-- Another spelling of an executable names the same file, and gives the same answers. -/
structure SpellingIndependent (host : LocatorHost) : Prop where
  idempotent : NormIdempotent host.os
  canonicalize : ∀ path, host.os.canonicalize (host.os.normCase path) = host.os.canonicalize path
  probe : ∀ path, host.probe (host.os.normCase path) = host.probe path

variable {host : LocatorHost} {os : Os}

/-! ## The same installation built again -/

/-- INTERNAL: marking the discovery changes nothing else. -/
theorem agree_markLocatorDiscovery (h : NormIdempotent os) (b : RInstallationBuilder) :
    AgreeExceptDiscovery (markLocatorDiscovery os (b.build os)) (b.build os) := by
  have hrebuilt : AgreeExceptDiscovery (markLocatorDiscovery os (b.build os))
      (RInstallationBuilder.build os (b.build os)) := rfl
  rw [build_build h] at hrebuilt
  exact hrebuilt

/-- INTERNAL: the runtime does not depend on the spelling of the executable. -/
theorem resolvedRInstallationFrom_normCase (h : SpellingIndependent host) (executable : PathBuf) :
    resolvedRInstallationFrom host (host.os.normCase executable) =
      resolvedRInstallationFrom host executable := by
  have hagain : host.os.normCase (host.os.normCase executable) = host.os.normCase executable :=
    h.idempotent executable
  unfold resolvedRInstallationFrom buildResolved
  simp only [h.probe, h.canonicalize, hagain]

/-- INTERNAL: what a probe found out is built into the resolved runtime. -/
theorem resolvedRInstallationFrom_of_probe {executable : PathBuf} {runtime : ProbedRuntime}
    (hprobe : host.probe executable = some runtime) :
    resolvedRInstallationFrom host executable = some (buildResolved host executable runtime) := by
  unfold resolvedRInstallationFrom
  rw [hprobe]
  rfl

/-- INTERNAL: nothing is identified exactly if no locator recognises the executable. -/
theorem identifyInstallationWithoutResolution_eq_none {locators : List Locator} {env : REnv} :
    identifyInstallationWithoutResolution os locators env = none ↔
      ∀ locator ∈ locators, locator env = none := by
  unfold identifyInstallationWithoutResolution
  rw [← List.filterMap_eq_nil_iff]
  split
  · rename_i hnil
    simp [hnil]
  · rename_i hcons
    simp [hcons]

/-! ## The fallbacks -/

/-- The script path that is inferred before the executable is probed. -/
def rawScriptPath (os : Os) (executable : PathBuf) : Option PathBuf :=
  (inferScriptPath os (some (os.normCase executable))
    ((REnv.new os executable none none).home.map os.normCase) none).map os.normCase

/-- The script path that is inferred from the runtime. -/
def resolvedScriptPath (os : Os) (resolved : ResolvedRInstallation) : Option PathBuf :=
  (inferScriptPath os (some resolved.executable) (some (os.normCase resolved.home))
    (some resolved.arch)).map os.normCase

/-- The path lies in one of the global search paths. -/
def InSearchPaths (globalSearchPaths : List PathBuf) (path : PathBuf) : Prop :=
  ∃ bin ∈ globalSearchPaths, path.parent = some bin

/-- If something that is known of the executable lies in a global search path, the executable does;
and the script path inferred before probing, if there is one, is the one inferred from the
runtime. -/
def FallbacksAgree (host : LocatorHost) (executable : PathBuf) (runtime : ProbedRuntime)
    (globalSearchPaths : List PathBuf) : Prop :=
  let resolved := buildResolved host executable runtime
  (∀ known ∈ resolved.knownExecutables.getD [], InSearchPaths globalSearchPaths known →
      InSearchPaths globalSearchPaths (host.os.normCase executable)) ∧
    ∀ script ∈ rawScriptPath host.os executable, resolvedScriptPath host.os resolved = some script

/-- INTERNAL: a fallback kind has no display name of its own. -/
theorem generatedManagerDisplayName_fallback {kind : Option RInstallationKind}
    (h : kind = none ∨ kind = some .globalPaths) (version name : Option String) :
    generatedManagerDisplayName kind version name = none := by
  obtain rfl | rfl := h <;> rfl

/-- INTERNAL: the fallback kinds. -/
theorem inferFallbackKindFromRaw_cases (executable : PathBuf) (globalSearchPaths : List PathBuf) :
    inferFallbackKindFromRaw executable globalSearchPaths = none ∨
      inferFallbackKindFromRaw executable globalSearchPaths = some .globalPaths := by
  unfold inferFallbackKindFromRaw
  split
  · exact .inl rfl
  · split
    · exact .inr rfl
    · exact .inl rfl

/-- INTERNAL: the fallback kind of a path that lies in a global search path. -/
theorem inferFallbackKindFromRaw_eq_some_iff {executable : PathBuf}
    {globalSearchPaths : List PathBuf} :
    inferFallbackKindFromRaw executable globalSearchPaths = some .globalPaths ↔
      InSearchPaths globalSearchPaths executable := by
  unfold inferFallbackKindFromRaw InSearchPaths
  cases executable.parent with
  | none => simp
  | some bin => simp

/-- INTERNAL: the fallback kind of a runtime something of which lies in a global search path. -/
theorem inferFallbackKind_eq_some_iff {resolved : ResolvedRInstallation}
    {globalSearchPaths : List PathBuf} :
    inferFallbackKind resolved globalSearchPaths = some .globalPaths ↔
      ∃ known ∈ resolved.knownExecutables.getD [] ++ [resolved.executable],
        InSearchPaths globalSearchPaths known := by
  unfold inferFallbackKind
  dsimp only
  split
  · rename_i hsome
    obtain ⟨known, hknown, hin⟩ := List.any_eq_true.mp hsome
    refine ⟨fun _ => ⟨known, hknown, ?_⟩, fun _ => rfl⟩
    unfold InSearchPaths
    cases hparent : known.parent with
    | none => simp [hparent] at hin
    | some bin => exact ⟨bin, by simpa [hparent] using hin, rfl⟩
  · rename_i hnone
    refine ⟨nofun, ?_⟩
    rintro ⟨known, hknown, bin, hbin, hparent⟩
    refine absurd (List.any_eq_true.mpr ⟨known, hknown, ?_⟩) hnone
    simpa [hparent] using hbin

/-- INTERNAL: the fallback kinds of a runtime. -/
theorem inferFallbackKind_cases (resolved : ResolvedRInstallation)
    (globalSearchPaths : List PathBuf) :
    inferFallbackKind resolved globalSearchPaths = none ∨
      inferFallbackKind resolved globalSearchPaths = some .globalPaths := by
  unfold inferFallbackKind
  dsimp only
  split
  · exact .inr rfl
  · exact .inl rfl

/-- INTERNAL: the two fallback kinds are the same. -/
theorem fallbackKind_eq_iff {host : LocatorHost} {executable : PathBuf} {runtime : ProbedRuntime}
    {globalSearchPaths : List PathBuf} :
    inferFallbackKindFromRaw (host.os.normCase executable) globalSearchPaths =
        inferFallbackKind (buildResolved host executable runtime) globalSearchPaths ↔
      ∀ known ∈ (buildResolved host executable runtime).knownExecutables.getD [],
        InSearchPaths globalSearchPaths known →
          InSearchPaths globalSearchPaths (host.os.normCase executable) := by
  have hexecutable : (buildResolved host executable runtime).executable =
      host.os.normCase executable := rfl
  have hkinds : ∀ {x y : Option RInstallationKind}, (x = none ∨ x = some .globalPaths) →
      (y = none ∨ y = some .globalPaths) →
        (x = y ↔ (x = some .globalPaths ↔ y = some .globalPaths)) := by
    rintro x y (rfl | rfl) (rfl | rfl) <;> simp
  rw [hkinds (inferFallbackKindFromRaw_cases _ _) (inferFallbackKind_cases _ _),
    inferFallbackKindFromRaw_eq_some_iff, inferFallbackKind_eq_some_iff, hexecutable]
  constructor
  · intro hsame known hknown hin
    exact hsame.mpr ⟨known, List.mem_append_left _ hknown, hin⟩
  · intro hknown
    refine ⟨fun hin => ⟨_, List.mem_append_right _ (List.mem_singleton_self _), hin⟩, ?_⟩
    rintro ⟨known, hmem, hin⟩
    obtain hmem | hmem := List.mem_append.mp hmem
    · exact hknown known hmem hin
    · rwa [← List.mem_singleton.mp hmem]

/-- INTERNAL: the runtime of an executable lists it in its normal form. -/
theorem buildResolved_executable (executable : PathBuf) (runtime : ProbedRuntime) :
    (buildResolved host executable runtime).executable = host.os.normCase executable := by
  rfl

/-- INTERNAL: the executables that the two fallbacks list are the same. -/
theorem knownExecutables_fallback (h : NormIdempotent os) (resolved : ResolvedRInstallation)
    (executable : PathBuf) (hexecutable : resolved.executable = os.normCase executable) :
    normalizePaths os
        (normalizePaths os (sortDedup ([os.normCase executable] ++ [resolved.executable] ++
          resolved.knownExecutables.getD [])) ++ [os.normCase resolved.executable]) =
      normalizePaths os ((resolved.knownExecutables.map (normalizePaths os)).getD [] ++
        [os.normCase resolved.executable]) := by
  have hagain : ∀ path, os.normCase (os.normCase path) = os.normCase path := h
  unfold normalizePaths
  apply sortDedup_congr
  intro path
  rw [hexecutable]
  cases resolved.knownExecutables <;> simp [hagain, or_comm, or_left_comm, eq_comm]

/-- INTERNAL: the symbolic links that the two fallbacks list are the same. -/
theorem symlinks_fallback (h : NormIdempotent os) (resolved : ResolvedRInstallation) :
    normalizePaths os (normalizePaths os (sortDedup ([] ++ resolved.symlinks.getD []))) =
      normalizePaths os ((resolved.symlinks.map (normalizePaths os)).getD []) := by
  have hagain : ∀ path, os.normCase (os.normCase path) = os.normCase path := h
  unfold normalizePaths
  apply sortDedup_congr
  intro path
  cases resolved.symlinks <;> simp [hagain]

/-- INTERNAL: the script path of a fallback that is merged with the runtime. -/
theorem scriptPath_fallback (h : NormIdempotent os) (raw resolved : Option PathBuf) :
    ((raw.map os.normCase).or resolved).map os.normCase =
      (raw.map os.normCase).or (resolved.map os.normCase) := by
  cases raw with
  | none => rfl
  | some path =>
    have hagain : os.normCase (os.normCase path) = os.normCase path := h path
    simp [hagain]

section Fallbacks

variable (executable : PathBuf) (runtime : ProbedRuntime) (globalSearchPaths : List PathBuf)

/-- INTERNAL: the script path of the fallback of `resolve_installation`. -/
theorem scriptPath_mergeResolved_fallback (h : NormIdempotent host.os) :
    (mergeResolvedInstallation host.os
      (createUnknownInstallationFromRaw host.os (REnv.new host.os executable none none)
        globalSearchPaths) (buildResolved host executable runtime)).scriptPath =
      (rawScriptPath host.os executable).or
        (resolvedScriptPath host.os (buildResolved host executable runtime)) := by
  have hagain : host.os.normCase (host.os.normCase executable) = host.os.normCase executable :=
    h executable
  have hraw : (createUnknownInstallationFromRaw host.os (REnv.new host.os executable none none)
      globalSearchPaths).scriptPath = rawScriptPath host.os executable := by
    unfold rawScriptPath
    rw [← hagain]
    rfl
  have hmerged : (mergeResolvedInstallation host.os
      (createUnknownInstallationFromRaw host.os (REnv.new host.os executable none none)
        globalSearchPaths) (buildResolved host executable runtime)).scriptPath =
      ((rawScriptPath host.os executable).or
        (inferScriptPath host.os
          (some (host.os.normCase (buildResolved host executable runtime).executable))
          (some (host.os.normCase (buildResolved host executable runtime).home))
          (some (buildResolved host executable runtime).arch))).map host.os.normCase := by
    rw [← hraw]
    rfl
  rw [hmerged, buildResolved_executable, hagain]
  exact scriptPath_fallback h _ _

/-- INTERNAL: the script path of the fallback of identification. -/
theorem scriptPath_createUnknown (h : NormIdempotent host.os)
    (kind : Option RInstallationKind) :
    (createUnknownInstallation host.os (buildResolved host executable runtime) kind).scriptPath =
      resolvedScriptPath host.os (buildResolved host executable runtime) := by
  have hagain : host.os.normCase (host.os.normCase executable) = host.os.normCase executable :=
    h executable
  unfold resolvedScriptPath
  rw [buildResolved_executable]
  rw [← hagain]
  rfl

/-- INTERNAL: before probing, only the executable itself is known. -/
theorem knownExecutables_createUnknownFromRaw (h : NormIdempotent host.os) :
    (createUnknownInstallationFromRaw host.os (REnv.new host.os executable none none)
      globalSearchPaths).knownExecutables.getD [] = [host.os.normCase executable] := by
  have hagain : ∀ path, host.os.normCase (host.os.normCase path) = host.os.normCase path := h
  change (someUnlessEmpty (normalizePaths host.os
    [host.os.normCase (host.os.normCase executable)])).getD [] = _
  rw [getD_someUnlessEmpty]
  unfold normalizePaths
  rw [List.map_singleton, hagain, hagain]
  exact sortDedup_eq_self (List.pairwise_singleton _ _)

/-- INTERNAL: the two fallbacks agree as far as their kinds and script paths do. -/
theorem agree_fallbacks_iff (h : NormIdempotent host.os) :
    AgreeExceptDiscovery
      (mergeResolvedInstallation host.os
        (createUnknownInstallationFromRaw host.os (REnv.new host.os executable none none)
          globalSearchPaths) (buildResolved host executable runtime))
      (createUnknownInstallation host.os (buildResolved host executable runtime)
        (inferFallbackKind (buildResolved host executable runtime) globalSearchPaths)) ↔
      FallbacksAgree host executable runtime globalSearchPaths := by
  have hraw := scriptPath_mergeResolved_fallback executable runtime globalSearchPaths h
  have hresolved := scriptPath_createUnknown executable runtime h
    (inferFallbackKind (buildResolved host executable runtime) globalSearchPaths)
  unfold FallbacksAgree
  dsimp only
  rw [← fallbackKind_eq_iff]
  constructor
  · intro hagree
    have hkind := congrArg RInstallation.kind hagree
    have hscript := congrArg RInstallation.scriptPath hagree
    refine ⟨hkind, fun script hmem => ?_⟩
    change RInstallation.scriptPath _ = RInstallation.scriptPath _ at hscript
    rw [hraw, hresolved, Option.mem_def.mp hmem] at hscript
    exact hscript.symm
  · rintro ⟨hkind, hscript⟩
    have hscripts : (rawScriptPath host.os executable).or
        (resolvedScriptPath host.os (buildResolved host executable runtime)) =
        resolvedScriptPath host.os (buildResolved host executable runtime) := by
      cases hpath : rawScriptPath host.os executable with
      | none => rfl
      | some script => exact (hscript script hpath).symm
    -- the kinds that are guessed have no generated display name
    have hdisplay : ∀ (version name : Option String), generatedManagerDisplayName
        (inferFallbackKindFromRaw (host.os.normCase executable) globalSearchPaths) version name =
          none :=
      generatedManagerDisplayName_fallback (inferFallbackKindFromRaw_cases _ _)
    have hknown := knownExecutables_fallback h (buildResolved host executable runtime) executable
      rfl
    have hsymlinks := symlinks_fallback h (buildResolved host executable runtime)
    unfold AgreeExceptDiscovery
    refine RInstallation.ext ?_ rfl rfl hkind rfl rfl rfl rfl ?_ ?_ rfl rfl rfl ?_ rfl rfl rfl rfl
    · change ((none : Option String).or (generatedManagerDisplayName
          (inferFallbackKindFromRaw (host.os.normCase executable) globalSearchPaths) _ _)).or
          (((none : Option String).or (generatedManagerDisplayName
            (inferFallbackKindFromRaw (host.os.normCase executable) globalSearchPaths) _ _)).or
              none) =
        ((none : Option String).or (generatedManagerDisplayName
          (inferFallbackKind (buildResolved host executable runtime)
            globalSearchPaths) _ _)).or none
      rw [← hkind, hdisplay, hdisplay, hdisplay]
      rfl
    · apply congrArg someUnlessEmpty
      change normalizePaths host.os (normalizePaths host.os (sortDedup
        ((createUnknownInstallationFromRaw host.os (REnv.new host.os executable none none)
          globalSearchPaths).knownExecutables.getD [] ++ _ ++ _)) ++ _) = _
      rw [knownExecutables_createUnknownFromRaw executable globalSearchPaths h]
      exact hknown
    · apply congrArg someUnlessEmpty
      exact hsymlinks
    · exact hraw.trans (hscripts.trans hresolved.symm)

end Fallbacks

/-! ## Agreement -/

section Recognised

variable (executable : PathBuf) (runtime : ProbedRuntime) (locators : List Locator)
  (globalSearchPaths : List PathBuf)

/-- What the locators recognise: the environment of the runtime, else that of the executable. -/
def recognised (host : LocatorHost) (executable : PathBuf) (runtime : ProbedRuntime)
    (locators : List Locator) : Option RInstallation :=
  (identifyInstallationWithoutResolution host.os locators
      ((buildResolved host executable runtime).toREnv host.os)).or
    (identifyInstallationWithoutResolution host.os locators (REnv.new host.os executable none none))

/-- INTERNAL: something is recognised exactly if some locator recognises it. -/
theorem recognised_ne_none :
    recognised host executable runtime locators ≠ none ↔
      ∃ locator ∈ locators, locator (REnv.new host.os executable none none) ≠ none ∨
        locator ((buildResolved host executable runtime).toREnv host.os) ≠ none := by
  unfold recognised
  rw [ne_eq, Option.or_eq_none_iff, identifyInstallationWithoutResolution_eq_none,
    identifyInstallationWithoutResolution_eq_none]
  constructor
  · intro h
    by_contra hnone
    push Not at hnone
    exact h ⟨fun locator hmem => (hnone locator hmem).2, fun locator hmem => (hnone locator hmem).1⟩
  · rintro ⟨locator, hmem, hraw | hresolved⟩ ⟨hresolved', hraw'⟩
    · exact hraw (hraw' locator hmem)
    · exact hresolved (hresolved' locator hmem)

variable {executable runtime}

/-- INTERNAL: what resolving an executable makes of its runtime. -/
theorem resolveInstallation_eq {given : PathBuf}
    (hgiven : (if host.isDir given then host.findExecutable given else some given) =
      some executable)
    (hprobe : host.probe executable = some runtime) :
    ∃ discovered, resolveInstallation host given locators globalSearchPaths =
      some ⟨discovered, some (mergeResolvedInstallation host.os
        ((recognised host executable runtime locators).getD
          (createUnknownInstallationFromRaw host.os (REnv.new host.os executable none none)
            globalSearchPaths)) (buildResolved host executable runtime))⟩ := by
  have hinfo := resolvedRInstallationFrom_of_probe hprobe
  unfold resolveInstallation recognised
  rw [hgiven]
  simp only [hinfo]
  cases identifyInstallationWithoutResolution host.os locators
      (REnv.new host.os executable none none) with
  | some raw =>
    refine ⟨raw, ?_⟩
    rw [Option.some_or]
    dsimp only
    cases identifyInstallationWithoutResolution host.os locators
      ((buildResolved host executable runtime).toREnv host.os) <;> rfl
  | none =>
    refine ⟨createUnknownInstallationFromRaw host.os (REnv.new host.os executable none none)
      globalSearchPaths, ?_⟩
    rw [Option.none_or, Option.map_some, Option.or_none]

/-- INTERNAL: what identifying an executable makes of its runtime. -/
theorem identifyRInstallationUsingLocators_eq {env : REnv} {resolved : ResolvedRInstallation}
    (hinfo : resolvedRInstallationFrom host env.executable = some resolved) :
    identifyRInstallationUsingLocators host env locators globalSearchPaths =
      some ((((identifyInstallationWithoutResolution host.os locators (resolved.toREnv host.os)).or
          (identifyInstallationWithoutResolution host.os locators env)).map fun installation =>
        markLocatorDiscovery host.os (mergeResolvedInstallation host.os installation resolved)).getD
        (createUnknownInstallation host.os resolved
          (inferFallbackKind resolved globalSearchPaths))) := by
  unfold identifyRInstallationUsingLocators
  simp only [hinfo]
  cases identifyInstallationWithoutResolution host.os locators (resolved.toREnv host.os) with
  | some installation => rfl
  | none => cases identifyInstallationWithoutResolution host.os locators env <;> rfl

end Recognised

/-- Resolving an executable and identifying it give installations that agree on every field
but `discovered_by`. -/
def ResolutionAgrees (host : LocatorHost) (executable : PathBuf) (locators : List Locator)
    (globalSearchPaths : List PathBuf) : Prop :=
  ∃ discovered resolved identified,
    resolveInstallation host executable locators globalSearchPaths =
      some ⟨discovered, some resolved⟩ ∧
    identifyRInstallationUsingLocators host (REnv.new host.os executable none none) locators
      globalSearchPaths = some identified ∧
    AgreeExceptDiscovery resolved identified

/-- INTERNAL: agreement, once both results are known. -/
theorem resolutionAgrees_of_eq {executable : PathBuf} {locators : List Locator}
    {globalSearchPaths : List PathBuf} {discovered resolved identified : RInstallation}
    (hresolve : resolveInstallation host executable locators globalSearchPaths =
      some ⟨discovered, some resolved⟩)
    (hidentify : identifyRInstallationUsingLocators host (REnv.new host.os executable none none)
      locators globalSearchPaths = some identified) :
    ResolutionAgrees host executable locators globalSearchPaths ↔
      AgreeExceptDiscovery resolved identified := by
  unfold ResolutionAgrees
  rw [hresolve, hidentify]
  constructor
  · rintro ⟨_, _, _, hresolved, hidentified, hagree⟩
    cases hresolved
    cases hidentified
    exact hagree
  · intro hagree
    exact ⟨discovered, resolved, identified, rfl, rfl, hagree⟩

/-- **Resolving and identifying agree exactly if a locator recognises the executable, before or
after it is probed, or their fallbacks agree.** -/
theorem resolutionAgrees_iff (host : LocatorHost) (h : SpellingIndependent host)
    (executable : PathBuf) (hfile : host.isDir executable = false) (runtime : ProbedRuntime)
    (hprobe : host.probe executable = some runtime) (locators : List Locator)
    (globalSearchPaths : List PathBuf) :
    ResolutionAgrees host executable locators globalSearchPaths ↔
      (∃ locator ∈ locators, locator (REnv.new host.os executable none none) ≠ none ∨
        locator ((buildResolved host executable runtime).toREnv host.os) ≠ none) ∨
      FallbacksAgree host executable runtime globalSearchPaths := by
  have hgiven : (if host.isDir executable then host.findExecutable executable
      else some executable) = some executable := by
    rw [hfile]
    rfl
  obtain ⟨discovered, hresolve⟩ := resolveInstallation_eq locators globalSearchPaths hgiven hprobe
  have hinfo : resolvedRInstallationFrom host (REnv.new host.os executable none none).executable =
      some (buildResolved host executable runtime) := by
    change resolvedRInstallationFrom host (host.os.normCase executable) = _
    rw [resolvedRInstallationFrom_normCase h]
    exact resolvedRInstallationFrom_of_probe hprobe
  have hidentify := identifyRInstallationUsingLocators_eq locators globalSearchPaths hinfo
  rw [resolutionAgrees_of_eq hresolve hidentify, ← recognised_ne_none]
  unfold recognised
  cases (identifyInstallationWithoutResolution host.os locators
      ((buildResolved host executable runtime).toREnv host.os)).or
    (identifyInstallationWithoutResolution host.os locators
      (REnv.new host.os executable none none)) with
  | some installation =>
    refine iff_of_true ?_ (Or.inl (Option.some_ne_none installation))
    exact (agree_markLocatorDiscovery h.idempotent _).symm
  | none =>
    have hfallbacks := agree_fallbacks_iff executable runtime globalSearchPaths h.idempotent
    simpa using hfallbacks

/-! ## A link into a search path -/

/-- A machine with R in `/usr/bin` and a link to it in `/opt/x`. -/
def linkedHost : LocatorHost where
  os := ⟨false, id, fun path =>
    some (if path = rootedPath ["opt", "x", "R"] then rootedPath ["usr", "bin", "R"] else path)⟩
  isDir _ := false
  findExecutable _ := none
  isSymlink path := decide (path = rootedPath ["opt", "x", "R"])
  probe _ := some ⟨rootedPath ["usr", "lib", "R"], "4.4.2", .x64, [], none⟩

/-- INTERNAL: paths have one spelling on this machine. -/
theorem spellingIndependent_linkedHost : SpellingIndependent linkedHost where
  idempotent _ := rfl
  canonicalize _ := rfl
  probe _ := rfl

/-- The theorem for the link. -/
theorem resolutionAgrees_linkedHost_iff :
    ResolutionAgrees linkedHost (rootedPath ["opt", "x", "R"]) [] [rootedPath ["usr", "bin"]] ↔
      (∃ locator ∈ ([] : List Locator),
        locator (REnv.new linkedHost.os (rootedPath ["opt", "x", "R"]) none none) ≠ none ∨
        locator ((buildResolved linkedHost (rootedPath ["opt", "x", "R"])
          ⟨rootedPath ["usr", "lib", "R"], "4.4.2", .x64, [], none⟩).toREnv linkedHost.os) ≠ none) ∨
      FallbacksAgree linkedHost (rootedPath ["opt", "x", "R"])
        ⟨rootedPath ["usr", "lib", "R"], "4.4.2", .x64, [], none⟩ [rootedPath ["usr", "bin"]] :=
  resolutionAgrees_iff linkedHost spellingIndependent_linkedHost _ rfl _ rfl _ _

/-- For the link, only identification takes the search path into account. -/
theorem not_resolutionAgrees :
    ¬ ∀ (host : LocatorHost) (executable : PathBuf) (locators : List Locator)
      (globalSearchPaths : List PathBuf), SpellingIndependent host →
        host.isDir executable = false → (host.probe executable).isSome = true →
          ResolutionAgrees host executable locators globalSearchPaths := by
  intro h
  obtain ⟨discovered, resolved, identified, hresolve, hidentify, hagree⟩ := h linkedHost
    (rootedPath ["opt", "x", "R"]) [] [rootedPath ["usr", "bin"]] spellingIndependent_linkedHost
    rfl rfl
  have hkind : resolved.kind = identified.kind := by
    unfold AgreeExceptDiscovery at hagree
    exact (RInstallation.ext_iff.mp hagree).2.2.2.1
  have hresolved : (resolveInstallation linkedHost (rootedPath ["opt", "x", "R"]) []
      [rootedPath ["usr", "bin"]]).bind (fun result => result.resolved.map (·.kind)) =
        some none := by
    decide
  have hidentified : (identifyRInstallationUsingLocators linkedHost
      (REnv.new linkedHost.os (rootedPath ["opt", "x", "R"]) none none) []
      [rootedPath ["usr", "bin"]]).map (·.kind) = some (some .globalPaths) := by
    decide
  rw [hresolve] at hresolved
  rw [hidentify] at hidentified
  change some resolved.kind = some none at hresolved
  change some identified.kind = some (some .globalPaths) at hidentified
  rw [Option.some.inj hresolved, Option.some.inj hidentified] at hkind
  cases hkind

end REnvTools.Analysis
