import REnvTools.Analysis.Builder
import REnvTools.Analysis.CacheEntry
import REnvTools.Program.Locators

/-!
# Whether a stored resolution is found again

The cache file of an executable is named by the normal form of its path, and the known
executables in it are in normal form, but reading it back looks for the path as it was given
among them. A path that is not in normal form is never found again, however often it is
resolved.
-/

set_option autoImplicit false

namespace REnvTools.Analysis

open Program Lib

variable {κ : Type} {resolver : Resolver κ} {host : LocatorHost} {files files' : Files κ}
  {disk : CacheFiles} {executable dir : PathBuf} {runtime : ProbedRuntime}

/-! ## Asking a new entry -/

/-- A new entry answers exactly if its executable is a file and its cache file is valid and
names the executable. -/
theorem get_create_eq_some_iff {installation : ResolvedRInstallation} :
    ((CacheEntryImpl.create (some dir) executable).get resolver files disk).1 =
        some installation ↔
      files.isFile executable = true ∧
        ∃ cache, disk (resolver.generateCacheFile dir executable) = some cache ∧
          cache.installation = installation ∧
          executable ∈ installation.knownExecutables.getD [] ∧
          ∀ x ∈ cache.executables, x.isValid files = true := by
  constructor
  · intro h
    rcases get_cases resolver files (CacheEntryImpl.create (some dir) executable) disk with
      ⟨answer, hmemory, -⟩ | ⟨dir', cache, hdir, hcache, hknown, hfile, hvalid, hget⟩ |
      ⟨disk', -, -, hget⟩
    · cases hmemory
    · rw [hget] at h
      cases h
      cases hdir
      exact ⟨hfile, cache, hcache, rfl, hknown, hvalid⟩
    · rw [hget] at h
      cases h
  · rintro ⟨hfile, cache, hcache, rfl, hknown, hvalid⟩
    have hverify : (CacheEntryImpl.create (some dir) executable).verifyInMemoryCache resolver
        files disk = (CacheEntryImpl.create (some dir) executable, disk) := by
      unfold CacheEntryImpl.verifyInMemoryCache CacheEntryImpl.create
      simp [hfile]
    have hread : resolver.getCacheFromFile files dir executable disk =
        (some (cache.installation, cache.executables), disk) := by
      unfold Resolver.getCacheFromFile
      rw [hcache]
      dsimp only
      rw [if_pos (List.contains_iff_mem.mpr hknown), if_pos (List.all_eq_true.mpr hvalid)]
    unfold CacheEntryImpl.get
    rw [hverify]
    unfold CacheEntryImpl.create CacheEntryImpl.getFromFile
    dsimp only
    rw [hread]

/-! ## What is recorded -/

/-- What is recorded is valid, while nothing changes, exactly if it is regular files. -/
theorem recordedTimes_valid_iff {installation : ResolvedRInstallation}
    (hsame : ∀ path ∈ installation.trackedFiles, files' path = files path) :
    (∀ x ∈ installation.recordedTimes files, x.isValid files' = true) ↔
      ∀ path ∈ installation.trackedFiles, ∀ metadata, files.metadata path = some metadata →
        metadata.isFile = true := by
  have hmetadata : ∀ path ∈ installation.trackedFiles,
      files'.metadata path = files.metadata path := by
    intro path hpath
    unfold Files.metadata
    rw [hsame path hpath]
  have hvalid : ∀ path ∈ installation.trackedFiles, ∀ metadata,
      files.metadata path = some metadata →
        (FilePathWithMTimeCTime.mk path metadata.modified metadata.created).isValid files' =
          metadata.isFile := by
    intro path hpath metadata hsome
    unfold FilePathWithMTimeCTime.isValid
    rw [hmetadata path hpath, hsome]
    cases hcreated : metadata.created <;> simp [hcreated]
  constructor
  · intro h path hpath metadata hsome
    rw [← hvalid path hpath metadata hsome]
    apply h
    unfold ResolvedRInstallation.recordedTimes
    rw [mem_sortDedup, List.mem_filterMap]
    refine ⟨path, hpath, ?_⟩
    unfold FilePathWithMTimeCTime.read
    rw [hsome, Option.map_some]
  · intro h x hx
    unfold ResolvedRInstallation.recordedTimes at hx
    rw [mem_sortDedup, List.mem_filterMap] at hx
    obtain ⟨path, hpath, hread⟩ := hx
    obtain ⟨metadata, hsome, rfl⟩ := Option.map_eq_some_iff.mp hread
    rw [hvalid path hpath metadata hsome]
    exact h path hpath metadata hsome

/-- The known executables of a resolved runtime: the given path and its target, both in
normal form. -/
theorem mem_knownExecutables_buildResolved (h : NormIdempotent host.os) {path : PathBuf} :
    path ∈ (buildResolved host executable runtime).knownExecutables.getD [] ↔
      path = host.os.normCase executable ∨
        ∃ target, host.os.canonicalize executable = some target ∧
          path = host.os.normCase target := by
  simp only [buildResolved, normalizePaths, Option.getD_some, mem_sortDedup, List.map_cons,
    List.mem_cons, h executable]
  cases host.os.canonicalize executable with
  | none => simp
  | some target => simp [h target]

/-- The path is found among them exactly if it is in normal form. -/
theorem executable_known_iff (h : NormIdempotent host.os) :
    executable ∈ (buildResolved host executable runtime).knownExecutables.getD [] ↔
      host.os.normCase executable = executable := by
  rw [mem_knownExecutables_buildResolved h]
  constructor
  · rintro (hsame | ⟨target, -, htarget⟩)
    · exact hsame.symm
    · rw [htarget, h target]
  · exact fun hsame => .inl hsame.symm

/-! ## The next process -/

/-- While the tracked files stay as they are, a new process answers from the cache file and
does not probe. -/
def FoundAgain (resolver : Resolver κ) (files : Files κ) (dir executable : PathBuf)
    (disk : CacheFiles) (installation : ResolvedRInstallation) : Prop :=
  ∀ files', (∀ path ∈ installation.trackedFiles, files' path = files path) →
    ((CacheEntryImpl.create (some dir) executable).resolveFrom resolver files' disk).answer =
        some installation ∧
      ((CacheEntryImpl.create (some dir) executable).resolveFrom resolver files' disk).probed =
        false

/-- The path is in normal form, and it, its target and the files with the metadata are
regular files, as far as they are there. -/
structure Findable (host : LocatorHost) (files : Files κ) (executable : PathBuf)
    (runtime : ProbedRuntime) : Prop where
  normal : host.os.normCase executable = executable
  launcher : files.isFile executable = true
  target : ∀ target, host.os.canonicalize executable = some target →
    ∀ metadata, files.metadata (host.os.normCase target) = some metadata → metadata.isFile = true
  metadataFiles : ∀ path ∈ runtime.metadataFiles, ∀ metadata,
    files.metadata path = some metadata → metadata.isFile = true

/-- INTERNAL: an answer without a probe is one of `get`. -/
theorem resolveFrom_eq_some_iff (entry : CacheEntryImpl) {installation : ResolvedRInstallation} :
    ((entry.resolveFrom resolver files disk).answer = some installation ∧
        (entry.resolveFrom resolver files disk).probed = false) ↔
      (entry.get resolver files disk).1 = some installation := by
  unfold CacheEntryImpl.resolveFrom
  rcases hget : entry.get resolver files disk with ⟨answer, entry', disk'⟩
  cases answer with
  | some answer => simp
  | none =>
    dsimp only
    cases resolver.getInstallationDetails files.contents entry'.executable <;> simp

/-- INTERNAL: what a call that probes leaves in the cache file. -/
theorem disk_of_probed (entry : CacheEntryImpl) (hdir : entry.cacheDirectory = some dir)
    (hprobed : (entry.resolveFrom resolver files disk).probed = true)
    {installation : ResolvedRInstallation}
    (hdetails : resolver.getInstallationDetails files.contents entry.executable =
      some installation) :
    (entry.resolveFrom resolver files disk).disk
        (resolver.generateCacheFile dir entry.executable) =
      some ⟨installation, installation.recordedTimes files⟩ := by
  unfold CacheEntryImpl.resolveFrom at hprobed ⊢
  rcases get_cases resolver files entry disk with
    ⟨answer, -, -, -, hget⟩ | ⟨_, cache, -, -, -, -, -, hget⟩ | ⟨disk', -, -, hget⟩
  · rw [hget] at hprobed
    cases hprobed
  · rw [hget] at hprobed
    cases hprobed
  · rw [hget]
    dsimp only
    rw [hdetails]
    dsimp only [CacheEntryImpl.store, CacheEntryImpl.storeOnDisk]
    rw [hdir]
    unfold Resolver.storeCacheInFile
    exact Function.update_self _ _ _

/-- **When a stored resolution is found again**: exactly if the path was given in normal form,
and what is tracked for it are regular files. -/
theorem found_again_iff (h : NormIdempotent host.os) (sha256 : String → String)
    (probe : (PathBuf → Option κ) → PathBuf → Option ProbedRuntime) (entry : CacheEntryImpl)
    (hdir : entry.cacheDirectory = some dir)
    (hprobed : (entry.resolveFrom (host.resolver sha256 probe) files disk).probed = true)
    (hruntime : probe files.contents entry.executable = some runtime) :
    FoundAgain (host.resolver sha256 probe) files dir entry.executable
        (entry.resolveFrom (host.resolver sha256 probe) files disk).disk
        (buildResolved host entry.executable runtime) ↔
      Findable host files entry.executable runtime := by
  have hdetails : (host.resolver sha256 probe).getInstallationDetails files.contents
      entry.executable = some (buildResolved host entry.executable runtime) := by
    unfold LocatorHost.resolver
    simp only [hruntime, Option.map_some]
  have hdisk := disk_of_probed entry hdir hprobed hdetails
  have htracked : (buildResolved host entry.executable runtime).trackedFiles =
      (buildResolved host entry.executable runtime).knownExecutables.getD [] ++
        runtime.metadataFiles := rfl
  unfold FoundAgain
  simp only [resolveFrom_eq_some_iff, get_create_eq_some_iff, hdisk, Option.some.injEq,
    exists_eq_left', true_and, executable_known_iff h]
  constructor
  · intro hfound
    obtain ⟨hfile, hnormal, hvalid⟩ := hfound files fun _ _ => rfl
    rw [recordedTimes_valid_iff fun _ _ => rfl] at hvalid
    refine ⟨hnormal, hfile, fun target htarget => ?_, fun path hpath => ?_⟩
    · apply hvalid
      rw [htracked, List.mem_append, mem_knownExecutables_buildResolved h]
      exact .inl (.inr ⟨target, htarget, rfl⟩)
    · apply hvalid
      rw [htracked, List.mem_append]
      exact .inr hpath
  · intro hfindable files' hsame
    -- the launcher is among the tracked files, so it is there wherever these are the same
    have hlauncher : entry.executable ∈
        (buildResolved host entry.executable runtime).trackedFiles := by
      rw [htracked, List.mem_append, executable_known_iff h]
      exact .inl hfindable.normal
    refine ⟨?_, hfindable.normal, (recordedTimes_valid_iff hsame).mpr fun path hpath => ?_⟩
    · have hfile := hfindable.launcher
      unfold Files.isFile Files.metadata at hfile ⊢
      rwa [hsame _ hlauncher]
    · rw [htracked, List.mem_append, mem_knownExecutables_buildResolved h] at hpath
      obtain (rfl | ⟨target, htarget, rfl⟩) | hpath := hpath
      · intro metadata hmetadata
        rw [hfindable.normal] at hmetadata
        have hfile := hfindable.launcher
        unfold Files.isFile at hfile
        rwa [hmetadata] at hfile
      · exact hfindable.target target htarget
      · exact hfindable.metadataFiles path hpath

/-! ## Two spellings of one launcher -/

/-- A Windows host with one launcher. -/
def windowsHost : LocatorHost where
  os := windowsOs
  isDir _ := false
  findExecutable _ := none
  isSymlink _ := false
  probe _ := none

/-- What a probe of the launcher finds. -/
def windowsRuntime : ProbedRuntime :=
  ⟨⟨[.drive "C:", .rootDir, .normal "R"]⟩, "4.4.1", .x64, [], none⟩

/-- Only the launcher can be probed, by either of its spellings. -/
def windowsProbe (seen : PathBuf → Option Unit) (executable : PathBuf) : Option ProbedRuntime :=
  (seen executable).map fun _ => windowsRuntime

/-- The two spellings lead to one file. -/
def windowsFiles : Files Unit := fun path =>
  if path = normalLauncher ∨ path = lowerLauncher then ⟨some (), true, 1, none⟩
  else ⟨none, false, 0, none⟩

/-- The condition for the launcher in its normal form. -/
theorem found_again_normalLauncher :
    FoundAgain (windowsHost.resolver id windowsProbe) windowsFiles sampleCacheDirectory
        normalLauncher
        ((CacheEntryImpl.create (some sampleCacheDirectory) normalLauncher).resolveFrom
          (windowsHost.resolver id windowsProbe) windowsFiles fun _ => none).disk
        (buildResolved windowsHost normalLauncher windowsRuntime) ↔
      Findable windowsHost windowsFiles normalLauncher windowsRuntime :=
  found_again_iff normIdempotent_windowsOs id windowsProbe
    (CacheEntryImpl.create (some sampleCacheDirectory) normalLauncher) rfl (by decide) (by decide)

/-- In lower case it is probed and stored, and never found again. -/
theorem not_found_again_lowerLauncher :
    ¬∀ (κ : Type) (host : LocatorHost) (sha256 : String → String)
      (probe : (PathBuf → Option κ) → PathBuf → Option ProbedRuntime) (files : Files κ)
      (entry : CacheEntryImpl) (disk : CacheFiles) (dir : PathBuf) (runtime : ProbedRuntime),
      NormIdempotent host.os → entry.cacheDirectory = some dir →
      (entry.resolveFrom (host.resolver sha256 probe) files disk).probed = true →
      probe files.contents entry.executable = some runtime →
      FoundAgain (host.resolver sha256 probe) files dir entry.executable
        (entry.resolveFrom (host.resolver sha256 probe) files disk).disk
        (buildResolved host entry.executable runtime) := by
  intro h
  have hfound := h Unit windowsHost id windowsProbe windowsFiles
    (CacheEntryImpl.create (some sampleCacheDirectory) lowerLauncher) (fun _ => none)
    sampleCacheDirectory windowsRuntime normIdempotent_windowsOs rfl (by decide) (by decide)
  have hprobed := (hfound windowsFiles fun _ _ => rfl).2
  exact absurd hprobed (by decide)

end REnvTools.Analysis
