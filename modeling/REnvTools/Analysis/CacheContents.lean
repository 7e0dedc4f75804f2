import REnvTools.Model.ResolutionCache

/-!
# What the resolution cache holds

An entry in memory and a cache file hold an installation together with the modification
times of the files it was read from. Both are sound when the times certify what the probe
has seen (`EntrySound`, `DiskSound`). The operations of an entry keep this, and what `get`
answers from sound contents is what a probe would give (`probe_of_get`).
-/

set_option autoImplicit false

namespace REnvTools.Analysis

open Program Lib Model

variable {κ : Type} {resolver : Resolver κ} {files files' : Files κ}

/-! ## What the code relies on -/

/-- The probe reads the files its result is tracked by, and executables with one cache
file that belong to one installation resolve alike. -/
structure ProbeTracked (resolver : Resolver κ) : Prop where
  reads : ∀ executable, ValidatedMemo.ReadsOnly
    (fun seen => resolver.getInstallationDetails seen executable)
    ResolvedRInstallation.trackedFiles
  shared : ∀ seen executable other installation,
    resolver.generateHash executable = resolver.generateHash other →
    resolver.getInstallationDetails seen executable = some installation →
    other ∈ installation.knownExecutables.getD [] →
    resolver.getInstallationDetails seen other = some installation

/-! ## Recorded times -/

/-- The time is recorded for the path. -/
def Recorded (executables : List FilePathWithMTimeCTime) (path : PathBuf) (modified : ℕ) :
    Prop :=
  ∃ created, ⟨path, modified, created⟩ ∈ executables

/-- The installation was probed, and the recorded times certify what the probe has seen. -/
abbrev ResolvedFrom (resolver : Resolver κ) (files : Files κ) (executable : PathBuf)
    (installation : ResolvedRInstallation) (executables : List FilePathWithMTimeCTime) :
    Prop :=
  ValidatedMemo.Sound FileState.modified FileState.contents
    (fun seen => resolver.getInstallationDetails seen executable)
    ResolvedRInstallation.trackedFiles files (Recorded executables) installation

section Recorded

variable {executable other : PathBuf} {installation : ResolvedRInstallation}
  {executables : List FilePathWithMTimeCTime}

/-- INTERNAL: the time of modification of a record that is valid. -/
theorem modified_of_isValid {x : FilePathWithMTimeCTime} (h : x.isValid files = true) :
    (files x.path).modified = x.modified := by
  unfold FilePathWithMTimeCTime.isValid Files.metadata at h
  cases hcontents : (files x.path).contents with
  | none => simp [hcontents] at h
  | some v =>
    simp only [hcontents, Option.map_some, Bool.and_eq_true, decide_eq_true_eq] at h
    exact h.1.2

/-- What is recorded of a path that is there is its time now. -/
theorem recorded_read {path : PathBuf} (h : (files path).contents.isSome = true) :
    Recorded (FilePathWithMTimeCTime.read files path).toList path (files path).modified := by
  obtain ⟨v, hv⟩ := Option.isSome_iff_exists.mp h
  refine ⟨(files path).created, ?_⟩
  simp [FilePathWithMTimeCTime.read, Files.metadata, hv]

/-- **Valid times mean a current result.** -/
theorem probe_of_valid (h : ProbeTracked resolver)
    (hresolved : ResolvedFrom resolver files executable installation executables)
    (hvalid : ∀ x ∈ executables, x.isValid files = true) :
    resolver.getInstallationDetails files.contents executable = some installation := by
  apply ValidatedMemo.Sound.recompute hresolved (h.reads executable)
  rintro path modified ⟨created, hmem⟩
  exact modified_of_isValid (hvalid _ hmem)

/-- A result of one executable is a result of the other that shares its cache file. -/
theorem ResolvedFrom.share (h : ProbeTracked resolver)
    (hresolved : ResolvedFrom resolver files executable installation executables)
    (hhash : resolver.generateHash executable = resolver.generateHash other)
    (hknown : other ∈ installation.knownExecutables.getD []) :
    ResolvedFrom resolver files other installation executables := by
  obtain ⟨seen, hprobe, hreads⟩ := hresolved
  exact ⟨seen, h.shared seen executable other installation hhash hprobe hknown, hreads⟩

/-- INTERNAL: the name of the cache file tells the hash. -/
theorem generateHash_of_generateCacheFile {dir dir' : PathBuf}
    (h : resolver.generateCacheFile dir executable =
      resolver.generateCacheFile dir' other) :
    resolver.generateHash executable = resolver.generateHash other := by
  unfold Resolver.generateCacheFile PathBuf.join at h
  have hlast := congrArg (fun path => path.components.getLast?) h
  simp only [List.getLast?_append, List.getLast?_singleton, Option.some_or,
    Option.some.injEq, Component.normal.injEq] at hlast
  exact (String.append_left_inj _).mp hlast

end Recorded

/-! ## The operations of an entry -/

/-- No cache file is new. -/
def Shrinks (disk disk' : CacheFiles) : Prop :=
  ∀ path cache, disk' path = some cache → disk path = some cache

section Operations

variable {entry : CacheEntryImpl} {disk : CacheFiles}

/-- INTERNAL: deleting a cache file takes away. -/
theorem shrinks_deleteCacheFile (dir executable : PathBuf) :
    Shrinks disk (resolver.deleteCacheFile dir executable disk) := by
  intro path cache h
  unfold Resolver.deleteCacheFile at h
  by_cases hpath : path = resolver.generateCacheFile dir executable
  · rw [hpath, Function.update_self] at h
    cases h
  · rwa [Function.update_of_ne hpath] at h

/-- The cache file is gone after it was removed. -/
theorem deleteCacheFile_self (dir executable : PathBuf) :
    resolver.deleteCacheFile dir executable disk (resolver.generateCacheFile dir executable) =
      none := by
  unfold Resolver.deleteCacheFile
  rw [Function.update_self]

/-- An entry that is verified is valid, or loses its installation and its cache file. -/
theorem verifyInMemoryCache_cases (resolver : Resolver κ) (files : Files κ)
    (entry : CacheEntryImpl) (disk : CacheFiles) :
    (entry.verifyInMemoryCache resolver files disk = (entry, disk) ∧
      files.isFile entry.executable = true ∧
      ∀ x ∈ entry.executables, x.isValid files = true) ∨
    ∃ disk', Shrinks disk disk' ∧
      (∀ dir, entry.cacheDirectory = some dir →
        disk' (resolver.generateCacheFile dir entry.executable) = none) ∧
      entry.verifyInMemoryCache resolver files disk =
        ({ entry with installation := none }, disk') := by
  unfold CacheEntryImpl.verifyInMemoryCache
  split
  · refine .inr ⟨_, ?_, ?_, rfl⟩
    · cases entry.cacheDirectory with
      | none => exact fun _ _ h => h
      | some dir => exact shrinks_deleteCacheFile dir entry.executable
    · intro dir hdir
      simp only [hdir]
      exact deleteCacheFile_self dir entry.executable
  · rename_i hvalid
    simp only [Bool.or_eq_true, not_or, List.any_eq_true, not_exists, not_and,
      Bool.not_eq_true', Bool.not_eq_false] at hvalid
    refine .inl ⟨rfl, hvalid.2, ?_⟩
    intro x hx
    rw [FilePathWithMTimeCTime.isValid_eq_not_changed, Bool.not_eq_true']
    simpa using hvalid.1 x hx

/-- What a cache file gives: its contents, if it is the executable's and valid. After nothing
it is not there, or not the executable's. -/
theorem getCacheFromFile_cases (resolver : Resolver κ) (files : Files κ)
    (dir executable : PathBuf) (disk : CacheFiles) :
    (∃ cache, disk (resolver.generateCacheFile dir executable) = some cache ∧
      executable ∈ cache.installation.knownExecutables.getD [] ∧
      (∀ x ∈ cache.executables, x.isValid files = true) ∧
      resolver.getCacheFromFile files dir executable disk =
        (some (cache.installation, cache.executables), disk)) ∨
    ∃ disk', Shrinks disk disk' ∧
      (∀ cache, disk' (resolver.generateCacheFile dir executable) = some cache →
        executable ∉ cache.installation.knownExecutables.getD []) ∧
      resolver.getCacheFromFile files dir executable disk = (none, disk') := by
  unfold Resolver.getCacheFromFile
  cases hcache : disk (resolver.generateCacheFile dir executable) with
  | none => exact .inr ⟨disk, fun _ _ h => h, by simp [hcache], rfl⟩
  | some cache =>
    by_cases hknown : (cache.installation.knownExecutables.getD []).contains executable = true
    · simp only [hknown, if_true]
      by_cases hvalid : cache.executables.all (·.isValid files) = true
      · simp only [hvalid, if_true]
        exact .inl ⟨cache, rfl, List.contains_iff_mem.mp hknown,
          List.all_eq_true.mp hvalid, rfl⟩
      · simp only [hvalid, Bool.false_eq_true, if_false]
        refine .inr ⟨_, shrinks_deleteCacheFile dir executable, ?_, rfl⟩
        simp [deleteCacheFile_self]
    · simp only [hknown, Bool.false_eq_true, if_false]
      refine .inr ⟨disk, fun _ _ h => h, ?_, rfl⟩
      intro cache' hcache' hmem
      cases hcache.symm.trans hcache'
      exact hknown (List.contains_iff_mem.mpr hmem)

/-- The same of the cache file of an entry. -/
theorem getFromFile_cases (resolver : Resolver κ) (files : Files κ)
    (entry : CacheEntryImpl) (disk : CacheFiles) :
    (∃ dir cache, entry.cacheDirectory = some dir ∧
      disk (resolver.generateCacheFile dir entry.executable) = some cache ∧
      entry.executable ∈ cache.installation.knownExecutables.getD [] ∧
      (∀ x ∈ cache.executables, x.isValid files = true) ∧
      entry.getFromFile resolver files disk = (some cache.installation,
        entry.storeInMemory cache.installation cache.executables, disk)) ∨
    ∃ disk', Shrinks disk disk' ∧
      (∀ dir cache, entry.cacheDirectory = some dir →
        disk' (resolver.generateCacheFile dir entry.executable) = some cache →
          entry.executable ∉ cache.installation.knownExecutables.getD []) ∧
      entry.getFromFile resolver files disk = (none, entry, disk') := by
  unfold CacheEntryImpl.getFromFile
  cases hdir : entry.cacheDirectory with
  | none => exact .inr ⟨disk, fun _ _ h => h, by simp, rfl⟩
  | some dir =>
    rcases getCacheFromFile_cases resolver files dir entry.executable disk with
      ⟨cache, hcache, hknown, hvalid, hget⟩ | ⟨disk', hdisk, hsilent, hget⟩
    · refine .inl ⟨dir, cache, rfl, hcache, hknown, hvalid, ?_⟩
      simp only [hget, CacheEntryImpl.storeInMemory, hdir]
    · refine .inr ⟨disk', hdisk, ?_, ?_⟩
      · rintro dir' cache ⟨⟩ hcache
        exact hsilent cache hcache
      · simp only [hget]

/-- **What `get` answers**: the installation in memory, that of the cache file, or
nothing. An answer is for an executable that is a file, its times are valid, and the cache
files are as they were; after nothing there is no answer in either place. -/
theorem get_cases (resolver : Resolver κ) (files : Files κ) (entry : CacheEntryImpl)
    (disk : CacheFiles) :
    (∃ installation, entry.installation = some installation ∧
      files.isFile entry.executable = true ∧
      (∀ x ∈ entry.executables, x.isValid files = true) ∧
      entry.get resolver files disk = (some installation, entry, disk)) ∨
    (∃ dir cache, entry.cacheDirectory = some dir ∧
      disk (resolver.generateCacheFile dir entry.executable) = some cache ∧
      entry.executable ∈ cache.installation.knownExecutables.getD [] ∧
      files.isFile entry.executable = true ∧
      (∀ x ∈ cache.executables, x.isValid files = true) ∧
      entry.get resolver files disk = (some cache.installation,
        entry.storeInMemory cache.installation cache.executables, disk)) ∨
    ∃ disk', Shrinks disk disk' ∧
      (∀ dir cache, entry.cacheDirectory = some dir →
        disk' (resolver.generateCacheFile dir entry.executable) = some cache →
          entry.executable ∉ cache.installation.knownExecutables.getD []) ∧
      entry.get resolver files disk = (none, { entry with installation := none }, disk') := by
  unfold CacheEntryImpl.get
  rcases verifyInMemoryCache_cases resolver files entry disk with
    ⟨hverify, hfile, hvalid⟩ | ⟨disk₁, hshrinks, hdeleted, hverify⟩
  · rw [hverify]
    dsimp only
    cases hinstallation : entry.installation with
    | some installation => exact .inl ⟨installation, rfl, hfile, hvalid, rfl⟩
    | none =>
      have hsame : { entry with installation := none } = entry := by rw [← hinstallation]
      rcases getFromFile_cases resolver files entry disk with
        ⟨dir, cache, hdir, hcache, hknown, hvalid, hget⟩ | ⟨disk', hshrinks, hsilent, hget⟩
      · exact .inr (.inl ⟨dir, cache, hdir, hcache, hknown, hfile, hvalid, hget⟩)
      · rw [hsame]
        exact .inr (.inr ⟨disk', hshrinks, hsilent, hget⟩)
  · rw [hverify]
    dsimp only
    -- what was found outdated in memory is not answered from the cache file
    rcases getFromFile_cases resolver files { entry with installation := none } disk₁ with
      ⟨dir, cache, hdir, hcache, -⟩ | ⟨disk', hshrinks', hsilent, hget⟩
    · rw [hdeleted dir hdir] at hcache
      cases hcache
    · exact .inr (.inr ⟨disk', fun path c h => hshrinks _ _ (hshrinks' path c h), hsilent, hget⟩)

/-- INTERNAL: tracking executables adds to the records, and may drop the installation and delete
cache files. -/
theorem trackExecutables_cases (resolver : Resolver κ) (files : Files κ)
    (entry : CacheEntryImpl) (disk : CacheFiles) (paths : List PathBuf) :
    ∃ installation disk', Shrinks disk disk' ∧
      (installation = entry.installation ∨ installation = none) ∧
      entry.trackExecutables resolver files disk paths =
        ({ entry with
            installation := installation
            executables := entry.executables ++ entry.executablesToTrack files paths },
          disk') := by
  rcases verifyInMemoryCache_cases resolver files entry disk with
    ⟨hverify, -⟩ | ⟨disk', hdisk, -, hverify⟩
  · refine ⟨entry.installation, disk, fun _ _ h => h, .inl rfl, ?_⟩
    simp only [CacheEntryImpl.trackExecutables, hverify]
  · refine ⟨none, disk', hdisk, .inr rfl, ?_⟩
    simp only [CacheEntryImpl.trackExecutables, hverify]
    rfl

end Operations

/-! ## What is kept -/

/-- An installation in memory was resolved from its recorded times. -/
def EntrySound (resolver : Resolver κ) (files : Files κ) (entry : CacheEntryImpl) : Prop :=
  ∀ installation, entry.installation = some installation →
    ResolvedFrom resolver files entry.executable installation entry.executables

/-- So was an installation in a cache file, for an executable with this cache file. -/
def DiskSound (resolver : Resolver κ) (files : Files κ) (disk : CacheFiles) : Prop :=
  ∀ path cache, disk path = some cache → ∃ dir executable,
    path = resolver.generateCacheFile dir executable ∧
      ResolvedFrom resolver files executable cache.installation cache.executables

section Kept

variable {entry entry' : CacheEntryImpl} {disk disk' : CacheFiles} {executable : PathBuf}
  {installation : ResolvedRInstallation} {executables : List FilePathWithMTimeCTime}

/-- Sound cache files remain so when some are taken away. -/
theorem DiskSound.shrinks (h : DiskSound resolver files disk) (hdisk : Shrinks disk disk') :
    DiskSound resolver files disk' := by
  intro path cache hcache
  exact h path cache (hdisk path cache hcache)

/-- A valid cache file of an executable has its current result. -/
theorem DiskSound.resolvedFrom (hprobe : ProbeTracked resolver)
    (h : DiskSound resolver files disk) {dir : PathBuf} {cache : CacheFile}
    (hcache : disk (resolver.generateCacheFile dir executable) = some cache)
    (hknown : executable ∈ cache.installation.knownExecutables.getD []) :
    ResolvedFrom resolver files executable cache.installation cache.executables := by
  obtain ⟨dir', other, hpath, hresolved⟩ := h _ _ hcache
  exact hresolved.share hprobe (generateHash_of_generateCacheFile hpath).symm hknown

/-- **An answer of `get` is current.** -/
theorem probe_of_get (hprobe : ProbeTracked resolver) (hentry : EntrySound resolver files entry)
    (hdisk : DiskSound resolver files disk)
    (h : (entry.get resolver files disk).1 = some installation) :
    resolver.getInstallationDetails files.contents entry.executable = some installation := by
  rcases get_cases resolver files entry disk with
    ⟨memory, hmemory, -, hvalid, hget⟩ | ⟨dir, cache, -, hcache, hknown, -, hvalid, hget⟩ |
    ⟨disk', -, -, hget⟩
  · rw [hget, Option.some.injEq] at h
    exact h ▸ probe_of_valid hprobe (hentry memory hmemory) hvalid
  · rw [hget, Option.some.injEq] at h
    exact h ▸ probe_of_valid hprobe (hdisk.resolvedFrom hprobe hcache hknown) hvalid
  · rw [hget] at h
    cases h

/-- `get` keeps what is kept sound. -/
theorem get_sound (hprobe : ProbeTracked resolver) (hentry : EntrySound resolver files entry)
    (hdisk : DiskSound resolver files disk) {answer : Option ResolvedRInstallation}
    (h : entry.get resolver files disk = (answer, entry', disk')) :
    entry'.executable = entry.executable ∧ EntrySound resolver files entry' ∧
      DiskSound resolver files disk' := by
  rcases get_cases resolver files entry disk with
    ⟨memory, hmemory, -, -, hget⟩ | ⟨dir, cache, -, hcache, hknown, -, -, hget⟩ |
    ⟨disk₁, hshrinks, -, hget⟩
  · rw [hget] at h
    cases h
    exact ⟨rfl, hentry, hdisk⟩
  · rw [hget] at h
    cases h
    refine ⟨rfl, ?_, hdisk⟩
    intro installation hinstallation
    cases hinstallation
    exact hdisk.resolvedFrom hprobe hcache hknown
  · rw [hget] at h
    cases h
    refine ⟨rfl, ?_, hdisk.shrinks hshrinks⟩
    intro installation hinstallation
    cases hinstallation

/-- Tracking executables keeps entry and cache files sound. -/
theorem trackExecutables_sound (hentry : EntrySound resolver files entry)
    (hdisk : DiskSound resolver files disk) (paths : List PathBuf) :
    (entry.trackExecutables resolver files disk paths).1.executable = entry.executable ∧
      EntrySound resolver files (entry.trackExecutables resolver files disk paths).1 ∧
      DiskSound resolver files (entry.trackExecutables resolver files disk paths).2 := by
  obtain ⟨kept, disk', hshrinks, hkept, htrack⟩ :=
    trackExecutables_cases resolver files entry disk paths
  rw [htrack]
  refine ⟨rfl, ?_, hdisk.shrinks hshrinks⟩
  intro installation hinstallation
  have hmemory : entry.installation = some installation := by
    rcases hkept with rfl | rfl
    · exact hinstallation
    · cases hinstallation
  refine (hentry installation hmemory).mono ?_
  rintro path modified ⟨created, hmem⟩
  exact ⟨created, List.mem_append_left _ hmem⟩

/-- Storing what was resolved keeps the cache files sound. -/
theorem storeOutcome_sound (hdisk : DiskSound resolver files disk)
    (hresolved : ResolvedFrom resolver files entry.executable installation executables)
    (h : StoreOutcome resolver entry installation executables disk disk') :
    DiskSound resolver files disk' := by
  cases h with
  | unwritten => exact hdisk
  | unreadable => exact hdisk.shrinks (shrinks_deleteCacheFile _ _)
  | written =>
    unfold CacheEntryImpl.storeOnDisk
    cases entry.cacheDirectory with
    | none => exact hdisk
    | some dir =>
      intro path cache hcache
      simp only [Resolver.storeCacheInFile] at hcache
      by_cases hpath : path = resolver.generateCacheFile dir entry.executable
      · rw [hpath, Function.update_self] at hcache
        cases hcache
        exact ⟨dir, entry.executable, hpath, hresolved⟩
      · rw [Function.update_of_ne hpath] at hcache
        exact hdisk path cache hcache

/-- An entry remains sound when the files change. -/
theorem EntrySound.advance (h : EntrySound resolver files entry)
    (hfiles : ValidatedMemo.Advances FileState.modified files files') :
    EntrySound resolver files' entry := by
  intro installation hinstallation
  exact (h installation hinstallation).advance hfiles

/-- Cache files remain sound when the files change. -/
theorem DiskSound.advance (h : DiskSound resolver files disk)
    (hfiles : ValidatedMemo.Advances FileState.modified files files') :
    DiskSound resolver files' disk := by
  intro path cache hcache
  obtain ⟨dir, executable, hpath, hresolved⟩ := h path cache hcache
  exact ⟨dir, executable, hpath, hresolved.advance hfiles⟩

end Kept

/-! ## A host with one launcher -/

section Host

/-- `/opt/R/bin/R`. -/
def sampleLauncher : PathBuf :=
  ⟨[.rootDir, .normal "opt", .normal "R", .normal "bin", .normal "R"]⟩

/-- `/opt/R/library/base/DESCRIPTION`. -/
def sampleDescription : PathBuf :=
  ⟨[.rootDir, .normal "opt", .normal "R", .normal "library", .normal "base",
    .normal "DESCRIPTION"]⟩

/-- What a probe finds of the version. -/
def sampleResolved (version : String) : ResolvedRInstallation where
  executable := sampleLauncher
  home := ⟨[.rootDir, .normal "opt", .normal "R"]⟩
  version := version
  arch := .x64
  knownExecutables := some [sampleLauncher]
  symlinks := none
  orthogonal := none
  metadataFiles := [sampleDescription]

/-- The text of the launcher. -/
def launcherScript : String :=
  "#!/bin/sh\n# Shell wrapper for R executable.\nR_HOME_DIR=/opt/R\n"

/-- The description of a package that R 4.4.0 built. -/
def description440 : String := "Built: R 4.4.0; x86_64-pc-linux-gnu; ; unix\n"

/-- That of a package that R 4.4.1 built. -/
def description441 : String := "Built: R 4.4.1; x86_64-pc-linux-gnu; ; unix\n"

/-- A host with this one launcher. -/
def sampleResolver : Resolver String where
  os := ⟨false, id, fun _ => none⟩
  sha256 := id
  getInstallationDetails seen executable :=
    if executable = sampleLauncher ∧ seen sampleLauncher = some launcherScript then
      if seen sampleDescription = some description440 then some (sampleResolved "4.4.0")
      else if seen sampleDescription = some description441 then some (sampleResolved "4.4.1")
      else none
    else none

/-- INTERNAL: the sample probe depends on its tracked files only. -/
theorem sampleResolver_tracked : ProbeTracked sampleResolver := by
  have htracked : ∀ version, (sampleResolved version).trackedFiles =
      [sampleLauncher, sampleDescription] := fun _ => rfl
  have hcases : ∀ seen executable installation,
      sampleResolver.getInstallationDetails seen executable = some installation →
      executable = sampleLauncher ∧ ∃ version, installation = sampleResolved version := by
    intro seen executable installation h
    simp only [sampleResolver] at h
    split at h
    · rename_i hlauncher
      split at h
      · exact ⟨hlauncher.1, "4.4.0", (Option.some.inj h).symm⟩
      · split at h
        · exact ⟨hlauncher.1, "4.4.1", (Option.some.inj h).symm⟩
        · cases h
    · cases h
  constructor
  · intro executable seen now installation h hnow
    obtain ⟨-, version, rfl⟩ := hcases seen executable installation h
    rw [htracked] at hnow
    have hlauncher := hnow sampleLauncher (by simp)
    have hdescription := hnow sampleDescription (by simp)
    simp only [sampleResolver, hlauncher, hdescription] at h ⊢
    exact h
  · intro seen executable other installation _ h hknown
    obtain ⟨rfl, version, rfl⟩ := hcases seen executable installation h
    obtain rfl : other = sampleLauncher := List.mem_singleton.mp hknown
    exact h

/-- The files of one version, its description written at a time. -/
def sampleFiles (description : String) (modified : ℕ) : Files String := fun path =>
  if path = sampleLauncher then ⟨some launcherScript, true, 1, some 1⟩
  else if path = sampleDescription then ⟨some description, true, modified, some 1⟩
  else ⟨none, false, 0, none⟩

end Host

end REnvTools.Analysis
