import Mathlib.Data.Finmap
import Mathlib.Order.WithBot
import REnvTools.Program.RInstallation

/-!
# The resolution cache

`CacheEntryImpl` and `CacheImpl`, the cache files behind them, and what
`ResolvedRInstallation::add_to_cache` checks. The file system is a function from paths to
what is there; cache files are kept apart from the files that are tracked. Times are
numbers. The probe `get_installation_details` and the digest of the cache file's name are
parameters (`Resolver`).

SRC: crates/ret-r-utils/src/cache.rs, fs_cache.rs, env.rs:23-82
-/

set_option autoImplicit false

namespace REnvTools.Program

open Lib (sortDedup)

/-! ## Files -/

/-- What is at a path: its contents, if anything is there, and its times. -/
structure FileState (κ : Type) where
  contents : Option κ
  isFile : Bool
  modified : ℕ
  created : Option ℕ

/-- `std::fs::Metadata`. -/
structure Metadata where
  isFile : Bool
  modified : ℕ
  created : Option ℕ
  deriving DecidableEq

/-- The files of a host. -/
abbrev Files (κ : Type) := PathBuf → FileState κ

namespace Files

variable {κ : Type}

/-- `Path::metadata`. -/
def metadata (files : Files κ) (path : PathBuf) : Option Metadata :=
  (files path).contents.map fun _ =>
    ⟨(files path).isFile, (files path).modified, (files path).created⟩

/-- `Path::is_file`. -/
def isFile (files : Files κ) (path : PathBuf) : Bool :=
  (files.metadata path).any (·.isFile)

/-- What a probe can read. -/
def contents (files : Files κ) (path : PathBuf) : Option κ := (files path).contents

end Files

/-! ## What is cached -/

/-- `ResolvedRInstallation`. -/
structure ResolvedRInstallation where
  executable : PathBuf
  home : PathBuf
  version : String
  arch : Architecture
  knownExecutables : Option (List PathBuf)
  symlinks : Option (List PathBuf)
  orthogonal : Option Bool
  metadataFiles : List PathBuf
  deriving DecidableEq

/-- The files `store` tracks for an installation. -/
def ResolvedRInstallation.trackedFiles (installation : ResolvedRInstallation) :
    List PathBuf :=
  installation.knownExecutables.getD [] ++ installation.metadataFiles

/-- The check of `ResolvedRInstallation::add_to_cache`. -/
def ResolvedRInstallation.accepts (self : ResolvedRInstallation)
    (installation : RInstallation) : Bool :=
  (installation.knownExecutables.getD []).contains self.executable &&
    installation.version.getD "" = self.version &&
    installation.home.getD ⟨[]⟩ = self.home &&
    installation.arch = some self.arch

/-- `FilePathWithMTimeCTime`. -/
@[ext] structure FilePathWithMTimeCTime where
  path : PathBuf
  modified : ℕ
  created : Option ℕ

namespace FilePathWithMTimeCTime

/-- The tuple, by which it is ordered. -/
def key (x : FilePathWithMTimeCTime) : PathBuf ×ₗ (ℕ ×ₗ WithBot ℕ) :=
  toLex (x.path, toLex (x.modified, x.created))

/-- INTERNAL: the record of a file is determined by its tuple. -/
theorem key_injective : Function.Injective key := by
  intro x y h
  unfold key at h
  simp only [EmbeddingLike.apply_eq_iff_eq, Prod.mk.injEq] at h
  obtain ⟨hpath, htimes⟩ := h
  obtain ⟨hmodified, hcreated⟩ := Prod.mk.inj htimes
  exact FilePathWithMTimeCTime.ext hpath hmodified hcreated

instance : LinearOrder FilePathWithMTimeCTime := LinearOrder.lift' key key_injective

variable {κ : Type}

/-- The check of `verify_in_memory_cache`: whether the file is no longer as it was. -/
def changed (files : Files κ) (x : FilePathWithMTimeCTime) : Bool :=
  match files.metadata x.path with
  | none => true
  | some metadata =>
    !metadata.isFile || metadata.modified ≠ x.modified ||
      x.created.any fun created => metadata.created ≠ some created

/-- The check of `get_cache_from_file`: whether the file is as it was. -/
def isValid (files : Files κ) (x : FilePathWithMTimeCTime) : Bool :=
  match files.metadata x.path with
  | some metadata =>
    let mtimeValid : Bool := metadata.modified = x.modified
    let ctimeValid : Bool :=
      match x.created with
      | some storedCtime => metadata.created = some storedCtime
      | none => true
    metadata.isFile && mtimeValid && ctimeValid
  | none => false

/-- The two checks are the same. -/
theorem isValid_eq_not_changed (files : Files κ) (x : FilePathWithMTimeCTime) :
    x.isValid files = !x.changed files := by
  unfold isValid changed
  cases files.metadata x.path with
  | none => rfl
  | some metadata => cases x.created <;> simp [Bool.and_assoc]

/-- What `store` and `track_executables` record of a path, if it is there. -/
def read (files : Files κ) (path : PathBuf) : Option FilePathWithMTimeCTime :=
  (files.metadata path).map fun metadata => ⟨path, metadata.modified, metadata.created⟩

end FilePathWithMTimeCTime

/-- What `store` records for an installation, while the files stay as they are. -/
def ResolvedRInstallation.recordedTimes {κ : Type} (files : Files κ)
    (installation : ResolvedRInstallation) : List FilePathWithMTimeCTime :=
  sortDedup (installation.trackedFiles.filterMap (FilePathWithMTimeCTime.read files))

/-! ## Cache files -/

/-- `CacheEntry` of `fs_cache.rs`: what a cache file holds. -/
structure CacheFile where
  installation : ResolvedRInstallation
  executables : List FilePathWithMTimeCTime

/-- The cache files, by their paths. -/
abbrev CacheFiles := PathBuf → Option CacheFile

/-- What the cache is built on: the host, the digest, and the probe. -/
structure Resolver (κ : Type) where
  os : Os
  sha256 : String → String
  getInstallationDetails : (PathBuf → Option κ) → PathBuf → Option ResolvedRInstallation

namespace Resolver

variable {κ : Type} (resolver : Resolver κ)

/-- `generate_hash`. -/
def generateHash (executable : PathBuf) : String :=
  String.ofList ((resolver.sha256
    (resolver.os.toStringLossy (resolver.os.normCase executable))).toList.take 16)

/-- `generate_cache_file`. -/
def generateCacheFile (cacheDirectory executable : PathBuf) : PathBuf :=
  cacheDirectory.join (resolver.generateHash executable ++ ".7.json")

/-- `delete_cache_file`. -/
def deleteCacheFile (cacheDirectory executable : PathBuf) (disk : CacheFiles) : CacheFiles :=
  Function.update disk (resolver.generateCacheFile cacheDirectory executable) none

/-- `get_cache_from_file`; an invalid cache file is removed. -/
def getCacheFromFile (files : Files κ) (cacheDirectory executable : PathBuf)
    (disk : CacheFiles) :
    Option (ResolvedRInstallation × List FilePathWithMTimeCTime) × CacheFiles :=
  match disk (resolver.generateCacheFile cacheDirectory executable) with
  | none => (none, disk)
  | some cache =>
    if (cache.installation.knownExecutables.getD []).contains executable then
      if cache.executables.all (·.isValid files) then
        (some (cache.installation, cache.executables), disk)
      else (none, resolver.deleteCacheFile cacheDirectory executable disk)
    else (none, disk)

/-- `store_cache_in_file`, when it succeeds. -/
def storeCacheInFile (cacheDirectory executable : PathBuf)
    (installation : ResolvedRInstallation) (executables : List FilePathWithMTimeCTime)
    (disk : CacheFiles) : CacheFiles :=
  Function.update disk (resolver.generateCacheFile cacheDirectory executable)
    (some ⟨installation, executables⟩)

end Resolver

/-! ## Entries -/

/-- `CacheEntryImpl`. -/
structure CacheEntryImpl where
  cacheDirectory : Option PathBuf
  executable : PathBuf
  installation : Option ResolvedRInstallation
  executables : List FilePathWithMTimeCTime

namespace CacheEntryImpl

variable {κ : Type} (resolver : Resolver κ)

/-- `CacheEntryImpl::create`. -/
def create (cacheDirectory : Option PathBuf) (executable : PathBuf) : CacheEntryImpl :=
  ⟨cacheDirectory, executable, none, []⟩

/-- `verify_in_memory_cache`. -/
def verifyInMemoryCache (files : Files κ) (entry : CacheEntryImpl) (disk : CacheFiles) :
    CacheEntryImpl × CacheFiles :=
  if entry.executables.any (·.changed files) || !files.isFile entry.executable then
    ({ entry with installation := none },
      match entry.cacheDirectory with
      | some cacheDirectory => resolver.deleteCacheFile cacheDirectory entry.executable disk
      | none => disk)
  else (entry, disk)

/-- The part of `CacheEntry::get` for an entry without an installation. -/
def getFromFile (files : Files κ) (entry : CacheEntryImpl) (disk : CacheFiles) :
    Option ResolvedRInstallation × CacheEntryImpl × CacheFiles :=
  match entry.cacheDirectory with
  | none => (none, entry, disk)
  | some cacheDirectory =>
    match resolver.getCacheFromFile files cacheDirectory entry.executable disk with
    | (none, disk) => (none, entry, disk)
    | (some (installation, executables), disk) =>
      (some installation,
        { entry with installation := some installation, executables := executables }, disk)

/-- `CacheEntry::get`. -/
def get (files : Files κ) (entry : CacheEntryImpl) (disk : CacheFiles) :
    Option ResolvedRInstallation × CacheEntryImpl × CacheFiles :=
  let (entry, disk) := entry.verifyInMemoryCache resolver files disk
  match entry.installation with
  | some installation => (some installation, entry, disk)
  | none => entry.getFromFile resolver files disk

/-- The first part of `CacheEntry::store`, once the tracked files are read: in memory. -/
def storeInMemory (entry : CacheEntryImpl) (installation : ResolvedRInstallation)
    (executables : List FilePathWithMTimeCTime) : CacheEntryImpl :=
  { entry with installation := some installation, executables := executables }

/-- The second part of `CacheEntry::store`: in the cache file, if there is a directory. -/
def storeOnDisk (entry : CacheEntryImpl) (installation : ResolvedRInstallation)
    (executables : List FilePathWithMTimeCTime) (disk : CacheFiles) : CacheFiles :=
  match entry.cacheDirectory with
  | some cacheDirectory =>
    resolver.storeCacheInFile cacheDirectory entry.executable installation executables disk
  | none => disk

/-- `CacheEntry::store`, while the files stay as they are. -/
def store (files : Files κ) (entry : CacheEntryImpl) (disk : CacheFiles)
    (installation : ResolvedRInstallation) : CacheEntryImpl × CacheFiles :=
  let executables := installation.recordedTimes files
  (entry.storeInMemory installation executables,
    entry.storeOnDisk resolver installation executables disk)

/-- The paths `track_executables` adds: those not recorded yet that are there. -/
def executablesToTrack (files : Files κ) (entry : CacheEntryImpl)
    (executables : List PathBuf) : List FilePathWithMTimeCTime :=
  let knownExecutables := entry.executables.map (·.path)
  (executables.filter fun path => !knownExecutables.contains path).filterMap
    (FilePathWithMTimeCTime.read files)

/-- `CacheEntry::track_executables`. -/
def trackExecutables (files : Files κ) (entry : CacheEntryImpl) (disk : CacheFiles)
    (executables : List PathBuf) : CacheEntryImpl × CacheFiles :=
  let (entry, disk) := entry.verifyInMemoryCache resolver files disk
  ({ entry with
      executables := entry.executables ++ entry.executablesToTrack files executables }, disk)

end CacheEntryImpl

/-! ## Resolving -/

/-- What a call of `ResolvedRInstallation::from` comes to: its answer, whether the executable
was probed for it, and the entry and the cache files after it. -/
structure FromOutcome where
  answer : Option ResolvedRInstallation
  probed : Bool
  entry : CacheEntryImpl
  disk : CacheFiles

/-- `ResolvedRInstallation::from` on the entry of the executable, while the files stay as they
are. -/
def CacheEntryImpl.resolveFrom {κ : Type} (resolver : Resolver κ) (files : Files κ)
    (entry : CacheEntryImpl) (disk : CacheFiles) : FromOutcome :=
  match entry.get resolver files disk with
  | (some installation, entry, disk) => ⟨some installation, false, entry, disk⟩
  | (none, entry, disk) =>
    match resolver.getInstallationDetails files.contents entry.executable with
    | none => ⟨none, true, entry, disk⟩
    | some installation =>
      let (entry, disk) := entry.store resolver files disk installation
      ⟨some installation, true, entry, disk⟩

end REnvTools.Program
