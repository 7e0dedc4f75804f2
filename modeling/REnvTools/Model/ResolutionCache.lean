import REnvTools.Lib.TaskPool
import REnvTools.Lib.ValidatedMemo
import REnvTools.Program.Cache

/-!
# Concurrent use of the resolution cache

Any number of calls of `ResolvedRInstallation::from`, `add_to_cache`,
`set_cache_directory` and `clear_cache`, and writes of other programs to the files, in any
interleaving of the sections that run under one lock. A call of `from` takes the mutexes
of `cache_dir` and of `locks` one after the other, then holds the mutex of its entry until
it returns; its probe reads the files at one moment, and the tracked files are read one by
one after it.

Beside the state of the program are kept: every directory the cache has had (`dirs`), and
which of the calls that changed it have cleared the map since (`clearedChanges`). A call
of `create_cache` remembers which directory was current when it began, and a call of
`from` what its probe has seen.

SRC: crates/ret-r-utils/src/cache.rs:50-240, fs_cache.rs:33-105, env.rs:50-82
-/

set_option autoImplicit false

namespace REnvTools.Model

open Program Lib

/-! ## State -/

/-- An entry of the cache and its mutex. -/
structure CacheCell where
  entry : CacheEntryImpl
  locked : Bool

/-- `CacheImpl`, the entries handed out, the cache files and the files. -/
structure CacheWorld (κ : Type) where
  cacheDir : Option PathBuf
  locks : Finmap (fun _ : PathBuf => ℕ)
  entries : List CacheCell
  disk : CacheFiles
  files : Files κ
  dirs : List (Option PathBuf)
  clearedChanges : List ℕ

/-- What an entry is asked for. -/
inductive CachePurpose
  | resolve
  | track (executables : List PathBuf)

/-- Where a call is. -/
inductive CacheCall (κ : Type)
  | called (purpose : CachePurpose) (executable : PathBuf)
  | sampled (purpose : CachePurpose) (executable : PathBuf) (cacheDirectory : Option PathBuf)
      (began : ℕ)
  | created (purpose : CachePurpose) (executable : PathBuf) (entry : ℕ)
  | locked (purpose : CachePurpose) (executable : PathBuf) (entry : ℕ)
  | missed (executable : PathBuf) (entry : ℕ)
  | reading (executable : PathBuf) (entry : ℕ) (installation : ResolvedRInstallation)
      (seen : PathBuf → Option κ) (paths : List PathBuf)
      (executables : List FilePathWithMTimeCTime)
  | storing (executable : PathBuf) (entry : ℕ) (installation : ResolvedRInstallation)
      (executables : List FilePathWithMTimeCTime)
  | storingFile (executable : PathBuf) (entry : ℕ) (installation : ResolvedRInstallation)
      (executables : List FilePathWithMTimeCTime)
  | returned (installation : Option ResolvedRInstallation)
  | settingDirectory (cacheDir : PathBuf)
  | replaced (change : ℕ)
  | clearing
  | clearedLocks
  | writing
  | finished

namespace CacheWorld

variable {κ : Type}

/-- The second section of `create_cache`. -/
def createCache (w : CacheWorld κ) (executable : PathBuf) (cacheDirectory : Option PathBuf) :
    CacheWorld κ × ℕ :=
  match w.locks.lookup executable with
  | some entry => (w, entry)
  | none =>
    ({ w with
        locks := w.locks.insert executable w.entries.length
        entries := w.entries ++ [⟨CacheEntryImpl.create cacheDirectory executable, false⟩] },
      w.entries.length)

/-- The entry with its mutex, set. -/
def setCell (w : CacheWorld κ) (entry : ℕ) (cell : CacheCell) : CacheWorld κ :=
  { w with entries := w.entries.set entry cell }

/-- The section of `set_cache_directory` under `cache_dir`, when the directory changes. -/
def replaceDirectory (w : CacheWorld κ) (cacheDir : PathBuf) : CacheWorld κ :=
  { w with cacheDir := some cacheDir, dirs := w.dirs ++ [some cacheDir] }

/-- The section of `set_cache_directory` under `locks`. -/
def clearAfterChange (w : CacheWorld κ) (change : ℕ) : CacheWorld κ :=
  { w with locks := ∅, clearedChanges := w.clearedChanges ++ [change] }

end CacheWorld

/-! ## Steps -/

/-- What `store_cache_in_file` leaves: the cache file, or what was there, or a file that
does not parse. -/
inductive StoreOutcome {κ : Type} (resolver : Resolver κ) (entry : CacheEntryImpl)
    (installation : ResolvedRInstallation) (executables : List FilePathWithMTimeCTime)
    (disk : CacheFiles) : CacheFiles → Prop
  | written : StoreOutcome resolver entry installation executables disk
      (entry.storeOnDisk resolver installation executables disk)
  | unwritten : StoreOutcome resolver entry installation executables disk disk
  | unreadable {cacheDirectory : PathBuf} (h : entry.cacheDirectory = some cacheDirectory) :
      StoreOutcome resolver entry installation executables disk
        (resolver.deleteCacheFile cacheDirectory entry.executable disk)

/-- What `remove_dir_all` leaves of the cache files: it may fail on the way. -/
def RemoveOutcome (cacheDirectory : Option PathBuf) (disk disk' : CacheFiles) : Prop :=
  ∀ path, disk' path = disk path ∨
    disk' path = none ∧ ∃ dir, cacheDirectory = some dir ∧ dir.components <+: path.components

/-- The sections of the calls. -/
inductive CacheStep {κ : Type} (resolver : Resolver κ) :
    CacheWorld κ → CacheCall κ → CacheWorld κ → CacheCall κ → Prop
  | sample {w : CacheWorld κ} {purpose : CachePurpose} {executable : PathBuf} :
      CacheStep resolver w (.called purpose executable) w
        (.sampled purpose executable w.cacheDir (w.dirs.length - 1))
  | create {w : CacheWorld κ} {purpose : CachePurpose} {executable : PathBuf}
      {cacheDirectory : Option PathBuf} {began : ℕ} :
      CacheStep resolver w (.sampled purpose executable cacheDirectory began)
        (w.createCache executable cacheDirectory).1
        (.created purpose executable (w.createCache executable cacheDirectory).2)
  | lock {w : CacheWorld κ} {purpose : CachePurpose} {executable : PathBuf} {r : ℕ}
      {entry : CacheEntryImpl} (hr : w.entries[r]? = some ⟨entry, false⟩) :
      CacheStep resolver w (.created purpose executable r) (w.setCell r ⟨entry, true⟩)
        (.locked purpose executable r)
  | hit {w : CacheWorld κ} {executable : PathBuf} {r : ℕ} {cell : CacheCell}
      {installation : ResolvedRInstallation} {entry : CacheEntryImpl} {disk : CacheFiles}
      (hr : w.entries[r]? = some cell)
      (h : cell.entry.get resolver w.files w.disk = (some installation, entry, disk)) :
      CacheStep resolver w (.locked .resolve executable r)
        { w.setCell r ⟨entry, false⟩ with disk := disk } (.returned (some installation))
  | miss {w : CacheWorld κ} {executable : PathBuf} {r : ℕ} {cell : CacheCell}
      {entry : CacheEntryImpl} {disk : CacheFiles}
      (hr : w.entries[r]? = some cell)
      (h : cell.entry.get resolver w.files w.disk = (none, entry, disk)) :
      CacheStep resolver w (.locked .resolve executable r)
        { w.setCell r ⟨entry, true⟩ with disk := disk } (.missed executable r)
  | unresolved {w : CacheWorld κ} {executable : PathBuf} {r : ℕ} {cell : CacheCell}
      (hr : w.entries[r]? = some cell)
      (h : resolver.getInstallationDetails w.files.contents executable = none) :
      CacheStep resolver w (.missed executable r) (w.setCell r ⟨cell.entry, false⟩)
        (.returned none)
  | probe {w : CacheWorld κ} {executable : PathBuf} {r : ℕ}
      {installation : ResolvedRInstallation}
      (h : resolver.getInstallationDetails w.files.contents executable = some installation) :
      CacheStep resolver w (.missed executable r) w
        (.reading executable r installation w.files.contents installation.trackedFiles [])
  | read {w : CacheWorld κ} {executable path : PathBuf} {r : ℕ}
      {installation : ResolvedRInstallation} {seen : PathBuf → Option κ}
      {paths : List PathBuf} {executables : List FilePathWithMTimeCTime} :
      CacheStep resolver w
        (.reading executable r installation seen (path :: paths) executables) w
        (.reading executable r installation seen paths
          (executables ++ (FilePathWithMTimeCTime.read w.files path).toList))
  | sort {w : CacheWorld κ} {executable : PathBuf} {r : ℕ}
      {installation : ResolvedRInstallation} {seen : PathBuf → Option κ}
      {executables : List FilePathWithMTimeCTime} :
      CacheStep resolver w (.reading executable r installation seen [] executables) w
        (.storing executable r installation (sortDedup executables))
  | storeInMemory {w : CacheWorld κ} {executable : PathBuf} {r : ℕ}
      {installation : ResolvedRInstallation} {executables : List FilePathWithMTimeCTime}
      {cell : CacheCell} (hr : w.entries[r]? = some cell) :
      CacheStep resolver w (.storing executable r installation executables)
        (w.setCell r ⟨cell.entry.storeInMemory installation executables, true⟩)
        (.storingFile executable r installation executables)
  | storeOnDisk {w : CacheWorld κ} {executable : PathBuf} {r : ℕ}
      {installation : ResolvedRInstallation} {executables : List FilePathWithMTimeCTime}
      {cell : CacheCell} {disk : CacheFiles} (hr : w.entries[r]? = some cell)
      (h : StoreOutcome resolver cell.entry installation executables w.disk disk) :
      CacheStep resolver w (.storingFile executable r installation executables)
        { w.setCell r ⟨cell.entry, false⟩ with disk := disk } (.returned (some installation))
  | track {w : CacheWorld κ} {executable : PathBuf} {r : ℕ} {paths : List PathBuf}
      {cell : CacheCell} (hr : w.entries[r]? = some cell) :
      CacheStep resolver w (.locked (.track paths) executable r)
        { w.setCell r
            ⟨(cell.entry.trackExecutables resolver w.files w.disk paths).1, false⟩ with
          disk := (cell.entry.trackExecutables resolver w.files w.disk paths).2 }
        .finished
  | unchanged {w : CacheWorld κ} {cacheDir : PathBuf} (h : w.cacheDir = some cacheDir) :
      CacheStep resolver w (.settingDirectory cacheDir) w .finished
  | replace {w : CacheWorld κ} {cacheDir : PathBuf} (h : w.cacheDir ≠ some cacheDir) :
      CacheStep resolver w (.settingDirectory cacheDir) (w.replaceDirectory cacheDir)
        (.replaced w.dirs.length)
  | clearAfterChange {w : CacheWorld κ} {change : ℕ} :
      CacheStep resolver w (.replaced change) (w.clearAfterChange change) .finished
  | clearLocks {w : CacheWorld κ} :
      CacheStep resolver w .clearing { w with locks := ∅ } .clearedLocks
  | removeDirectory {w : CacheWorld κ} {disk : CacheFiles}
      (h : RemoveOutcome w.cacheDir w.disk disk) :
      CacheStep resolver w .clearedLocks { w with disk := disk } .finished
  | write {w : CacheWorld κ} {files : Files κ}
      (h : ValidatedMemo.Advances FileState.modified w.files files) :
      CacheStep resolver w .writing { w with files := files } .finished

/-- How calls start. -/
inductive CacheArrival {κ : Type} : CacheCall κ → Prop
  | resolve (executable : PathBuf) : CacheArrival (.called .resolve executable)
  | addToCache {resolved : ResolvedRInstallation} {installation : RInstallation}
      (h : resolved.accepts installation = true) :
      CacheArrival (.called (.track (installation.knownExecutables.getD []))
        resolved.executable)
  | setCacheDirectory (cacheDir : PathBuf) : CacheArrival (.settingDirectory cacheDir)
  | clearCache : CacheArrival .clearing
  | write : CacheArrival .writing

/-- Any number of calls in any interleaving, from an empty cache. -/
def resolutionCache {κ : Type} (resolver : Resolver κ) :
    TaskSystem (CacheWorld κ) (CacheCall κ) Unit where
  init w := w.locks = ∅ ∧ w.entries = [] ∧ w.disk = (fun _ => none) ∧
    w.dirs = [w.cacheDir] ∧ w.clearedChanges = []
  spawn _ := CacheArrival
  step _ w call _ w' call' := CacheStep resolver w call w' call'

/-- The cache and the calls. -/
abbrev CacheState (κ : Type) := TaskSystem.State (CacheWorld κ) (CacheCall κ)

end REnvTools.Model
