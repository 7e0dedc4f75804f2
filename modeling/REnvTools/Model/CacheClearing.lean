import REnvTools.Lib.TaskPool
import REnvTools.Program.Cache

/-!
# Clearing the resolution cache

Any number of calls of `CacheImpl::clear`, and of threads that call `create_cache` and then
`get` and `store` on the entry they are handed, in any interleaving. A step is a section under
one mutex, or one operation on the file system: removing the directory is as many steps as it
has files, and a cache file is opened and written in two. The configured directory does not
change.

What is kept beside the state of the program is history. The calls of `clear` are numbered as
they begin; `cleared` are those that have dropped the map and `returned` those that are over.
An installation has a `stamp`: how many calls of `clear` had begun when it was stored. An entry
knows which calls had dropped the map `since` it was made, and a thread which had returned
when it called `create_cache`.

SRC: crates/ret-r-utils/src/cache.rs:49-232, fs_cache.rs:26-128
-/

set_option autoImplicit false

namespace REnvTools.Program.CacheEntryImpl

variable {κ : Type}

/-- What `verify_in_memory_cache` looks for: a tracked file has changed, or the executable is
not a file any more. -/
def outdated (files : Files κ) (entry : CacheEntryImpl) : Bool :=
  entry.executables.any (·.changed files) || !files.isFile entry.executable

/-- `verify_in_memory_cache` does nothing unless the entry is outdated. -/
theorem verifyInMemoryCache_eq (resolver : Resolver κ) (files : Files κ) (entry : CacheEntryImpl)
    (disk : CacheFiles) :
    entry.verifyInMemoryCache resolver files disk =
      if entry.outdated files then
        ({ entry with installation := none },
          match entry.cacheDirectory with
          | some cacheDirectory => resolver.deleteCacheFile cacheDirectory entry.executable disk
          | none => disk)
      else (entry, disk) := by
  rfl

end REnvTools.Program.CacheEntryImpl

namespace REnvTools.Model

open Program Lib

/-! ## State -/

/-- A file in the cache directory: which file it is, and what it holds, if that parses. -/
structure DiskFile where
  inode : ℕ
  contents : Option CacheFile
  stamp : ℕ

/-- An entry of the cache and its mutex. -/
structure ClearingCell where
  entry : CacheEntryImpl
  locked : Bool
  stamp : ℕ
  since : List ℕ

/-- `CacheImpl` with the mutex of `cache_dir`, the entries handed out, the cache directory and
the tracked files. -/
structure ClearingWorld (κ : Type) where
  cacheDir : Option PathBuf
  cacheDirLocked : Bool
  locks : Finmap (fun _ : PathBuf => ℕ)
  entries : List ClearingCell
  directory : Bool
  disk : PathBuf → Option DiskFile
  nextInode : ℕ
  files : Files κ
  begun : ℕ
  cleared : List ℕ
  returned : List ℕ

/-- What `clear` returns; `remove_dir_all` fails if there is no directory, and if files are
made in it meanwhile. -/
inductive ClearResult
  | ok
  | notFound
  | directoryNotEmpty

/-- Where a call is. -/
inductive ClearingCall
  | creating (executable : PathBuf) (after : List ℕ)
  | sampled (executable : PathBuf) (cacheDirectory : Option PathBuf) (after : List ℕ)
  | holding (entry : ℕ) (after : List ℕ)
  | locked (entry : ℕ) (after : List ℕ)
  | invalidated (entry : ℕ) (after : List ℕ)
  | missed (entry : ℕ) (after : List ℕ)
  | discarding (entry : ℕ) (after : List ℕ) (cacheFile : PathBuf)
  | loaded (entry : ℕ) (after : List ℕ) (cache : CacheFile) (stamp : ℕ)
  | got (entry : ℕ) (after : List ℕ) (result : Option (ResolvedRInstallation × ℕ))
  | storing (entry : ℕ) (after : List ℕ) (cacheFile : PathBuf) (cache : CacheFile) (stamp : ℕ)
  | opening (entry : ℕ) (after : List ℕ) (cacheFile : PathBuf) (cache : CacheFile) (stamp : ℕ)
  | writing (entry : ℕ) (after : List ℕ) (cacheFile : PathBuf) (inode : ℕ) (cache : CacheFile)
      (stamp : ℕ)
  | clearing
  | begun (clear : ℕ)
  | clearedLocks (clear : ℕ)
  | removing (clear : ℕ) (rest : List PathBuf)
  | finished (clear : ℕ) (result : ClearResult)
  | changing
  | changed

namespace ClearingWorld

variable {κ : Type}

/-- The cache files that can be read. -/
def readable (w : ClearingWorld κ) : CacheFiles := fun path => (w.disk path).bind (·.contents)

/-- The entry with its mutex, set. -/
def setCell (w : ClearingWorld κ) (r : ℕ) (cell : ClearingCell) : ClearingWorld κ :=
  { w with entries := w.entries.set r cell }

/-- What is at a path of the cache directory, set. -/
def setFile (w : ClearingWorld κ) (path : PathBuf) (file : Option DiskFile) : ClearingWorld κ :=
  { w with disk := Function.update w.disk path file }

/-- The second section of `create_cache`. -/
def createCache (w : ClearingWorld κ) (executable : PathBuf) (cacheDirectory : Option PathBuf) :
    ClearingWorld κ × ℕ :=
  match w.locks.lookup executable with
  | some r => (w, r)
  | none =>
    ({ w with
        locks := w.locks.insert executable w.entries.length
        entries := w.entries ++
          [⟨CacheEntryImpl.create cacheDirectory executable, false, 0, w.cleared⟩] },
      w.entries.length)

/-- The call of `clear` is over. -/
def finishClear (w : ClearingWorld κ) (clear : ℕ) : ClearingWorld κ :=
  { w with cacheDirLocked := false, returned := w.returned ++ [clear] }

end ClearingWorld

/-! ## Steps -/

/-- The steps of the calls. -/
inductive ClearingStep {κ : Type} (resolver : Resolver κ) :
    ClearingWorld κ → ClearingCall → ClearingWorld κ → ClearingCall → Prop
  | sample {w : ClearingWorld κ} {executable : PathBuf} {after : List ℕ}
      (hfree : w.cacheDirLocked = false) :
      ClearingStep resolver w (.creating executable after) w
        (.sampled executable w.cacheDir after)
  | create {w : ClearingWorld κ} {executable : PathBuf} {cacheDirectory : Option PathBuf}
      {after : List ℕ} :
      ClearingStep resolver w (.sampled executable cacheDirectory after)
        (w.createCache executable cacheDirectory).1
        (.holding (w.createCache executable cacheDirectory).2 after)
  | lock {w : ClearingWorld κ} {r : ℕ} {after : List ℕ} {cell : ClearingCell}
      (hr : w.entries[r]? = some cell) (hfree : cell.locked = false) :
      ClearingStep resolver w (.holding r after) (w.setCell r { cell with locked := true })
        (.locked r after)
  | unlock {w : ClearingWorld κ} {r : ℕ} {after : List ℕ} {cell : ClearingCell}
      (hr : w.entries[r]? = some cell) :
      ClearingStep resolver w (.locked r after) (w.setCell r { cell with locked := false })
        (.holding r after)
  /-- `get`: the installation in memory is valid. -/
  | hit {w : ClearingWorld κ} {r : ℕ} {after : List ℕ} {cell : ClearingCell}
      {installation : ResolvedRInstallation} (hr : w.entries[r]? = some cell)
      (hvalid : cell.entry.outdated w.files = false)
      (h : cell.entry.installation = some installation) :
      ClearingStep resolver w (.locked r after) w
        (.got r after (some (installation, cell.stamp)))
  | miss {w : ClearingWorld κ} {r : ℕ} {after : List ℕ} {cell : ClearingCell}
      (hr : w.entries[r]? = some cell) (hvalid : cell.entry.outdated w.files = false)
      (h : cell.entry.installation = none) :
      ClearingStep resolver w (.locked r after) w (.missed r after)
  | invalidate {w : ClearingWorld κ} {r : ℕ} {after : List ℕ} {cell : ClearingCell}
      (hr : w.entries[r]? = some cell) (houtdated : cell.entry.outdated w.files = true) :
      ClearingStep resolver w (.locked r after)
        (w.setCell r { cell with entry := { cell.entry with installation := none } })
        (.invalidated r after)
  | deleteCacheFile {w : ClearingWorld κ} {r : ℕ} {after : List ℕ} {cell : ClearingCell}
      {cacheDirectory : PathBuf} (hr : w.entries[r]? = some cell)
      (hdir : cell.entry.cacheDirectory = some cacheDirectory) :
      ClearingStep resolver w (.invalidated r after)
        (w.setFile (resolver.generateCacheFile cacheDirectory cell.entry.executable) none)
        (.missed r after)
  | noCacheFile {w : ClearingWorld κ} {r : ℕ} {after : List ℕ} {cell : ClearingCell}
      (hr : w.entries[r]? = some cell) (hdir : cell.entry.cacheDirectory = none) :
      ClearingStep resolver w (.invalidated r after) w (.missed r after)
  | noDirectory {w : ClearingWorld κ} {r : ℕ} {after : List ℕ} {cell : ClearingCell}
      (hr : w.entries[r]? = some cell) (hdir : cell.entry.cacheDirectory = none) :
      ClearingStep resolver w (.missed r after) w (.got r after none)
  /-- There is no cache file, or it does not parse or is not about the executable. -/
  | absent {w : ClearingWorld κ} {r : ℕ} {after : List ℕ} {cell : ClearingCell}
      {cacheDirectory : PathBuf} (hr : w.entries[r]? = some cell)
      (hdir : cell.entry.cacheDirectory = some cacheDirectory)
      (h : resolver.getCacheFromFile w.files cacheDirectory cell.entry.executable w.readable =
        (none, w.readable)) :
      ClearingStep resolver w (.missed r after) w (.got r after none)
  | discard {w : ClearingWorld κ} {r : ℕ} {after : List ℕ} {cell : ClearingCell}
      {cacheDirectory : PathBuf} {file : DiskFile} {cache : CacheFile}
      (hr : w.entries[r]? = some cell)
      (hdir : cell.entry.cacheDirectory = some cacheDirectory)
      (hfile : w.disk (resolver.generateCacheFile cacheDirectory cell.entry.executable) =
        some file) (hcontents : file.contents = some cache)
      (h : resolver.getCacheFromFile w.files cacheDirectory cell.entry.executable w.readable =
        (none, resolver.deleteCacheFile cacheDirectory cell.entry.executable w.readable)) :
      ClearingStep resolver w (.missed r after) w (.discarding r after
        (resolver.generateCacheFile cacheDirectory cell.entry.executable))
  | removeInvalid {w : ClearingWorld κ} {r : ℕ} {after : List ℕ} {cacheFile : PathBuf} :
      ClearingStep resolver w (.discarding r after cacheFile) (w.setFile cacheFile none)
        (.got r after none)
  | load {w : ClearingWorld κ} {r : ℕ} {after : List ℕ} {cell : ClearingCell}
      {cacheDirectory : PathBuf} {file : DiskFile} {cache : CacheFile}
      (hr : w.entries[r]? = some cell)
      (hdir : cell.entry.cacheDirectory = some cacheDirectory)
      (hfile : w.disk (resolver.generateCacheFile cacheDirectory cell.entry.executable) =
        some file)
      (h : resolver.getCacheFromFile w.files cacheDirectory cell.entry.executable w.readable =
        (some (cache.installation, cache.executables), w.readable)) :
      ClearingStep resolver w (.missed r after) w (.loaded r after cache file.stamp)
  | remember {w : ClearingWorld κ} {r : ℕ} {after : List ℕ} {cell : ClearingCell}
      {cache : CacheFile} {stamp : ℕ} (hr : w.entries[r]? = some cell) :
      ClearingStep resolver w (.loaded r after cache stamp)
        (w.setCell r { cell with
          entry := cell.entry.storeInMemory cache.installation cache.executables
          stamp := stamp })
        (.got r after (some (cache.installation, stamp)))
  | return {w : ClearingWorld κ} {r : ℕ} {after : List ℕ}
      {result : Option (ResolvedRInstallation × ℕ)} :
      ClearingStep resolver w (.got r after result) w (.locked r after)
  /-- `store`, whose tracked files were read at whatever moments: the part in memory. -/
  | store {w : ClearingWorld κ} {r : ℕ} {after : List ℕ} {cell : ClearingCell}
      {cacheDirectory : PathBuf} (hr : w.entries[r]? = some cell)
      (hdir : cell.entry.cacheDirectory = some cacheDirectory) (cache : CacheFile) :
      ClearingStep resolver w (.locked r after)
        (w.setCell r { cell with
          entry := cell.entry.storeInMemory cache.installation cache.executables
          stamp := w.begun })
        (.storing r after
          (resolver.generateCacheFile cacheDirectory cell.entry.executable) cache w.begun)
  | storeInMemory {w : ClearingWorld κ} {r : ℕ} {after : List ℕ} {cell : ClearingCell}
      (hr : w.entries[r]? = some cell) (hdir : cell.entry.cacheDirectory = none)
      (cache : CacheFile) :
      ClearingStep resolver w (.locked r after)
        (w.setCell r { cell with
          entry := cell.entry.storeInMemory cache.installation cache.executables
          stamp := w.begun })
        (.locked r after)
  | createDirAll {w : ClearingWorld κ} {r : ℕ} {after : List ℕ} {cacheFile : PathBuf}
      {cache : CacheFile} {stamp : ℕ} :
      ClearingStep resolver w (.storing r after cacheFile cache stamp)
        { w with directory := true } (.opening r after cacheFile cache stamp)
  | openNew {w : ClearingWorld κ} {r : ℕ} {after : List ℕ} {cacheFile : PathBuf}
      {cache : CacheFile} {stamp : ℕ} (hdirectory : w.directory = true)
      (h : w.disk cacheFile = none) :
      ClearingStep resolver w (.opening r after cacheFile cache stamp)
        { w.setFile cacheFile (some ⟨w.nextInode, none, 0⟩) with nextInode := w.nextInode + 1 }
        (.writing r after cacheFile w.nextInode cache stamp)
  | openExisting {w : ClearingWorld κ} {r : ℕ} {after : List ℕ} {cacheFile : PathBuf}
      {cache : CacheFile} {stamp : ℕ} {file : DiskFile} (h : w.disk cacheFile = some file) :
      ClearingStep resolver w (.opening r after cacheFile cache stamp)
        (w.setFile cacheFile (some { file with contents := none }))
        (.writing r after cacheFile file.inode cache stamp)
  | write {w : ClearingWorld κ} {r : ℕ} {after : List ℕ} {cacheFile : PathBuf} {inode : ℕ}
      {cache : CacheFile} {stamp : ℕ} {file : DiskFile} (h : w.disk cacheFile = some file)
      (hinode : file.inode = inode) :
      ClearingStep resolver w (.writing r after cacheFile inode cache stamp)
        (w.setFile cacheFile (some ⟨inode, some cache, stamp⟩)) (.locked r after)
  /-- The directory or the file cannot be made or written, or the file is removed already. -/
  | storeFails {w : ClearingWorld κ} {call : ClearingCall} {r : ℕ} {after : List ℕ}
      {cacheFile : PathBuf} {cache : CacheFile} {stamp : ℕ}
      (h : call = .storing r after cacheFile cache stamp ∨
        call = .opening r after cacheFile cache stamp ∨
        ∃ inode, call = .writing r after cacheFile inode cache stamp) :
      ClearingStep resolver w call w (.locked r after)
  | begin {w : ClearingWorld κ} :
      ClearingStep resolver w .clearing { w with begun := w.begun + 1 } (.begun (w.begun + 1))
  | clearLocks {w : ClearingWorld κ} {clear : ℕ} :
      ClearingStep resolver w (.begun clear)
        { w with locks := ∅, cleared := w.cleared ++ [clear] } (.clearedLocks clear)
  | notConfigured {w : ClearingWorld κ} {clear : ℕ} (hfree : w.cacheDirLocked = false)
      (h : w.cacheDir = none) :
      ClearingStep resolver w (.clearedLocks clear) (w.finishClear clear) (.finished clear .ok)
  | notFound {w : ClearingWorld κ} {clear : ℕ} (hfree : w.cacheDirLocked = false)
      (h : w.cacheDir ≠ none) (hdirectory : w.directory = false) :
      ClearingStep resolver w (.clearedLocks clear) (w.finishClear clear)
        (.finished clear .notFound)
  /-- `remove_dir_all` lists what there is in the directory. -/
  | startRemoval {w : ClearingWorld κ} {clear : ℕ} {rest : List PathBuf}
      (hfree : w.cacheDirLocked = false) (h : w.cacheDir ≠ none)
      (hdirectory : w.directory = true) (hrest : ∀ path, w.disk path ≠ none → path ∈ rest) :
      ClearingStep resolver w (.clearedLocks clear) { w with cacheDirLocked := true }
        (.removing clear rest)
  | unlink {w : ClearingWorld κ} {clear : ℕ} {path : PathBuf} {rest : List PathBuf} :
      ClearingStep resolver w (.removing clear (path :: rest)) (w.setFile path none)
        (.removing clear rest)
  | removeDir {w : ClearingWorld κ} {clear : ℕ} (h : ∀ path, w.disk path = none) :
      ClearingStep resolver w (.removing clear [])
        { w.finishClear clear with directory := false } (.finished clear .ok)
  | notEmpty {w : ClearingWorld κ} {clear : ℕ} {path : PathBuf} (h : w.disk path ≠ none) :
      ClearingStep resolver w (.removing clear []) (w.finishClear clear)
        (.finished clear .directoryNotEmpty)
  /-- Another program changes the tracked files. -/
  | change {w : ClearingWorld κ} {files : Files κ} :
      ClearingStep resolver w .changing { w with files := files } .changed

/-- How calls start; a thread notes which calls of `clear` have returned. -/
inductive ClearingArrival {κ : Type} (w : ClearingWorld κ) : ClearingCall → Prop
  | createCache (executable : PathBuf) : ClearingArrival w (.creating executable w.returned)
  | clear : ClearingArrival w .clearing
  | change : ClearingArrival w .changing

/-- Nothing is cached in memory, and nothing was stored since the process started; the
directory may exist, with whatever files, if it is configured. -/
structure ClearingWorld.Initial {κ : Type} (w : ClearingWorld κ) : Prop where
  cacheDirLocked : w.cacheDirLocked = false
  locks : w.locks = ∅
  entries : w.entries = []
  disk : ∀ path file, w.disk path = some file →
    w.cacheDir ≠ none ∧ file.stamp = 0 ∧ file.inode < w.nextInode
  begun : w.begun = 0
  cleared : w.cleared = []
  returned : w.returned = []

/-- Any number of calls in any interleaving. -/
def cacheClearing {κ : Type} (resolver : Resolver κ) :
    TaskSystem (ClearingWorld κ) ClearingCall Unit where
  init := ClearingWorld.Initial
  spawn := ClearingArrival
  step _ w call _ w' call' := ClearingStep resolver w call w' call'

/-- The cache and the calls. -/
abbrev ClearingState (κ : Type) := TaskSystem.State (ClearingWorld κ) ClearingCall

end REnvTools.Model
