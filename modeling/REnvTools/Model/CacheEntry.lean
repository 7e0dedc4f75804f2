import REnvTools.Lib.Machine
import REnvTools.Program.Cache

/-!
# One entry of the resolution cache

The operations of one `CacheEntryImpl` one after the other, with any change of the files
between them. The entry may be replaced by a new one for the same executable and directory,
as after a restart. Nothing else writes the cache file, and writing and removing it
succeed. Kept beside the state is the history: what was stored and what `get` answered, with
the files as they were at the time.

SRC: crates/ret-r-utils/src/cache.rs:128-270
-/

set_option autoImplicit false

namespace REnvTools.Model

open Program Lib

variable {κ : Type}

/-- What is done with the entry, and to the files. -/
inductive EntryOperation (κ : Type)
  | store (installation : ResolvedRInstallation)
  | get
  | trackExecutables (executables : List PathBuf)
  | replace
  | modify (files : Files κ)

/-- What has happened to the entry. -/
inductive EntryEvent (κ : Type)
  | stored (files : Files κ) (installation : ResolvedRInstallation)
  | got (files : Files κ) (answer : Option ResolvedRInstallation)
  | tracked
  | replaced
  | modified

/-- The files, the entry and the cache files; the history has the latest event first. -/
structure EntryRun (κ : Type) where
  files : Files κ
  entry : CacheEntryImpl
  disk : CacheFiles
  history : List (EntryEvent κ)

/-- One operation. -/
def EntryRun.perform (resolver : Resolver κ) (s : EntryRun κ) : EntryOperation κ → EntryRun κ
  | .store installation =>
    let (entry, disk) := s.entry.store resolver s.files s.disk installation
    ⟨s.files, entry, disk, .stored s.files installation :: s.history⟩
  | .get =>
    let (answer, entry, disk) := s.entry.get resolver s.files s.disk
    ⟨s.files, entry, disk, .got s.files answer :: s.history⟩
  | .trackExecutables executables =>
    let (entry, disk) := s.entry.trackExecutables resolver s.files s.disk executables
    ⟨s.files, entry, disk, .tracked :: s.history⟩
  | .replace =>
    { s with
      entry := CacheEntryImpl.create s.entry.cacheDirectory s.entry.executable
      history := .replaced :: s.history }
  | .modify files => { s with files := files, history := .modified :: s.history }

/-- Any sequence of operations on a new entry that has no cache file yet. -/
def cacheEntry (resolver : Resolver κ) (cacheDirectory : Option PathBuf) (executable : PathBuf) :
    Machine (EntryRun κ) (EntryOperation κ) where
  init s := s.entry = CacheEntryImpl.create cacheDirectory executable ∧ s.history = [] ∧
    ∀ dir ∈ cacheDirectory, s.disk (resolver.generateCacheFile dir executable) = none
  step s operation s' := s' = s.perform resolver operation

end REnvTools.Model
