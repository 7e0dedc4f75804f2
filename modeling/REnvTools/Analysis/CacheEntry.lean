import REnvTools.Analysis.CacheDirectory
import REnvTools.Model.CacheEntry

/-!
# What an entry of the resolution cache answers

The entry has two layers, its memory and the cache file. After a store both hold what was
stored or nothing (`HoldsStored`); after a `get` that answered nothing, neither has an
answer left (`Silent`). Which of the two it is can be read off the history (`standing`), and
every operation keeps it so.
-/

set_option autoImplicit false

namespace REnvTools.Analysis

open Program Lib Model

variable {κ : Type} {resolver : Resolver κ} {files : Files κ} {entry : CacheEntryImpl}
  {disk : CacheFiles} {installation : ResolvedRInstallation}
  {recorded : List FilePathWithMTimeCTime}

/-! ## The two layers -/

/-- The entry has nothing to answer with. -/
structure Silent (resolver : Resolver κ) (entry : CacheEntryImpl) (disk : CacheFiles) :
    Prop where
  memory : entry.installation = none
  file : ∀ dir cache, entry.cacheDirectory = some dir →
    disk (resolver.generateCacheFile dir entry.executable) = some cache →
      entry.executable ∉ cache.installation.knownExecutables.getD []

/-- The entry has one installation to answer with, and its recorded times, if it has any. -/
structure HoldsStored (resolver : Resolver κ) (entry : CacheEntryImpl) (disk : CacheFiles)
    (installation : ResolvedRInstallation) (recorded : List FilePathWithMTimeCTime) :
    Prop where
  memory : ∀ held, entry.installation = some held →
    held = installation ∧ recorded ⊆ entry.executables
  file : ∀ dir cache, entry.cacheDirectory = some dir →
    disk (resolver.generateCacheFile dir entry.executable) = some cache →
      cache = ⟨installation, recorded⟩

/-- The entry is for the executable and the directory. -/
def IsFor (cacheDirectory : Option PathBuf) (executable : PathBuf) (entry : CacheEntryImpl) :
    Prop :=
  entry.cacheDirectory = cacheDirectory ∧ entry.executable = executable

/-! ## What the operations keep -/

/-- An entry that returns nothing returns nothing after tracking executables. -/
theorem Silent.track (h : Silent resolver entry disk) (files : Files κ) (paths : List PathBuf) :
    Silent resolver (entry.trackExecutables resolver files disk paths).1
      (entry.trackExecutables resolver files disk paths).2 := by
  obtain ⟨installation, disk', hshrinks, hinstallation, htrack⟩ :=
    trackExecutables_cases resolver files entry disk paths
  rw [htrack]
  refine ⟨?_, fun dir cache hdir hcache => h.file dir cache hdir (hshrinks _ cache hcache)⟩
  exact hinstallation.elim (fun hsame => hsame.trans h.memory) id

/-- An entry that holds what was stored holds it after tracking executables. -/
theorem HoldsStored.track (h : HoldsStored resolver entry disk installation recorded)
    (files : Files κ) (paths : List PathBuf) :
    HoldsStored resolver (entry.trackExecutables resolver files disk paths).1
      (entry.trackExecutables resolver files disk paths).2 installation recorded := by
  obtain ⟨installation', disk', hshrinks, hinstallation, htrack⟩ :=
    trackExecutables_cases resolver files entry disk paths
  rw [htrack]
  refine ⟨fun held hheld => ?_,
    fun dir cache hdir hcache => h.file dir cache hdir (hshrinks _ cache hcache)⟩
  change installation' = some held at hheld
  rcases hinstallation with hsame | hnone
  · obtain ⟨heq, hsubset⟩ := h.memory held (hsame ▸ hheld)
    exact ⟨heq, List.subset_append_of_subset_left _ hsubset⟩
  · rw [hnone] at hheld
    cases hheld

/-- An entry that returns nothing remains so when it is asked. -/
theorem Silent.get (h : Silent resolver entry disk) (files : Files κ) :
    ∃ disk', entry.get resolver files disk = (none, { entry with installation := none }, disk') ∧
      Silent resolver { entry with installation := none } disk' := by
  rcases get_cases resolver files entry disk with
    ⟨answer, hmemory, -⟩ | ⟨dir, cache, hdir, hcache, hknown, -⟩ | ⟨disk', -, hsilent, hget⟩
  · rw [h.memory] at hmemory
    cases hmemory
  · exact absurd hknown (h.file dir cache hdir hcache)
  · exact ⟨disk', hget, rfl, hsilent⟩

/-- What is stored is answered while it is valid, and after that nothing is. -/
theorem HoldsStored.get (h : HoldsStored resolver entry disk installation recorded)
    (files : Files κ) :
    (∃ entry', entry.get resolver files disk = (some installation, entry', disk) ∧
      files.isFile entry.executable = true ∧ (∀ x ∈ recorded, x.isValid files = true) ∧
      entry'.cacheDirectory = entry.cacheDirectory ∧ entry'.executable = entry.executable ∧
      HoldsStored resolver entry' disk installation recorded) ∨
    ∃ disk', entry.get resolver files disk = (none, { entry with installation := none }, disk') ∧
      Silent resolver { entry with installation := none } disk' := by
  rcases get_cases resolver files entry disk with
    ⟨answer, hmemory, hfile, hvalid, hget⟩ | ⟨dir, cache, hdir, hcache, -, hfile, hvalid, hget⟩ |
    ⟨disk', -, hsilent, hget⟩
  · obtain ⟨heq, hsubset⟩ := h.memory answer hmemory
    rw [heq] at hget
    exact .inl ⟨entry, hget, hfile, fun x hx => hvalid x (hsubset hx), rfl, rfl, h⟩
  · have hheld := h.file dir cache hdir hcache
    rw [hheld] at hvalid hget
    refine .inl ⟨_, hget, hfile, hvalid, rfl, rfl, fun held hheld => ?_, h.file⟩
    cases hheld
    exact ⟨rfl, List.Subset.refl _⟩
  · exact .inr ⟨disk', hget, rfl, hsilent⟩

/-- After a store the entry holds what was stored. -/
theorem holdsStored_store (resolver : Resolver κ) (files : Files κ) (entry : CacheEntryImpl)
    (disk : CacheFiles) (installation : ResolvedRInstallation) :
    HoldsStored resolver (entry.store resolver files disk installation).1
      (entry.store resolver files disk installation).2 installation
      (installation.recordedTimes files) := by
  refine ⟨fun held hheld => ?_, fun dir cache hdir hcache => ?_⟩
  · cases hheld
    exact ⟨rfl, List.Subset.refl _⟩
  · change entry.cacheDirectory = some dir at hdir
    change entry.storeOnDisk resolver installation _ disk
      (resolver.generateCacheFile dir entry.executable) = some cache at hcache
    simp only [CacheEntryImpl.storeOnDisk, hdir, Resolver.storeCacheInFile, Function.update_self,
      Option.some.injEq] at hcache
    exact hcache.symm

/-! ## The history -/

/-- What the entry may answer with after a history: the latest installation stored and its
recorded times, unless a `get` has answered nothing since. -/
def standing : List (EntryEvent κ) →
    Option (ResolvedRInstallation × List FilePathWithMTimeCTime)
  | [] => none
  | .stored files installation :: _ => some (installation, installation.recordedTimes files)
  | .got _ none :: _ => none
  | .got _ (some _) :: history | .tracked :: history | .replaced :: history
  | .modified :: history => standing history

/-- The file is as it was recorded. -/
def StillAsRecorded (files : Files κ) (x : FilePathWithMTimeCTime) : Prop :=
  ∃ metadata, files.metadata x.path = some metadata ∧ metadata.isFile = true ∧
    metadata.modified = x.modified ∧
      ∀ created, x.created = some created → metadata.created = some created

/-- INTERNAL: a valid record is that of a file that is as it was. -/
theorem stillAsRecorded_of_isValid {x : FilePathWithMTimeCTime} (h : x.isValid files = true) :
    StillAsRecorded files x := by
  unfold FilePathWithMTimeCTime.isValid at h
  cases hmetadata : files.metadata x.path with
  | none =>
    rw [hmetadata] at h
    cases h
  | some metadata =>
    rw [hmetadata] at h
    simp only [Bool.and_eq_true, decide_eq_true_eq] at h
    obtain ⟨⟨hfile, hmodified⟩, hcreated⟩ := h
    refine ⟨metadata, hmetadata, hfile, hmodified, fun created hsome => ?_⟩
    rw [hsome] at hcreated
    simpa using hcreated

/-- The answer is what the history before it lets stand, and found as it was recorded. -/
def AnswerStands (executable : PathBuf) (files : Files κ) (installation : ResolvedRInstallation)
    (before : List (EntryEvent κ)) : Prop :=
  files.isFile executable = true ∧ ∃ recorded, standing before = some (installation, recorded) ∧
    ∀ x ∈ recorded, StillAsRecorded files x

/-- The invariant: the entry holds what stands, and every answer stood when it was given. -/
structure EntryFits (resolver : Resolver κ) (cacheDirectory : Option PathBuf)
    (executable : PathBuf) (s : EntryRun κ) : Prop where
  isFor : IsFor cacheDirectory executable s.entry
  holds : ∀ installation recorded, standing s.history = some (installation, recorded) →
    HoldsStored resolver s.entry s.disk installation recorded
  silent : standing s.history = none → Silent resolver s.entry s.disk
  answers : ∀ after files installation before,
    s.history = after ++ .got files (some installation) :: before →
      AnswerStands executable files installation before

section Run

variable {cacheDirectory : Option PathBuf} {executable : PathBuf} {s : EntryRun κ}

/-- INTERNAL: one more event. -/
theorem answers_cons {event : EntryEvent κ} {history : List (EntryEvent κ)}
    (h : ∀ after files installation before,
      history = after ++ .got files (some installation) :: before →
        AnswerStands executable files installation before)
    (hevent : ∀ files installation, event = .got files (some installation) →
      AnswerStands executable files installation history)
    (after : List (EntryEvent κ)) (files : Files κ) (installation : ResolvedRInstallation)
    (before : List (EntryEvent κ))
    (heq : event :: history = after ++ .got files (some installation) :: before) :
    AnswerStands executable files installation before := by
  cases after with
  | nil =>
    obtain ⟨hfirst, hrest⟩ := List.cons.inj heq
    exact hrest ▸ hevent files installation hfirst
  | cons first after => exact h after files installation before (List.cons.inj heq).2

/-- A new entry fits its history. -/
theorem entryFits_init (h : (cacheEntry resolver cacheDirectory executable).init s) :
    EntryFits resolver cacheDirectory executable s := by
  obtain ⟨hentry, hhistory, hdisk⟩ := h
  constructor
  case isFor =>
    rw [hentry]
    exact ⟨rfl, rfl⟩
  case holds =>
    intro installation recorded hstanding
    rw [hhistory] at hstanding
    cases hstanding
  case silent =>
    intro _
    rw [hentry]
    refine ⟨rfl, fun dir cache hdir hcache => ?_⟩
    change s.disk (resolver.generateCacheFile dir executable) = some cache at hcache
    rw [hdisk dir hdir] at hcache
    cases hcache
  case answers =>
    intro after files installation before heq
    rw [hhistory] at heq
    cases after <;> cases heq

/-- INTERNAL: storing. -/
theorem entryFits_store (h : EntryFits resolver cacheDirectory executable s)
    (installation : ResolvedRInstallation) :
    EntryFits resolver cacheDirectory executable (s.perform resolver (.store installation)) := by
  constructor
  case isFor => exact h.isFor
  case holds =>
    intro installation' recorded hstanding
    cases hstanding
    exact holdsStored_store resolver s.files s.entry s.disk installation
  case silent =>
    intro hstanding
    cases hstanding
  case answers =>
    apply answers_cons h.answers
    intro files answer heq
    cases heq

/-- INTERNAL: asking. -/
theorem entryFits_get (h : EntryFits resolver cacheDirectory executable s) :
    EntryFits resolver cacheDirectory executable (s.perform resolver .get) := by
  unfold EntryRun.perform
  cases hstanding : standing s.history with
  | none =>
    obtain ⟨disk', hget, hsilent⟩ := (h.silent hstanding).get s.files
    rw [hget]
    constructor
    case isFor => exact h.isFor
    case holds =>
      intro installation recorded hsome
      cases hsome
    case silent => exact fun _ => hsilent
    case answers =>
      apply answers_cons h.answers
      intro files answer heq
      cases heq
  | some stands =>
    obtain ⟨installation, recorded⟩ := stands
    -- either the entry is still valid and answers, or it is dropped and nothing stands any more
    rcases (h.holds installation recorded hstanding).get s.files with
      ⟨entry', hget, hfile, hvalid, hdir, hexecutable, hholds⟩ | ⟨disk', hget, hsilent⟩
    · rw [hget]
      constructor
      case isFor => exact ⟨hdir.trans h.isFor.1, hexecutable.trans h.isFor.2⟩
      case holds =>
        intro installation' recorded' hsome
        have hsame := hstanding.symm.trans hsome
        cases hsame
        exact hholds
      case silent =>
        intro hnone
        have hsame := hstanding.symm.trans hnone
        cases hsame
      case answers =>
        apply answers_cons h.answers
        intro files answer heq
        cases heq
        rw [h.isFor.2] at hfile
        exact ⟨hfile, recorded, hstanding, fun x hx => stillAsRecorded_of_isValid (hvalid x hx)⟩
    · rw [hget]
      constructor
      case isFor => exact h.isFor
      case holds =>
        intro installation' recorded' hsome
        cases hsome
      case silent => exact fun _ => hsilent
      case answers =>
        apply answers_cons h.answers
        intro files answer heq
        cases heq

/-- INTERNAL: tracking. -/
theorem entryFits_track (h : EntryFits resolver cacheDirectory executable s)
    (paths : List PathBuf) :
    EntryFits resolver cacheDirectory executable
      (s.perform resolver (.trackExecutables paths)) := by
  obtain ⟨installation, disk', -, -, htrack⟩ :=
    trackExecutables_cases resolver s.files s.entry s.disk paths
  constructor
  case isFor =>
    change IsFor cacheDirectory executable
      (s.entry.trackExecutables resolver s.files s.disk paths).1
    rw [htrack]
    exact h.isFor
  case holds =>
    exact fun installation recorded hstanding =>
      (h.holds installation recorded hstanding).track s.files paths
  case silent => exact fun hstanding => (h.silent hstanding).track s.files paths
  case answers =>
    apply answers_cons h.answers
    intro files answer heq
    cases heq

/-- INTERNAL: a new entry has the layer of the cache file only. -/
theorem entryFits_replace (h : EntryFits resolver cacheDirectory executable s) :
    EntryFits resolver cacheDirectory executable (s.perform resolver .replace) := by
  constructor
  case isFor => exact h.isFor
  case holds =>
    intro installation recorded hstanding
    have hholds := h.holds installation recorded hstanding
    refine ⟨fun held hheld => ?_, hholds.file⟩
    cases hheld
  case silent => exact fun hstanding => ⟨rfl, (h.silent hstanding).file⟩
  case answers =>
    apply answers_cons h.answers
    intro files answer heq
    cases heq

/-- INTERNAL: a change of the files is no business of the entry. -/
theorem entryFits_modify (h : EntryFits resolver cacheDirectory executable s) (files : Files κ) :
    EntryFits resolver cacheDirectory executable (s.perform resolver (.modify files)) := by
  constructor
  case isFor => exact h.isFor
  case holds => exact h.holds
  case silent => exact h.silent
  case answers =>
    apply answers_cons h.answers
    intro files answer heq
    cases heq

/-- The invariant of the runs. -/
theorem entryFits (h : (cacheEntry resolver cacheDirectory executable).Reachable s) :
    EntryFits resolver cacheDirectory executable s := by
  apply Machine.Reachable.invariant (M := cacheEntry resolver cacheDirectory executable)
    (fun _ => entryFits_init) ?_ h
  rintro s operation s' hfits rfl
  cases operation with
  | store installation => exact entryFits_store hfits installation
  | get => exact entryFits_get hfits
  | trackExecutables paths => exact entryFits_track hfits paths
  | replace => exact entryFits_replace hfits
  | modify files => exact entryFits_modify hfits files

/-- The event keeps what stands: it is no store, and no `get` without an answer. -/
def KeepsStanding : EntryEvent κ → Prop
  | .stored .. | .got _ none => False
  | .got _ (some _) | .tracked | .replaced | .modified => True

/-- INTERNAL: what stands was stored, and kept since. -/
theorem exists_stored_of_standing {history : List (EntryEvent κ)}
    (h : standing history = some (installation, recorded)) :
    ∃ between storedFiles earlier,
      history = between ++ .stored storedFiles installation :: earlier ∧
      recorded = installation.recordedTimes storedFiles ∧
      ∀ event ∈ between, KeepsStanding event := by
  induction history with
  | nil => cases h
  | cons event history ih =>
    have hpassed : KeepsStanding event → standing history = some (installation, recorded) →
        ∃ between storedFiles earlier,
          event :: history = between ++ .stored storedFiles installation :: earlier ∧
            recorded = installation.recordedTimes storedFiles ∧
            ∀ event ∈ between, KeepsStanding event := by
      intro hkeeps hstanding
      obtain ⟨between, storedFiles, earlier, heq, hrecorded, hbetween⟩ := ih hstanding
      exact ⟨event :: between, storedFiles, earlier, by rw [heq, List.cons_append], hrecorded,
        List.forall_mem_cons.mpr ⟨hkeeps, hbetween⟩⟩
    cases event with
    | stored files stored =>
      cases h
      exact ⟨[], files, history, rfl, rfl, by simp⟩
    | got files answer =>
      cases answer with
      | none => cases h
      | some answer => exact hpassed trivial h
    | tracked | replaced | modified => exact hpassed trivial h

/-- INTERNAL: what was stored and kept since stands. -/
theorem standing_append {between earlier : List (EntryEvent κ)} {storedFiles : Files κ}
    (h : ∀ event ∈ between, KeepsStanding event) :
    standing (between ++ .stored storedFiles installation :: earlier) =
      some (installation, installation.recordedTimes storedFiles) := by
  induction between with
  | nil => rfl
  | cons event between ih =>
    obtain ⟨hkeeps, hbetween⟩ := List.forall_mem_cons.mp h
    rw [List.cons_append]
    cases event with
    | stored files stored => exact absurd hkeeps id
    | got files answer =>
      cases answer with
      | none => exact absurd hkeeps id
      | some answer => exact ih hbetween
    | tracked | replaced | modified => exact ih hbetween

/-- **The contract of a cache entry.** Whatever is done with the entry and to the files, an
answer of `get` is the installation stored last; the executable and all files recorded by that
store are as they were recorded; and so it was for every `get` since that store, each of which
gave the same answer: after a `get` that found something invalid there is no answer until the
next store. -/
theorem cache_entry_contract (resolver : Resolver κ) (cacheDirectory : Option PathBuf)
    (executable : PathBuf) {s : EntryRun κ}
    (h : (cacheEntry resolver cacheDirectory executable).Reachable s)
    {after before : List (EntryEvent κ)} {files : Files κ} {installation : ResolvedRInstallation}
    (hget : s.history = after ++ .got files (some installation) :: before) :
    ∃ between storedFiles earlier,
      before = between ++ .stored storedFiles installation :: earlier ∧
      (files.isFile executable = true ∧
        ∀ x ∈ installation.recordedTimes storedFiles, StillAsRecorded files x) ∧
      ∀ event ∈ between, (∀ files' other, event ≠ .stored files' other) ∧
        ∀ files' answer, event = .got files' answer → answer = some installation ∧
          files'.isFile executable = true ∧
            ∀ x ∈ installation.recordedTimes storedFiles, StillAsRecorded files' x := by
  have hfits := entryFits h
  obtain ⟨hfile, recorded, hstanding, hrecorded⟩ :=
    hfits.answers after files installation before hget
  obtain ⟨between, storedFiles, earlier, hbefore, rfl, hkeeps⟩ :=
    exists_stored_of_standing hstanding
  refine ⟨between, storedFiles, earlier, hbefore, ⟨hfile, hrecorded⟩, fun event hevent => ?_⟩
  have hkept := hkeeps event hevent
  constructor
  · rintro files' other rfl
    exact hkept
  · rintro files' answer rfl
    cases answer with
    | none => exact absurd hkept id
    | some answer =>
      -- the answer was what stood at the time, which is what was stored last
      obtain ⟨later, earlier', rfl⟩ := List.append_of_mem hevent
      have hsplit : s.history = (after ++ .got files (some installation) :: later) ++
          .got files' (some answer) ::
            (earlier' ++ .stored storedFiles installation :: earlier) := by
        rw [hget, hbefore]
        simp
      obtain ⟨hfile', recorded', hstanding', hrecorded'⟩ :=
        hfits.answers _ files' answer _ hsplit
      rw [standing_append fun event hevent => hkeeps event (by simp [hevent])] at hstanding'
      cases hstanding'
      exact ⟨rfl, hfile', hrecorded'⟩

end Run

/-! ## An entry that is replaced -/

/-- The launcher is resolved and stored, the entry is replaced, and asked. -/
def replacedRun : EntryRun String :=
  [.store (sampleResolved "4.4.0"), .replace, .get].foldl (EntryRun.perform sampleResolver)
    ⟨sampleFiles description440 1,
      CacheEntryImpl.create (some sampleCacheDirectory) sampleLauncher, fun _ => none, []⟩

/-- INTERNAL: the run in which a file is replaced is one of the entry. -/
theorem replacedRun_reachable :
    (cacheEntry sampleResolver (some sampleCacheDirectory) sampleLauncher).Reachable
      replacedRun := by
  have h0 : (cacheEntry sampleResolver (some sampleCacheDirectory) sampleLauncher).Reachable
      ⟨sampleFiles description440 1,
        CacheEntryImpl.create (some sampleCacheDirectory) sampleLauncher, fun _ => none, []⟩ :=
    .init ⟨rfl, rfl, fun _ _ => rfl⟩
  have h1 := Machine.Reachable.step (a := .store (sampleResolved "4.4.0")) h0 rfl
  have h2 := Machine.Reachable.step (a := .replace) h1 rfl
  exact .step (a := .get) h2 rfl

/-- INTERNAL: the new entry answers from the cache file. -/
theorem history_replacedRun :
    replacedRun.history = [.got (sampleFiles description440 1) (some (sampleResolved "4.4.0")),
      .replaced, .stored (sampleFiles description440 1) (sampleResolved "4.4.0")] := rfl

/-- The contract of this entry. -/
theorem cache_entry_contract_replaced :
    ∃ between storedFiles earlier,
      [EntryEvent.replaced, .stored (sampleFiles description440 1) (sampleResolved "4.4.0")] =
        between ++ .stored storedFiles (sampleResolved "4.4.0") :: earlier ∧
      ((sampleFiles description440 1).isFile sampleLauncher = true ∧
        ∀ x ∈ (sampleResolved "4.4.0").recordedTimes storedFiles,
          StillAsRecorded (sampleFiles description440 1) x) ∧
      ∀ event ∈ between, (∀ files' other, event ≠ .stored files' other) ∧
        ∀ files' answer, event = .got files' answer →
          answer = some (sampleResolved "4.4.0") ∧ files'.isFile sampleLauncher = true ∧
            ∀ x ∈ (sampleResolved "4.4.0").recordedTimes storedFiles, StillAsRecorded files' x :=
  cache_entry_contract sampleResolver (some sampleCacheDirectory) sampleLauncher
    replacedRun_reachable (history_replacedRun.trans (List.nil_append _).symm)

end REnvTools.Analysis
