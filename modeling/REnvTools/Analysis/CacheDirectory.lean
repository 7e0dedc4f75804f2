import REnvTools.Analysis.CacheContents

/-!
# Which directory a cache entry uses

`create_cache` reads the directory before it looks into the map, and
`set_cache_directory` clears the map after it has replaced the directory. An entry may
therefore be made for a directory that was replaced meanwhile. As long as the call that
replaced it has still to clear the map, the entry will go with the others; the invariant
is that every entry in the map was made for a directory whose replacement, if any, is not
cleared yet (`DirectoriesFit`). An entry that comes after that stays
(`stale_directory`).
-/

set_option autoImplicit false

namespace REnvTools.Analysis

open Program Lib Model

variable {κ : Type} {resolver : Resolver κ} {w w' : CacheWorld κ}
  {call call' other : CacheCall κ} {s : CacheState κ}

/-! ## The invariant -/

/-- The directory of the entry was current once, and the change that replaced it, if one
did, is not cleared yet. -/
def EntryInTime (w : CacheWorld κ) (r : ℕ) : Prop :=
  ∃ cell, w.entries[r]? = some cell ∧
    ∃ t, w.dirs[t]? = some cell.entry.cacheDirectory ∧ t + 1 ∉ w.clearedChanges

/-- The directories the cache has had, and the entries in the map. -/
structure DirectoriesFit (w : CacheWorld κ) : Prop where
  current : w.dirs.getLast? = some w.cacheDir
  cleared : ∀ change ∈ w.clearedChanges, change < w.dirs.length
  mapped : ∀ executable r, w.locks.lookup executable = some r → EntryInTime w r

/-- What a call remembers of the directories. -/
def CallDirectories (w : CacheWorld κ) : CacheCall κ → Prop
  | .sampled _ _ cacheDirectory began => w.dirs[began]? = some cacheDirectory
  | .replaced change => change < w.dirs.length
  | _ => True

/-- The directory that is current is the last one. -/
theorem DirectoriesFit.getElem?_last (h : DirectoriesFit w) :
    w.dirs[w.dirs.length - 1]? = some w.cacheDir := by
  rw [← List.getLast?_eq_getElem?]
  exact h.current

/-- INTERNAL: there has been a first directory. -/
theorem DirectoriesFit.length_pos (h : DirectoriesFit w) : 0 < w.dirs.length := by
  apply List.length_pos_of_ne_nil
  intro hnil
  have hcurrent := h.current
  rw [hnil] at hcurrent
  cases hcurrent

/-! ## Steps -/

/-- Entries keep their directories. -/
def KeepsDirectories (w w' : CacheWorld κ) : Prop :=
  ∀ (r : ℕ) (cell : CacheCell), w.entries[r]? = some cell →
    ∃ cell' : CacheCell, w'.entries[r]? = some cell' ∧
      cell'.entry.cacheDirectory = cell.entry.cacheDirectory

/-- INTERNAL: a step that changes nothing keeps the directories. -/
theorem keepsDirectories_refl (w : CacheWorld κ) : KeepsDirectories w w :=
  fun _ cell hr => ⟨cell, hr, rfl⟩

/-- INTERNAL: replacing an entry by one with the same directory keeps the directories. -/
theorem keepsDirectories_set {r : ℕ} {cell cell' : CacheCell}
    (hr : w.entries[r]? = some cell)
    (hdir : cell'.entry.cacheDirectory = cell.entry.cacheDirectory)
    (hentries : w'.entries = w.entries.set r cell') : KeepsDirectories w w' := by
  intro n found hfound
  rw [hentries]
  by_cases hn : r = n
  · subst hn
    rw [hr, Option.some.injEq] at hfound
    subst hfound
    exact ⟨cell', List.getElem?_set_self (List.getElem?_eq_some_iff.mp hr).1, hdir⟩
  · exact ⟨found, (List.getElem?_set_ne hn).trans hfound, rfl⟩

/-- `get` does not change the directory of its entry. -/
theorem cacheDirectory_of_get {files : Files κ} {entry entry' : CacheEntryImpl}
    {disk disk' : CacheFiles} {answer : Option ResolvedRInstallation}
    (h : entry.get resolver files disk = (answer, entry', disk')) :
    entry'.cacheDirectory = entry.cacheDirectory := by
  rcases get_cases resolver files entry disk with
    ⟨installation, -, -, -, hget⟩ | ⟨dir, cache, -, -, -, -, -, hget⟩ | ⟨disk₁, -, -, hget⟩
  · rw [hget] at h
    cases h
    rfl
  · rw [hget] at h
    cases h
    rfl
  · rw [hget] at h
    cases h
    rfl

/-- A step that touches neither the directories nor the map. -/
structure LeavesDirectories (w w' : CacheWorld κ) : Prop where
  cacheDir : w'.cacheDir = w.cacheDir
  locks : w'.locks = w.locks ∨ w'.locks = ∅
  dirs : w'.dirs = w.dirs
  clearedChanges : w'.clearedChanges = w.clearedChanges
  entries : KeepsDirectories w w'

/-- The invariant holds after a step that leaves the directories. -/
theorem DirectoriesFit.leaves (h : DirectoriesFit w) (hw : LeavesDirectories w w') :
    DirectoriesFit w' := by
  refine ⟨?_, ?_, ?_⟩
  · rw [hw.dirs, hw.cacheDir]
    exact h.current
  · rw [hw.dirs, hw.clearedChanges]
    exact h.cleared
  · intro executable r hr
    rcases hw.locks with hlocks | hlocks
    · rw [hlocks] at hr
      obtain ⟨cell, hcell, t, ht, hcleared⟩ := h.mapped executable r hr
      obtain ⟨cell', hcell', hdir⟩ := hw.entries r cell hcell
      rw [← hw.dirs, ← hdir] at ht
      rw [← hw.clearedChanges] at hcleared
      exact ⟨cell', hcell', t, ht, hcleared⟩
    · rw [hlocks, Finmap.lookup_empty] at hr
      cases hr

/-- **What a step does to the directories**: nothing, or it makes an entry, changes the
directory, or clears the map. -/
theorem cacheStep_directories (h : CacheStep resolver w call w' call') :
    (LeavesDirectories w w' ∧ (∀ change, call ≠ .replaced change) ∧
      (∀ change, call' ≠ .replaced change) ∧
      ∀ purpose executable dir began, call' = .sampled purpose executable dir began →
        dir = w.cacheDir ∧ began = w.dirs.length - 1) ∨
    (∃ purpose executable dir began, call = .sampled purpose executable dir began ∧
      w' = (w.createCache executable dir).1 ∧
      call' = .created purpose executable (w.createCache executable dir).2) ∨
    (∃ dir, w' = w.replaceDirectory dir ∧ call = .settingDirectory dir ∧
      call' = .replaced w.dirs.length) ∨
    (∃ change, call = .replaced change ∧ w' = w.clearAfterChange change ∧
      call' = .finished) := by
  have hset : ∀ {r : ℕ} {cell cell' : CacheCell} {disk : CacheFiles},
      w.entries[r]? = some cell → cell'.entry.cacheDirectory = cell.entry.cacheDirectory →
      LeavesDirectories w { w.setCell r cell' with disk := disk } := fun hr hdir =>
    ⟨rfl, .inl rfl, rfl, rfl, keepsDirectories_set hr hdir rfl⟩
  have hsame : LeavesDirectories w w :=
    ⟨rfl, .inl rfl, rfl, rfl, keepsDirectories_refl w⟩
  cases h with
  | @sample purpose executable =>
    refine .inl ⟨hsame, by simp, by simp, ?_⟩
    rintro _ _ _ _ heq
    cases heq
    exact ⟨rfl, rfl⟩
  | create => exact .inr (.inl ⟨_, _, _, _, rfl, rfl, rfl⟩)
  | lock hr => exact .inl ⟨hset hr rfl, by simp, by simp, by simp⟩
  | hit hr hget => exact .inl ⟨hset hr (cacheDirectory_of_get hget), by simp, by simp, by simp⟩
  | miss hr hget =>
    exact .inl ⟨hset hr (cacheDirectory_of_get hget), by simp, by simp, by simp⟩
  | unresolved hr => exact .inl ⟨hset hr rfl, by simp, by simp, by simp⟩
  | probe => exact .inl ⟨hsame, by simp, by simp, by simp⟩
  | read => exact .inl ⟨hsame, by simp, by simp, by simp⟩
  | sort => exact .inl ⟨hsame, by simp, by simp, by simp⟩
  | storeInMemory hr => exact .inl ⟨hset hr rfl, by simp, by simp, by simp⟩
  | storeOnDisk hr => exact .inl ⟨hset hr rfl, by simp, by simp, by simp⟩
  | @track executable r paths cell hr =>
    obtain ⟨installation, disk', -, -, htrack⟩ :=
      trackExecutables_cases resolver w.files cell.entry w.disk paths
    refine .inl ⟨hset hr ?_, by simp, by simp, by simp⟩
    rw [htrack]
  | unchanged => exact .inl ⟨hsame, by simp, by simp, by simp⟩
  | replace => exact .inr (.inr (.inl ⟨_, rfl, rfl, rfl⟩))
  | clearAfterChange => exact .inr (.inr (.inr ⟨_, rfl, rfl, rfl⟩))
  | clearLocks =>
    exact .inl ⟨⟨rfl, .inr rfl, rfl, rfl, keepsDirectories_refl w⟩, by simp, by simp, by simp⟩
  | removeDirectory =>
    exact .inl ⟨⟨rfl, .inl rfl, rfl, rfl, keepsDirectories_refl w⟩, by simp, by simp, by simp⟩
  | write =>
    exact .inl ⟨⟨rfl, .inl rfl, rfl, rfl, keepsDirectories_refl w⟩, by simp, by simp, by simp⟩

/-! ## The condition -/

/-- An entry is made for the directory that is current, or for one whose replacement is
not cleared yet. -/
def InsertsInTime (s : CacheState κ) : TaskSystem.Label Unit → Prop
  | .spawn => True
  | .step i _ => ∀ purpose executable dir began,
      s.tasks[i]? = some (.sampled purpose executable dir began) →
      s.shared.locks.lookup executable = none →
      dir = s.shared.cacheDir ∨ began + 1 ∉ s.shared.clearedChanges

/-- INTERNAL: `create_cache` neither replaces the directory nor clears. -/
theorem createCache_history (w : CacheWorld κ) (executable : PathBuf)
    (dir : Option PathBuf) :
    (w.createCache executable dir).1.dirs = w.dirs ∧
      (w.createCache executable dir).1.clearedChanges = w.clearedChanges := by
  unfold CacheWorld.createCache
  cases w.locks.lookup executable <;> exact ⟨rfl, rfl⟩

/-- `create_cache` in time. -/
theorem createCache_directories (h : DirectoriesFit w) {executable : PathBuf}
    {dir : Option PathBuf} {began : ℕ} (hbegan : w.dirs[began]? = some dir)
    (hintime : w.locks.lookup executable = none →
      dir = w.cacheDir ∨ began + 1 ∉ w.clearedChanges) :
    DirectoriesFit (w.createCache executable dir).1 := by
  unfold CacheWorld.createCache
  cases hlookup : w.locks.lookup executable with
  | some r => exact h
  | none =>
    -- the directory of the new entry, as one that is current or will be cleared
    have hnew : ∃ t, w.dirs[t]? = some dir ∧ t + 1 ∉ w.clearedChanges := by
      rcases hintime hlookup with hcurrent | hpending
      · refine ⟨w.dirs.length - 1, by rw [hcurrent, h.getElem?_last], ?_⟩
        intro hcleared
        have hlt := h.cleared _ hcleared
        have hpos := h.length_pos
        omega
      · exact ⟨began, hbegan, hpending⟩
    refine ⟨h.current, h.cleared, ?_⟩
    intro other r hr
    by_cases hother : other = executable
    · subst hother
      rw [Finmap.lookup_insert, Option.some.injEq] at hr
      subst hr
      exact ⟨_, List.getElem?_concat_length, hnew⟩
    · rw [Finmap.lookup_insert_of_ne _ hother] at hr
      obtain ⟨cell, hcell, htime⟩ := h.mapped other r hr
      refine ⟨cell, ?_, htime⟩
      show (w.entries ++ _)[r]? = some cell
      rw [List.getElem?_append_left (List.getElem?_eq_some_iff.mp hcell).1]
      exact hcell

/-- The invariant holds after the directory is replaced. -/
theorem replaceDirectory_directories (h : DirectoriesFit w) (dir : PathBuf) :
    DirectoriesFit (w.replaceDirectory dir) := by
  refine ⟨List.getLast?_concat, ?_, ?_⟩
  · intro change hchange
    have hlt := h.cleared change hchange
    show change < (w.dirs ++ _).length
    rw [List.length_append]
    omega
  · intro executable r hr
    obtain ⟨cell, hcell, t, ht, hcleared⟩ := h.mapped executable r hr
    refine ⟨cell, hcell, t, ?_, hcleared⟩
    show (w.dirs ++ _)[t]? = _
    rw [List.getElem?_append_left (List.getElem?_eq_some_iff.mp ht).1]
    exact ht

/-- The invariant holds after the map is emptied for a change. -/
theorem clearAfterChange_directories (h : DirectoriesFit w) {change : ℕ}
    (hchange : change < w.dirs.length) : DirectoriesFit (w.clearAfterChange change) := by
  refine ⟨h.current, ?_, ?_⟩
  · intro other hother
    rcases List.mem_append.mp hother with hother | hother
    · exact h.cleared other hother
    · rw [List.mem_singleton.mp hother]
      exact hchange
  · intro executable r hr
    have hempty : (∅ : Finmap fun _ : PathBuf => ℕ).lookup executable = some r := hr
    rw [Finmap.lookup_empty] at hempty
    cases hempty

/-- What a call remembers stays true as the history grows. -/
theorem CallDirectories.grow (hdirs : ∃ more, w'.dirs = w.dirs ++ more)
    (h : CallDirectories w call) : CallDirectories w' call := by
  obtain ⟨more, hmore⟩ := hdirs
  cases call with
  | sampled purpose executable dir began =>
    show w'.dirs[began]? = some dir
    have hbegan : w.dirs[began]? = some dir := h
    rw [hmore, List.getElem?_append_left (List.getElem?_eq_some_iff.mp hbegan).1]
    exact hbegan
  | replaced change =>
    have hlt : change < w.dirs.length := h
    show change < w'.dirs.length
    rw [hmore, List.length_append]
    omega
  | _ => trivial

/-- The history of the directories only grows. -/
theorem dirs_grow (h : CacheStep resolver w call w' call') :
    ∃ more, w'.dirs = w.dirs ++ more := by
  rcases cacheStep_directories h with ⟨hleaves, -⟩ | ⟨purpose, executable, dir, began, -, rfl, -⟩ |
    ⟨dir, rfl, -, -⟩ | ⟨change, -, rfl, -⟩
  · exact ⟨[], by rw [hleaves.dirs, List.append_nil]⟩
  · exact ⟨[], by rw [(createCache_history w executable dir).1, List.append_nil]⟩
  · exact ⟨_, rfl⟩
  · exact ⟨[], (List.append_nil _).symm⟩

/-- **One step** keeps the directories, if it makes entries in time. -/
theorem cacheStep_fits (h : CacheStep resolver w call w' call')
    (hintime : ∀ purpose executable dir began,
      call = .sampled purpose executable dir began → w.locks.lookup executable = none →
        dir = w.cacheDir ∨ began + 1 ∉ w.clearedChanges)
    (hw : DirectoriesFit w) (hcall : CallDirectories w call) :
    DirectoriesFit w' ∧ CallDirectories w' call' := by
  rcases cacheStep_directories h with ⟨hleaves, -, hreplaced, hsampled⟩ |
    ⟨purpose, executable, dir, began, rfl, rfl, rfl⟩ | ⟨dir, rfl, rfl, rfl⟩ |
    ⟨change, rfl, rfl, rfl⟩
  · refine ⟨hw.leaves hleaves, ?_⟩
    cases call' with
    | sampled purpose executable dir began =>
      obtain ⟨rfl, rfl⟩ := hsampled purpose executable dir began rfl
      show w'.dirs[_]? = _
      rw [hleaves.dirs]
      exact hw.getElem?_last
    | replaced change => exact absurd rfl (hreplaced change)
    | _ => trivial
  · exact ⟨createCache_directories hw hcall (hintime purpose executable dir began rfl), trivial⟩
  · refine ⟨replaceDirectory_directories hw dir, ?_⟩
    show w.dirs.length < (w.dirs ++ _).length
    rw [List.length_append, List.length_singleton]
    omega
  · exact ⟨clearAfterChange_directories hw hcall, trivial⟩

/-! ## Every run -/

section Runs

/-- **The directories of the entries** fit in every state that is reached without a late insertion.
-/
theorem directories_fit
    (h : ((resolutionCache resolver).machine.when InsertsInTime).Reachable s) :
    DirectoriesFit s.shared ∧
      ∀ (i : ℕ) (call : CacheCall κ), s.tasks[i]? = some call →
        CallDirectories s.shared call := by
  refine TaskSystem.invariant_when (G := DirectoriesFit)
    (L := fun w _ call => CallDirectories w call) ?_ ?_ ?_ ?_ h
  · rintro w ⟨hlocks, -, -, hdirs, hcleared⟩
    refine ⟨by rw [hdirs]; rfl, by rw [hcleared]; simp, ?_⟩
    intro executable r hr
    rw [hlocks, Finmap.lookup_empty] at hr
    cases hr
  · intro s call _ _ _ harrival
    cases harrival <;> trivial
  · intro s i call _ w' call' _ hC hi hstep hG hL
    refine cacheStep_fits hstep ?_ hG hL
    rintro purpose executable dir began rfl
    exact hC purpose executable dir began hi
  · intro s i call _ w' call' j other _ _ _ hstep _ _ _ _ hother
    exact hother.grow (dirs_grow hstep)

/-- Every change of the directory is cleared, or its call has still to clear the map. -/
def ChangesCleared (s : CacheState κ) : Prop :=
  ∀ change, 0 < change → change < s.shared.dirs.length →
    change ∈ s.shared.clearedChanges ∨ .replaced change ∈ s.tasks

/-- One step of a call keeps that. -/
theorem changesCleared_step (h : ChangesCleared s) {i : ℕ} (hi : s.tasks[i]? = some call)
    (hstep : CacheStep resolver s.shared call w' call') :
    ChangesCleared ⟨w', s.tasks.set i call'⟩ := by
  intro change hpos hlt
  have hkept : call ≠ .replaced change → change < s.shared.dirs.length →
      change ∈ s.shared.clearedChanges ∨ .replaced change ∈ s.tasks.set i call' :=
    fun hcall hold => (h change hpos hold).imp_right fun hmem =>
      Pool.mem_set_of_ne hi hcall.symm hmem
  rcases cacheStep_directories hstep with ⟨hleaves, hcall, -⟩ |
    ⟨purpose, executable, dir, began, rfl, rfl, -⟩ | ⟨dir, rfl, rfl, rfl⟩ |
    ⟨cleared, rfl, rfl, -⟩
  · rw [hleaves.dirs] at hlt
    rw [hleaves.clearedChanges]
    exact hkept (hcall change) hlt
  · obtain ⟨hdirs, hcleared⟩ := createCache_history s.shared executable dir
    rw [hdirs] at hlt
    rw [hcleared]
    exact hkept (by simp) hlt
  · -- the newest change is that of this call, which has still to clear
    by_cases hnew : change = s.shared.dirs.length
    · subst hnew
      exact .inr (List.mem_set (List.getElem?_eq_some_iff.mp hi).1 _)
    · have hlt' : change < (s.shared.dirs ++ [some dir]).length := hlt
      rw [List.length_append, List.length_singleton] at hlt'
      exact hkept (by simp) (by omega)
  · by_cases hnew : change = cleared
    · subst hnew
      exact .inl (List.mem_append_right _ (List.mem_singleton.mpr rfl))
    · refine (hkept ?_ hlt).imp_left (List.mem_append_left _)
      rintro heq
      cases heq
      exact hnew rfl

/-- INTERNAL: for every change the map has been emptied, or a call is about to empty it. -/
theorem changesCleared (h : (resolutionCache resolver).Reachable s) : ChangesCleared s := by
  refine Machine.Reachable.invariant ?_ ?_ h
  · rintro s ⟨⟨-, -, -, hdirs, -⟩, -⟩ change hpos hlt
    rw [hdirs, List.length_singleton] at hlt
    omega
  · intro s _ s' hs hstep
    cases hstep with
    | spawn =>
      intro change hpos hlt
      exact (hs change hpos hlt).imp_right (List.mem_append_left _)
    | step hi hstep => exact changesCleared_step hs hi hstep

/-- The call has run its first section and not its last. -/
def InProgress : CacheCall κ → Prop
  | .sampled .. | .replaced _ | .clearedLocks => True
  | _ => False

/-- **Coherence.** In every run in which entries are made in time: while no call of
`create_cache`, `set_cache_directory` or `clear` is in progress, every entry in the map
has the current directory; and a call of `create_cache` hands out an entry whose directory
was current at some moment since it began, if every change made before it began is
cleared. -/
theorem cache_directory_coherent
    (h : ((resolutionCache resolver).machine.when InsertsInTime).Reachable s) :
    ((∀ call ∈ s.tasks, ¬InProgress call) →
      ∀ executable r, s.shared.locks.lookup executable = some r →
        ∃ cell, s.shared.entries[r]? = some cell ∧
          cell.entry.cacheDirectory = s.shared.cacheDir) ∧
    (∀ (i : ℕ) purpose executable dir began,
      s.tasks[i]? = some (CacheCall.sampled purpose executable dir began) →
      (∀ change, 0 < change → change ≤ began → change ∈ s.shared.clearedChanges) →
        ∃ cell, (s.shared.createCache executable dir).1.entries[
            (s.shared.createCache executable dir).2]? = some cell ∧
          ∃ t, began ≤ t ∧ s.shared.dirs[t]? = some cell.entry.cacheDirectory) := by
  obtain ⟨hfit, hcalls⟩ := directories_fit h
  constructor
  · intro hidle executable r hr
    obtain ⟨cell, hcell, t, ht, hcleared⟩ := hfit.mapped executable r hr
    refine ⟨cell, hcell, ?_⟩
    have hlt : t < s.shared.dirs.length := (List.getElem?_eq_some_iff.mp ht).1
    have hlast : t = s.shared.dirs.length - 1 := by
      by_contra hne
      have hpending := changesCleared h.of_when (t + 1) (by omega) (by omega)
      exact hidle _ (hpending.resolve_left hcleared) trivial
    rw [hlast, hfit.getElem?_last, Option.some.injEq] at ht
    exact ht.symm
  · intro i purpose executable dir began hi hchanges
    have hbegan : s.shared.dirs[began]? = some dir := hcalls i _ hi
    unfold CacheWorld.createCache
    cases hlookup : s.shared.locks.lookup executable with
    | none => exact ⟨_, List.getElem?_concat_length, began, le_rfl, hbegan⟩
    | some r =>
      obtain ⟨cell, hcell, t, ht, hcleared⟩ := hfit.mapped executable r hlookup
      refine ⟨cell, hcell, t, ?_, ht⟩
      by_contra hlt
      exact hcleared (hchanges (t + 1) (by omega) (by omega))

end Runs

/-! ## A directory that is replaced while an entry is made -/

section Sample

/-- The directory that is set. -/
def sampleCacheDirectory : PathBuf := ⟨[.rootDir, .normal "var", .normal "cache"]⟩

/-- The directory is set, and there is one entry. -/
def directoryWorld (cacheDirectory : Option PathBuf) : CacheWorld String :=
  ⟨some sampleCacheDirectory, (∅ : Finmap fun _ : PathBuf => ℕ).insert sampleLauncher 0,
    [⟨CacheEntryImpl.create cacheDirectory sampleLauncher, false⟩], fun _ => none,
    sampleFiles description440 1, [none, some sampleCacheDirectory], [1]⟩

/-- INTERNAL: the empty cache is an initial state. -/
theorem emptyCache_init :
    (resolutionCache sampleResolver).machine.init
      ⟨⟨none, ∅, [], fun _ => none, sampleFiles description440 1, [none], []⟩, []⟩ :=
  ⟨⟨rfl, rfl, rfl, rfl, rfl⟩, rfl⟩

/-- The directory is set before the call begins. -/
def setFirstState : CacheState String :=
  ⟨directoryWorld (some sampleCacheDirectory),
    [.finished, .created .resolve sampleLauncher 0]⟩

/-- INTERNAL: the state after the directory is set first is reached. -/
theorem setFirstState_reachable :
    ((resolutionCache sampleResolver).machine.when InsertsInTime).Reachable setFirstState := by
  have hspawn : ∀ {s : CacheState String} {call : CacheCall String},
      ((resolutionCache sampleResolver).machine.when InsertsInTime).Reachable s →
      CacheArrival call →
      ((resolutionCache sampleResolver).machine.when InsertsInTime).Reachable
        ⟨s.shared, s.tasks ++ [call]⟩ := by
    intro s call hs harrival
    have hC : InsertsInTime s .spawn := trivial
    exact .step hs ⟨hC, .spawn harrival⟩
  have hstep : ∀ {s : CacheState String} (i : ℕ) {call call' : CacheCall String}
      {w' : CacheWorld String},
      ((resolutionCache sampleResolver).machine.when InsertsInTime).Reachable s →
      s.tasks[i]? = some call →
      (∀ purpose executable dir began, call = .sampled purpose executable dir began →
        dir = s.shared.cacheDir) →
      CacheStep sampleResolver s.shared call w' call' →
      ((resolutionCache sampleResolver).machine.when InsertsInTime).Reachable
        ⟨w', s.tasks.set i call'⟩ := by
    intro s i call call' w' hs hi hcurrent hstep
    refine .step hs ⟨?_, TaskSystem.Step.step (a := ()) hi hstep⟩
    intro purpose executable dir began hsampled _
    rw [hi, Option.some.injEq] at hsampled
    exact .inl (hcurrent purpose executable dir began hsampled)
  have h0 : ((resolutionCache sampleResolver).machine.when InsertsInTime).Reachable _ :=
    .init emptyCache_init
  have h1 := hspawn h0 (CacheArrival.setCacheDirectory sampleCacheDirectory)
  have h2 := hstep 0 h1 rfl (by simp) (CacheStep.replace (by simp))
  have h3 := hstep 0 h2 rfl (by simp) CacheStep.clearAfterChange
  have h4 := hspawn h3 (CacheArrival.resolve sampleLauncher)
  have h5 := hstep 1 h4 rfl (by simp) CacheStep.sample
  have hcurrent : ∀ purpose executable dir began,
      (CacheCall.sampled .resolve sampleLauncher (some sampleCacheDirectory) 1 :
        CacheCall String) = .sampled purpose executable dir began →
      dir = some sampleCacheDirectory := by
    rintro purpose executable dir began heq
    cases heq
    rfl
  exact hstep 1 h5 rfl hcurrent CacheStep.create

/-- The theorem for a cache whose directory is set before the first entry. -/
theorem cache_directory_coherent_setFirst :
    ∃ cell, setFirstState.shared.entries[0]? = some cell ∧
      cell.entry.cacheDirectory = some sampleCacheDirectory :=
  (cache_directory_coherent setFirstState_reachable).1
    (by simp [setFirstState, InProgress]) sampleLauncher 0 (Finmap.lookup_insert _)

/-- The call has read the directory when another one replaces it and clears the map. -/
def replacedState (later : List (CacheCall String)) : CacheState String :=
  ⟨directoryWorld none, [.created .resolve sampleLauncher 0, .finished] ++ later⟩

/-- Nothing is in progress, and the entry has the old directory; a call that begins after
that is handed it. -/
theorem stale_directory :
    ((resolutionCache sampleResolver).Reachable (replacedState []) ∧
      (∀ call ∈ (replacedState []).tasks, ¬InProgress call) ∧
      (replacedState []).shared.locks.lookup sampleLauncher = some 0 ∧
      ∃ cell, (replacedState []).shared.entries[0]? = some cell ∧
        cell.entry.cacheDirectory ≠ (replacedState []).shared.cacheDir) ∧
    ((resolutionCache sampleResolver).Reachable
        (replacedState [.sampled .resolve sampleLauncher (some sampleCacheDirectory) 1]) ∧
      (directoryWorld none).dirs = [none, some sampleCacheDirectory] ∧
      ∃ cell, ((directoryWorld none).createCache sampleLauncher
          (some sampleCacheDirectory)).1.entries[((directoryWorld none).createCache
            sampleLauncher (some sampleCacheDirectory)).2]? = some cell ∧
        cell.entry.cacheDirectory = none) := by
  have h0 : (resolutionCache sampleResolver).Reachable _ := .init emptyCache_init
  have h1 := Machine.Reachable.step h0
    (TaskSystem.Step.spawn (CacheArrival.resolve sampleLauncher))
  have h2 := Machine.Reachable.step h1
    (TaskSystem.Step.step (i := 0) (a := ()) rfl CacheStep.sample)
  have h3 := Machine.Reachable.step h2
    (TaskSystem.Step.spawn (CacheArrival.setCacheDirectory sampleCacheDirectory))
  have h4 := Machine.Reachable.step h3
    (TaskSystem.Step.step (i := 1) (a := ()) rfl (CacheStep.replace (by simp)))
  have h5 := Machine.Reachable.step h4
    (TaskSystem.Step.step (i := 1) (a := ()) rfl CacheStep.clearAfterChange)
  have h6 := Machine.Reachable.step h5
    (TaskSystem.Step.step (i := 0) (a := ()) rfl CacheStep.create)
  have h7 := Machine.Reachable.step h6
    (TaskSystem.Step.spawn (CacheArrival.resolve sampleLauncher))
  have h8 := Machine.Reachable.step h7
    (TaskSystem.Step.step (i := 2) (a := ()) rfl CacheStep.sample)
  refine ⟨⟨h6, by simp [replacedState, InProgress], Finmap.lookup_insert _,
    _, rfl, by simp [CacheEntryImpl.create, replacedState, directoryWorld]⟩,
    h8, rfl, ⟨CacheEntryImpl.create none sampleLauncher, false⟩, ?_, rfl⟩
  rfl

end Sample

end REnvTools.Analysis
