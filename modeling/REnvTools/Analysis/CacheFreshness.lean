import REnvTools.Analysis.CacheContents

/-!
# What the resolution cache answers

An installation is kept with the modification times of the files it was read from, and
these are read after the probe. As long as each tracked file is, when its time is read,
what it was for the probe, every time certifies what the probe has seen, in memory and on
disk, and an answer of the cache is what a probe would give (`resolution_fresh`). A write
between the probe and the reading of the times breaks this (`stale_resolution`).
-/

set_option autoImplicit false

namespace REnvTools.Analysis

open Program Lib Model

variable {κ : Type} {resolver : Resolver κ}

/-! ## The invariant -/

/-- The number is that of an entry for the executable. -/
def HasEntry (w : CacheWorld κ) (executable : PathBuf) (r : ℕ) : Prop :=
  ∃ cell, w.entries[r]? = some cell ∧ cell.entry.executable = executable

/-- Everything the cache holds is sound. -/
structure CacheSound (resolver : Resolver κ) (w : CacheWorld κ) : Prop where
  mapped : ∀ executable r, w.locks.lookup executable = some r → HasEntry w executable r
  memory : ∀ (r : ℕ) (cell : CacheCell), w.entries[r]? = some cell →
    EntrySound resolver w.files cell.entry
  disk : DiskSound resolver w.files w.disk

/-- What a call knows: its entry, what its probe has seen, and that the times it has read
certify that. -/
def CallSound (resolver : Resolver κ) (w : CacheWorld κ) : CacheCall κ → Prop
  | .created _ executable r | .locked _ executable r | .missed executable r =>
    HasEntry w executable r
  | .reading executable r installation seen paths executables =>
    HasEntry w executable r ∧
      resolver.getInstallationDetails seen executable = some installation ∧
      ∀ path ∈ installation.trackedFiles, path ∈ paths ∨
        ∃ modified, Recorded executables path modified ∧
          ValidatedMemo.Certifies FileState.modified FileState.contents w.files path modified
            (seen path)
  | .storing executable r installation executables
  | .storingFile executable r installation executables =>
    HasEntry w executable r ∧ ResolvedFrom resolver w.files executable installation executables
  | _ => True

/-- What every step leaves alone. -/
structure CacheFrame (w w' : CacheWorld κ) : Prop where
  files : ValidatedMemo.Advances FileState.modified w.files w'.files
  entries : ∀ executable r, HasEntry w executable r → HasEntry w' executable r

section Invariant

variable {w w' : CacheWorld κ} {call call' other : CacheCall κ} {executable : PathBuf}
  {r : ℕ} {cell cell' : CacheCell} {disk : CacheFiles}

/-- A call remains sound in a step of another call. -/
theorem CallSound.frame (hframe : CacheFrame w w') (h : CallSound resolver w call) :
    CallSound resolver w' call := by
  cases call with
  | created => exact hframe.entries _ _ h
  | locked => exact hframe.entries _ _ h
  | missed => exact hframe.entries _ _ h
  | reading executable r installation seen paths executables =>
    obtain ⟨hentry, hprobe, hread⟩ := h
    refine ⟨hframe.entries _ _ hentry, hprobe, ?_⟩
    intro path hpath
    refine (hread path hpath).imp_right ?_
    rintro ⟨modified, hrecorded, hcertified⟩
    exact ⟨modified, hrecorded, hcertified.advance hframe.files⟩
  | storing => exact ⟨hframe.entries _ _ h.1, h.2.advance hframe.files⟩
  | storingFile => exact ⟨hframe.entries _ _ h.1, h.2.advance hframe.files⟩
  | _ => trivial

/-- INTERNAL: the entries of the map are where they were. -/
theorem hasEntry_setCell (hr : w.entries[r]? = some cell)
    (hexecutable : cell'.entry.executable = cell.entry.executable) {other : PathBuf} {n : ℕ}
    (h : HasEntry w other n) : HasEntry (w.setCell r cell') other n := by
  obtain ⟨found, hfound, hother⟩ := h
  have hlt : r < w.entries.length := (List.getElem?_eq_some_iff.mp hr).1
  by_cases hn : r = n
  · subst hn
    rw [hr, Option.some.injEq] at hfound
    subst hfound
    exact ⟨cell', List.getElem?_set_self hlt, hexecutable.trans hother⟩
  · exact ⟨found, (List.getElem?_set_ne hn).trans hfound, hother⟩

/-- Replacing an entry by a sound one for the same executable. -/
theorem cacheSound_setCell (cell' : CacheCell) (h : CacheSound resolver w)
    (hr : w.entries[r]? = some cell)
    (hexecutable : cell'.entry.executable = cell.entry.executable)
    (hentry : EntrySound resolver w.files cell'.entry)
    (hdisk : DiskSound resolver w.files disk) :
    CacheSound resolver { w.setCell r cell' with disk := disk } ∧
      CacheFrame w { w.setCell r cell' with disk := disk } := by
  refine ⟨⟨?_, ?_, hdisk⟩, ⟨ValidatedMemo.Advances.refl _, ?_⟩⟩
  · intro other n hn
    exact hasEntry_setCell hr hexecutable (h.mapped other n hn)
  · intro n found hfound
    have hset : (w.entries.set r cell')[n]? = some found := hfound
    by_cases hn : r = n
    · subst hn
      have hlt : r < w.entries.length := (List.getElem?_eq_some_iff.mp hr).1
      rw [List.getElem?_set_self hlt, Option.some.injEq] at hset
      exact hset ▸ hentry
    · rw [List.getElem?_set_ne hn] at hset
      exact h.memory n found hset
  · intro other n hn
    exact hasEntry_setCell hr hexecutable hn

/-- A new entry is sound. -/
theorem entrySound_create (cacheDirectory : Option PathBuf) :
    EntrySound resolver w.files (CacheEntryImpl.create cacheDirectory executable) := by
  intro installation hinstallation
  cases hinstallation

/-- `create_cache` hands out an entry for the executable. -/
theorem createCache_sound (h : CacheSound resolver w) (executable : PathBuf)
    (cacheDirectory : Option PathBuf) :
    CacheSound resolver (w.createCache executable cacheDirectory).1 ∧
      CacheFrame w (w.createCache executable cacheDirectory).1 ∧
      HasEntry (w.createCache executable cacheDirectory).1 executable
        (w.createCache executable cacheDirectory).2 := by
  unfold CacheWorld.createCache
  cases hlookup : w.locks.lookup executable with
  | some r =>
    exact ⟨h, ⟨ValidatedMemo.Advances.refl _, fun _ _ h => h⟩, h.mapped executable r hlookup⟩
  | none =>
    have hkept : ∀ {other : PathBuf} {n : ℕ} {w' : CacheWorld κ},
        w'.entries = w.entries ++ [⟨CacheEntryImpl.create cacheDirectory executable, false⟩] →
        HasEntry w other n → HasEntry w' other n := by
      rintro other n w' hw' ⟨found, hfound, hother⟩
      refine ⟨found, ?_, hother⟩
      rw [hw', List.getElem?_append_left (List.getElem?_eq_some_iff.mp hfound).1]
      exact hfound
    have hnew : HasEntry (κ := κ) { w with
        locks := w.locks.insert executable w.entries.length
        entries := w.entries ++
          [⟨CacheEntryImpl.create cacheDirectory executable, false⟩] }
        executable w.entries.length :=
      ⟨_, List.getElem?_concat_length, rfl⟩
    refine ⟨⟨?_, ?_, h.disk⟩, ⟨ValidatedMemo.Advances.refl _, fun _ _ => hkept rfl⟩, hnew⟩
    · intro other n hn
      by_cases hother : other = executable
      · subst hother
        rw [Finmap.lookup_insert, Option.some.injEq] at hn
        exact hn ▸ hnew
      · rw [Finmap.lookup_insert_of_ne _ hother] at hn
        exact hkept rfl (h.mapped other n hn)
    · intro n cell hcell
      rw [List.getElem?_append] at hcell
      split at hcell
      · exact h.memory n cell hcell
      · rw [List.getElem?_singleton] at hcell
        split at hcell
        · cases hcell
          exact entrySound_create cacheDirectory
        · cases hcell

/-- INTERNAL: an entry of the map is that of its executable. -/
theorem executable_of_hasEntry (h : HasEntry w executable r)
    (hr : w.entries[r]? = some cell) : cell.entry.executable = executable := by
  obtain ⟨found, hfound, hexecutable⟩ := h
  rw [hr, Option.some.injEq] at hfound
  exact hfound ▸ hexecutable

/-- A step that changes neither entries nor files, and forgets at most cache files and
mappings. -/
theorem cacheSound_of_less (h : CacheSound resolver w) (hentries : w'.entries = w.entries)
    (hfiles : w'.files = w.files) (hdisk : Shrinks w.disk w'.disk)
    (hlocks : w'.locks = w.locks ∨ w'.locks = ∅) :
    CacheSound resolver w' ∧ CacheFrame w w' := by
  have hkept : ∀ other n, HasEntry w other n → HasEntry w' other n := by
    rintro other n ⟨found, hfound, hother⟩
    exact ⟨found, by rwa [hentries], hother⟩
  refine ⟨⟨?_, ?_, ?_⟩, ⟨?_, hkept⟩⟩
  · intro other n hn
    rcases hlocks with hlocks | hlocks
    · rw [hlocks] at hn
      exact hkept other n (h.mapped other n hn)
    · rw [hlocks, Finmap.lookup_empty] at hn
      cases hn
  · intro n found hfound
    rw [hentries] at hfound
    rw [hfiles]
    exact h.memory n found hfound
  · rw [hfiles]
    exact h.disk.shrinks hdisk
  · rw [hfiles]
    exact ValidatedMemo.Advances.refl _

/-- The tracked file that is read now is what the probe has seen of it. -/
def ReadsSeen (w : CacheWorld κ) : CacheCall κ → Prop
  | .reading _ _ _ seen (path :: _) _ =>
    (w.files path).contents = seen path ∧ (seen path).isSome = true
  | _ => True

/-- **One step** keeps everything sound, if it reads only what the probe has seen. -/
theorem cacheStep_sound (hprobe : ProbeTracked resolver)
    (h : CacheStep resolver w call w' call') (hseen : ReadsSeen w call)
    (hw : CacheSound resolver w) (hcall : CallSound resolver w call) :
    (CacheSound resolver w' ∧ CacheFrame w w') ∧ CallSound resolver w' call' := by
  have hnone : CacheSound resolver w ∧ CacheFrame w w :=
    cacheSound_of_less hw rfl rfl (fun _ _ h => h) (.inl rfl)
  cases h with
  | sample => exact ⟨hnone, trivial⟩
  | @create purpose executable cacheDirectory began =>
    obtain ⟨hsound, hframe, hentry⟩ := createCache_sound hw executable cacheDirectory
    exact ⟨⟨hsound, hframe⟩, hentry⟩
  | @lock purpose executable r entry hr =>
    have hentry : EntrySound resolver w.files entry := hw.memory r _ hr
    have hset := cacheSound_setCell ⟨entry, true⟩ hw hr rfl hentry hw.disk
    exact ⟨hset, hset.2.entries _ _ hcall⟩
  | @hit executable r cell installation entry disk hr hget =>
    obtain ⟨hexecutable, hentry, hdisk⟩ := get_sound hprobe (hw.memory r cell hr) hw.disk hget
    exact ⟨cacheSound_setCell ⟨entry, false⟩ hw hr hexecutable hentry hdisk,
      trivial⟩
  | @miss executable r cell entry disk hr hget =>
    obtain ⟨hexecutable, hentry, hdisk⟩ := get_sound hprobe (hw.memory r cell hr) hw.disk hget
    have hset := cacheSound_setCell ⟨entry, true⟩ hw hr hexecutable hentry hdisk
    exact ⟨hset, hset.2.entries _ _ hcall⟩
  | @unresolved executable r cell hr hnothing =>
    exact ⟨cacheSound_setCell ⟨cell.entry, false⟩ hw hr rfl (hw.memory r cell hr)
      hw.disk, trivial⟩
  | @probe executable r installation hdetails =>
    exact ⟨hnone, hcall, hdetails, fun path hpath => .inl hpath⟩
  | @read executable path r installation seen paths executables =>
    obtain ⟨hentry, hdetails, hread⟩ := hcall
    refine ⟨hnone, hentry, hdetails, ?_⟩
    intro tracked htracked
    rcases hread tracked htracked with hleft | ⟨modified, ⟨created, hmem⟩, hcertified⟩
    · rcases List.mem_cons.mp hleft with rfl | hleft
      · -- the time that is read stands for the contents the probe has seen
        have hthere : (w.files tracked).contents.isSome = true := by
          rw [hseen.1]
          exact hseen.2
        obtain ⟨created, hmem⟩ := recorded_read hthere
        exact .inr ⟨_, ⟨created, List.mem_append_right _ hmem⟩,
          ValidatedMemo.certifies_now hseen.1⟩
      · exact .inl hleft
    · exact .inr ⟨modified, ⟨created, List.mem_append_left _ hmem⟩, hcertified⟩
  | @sort executable r installation seen executables =>
    obtain ⟨hentry, hdetails, hread⟩ := hcall
    refine ⟨hnone, hentry, seen, hdetails, ?_⟩
    intro path hpath
    obtain ⟨modified, ⟨created, hmem⟩, hcertified⟩ :=
      (hread path hpath).resolve_left List.not_mem_nil
    exact ⟨modified, ⟨created, mem_sortDedup.mpr hmem⟩, hcertified⟩
  | @storeInMemory executable r installation executables cell hr =>
    obtain ⟨hentry, hresolved⟩ := hcall
    have hexecutable := executable_of_hasEntry hentry hr
    have hstored : EntrySound resolver w.files
        (cell.entry.storeInMemory installation executables) := by
      intro stored hstored
      cases hstored
      exact hexecutable.symm ▸ hresolved
    have hset := cacheSound_setCell
      ⟨cell.entry.storeInMemory installation executables, true⟩ hw hr rfl hstored hw.disk
    exact ⟨hset, hset.2.entries _ _ hentry, hresolved⟩
  | @storeOnDisk executable r installation executables cell disk hr houtcome =>
    obtain ⟨hentry, hresolved⟩ := hcall
    have hexecutable := executable_of_hasEntry hentry hr
    have hdisk := storeOutcome_sound hw.disk (hexecutable.symm ▸ hresolved) houtcome
    exact ⟨cacheSound_setCell ⟨cell.entry, false⟩ hw hr rfl (hw.memory r cell hr)
      hdisk, trivial⟩
  | @track executable r paths cell hr =>
    obtain ⟨hexecutable, hentry, hdisk⟩ :=
      trackExecutables_sound (hw.memory r cell hr) hw.disk paths
    exact ⟨cacheSound_setCell ⟨_, false⟩ hw hr hexecutable hentry hdisk, trivial⟩
  | unchanged => exact ⟨hnone, trivial⟩
  | replace =>
    exact ⟨cacheSound_of_less hw rfl rfl (fun _ _ h => h) (.inl rfl), trivial⟩
  | clearAfterChange =>
    exact ⟨cacheSound_of_less hw rfl rfl (fun _ _ h => h) (.inr rfl), trivial⟩
  | clearLocks =>
    exact ⟨cacheSound_of_less hw rfl rfl (fun _ _ h => h) (.inr rfl), trivial⟩
  | @removeDirectory disk hremove =>
    refine ⟨cacheSound_of_less hw rfl rfl ?_ (.inl rfl), trivial⟩
    intro path cache hcache
    rcases hremove path with hsame | ⟨hremoved, -⟩
    · exact hsame ▸ hcache
    · have hgone : disk path = some cache := hcache
      rw [hremoved] at hgone
      cases hgone
  | @write files hfiles =>
    refine ⟨⟨⟨hw.mapped, ?_, hw.disk.advance hfiles⟩, hfiles, fun _ _ h => h⟩, trivial⟩
    intro r cell hr
    exact (hw.memory r cell hr).advance hfiles

end Invariant

/-! ## Every run -/

section Runs

variable {s : CacheState κ}

/-- A tracked file, when its time is read, is there and is what it was for the probe of
the call. -/
def ReadsUnchanged (s : CacheState κ) : TaskSystem.Label Unit → Prop
  | .spawn => True
  | .step i _ => ∀ call, s.tasks[i]? = some call → ReadsSeen s.shared call

/-- **The cache is sound** in every state that is reached with unchanged reads. -/
theorem cache_sound (hprobe : ProbeTracked resolver)
    (h : ((resolutionCache resolver).machine.when ReadsUnchanged).Reachable s) :
    CacheSound resolver s.shared ∧
      ∀ (i : ℕ) (call : CacheCall κ), s.tasks[i]? = some call →
        CallSound resolver s.shared call := by
  refine TaskSystem.invariant_when (G := CacheSound resolver)
    (L := fun w _ call => CallSound resolver w call) ?_ ?_ ?_ ?_ h
  · rintro w ⟨hlocks, hentries, hdisk, -, -⟩
    refine ⟨?_, ?_, ?_⟩
    · intro executable r hr
      rw [hlocks, Finmap.lookup_empty] at hr
      cases hr
    · intro r cell hr
      rw [hentries] at hr
      cases hr
    · intro path cache hcache
      rw [hdisk] at hcache
      cases hcache
  · intro s call _ _ _ harrival
    cases harrival <;> trivial
  · intro s i call _ w' call' _ hC hi hstep hG hL
    have hsound := cacheStep_sound hprobe hstep (hC call hi) hG hL
    exact ⟨hsound.1.1, hsound.2⟩
  · intro s i call _ w' call' j other _ hC hi hstep _ _ hG hL hother
    exact hother.frame (cacheStep_sound hprobe hstep (hC call hi) hG hL).1.2

/-- **Freshness.** In every run in which each tracked file, when its time is read after a
probe, is there as the probe has seen it, whatever `get` answers a call of
`ResolvedRInstallation::from`, from memory or from disk, is what a probe of the current
contents returns. -/
theorem resolution_fresh (hprobe : ProbeTracked resolver)
    (h : ((resolutionCache resolver).machine.when ReadsUnchanged).Reachable s) {i r : ℕ}
    {executable : PathBuf}
    (hi : s.tasks[i]? = some (.locked .resolve executable r)) :
    ∃ cell, s.shared.entries[r]? = some cell ∧
      ∀ installation,
        (cell.entry.get resolver s.shared.files s.shared.disk).1 = some installation →
        resolver.getInstallationDetails s.shared.files.contents executable =
          some installation := by
  obtain ⟨hsound, hcalls⟩ := cache_sound hprobe h
  obtain ⟨cell, hr, hexecutable⟩ : HasEntry s.shared executable r := hcalls i _ hi
  refine ⟨cell, hr, ?_⟩
  intro installation hget
  rw [← hexecutable]
  exact probe_of_get hprobe (hsound.memory r cell hr) hsound.disk hget

end Runs

/-! ## An upgrade during a resolution -/

section Sample

/-- INTERNAL: the change of the sample file is seen in its time of modification. -/
theorem sampleFiles_advance : ValidatedMemo.Advances FileState.modified
    (sampleFiles description440 1) (sampleFiles description441 2) := by
  intro path
  unfold sampleFiles
  by_cases hlauncher : path = sampleLauncher
  · exact .inl (by simp only [hlauncher, if_true])
  · by_cases hdescription : path = sampleDescription
    · refine .inr ?_
      simp only [if_neg hlauncher, if_pos hdescription]
      omega
    · exact .inl (by simp only [hlauncher, hdescription, if_false])

/-- A cache whose map has the launcher's entry. -/
def sampleWorld (entries : List CacheCell) (files : Files String) : CacheWorld String :=
  ⟨none, (∅ : Finmap fun _ : PathBuf => ℕ).insert sampleLauncher 0, entries, fun _ => none,
    files, [none], []⟩

/-- The times read of the two files. -/
def sampleTimes (modified : ℕ) : List FilePathWithMTimeCTime :=
  sortDedup [⟨sampleLauncher, 1, some 1⟩, ⟨sampleDescription, modified, some 1⟩]

/-- A first call has stored its result, and a second one is about to ask for it. -/
def askedState (modified : ℕ) (files : Files String) (between : List (CacheCall String)) :
    CacheState String :=
  ⟨sampleWorld
      [⟨⟨none, sampleLauncher, some (sampleResolved "4.4.0"), sampleTimes modified⟩, true⟩]
      files,
    .returned (some (sampleResolved "4.4.0")) :: between ++
      [.locked .resolve sampleLauncher 0]⟩

/-- A step that reads only what the probe has seen. -/
theorem reachable_step {s : CacheState String} {i : ℕ} {call call' : CacheCall String}
    {w' : CacheWorld String}
    (hs : ((resolutionCache sampleResolver).machine.when ReadsUnchanged).Reachable s)
    (hi : s.tasks[i]? = some call) (hseen : ReadsSeen s.shared call)
    (hstep : CacheStep sampleResolver s.shared call w' call') :
    ((resolutionCache sampleResolver).machine.when ReadsUnchanged).Reachable
      ⟨w', s.tasks.set i call'⟩ := by
  refine .step hs ⟨?_, TaskSystem.Step.step (a := ()) hi hstep⟩
  intro other hother
  rw [hi, Option.some.injEq] at hother
  exact hother ▸ hseen

/-- INTERNAL: a call may arrive in every state. -/
theorem reachable_spawn {s : CacheState String} {call : CacheCall String}
    (hs : ((resolutionCache sampleResolver).machine.when ReadsUnchanged).Reachable s)
    (h : CacheArrival call) :
    ((resolutionCache sampleResolver).machine.when ReadsUnchanged).Reachable
      ⟨s.shared, s.tasks ++ [call]⟩ := by
  have hspawn : ReadsUnchanged s .spawn := trivial
  exact .step hs ⟨hspawn, .spawn h⟩

/-- The state after the probe of the first call. -/
def probedState : CacheState String :=
  ⟨sampleWorld [⟨CacheEntryImpl.create none sampleLauncher, true⟩]
      (sampleFiles description440 1),
    [.reading sampleLauncher 0 (sampleResolved "4.4.0")
      (sampleFiles description440 1).contents [sampleLauncher, sampleDescription] []]⟩

/-- INTERNAL: the state after the probe is reached. -/
theorem probedState_reachable :
    ((resolutionCache sampleResolver).machine.when ReadsUnchanged).Reachable probedState := by
  have h0 : ((resolutionCache sampleResolver).machine.when ReadsUnchanged).Reachable
      ⟨⟨none, ∅, [], fun _ => none, sampleFiles description440 1, [none], []⟩, []⟩ :=
    .init ⟨⟨rfl, rfl, rfl, rfl, rfl⟩, rfl⟩
  have h1 := reachable_spawn h0 (CacheArrival.resolve sampleLauncher)
  have h2 := reachable_step (i := 0) h1 rfl trivial CacheStep.sample
  have h3 := reachable_step (i := 0) h2 rfl trivial CacheStep.create
  have h4 := reachable_step (i := 0) h3 rfl trivial (CacheStep.lock rfl)
  have h5 := reachable_step (i := 0) h4 rfl trivial (CacheStep.miss rfl rfl)
  exact reachable_step (i := 0) h5 rfl trivial (CacheStep.probe (by decide))

/-- Nobody writes while the first call resolves. -/
theorem askedState_reachable :
    ((resolutionCache sampleResolver).machine.when ReadsUnchanged).Reachable
      (askedState 1 (sampleFiles description440 1) []) := by
  have h1 := reachable_step (i := 0) probedState_reachable rfl ⟨rfl, rfl⟩ CacheStep.read
  have h2 := reachable_step (i := 0) h1 rfl ⟨rfl, rfl⟩ CacheStep.read
  have h3 := reachable_step (i := 0) h2 rfl trivial CacheStep.sort
  have h4 := reachable_step (i := 0) h3 rfl trivial (CacheStep.storeInMemory rfl)
  have h5 := reachable_step (i := 0) h4 rfl trivial
    (CacheStep.storeOnDisk rfl StoreOutcome.written)
  have h6 := reachable_spawn h5 (CacheArrival.resolve sampleLauncher)
  have h7 := reachable_step (i := 1) h6 rfl trivial CacheStep.sample
  have h8 := reachable_step (i := 1) h7 rfl trivial CacheStep.create
  exact reachable_step (i := 1) h8 rfl trivial (CacheStep.lock rfl)

/-- The theorem for an entry that is asked after a probe. -/
theorem resolution_fresh_asked :
    ∃ cell, (askedState 1 (sampleFiles description440 1) []).shared.entries[0]? = some cell ∧
      ∀ installation,
        (cell.entry.get sampleResolver (sampleFiles description440 1) fun _ => none).1 =
            some installation →
          sampleResolver.getInstallationDetails (sampleFiles description440 1).contents
            sampleLauncher = some installation :=
  resolution_fresh (i := 1) sampleResolver_tracked askedState_reachable rfl

/-- The description is upgraded after the first call has probed and before it reads the
times; from then on its result is answered. -/
theorem stale_resolution :
    ProbeTracked sampleResolver ∧
    (resolutionCache sampleResolver).Reachable
      (askedState 2 (sampleFiles description441 2) [.finished]) ∧
    (askedState 2 (sampleFiles description441 2) [.finished]).tasks[2]? =
      some (.locked .resolve sampleLauncher 0) ∧
    ∃ cell,
      (askedState 2 (sampleFiles description441 2) [.finished]).shared.entries[0]? =
          some cell ∧
        (cell.entry.get sampleResolver (sampleFiles description441 2) fun _ => none).1 =
          some (sampleResolved "4.4.0") ∧
        sampleResolver.getInstallationDetails (sampleFiles description441 2).contents
          sampleLauncher = some (sampleResolved "4.4.1") := by
  have h0 : (resolutionCache sampleResolver).Reachable probedState :=
    probedState_reachable.of_when
  have h1 := Machine.Reachable.step h0 (TaskSystem.Step.spawn CacheArrival.write)
  have h2 := Machine.Reachable.step h1
    (TaskSystem.Step.step (i := 1) (a := ()) rfl (CacheStep.write sampleFiles_advance))
  have h3 := Machine.Reachable.step h2
    (TaskSystem.Step.step (i := 0) (a := ()) rfl CacheStep.read)
  have h4 := Machine.Reachable.step h3
    (TaskSystem.Step.step (i := 0) (a := ()) rfl CacheStep.read)
  have h5 := Machine.Reachable.step h4
    (TaskSystem.Step.step (i := 0) (a := ()) rfl CacheStep.sort)
  have h6 := Machine.Reachable.step h5
    (TaskSystem.Step.step (i := 0) (a := ()) rfl (CacheStep.storeInMemory rfl))
  have h7 := Machine.Reachable.step h6 (TaskSystem.Step.step (i := 0) (a := ()) rfl
    (CacheStep.storeOnDisk rfl StoreOutcome.written))
  have h8 := Machine.Reachable.step h7
    (TaskSystem.Step.spawn (CacheArrival.resolve sampleLauncher))
  have h9 := Machine.Reachable.step h8
    (TaskSystem.Step.step (i := 2) (a := ()) rfl CacheStep.sample)
  have h10 := Machine.Reachable.step h9
    (TaskSystem.Step.step (i := 2) (a := ()) rfl CacheStep.create)
  have h11 := Machine.Reachable.step h10
    (TaskSystem.Step.step (i := 2) (a := ()) rfl (CacheStep.lock rfl))
  exact ⟨sampleResolver_tracked, h11, rfl, _, rfl, by decide, by decide⟩

end Sample

end REnvTools.Analysis
