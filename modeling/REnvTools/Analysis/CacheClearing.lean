import REnvTools.Model.CacheClearing
import Mathlib.Tactic.Common

/-!
# What clearing the cache achieves

In the runs in which no call of `clear` is disturbed, each of them succeeds, and an entry that
is obtained after one has returned never gives an installation that was stored before it
began. What disturbs a call is a directory that does not exist, a cache file that is made
while the directory is removed, a cache file that is read into the map between the two parts
of `clear`, and a cache file that is written only after it.
-/

set_option autoImplicit false

namespace REnvTools.Analysis

open REnvTools.Lib REnvTools.Program REnvTools.Model

variable {κ : Type} {resolver : Resolver κ} {w w' : ClearingWorld κ} {call call' : ClearingCall}

/-! ## One step -/

/-- What a step of any call leaves as it was. -/
structure ClearingFrame (w w' : ClearingWorld κ) : Prop where
  cacheDir : w'.cacheDir = w.cacheDir
  nextInode : w.nextInode ≤ w'.nextInode
  begun : w.begun ≤ w'.begun
  cleared : ∀ k ∈ w.cleared, k ∈ w'.cleared
  entries : ∀ (r : ℕ) cell, w.entries[r]? = some cell →
    ∃ cell', w'.entries[r]? = some cell' ∧ cell'.since = cell.since

/-- INTERNAL: the step changes none of it. -/
theorem ClearingFrame.of_eq (hdir : w'.cacheDir = w.cacheDir) (hinode : w.nextInode ≤ w'.nextInode)
    (hbegun : w'.begun = w.begun) (hcleared : w'.cleared = w.cleared)
    (hentries : w'.entries = w.entries) : ClearingFrame w w' where
  cacheDir := hdir
  nextInode := hinode
  begun := Nat.le_of_eq hbegun.symm
  cleared k hk := by rwa [hcleared]
  entries r cell hr := ⟨cell, by rwa [hentries], rfl⟩

/-- INTERNAL: a cell is set. -/
theorem ClearingFrame.setCell {r : ℕ} {cell cell' : ClearingCell} (hr : w.entries[r]? = some cell)
    (hsince : cell'.since = cell.since) : ClearingFrame w (w.setCell r cell') where
  cacheDir := rfl
  nextInode := Nat.le_refl _
  begun := Nat.le_refl _
  cleared _ hk := hk
  entries j other hj := by
    change ∃ cell₀, (w.entries.set r cell')[j]? = some cell₀ ∧ cell₀.since = other.since
    rw [List.getElem?_set]
    split
    · rename_i heq
      subst heq
      obtain ⟨hlt, _⟩ := List.getElem?_eq_some_iff.mp hr
      rw [hr] at hj
      cases hj
      exact ⟨cell', by rw [if_pos hlt], hsince⟩
    · exact ⟨other, hj, rfl⟩

/-- INTERNAL: an entry is added, if there is none. -/
theorem ClearingFrame.createCache (w : ClearingWorld κ) (executable : PathBuf)
    (cacheDirectory : Option PathBuf) :
    ClearingFrame w (w.createCache executable cacheDirectory).1 := by
  unfold ClearingWorld.createCache
  split
  · exact .of_eq rfl (Nat.le_refl _) rfl rfl rfl
  · refine ⟨rfl, Nat.le_refl _, Nat.le_refl _, fun _ hk => hk, fun r cell hr => ⟨cell, ?_, rfl⟩⟩
    obtain ⟨hlt, _⟩ := List.getElem?_eq_some_iff.mp hr
    exact (List.getElem?_append_left hlt).trans hr

/-- The frame of every step. -/
theorem ClearingFrame.of_step (h : ClearingStep resolver w call w' call') :
    ClearingFrame w w' := by
  cases h with
  | create => exact .createCache _ _ _
  | lock hr | unlock hr | invalidate hr | remember hr | store hr | storeInMemory hr =>
    exact .setCell hr rfl
  | openNew => exact .of_eq rfl (Nat.le_succ _) rfl rfl rfl
  | begin =>
    exact ⟨rfl, Nat.le_refl _, Nat.le_succ _, fun _ hk => hk, fun _ cell hr => ⟨cell, hr, rfl⟩⟩
  | clearLocks =>
    exact ⟨rfl, Nat.le_refl _, Nat.le_refl _, fun _ hk => List.mem_append_left _ hk,
      fun _ cell hr => ⟨cell, hr, rfl⟩⟩
  | _ => exact .of_eq rfl (Nat.le_refl _) rfl rfl rfl

/-- INTERNAL: a file after one is set is that one, or was there before. -/
theorem setFile_cases {path other : PathBuf} {new : Option DiskFile} {file : DiskFile}
    (h : (w.setFile path new).disk other = some file) :
    other = path ∧ new = some file ∨ other ≠ path ∧ w.disk other = some file := by
  change Function.update w.disk path new other = some file at h
  by_cases heq : other = path
  · subst heq
    rw [Function.update_self] at h
    exact .inl ⟨rfl, h⟩
  · rw [Function.update_of_ne heq] at h
    exact .inr ⟨heq, h⟩

/-- The files in the cache directory after a step are those before it, except for one that was
made. -/
theorem disk_of_step (h : ClearingStep resolver w call w' call') {path : PathBuf}
    {file : DiskFile} (hfile : w'.disk path = some file) :
    (∃ file₀, w.disk path = some file₀ ∧ file₀.inode = file.inode) ∨
      file.inode = w.nextInode ∧ w.disk path = none ∧
        ∃ r after cache stamp, call = .opening r after path cache stamp := by
  have hold : ∀ {cacheFile new}, w'.disk = (w.setFile cacheFile new).disk →
      (∀ file₁, new = some file₁ → ∃ file₀, w.disk cacheFile = some file₀ ∧
        file₀.inode = file₁.inode) →
      ∃ file₀, w.disk path = some file₀ ∧ file₀.inode = file.inode := by
    intro cacheFile new hdisk hnew
    rw [hdisk] at hfile
    obtain ⟨rfl, hset⟩ | ⟨-, hkept⟩ := setFile_cases hfile
    · exact hnew file hset
    · exact ⟨file, hkept, rfl⟩
  cases h with
  | create =>
    refine .inl ⟨file, ?_, rfl⟩
    unfold ClearingWorld.createCache at hfile
    split at hfile <;> exact hfile
  | deleteCacheFile | removeInvalid | unlink => exact .inl (hold rfl nofun)
  | @openNew r after cacheFile cache stamp _ hnone =>
    obtain ⟨rfl, hset⟩ | ⟨-, hkept⟩ := setFile_cases hfile
    · cases hset
      exact .inr ⟨rfl, hnone, r, after, cache, stamp, rfl⟩
    · exact .inl ⟨file, hkept, rfl⟩
  | openExisting hfile₀ =>
    refine .inl (hold rfl fun file₁ hnew => ?_)
    cases hnew
    exact ⟨_, hfile₀, rfl⟩
  | write hfile₀ hinode =>
    refine .inl (hold rfl fun file₁ hnew => ?_)
    cases hnew
    exact ⟨_, hfile₀, hinode⟩
  | _ => exact .inl ⟨file, hfile, rfl⟩

/-! ## What holds of the cache and of each call -/

/-- What is cached was stored late enough: an entry's installation since each call of `clear`
that had dropped the map when the entry was made, and a cache file's since each call that has
returned. -/
structure CellsSound (w : ClearingWorld κ) : Prop where
  bounded : ∀ k ∈ w.cleared, k ≤ w.begun
  returned : ∀ k ∈ w.returned, k ∈ w.cleared
  locks : ∀ executable r, w.locks.lookup executable = some r →
    ∃ cell, w.entries[r]? = some cell ∧ ∀ k ∈ w.cleared, k ∈ cell.since
  cells : ∀ (r : ℕ) cell, w.entries[r]? = some cell →
    cell.entry.cacheDirectory = w.cacheDir ∧ (∀ k ∈ cell.since, k ∈ w.cleared) ∧
      (cell.entry.installation ≠ none → ∀ k ∈ cell.since, k ≤ cell.stamp)
  disk : ∀ path file, w.disk path = some file →
    w.cacheDir ≠ none ∧ file.inode < w.nextInode ∧
      (file.contents ≠ none → ∀ k ∈ w.returned, k ≤ file.stamp)

/-- The entry was made after the given calls of `clear` had dropped the map. -/
def MadeAfter (w : ClearingWorld κ) (r : ℕ) (after : List ℕ) : Prop :=
  ∃ cell, w.entries[r]? = some cell ∧ ∀ k ∈ after, k ∈ cell.since

/-- What holds of a call. -/
def ClearingCallSound (w : ClearingWorld κ) : ClearingCall → Prop
  | .creating _ after => ∀ k ∈ after, k ∈ w.cleared
  | .sampled _ cacheDirectory after =>
    cacheDirectory = w.cacheDir ∧ ∀ k ∈ after, k ∈ w.cleared
  | .holding r after | .locked r after | .invalidated r after | .missed r after
  | .discarding r after _ => MadeAfter w r after
  | .loaded r after _ stamp =>
    MadeAfter w r after ∧ ∀ cell, w.entries[r]? = some cell → ∀ k ∈ cell.since, k ≤ stamp
  | .got r after result =>
    MadeAfter w r after ∧ ∀ installation stamp, result = some (installation, stamp) →
      ∀ k ∈ after, k ≤ stamp
  | .storing r after _ _ _ | .opening r after _ _ _ => MadeAfter w r after ∧ w.cacheDir ≠ none
  | .writing r after path inode _ stamp =>
    MadeAfter w r after ∧ w.cacheDir ≠ none ∧ inode < w.nextInode ∧
      ∀ file, w.disk path = some file → file.inode = inode → ∀ k ∈ w.returned, k ≤ stamp
  | .begun clear => clear ≤ w.begun
  | .clearedLocks clear => clear ∈ w.cleared
  | .removing clear rest =>
    clear ∈ w.cleared ∧ ∀ path, w.disk path ≠ none → path ∈ rest
  | .finished _ result => result = .ok
  | .clearing | .changing | .changed => True

/-- The call removes the directory. -/
def IsRemoving : ClearingCall → Prop
  | .removing .. => True
  | _ => False

/-- The call may step without disturbing a call of `clear`, or being disturbed itself. -/
def Undisturbed (resolver : Resolver κ) (s : ClearingState κ) : ClearingCall → Prop
  -- the directory to be removed exists
  | .clearedLocks _ => s.shared.cacheDir ≠ none → s.shared.directory = true
  -- a cache file that is read into an entry made between the two parts of a call of `clear`
  -- is read after this call has returned, or was stored after it began
  | .missed r _ => ∀ cell cacheDirectory file, s.shared.entries[r]? = some cell →
      cell.entry.cacheDirectory = some cacheDirectory →
      s.shared.disk (resolver.generateCacheFile cacheDirectory cell.entry.executable) =
        some file → ∀ k ∈ cell.since, k ∈ s.shared.returned ∨ k ≤ file.stamp
  -- no cache file is made while the directory is removed, nor opened for an installation
  -- that was stored before a call of `clear` began that has returned
  | .opening _ _ path _ stamp =>
    (s.shared.disk path = none → ∀ other ∈ s.tasks, ¬ IsRemoving other) ∧
      ∀ k ∈ s.shared.returned, k ≤ stamp
  | _ => True

/-- INTERNAL: the entry stays the entry that was made then. -/
theorem MadeAfter.frame {r : ℕ} {after : List ℕ} (h : MadeAfter w r after)
    (hframe : ClearingFrame w w') : MadeAfter w' r after := by
  obtain ⟨cell, hr, hafter⟩ := h
  obtain ⟨cell', hr', hsince⟩ := hframe.entries r cell hr
  exact ⟨cell', hr', fun k hk => by rw [hsince]; exact hafter k hk⟩

/-- INTERNAL: nothing is on disk unless a directory is configured. -/
theorem CellsSound.disk_eq_none (hw : CellsSound w) (hdir : w.cacheDir = none) (path : PathBuf) :
    w.disk path = none := by
  cases hfile : w.disk path with
  | none => rfl
  | some file => exact absurd hdir (hw.disk path file hfile).1

/-- INTERNAL: a call of `clear` that returns leaves no cache file. -/
theorem returned_of_step {s : ClearingState κ}
    (h : ClearingStep resolver s.shared call w' call') (hw : CellsSound s.shared)
    (hcall : ClearingCallSound s.shared call) (hquiet : Undisturbed resolver s call) :
    w'.returned = s.shared.returned ∨
      (∀ path, w'.disk path = none) ∧
        ∃ k ∈ s.shared.cleared, w'.returned = s.shared.returned ++ [k] := by
  cases h with
  | create =>
    refine .inl ?_
    unfold ClearingWorld.createCache
    split <;> rfl
  | @notConfigured clear _ hdir => exact .inr ⟨hw.disk_eq_none hdir, clear, hcall, rfl⟩
  | notFound _ hdir hdirectory =>
    have hexists := hquiet hdir
    rw [hdirectory] at hexists
    cases hexists
  | @removeDir clear hempty => exact .inr ⟨hempty, clear, hcall.1, rfl⟩
  | notEmpty hfile => exact absurd (hcall.2 _ hfile) List.not_mem_nil
  | _ => exact .inl rfl

/-! ## The other calls -/

/-- INTERNAL: what holds of a call is not disturbed by the step of another one. -/
theorem clearingCallSound_other {s : ClearingState κ} {other : ClearingCall}
    (h : ClearingStep resolver s.shared call w' call') (hw : CellsSound s.shared)
    (hcall : ClearingCallSound s.shared call) (hquiet : Undisturbed resolver s call)
    (hmem : other ∈ s.tasks) (hother : ClearingCallSound s.shared other) :
    ClearingCallSound w' other := by
  have hframe := ClearingFrame.of_step h
  cases other with
  | creating executable after => exact fun k hk => hframe.cleared k (hother k hk)
  | sampled executable cacheDirectory after =>
    exact ⟨hother.1.trans hframe.cacheDir.symm, fun k hk => hframe.cleared k (hother.2 k hk)⟩
  | holding | locked | invalidated | missed | discarding => exact MadeAfter.frame hother hframe
  | loaded r after cache stamp =>
    refine ⟨hother.1.frame hframe, fun cell' hr' k hk => ?_⟩
    obtain ⟨cell, hr, _⟩ := hother.1
    obtain ⟨cell₁, hr₁, hsince⟩ := hframe.entries r cell hr
    rw [hr'] at hr₁
    cases hr₁
    rw [hsince] at hk
    exact hother.2 cell hr k hk
  | got r after result => exact ⟨hother.1.frame hframe, hother.2⟩
  | storing | opening =>
    exact ⟨hother.1.frame hframe, by rw [hframe.cacheDir]; exact hother.2⟩
  | writing r after path inode cache stamp =>
    obtain ⟨hmade, hdir, hinode, hstamp⟩ := hother
    refine ⟨hmade.frame hframe, by rwa [hframe.cacheDir], by
      exact Nat.lt_of_lt_of_le hinode hframe.nextInode, ?_⟩
    intro file hfile heq
    obtain hsame | ⟨hempty, _⟩ := returned_of_step h hw hcall hquiet
    · rw [hsame]
      obtain ⟨file₀, hfile₀, hinode₀⟩ | ⟨hnew, _⟩ := disk_of_step h hfile
      · exact hstamp file₀ hfile₀ (hinode₀.trans heq)
      · omega
    · rw [hempty path] at hfile
      cases hfile
  | begun => exact Nat.le_trans hother hframe.begun
  | clearedLocks => exact hframe.cleared _ hother
  | removing clear rest =>
    refine ⟨hframe.cleared _ hother.1, fun path hpath => ?_⟩
    obtain ⟨file, hfile⟩ := Option.ne_none_iff_exists'.mp hpath
    obtain ⟨file₀, hfile₀, _⟩ | ⟨_, hnone, r, after, cache, stamp, hopening⟩ :=
      disk_of_step h hfile
    · exact hother.2 path (by rw [hfile₀]; exact Option.some_ne_none file₀)
    · subst hopening
      exact absurd trivial (hquiet.1 hnone _ hmem)
  | finished => exact hother
  | clearing | changing | changed => trivial

/-! ## The cache -/

/-- INTERNAL: an entry is set that is sound itself. -/
theorem CellsSound.setCell (hw : CellsSound w) {r : ℕ} {cell cell' : ClearingCell}
    (hr : w.entries[r]? = some cell)
    (hdir : cell'.entry.cacheDirectory = cell.entry.cacheDirectory)
    (hsince : cell'.since = cell.since)
    (hstamp : cell'.entry.installation ≠ none → ∀ k ∈ cell.since, k ≤ cell'.stamp) :
    CellsSound (w.setCell r cell') where
  bounded := hw.bounded
  returned := hw.returned
  locks executable j hj := by
    obtain ⟨other, hother, hcleared⟩ := hw.locks executable j hj
    obtain ⟨other', hother', hsince'⟩ :=
      (ClearingFrame.setCell (w := w) hr hsince).entries j other hother
    exact ⟨other', hother', fun k hk => by rw [hsince']; exact hcleared k hk⟩
  cells j other hj := by
    obtain ⟨-, rfl⟩ | ⟨-, hold⟩ := Pool.getElem?_set_cases hj
    · obtain ⟨hcell, hbound, _⟩ := hw.cells r cell hr
      rw [hsince]
      exact ⟨hdir.trans hcell, hbound, hstamp⟩
    · exact hw.cells j other hold
  disk := hw.disk

/-- INTERNAL: a cache file is set that is sound itself, or removed. -/
theorem CellsSound.setFile (hw : CellsSound w) (path : PathBuf) (new : Option DiskFile)
    (hnew : ∀ file, new = some file → w.cacheDir ≠ none ∧ file.inode < w.nextInode ∧
      (file.contents ≠ none → ∀ k ∈ w.returned, k ≤ file.stamp)) :
    CellsSound (w.setFile path new) where
  bounded := hw.bounded
  returned := hw.returned
  locks := hw.locks
  cells := hw.cells
  disk other file hfile := by
    obtain ⟨-, hset⟩ | ⟨-, hold⟩ := setFile_cases hfile
    · exact hnew file hset
    · exact hw.disk other file hold

/-- INTERNAL: a cache file is made, and has no contents yet. -/
theorem CellsSound.openNew (hw : CellsSound w) (hdir : w.cacheDir ≠ none) (path : PathBuf) :
    CellsSound { w.setFile path (some ⟨w.nextInode, none, 0⟩) with
      nextInode := w.nextInode + 1 } where
  bounded := hw.bounded
  returned := hw.returned
  locks := hw.locks
  cells := hw.cells
  disk other file hfile := by
    obtain ⟨-, hset⟩ | ⟨-, hold⟩ := setFile_cases hfile
    · cases hset
      exact ⟨hdir, Nat.lt_succ_self _, fun hsome => absurd rfl hsome⟩
    · obtain ⟨hconfigured, hinode, hstamp⟩ := hw.disk other file hold
      exact ⟨hconfigured, Nat.lt_succ_of_lt hinode, hstamp⟩

/-- INTERNAL: the map is dropped. -/
theorem CellsSound.clearLocks (hw : CellsSound w) {clear : ℕ} (hbegun : clear ≤ w.begun) :
    CellsSound { w with locks := ∅, cleared := w.cleared ++ [clear] } where
  bounded k hk := by
    obtain hk | hk := List.mem_append.mp hk
    · exact hw.bounded k hk
    · rw [List.mem_singleton.mp hk]
      exact hbegun
  returned k hk := List.mem_append_left _ (hw.returned k hk)
  locks executable r hr := by
    rw [Finmap.lookup_empty] at hr
    cases hr
  cells r cell hr := by
    obtain ⟨hdir, hsince, hstamp⟩ := hw.cells r cell hr
    exact ⟨hdir, fun k hk => List.mem_append_left _ (hsince k hk), hstamp⟩
  disk := hw.disk

/-- INTERNAL: the entry that `create_cache` hands out. -/
theorem CellsSound.createCache (hw : CellsSound w) (executable : PathBuf) {after : List ℕ}
    (hafter : ∀ k ∈ after, k ∈ w.cleared) :
    CellsSound (w.createCache executable w.cacheDir).1 ∧
      MadeAfter (w.createCache executable w.cacheDir).1
        (w.createCache executable w.cacheDir).2 after := by
  unfold ClearingWorld.createCache
  split
  · rename_i r hr
    obtain ⟨cell, hcell, hcleared⟩ := hw.locks executable r hr
    exact ⟨hw, cell, hcell, fun k hk => hcleared k (hafter k hk)⟩
  · have hnew : (w.entries ++ [⟨CacheEntryImpl.create w.cacheDir executable, false, 0,
        w.cleared⟩])[w.entries.length]? =
          some ⟨CacheEntryImpl.create w.cacheDir executable, false, 0, w.cleared⟩ := by
      rw [List.getElem?_append_right (Nat.le_refl _), Nat.sub_self]
      rfl
    refine ⟨⟨hw.bounded, hw.returned, ?_, ?_, hw.disk⟩, _, hnew, hafter⟩
    · intro other r hr
      by_cases heq : other = executable
      · subst heq
        rw [Finmap.lookup_insert] at hr
        cases hr
        exact ⟨_, hnew, fun k hk => hk⟩
      · rw [Finmap.lookup_insert_of_ne _ heq] at hr
        obtain ⟨cell, hcell, hcleared⟩ := hw.locks other r hr
        obtain ⟨hlt, _⟩ := List.getElem?_eq_some_iff.mp hcell
        exact ⟨cell, (List.getElem?_append_left hlt).trans hcell, hcleared⟩
    · intro r cell hr
      change (w.entries ++ [_])[r]? = some cell at hr
      rw [List.getElem?_append] at hr
      split at hr
      · exact hw.cells r cell hr
      · rw [List.getElem?_singleton] at hr
        split at hr
        · cases hr
          exact ⟨rfl, fun k hk => hk, fun hsome => absurd rfl hsome⟩
        · cases hr

/-- INTERNAL: a call of `clear` that returns without leaving a cache file. -/
theorem CellsSound.finishClear (hw : CellsSound w) {clear : ℕ} (hclear : clear ∈ w.cleared)
    (hempty : ∀ path, w.disk path = none) : CellsSound (w.finishClear clear) where
  bounded := hw.bounded
  returned k hk := by
    obtain hk | hk := List.mem_append.mp hk
    · exact hw.returned k hk
    · rw [List.mem_singleton.mp hk]
      exact hclear
  locks := hw.locks
  cells := hw.cells
  disk path file hfile := by
    have hnone : (w.finishClear clear).disk path = none := hempty path
    rw [hnone] at hfile
    cases hfile

/-- INTERNAL: what the stepping call and the cache are after an undisturbed step. -/
theorem sound_self {s : ClearingState κ} (h : ClearingStep resolver s.shared call w' call')
    (hw : CellsSound s.shared) (hcall : ClearingCallSound s.shared call)
    (hquiet : Undisturbed resolver s call) : CellsSound w' ∧ ClearingCallSound w' call' := by
  have hframe := ClearingFrame.of_step h
  cases h with
  | sample => exact ⟨hw, rfl, hcall⟩
  | create =>
    obtain ⟨rfl, hafter⟩ := hcall
    exact hw.createCache _ hafter
  | lock hr | unlock hr =>
    exact ⟨hw.setCell hr rfl rfl (hw.cells _ _ hr).2.2, hcall.frame hframe⟩
  | hit hr _ hsome =>
    refine ⟨hw, hcall, ?_⟩
    intro installation stamp heq k hk
    cases heq
    obtain ⟨cell, hcell, hafter⟩ := hcall
    rw [hr] at hcell
    cases hcell
    exact (hw.cells _ _ hr).2.2 (by rw [hsome]; exact Option.some_ne_none _) k (hafter k hk)
  | miss | noCacheFile | discard => exact ⟨hw, hcall⟩
  | invalidate hr =>
    exact ⟨hw.setCell hr rfl rfl (fun hsome => absurd rfl hsome), hcall.frame hframe⟩
  | deleteCacheFile => exact ⟨hw.setFile _ _ nofun, hcall⟩
  | noDirectory | absent => exact ⟨hw, hcall, nofun⟩
  | removeInvalid => exact ⟨hw.setFile _ _ nofun, hcall, nofun⟩
  | load hr hdir hfile hload =>
    refine ⟨hw, hcall, fun cell hcell k hk => ?_⟩
    rw [hr] at hcell
    cases hcell
    -- a call of `clear` that is over has left no older file; of the others the condition says it
    obtain hreturned | hle := hquiet _ _ _ hr hdir hfile k hk
    · refine (hw.disk _ _ hfile).2.2 ?_ k hreturned
      intro hnone
      unfold Resolver.getCacheFromFile ClearingWorld.readable at hload
      rw [hfile] at hload
      simp [hnone] at hload
    · exact hle
  | remember hr =>
    refine ⟨hw.setCell hr rfl rfl (fun _ => hcall.2 _ hr), hcall.1.frame hframe, ?_⟩
    intro installation stamp heq k hk
    cases heq
    obtain ⟨cell, hcell, hafter⟩ := hcall.1
    exact hcall.2 cell hcell k (hafter k hk)
  | «return» => exact ⟨hw, hcall.1⟩
  | store hr hdir =>
    refine ⟨hw.setCell hr rfl rfl (fun _ k hk => hw.bounded k ((hw.cells _ _ hr).2.1 k hk)),
      hcall.frame hframe, ?_⟩
    rw [hframe.cacheDir, ← (hw.cells _ _ hr).1, hdir]
    exact Option.some_ne_none _
  | storeInMemory hr =>
    exact ⟨hw.setCell hr rfl rfl (fun _ k hk => hw.bounded k ((hw.cells _ _ hr).2.1 k hk)),
      hcall.frame hframe⟩
  | createDirAll => exact ⟨⟨hw.bounded, hw.returned, hw.locks, hw.cells, hw.disk⟩, hcall⟩
  | openNew =>
    exact ⟨hw.openNew hcall.2 _, hcall.1.frame hframe, hcall.2, Nat.lt_succ_self _,
      fun file _ _ => hquiet.2⟩
  | openExisting hfile =>
    have hinode := (hw.disk _ _ hfile).2.1
    refine ⟨hw.setFile _ _ fun file hnew => ?_, hcall.1.frame hframe, hcall.2, hinode,
      fun file _ _ => hquiet.2⟩
    cases hnew
    exact ⟨hcall.2, hinode, fun hsome => absurd rfl hsome⟩
  | write hfile hinode =>
    obtain ⟨hmade, hdir, hbound, hstamp⟩ := hcall
    refine ⟨hw.setFile _ _ fun file hnew => ?_, hmade.frame hframe⟩
    cases hnew
    exact ⟨hdir, hbound, fun _ => hstamp _ hfile hinode⟩
  | storeFails hcases =>
    obtain rfl | rfl | ⟨inode, rfl⟩ := hcases <;> exact ⟨hw, hcall.1⟩
  | begin =>
    exact ⟨⟨fun k hk => Nat.le_succ_of_le (hw.bounded k hk), hw.returned, hw.locks, hw.cells,
      hw.disk⟩, Nat.le_refl _⟩
  | clearLocks =>
    exact ⟨hw.clearLocks hcall, List.mem_append_right _ (List.mem_singleton.mpr rfl)⟩
  | notConfigured _ hdir => exact ⟨hw.finishClear hcall (hw.disk_eq_none hdir), rfl⟩
  | notFound _ hdir hdirectory =>
    have hexists := hquiet hdir
    rw [hdirectory] at hexists
    cases hexists
  | startRemoval _ _ _ hrest =>
    exact ⟨⟨hw.bounded, hw.returned, hw.locks, hw.cells, hw.disk⟩, hcall, hrest⟩
  | @unlink clear path rest =>
    refine ⟨hw.setFile _ _ nofun, hcall.1, fun other hother => ?_⟩
    obtain ⟨file, hfile⟩ := Option.ne_none_iff_exists'.mp hother
    obtain ⟨-, hset⟩ | ⟨hne, hold⟩ := setFile_cases hfile
    · cases hset
    -- what is left of the directory is still to be unlinked
    · have hmem := hcall.2 other (by rw [hold]; exact Option.some_ne_none file)
      exact (List.mem_cons.mp hmem).resolve_left hne
  | removeDir hempty =>
    have hfinished := hw.finishClear hcall.1 hempty
    exact ⟨⟨hfinished.bounded, hfinished.returned, hfinished.locks, hfinished.cells,
      hfinished.disk⟩, rfl⟩
  | notEmpty hfile => exact absurd (hcall.2 _ hfile) List.not_mem_nil
  | change => exact ⟨⟨hw.bounded, hw.returned, hw.locks, hw.cells, hw.disk⟩, trivial⟩

/-! ## Every run -/

/-- Each call is undisturbed, in the sense of `Undisturbed`, at each of its steps. -/
def ClearsUndisturbed (resolver : Resolver κ) :
    ClearingState κ → TaskSystem.Label Unit → Prop :=
  TaskSystem.StepsMeet (Undisturbed resolver)

/-- **The cache and the calls are sound in every undisturbed run.** -/
theorem sound_of_reachable {s : ClearingState κ}
    (h : ((cacheClearing resolver).machine.when (ClearsUndisturbed resolver)).Reachable s) :
    CellsSound s.shared ∧
      ∀ (i : ℕ) call, s.tasks[i]? = some call → ClearingCallSound s.shared call := by
  refine TaskSystem.invariant_when (G := CellsSound) (L := fun w _ call => ClearingCallSound w call)
    ?_ ?_ ?_ ?_ h
  · intro w hinit
    refine ⟨?_, ?_, ?_, ?_, ?_⟩
    · simp [hinit.cleared]
    · simp [hinit.returned]
    · simp [hinit.locks]
    · simp [hinit.entries]
    · intro path file hfile
      obtain ⟨hdir, _, hinode⟩ := hinit.disk path file hfile
      exact ⟨hdir, hinode, by simp [hinit.returned]⟩
  · intro s call _ _ hw harrival
    cases harrival with
    | createCache => exact hw.returned
    | clear | change => trivial
  · intro s i call a w' call' _ hquiet hi hstep hw hcall
    exact sound_self hstep hw hcall (hquiet call hi)
  · intro s i call a w' call' j other _ hquiet hi hstep _ hj hw hcall hother
    exact clearingCallSound_other hstep hw hcall (hquiet call hi) (List.mem_of_getElem? hj) hother

/-- The calls of `clear` that have returned have succeeded, and `get` on an entry from a
`create_cache` that was called later gives nothing that was stored before they began. -/
structure ClearingWorks (s : ClearingState κ) : Prop where
  succeeds : ∀ clear result, ClearingCall.finished clear result ∈ s.tasks → result = .ok
  drops : ∀ r after installation stamp,
    ClearingCall.got r after (some (installation, stamp)) ∈ s.tasks →
      ∀ clear ∈ after, clear ≤ stamp

/-- **Clearing the cache works in every run in which it is not disturbed.** -/
theorem clearing_works {s : ClearingState κ}
    (h : ((cacheClearing resolver).machine.when (ClearsUndisturbed resolver)).Reachable s) :
    ClearingWorks s := by
  obtain ⟨_, hcalls⟩ := sound_of_reachable h
  constructor
  · intro clear result hmem
    obtain ⟨i, hi⟩ := List.mem_iff_getElem?.mp hmem
    exact hcalls i _ hi
  · intro r after installation stamp hmem
    obtain ⟨i, hi⟩ := List.mem_iff_getElem?.mp hmem
    exact (hcalls i _ hi).2 installation stamp rfl

/-! ## Runs of one executable -/

section Runs

/-- The executable. -/
def clearedLauncher : PathBuf := ⟨[.rootDir, .normal "R"]⟩

/-- The configured directory. -/
def clearedDirectory : PathBuf := ⟨[.rootDir, .normal "cache"]⟩

/-- What is found out about the executable. -/
def clearedInstallation : ResolvedRInstallation :=
  ⟨clearedLauncher, ⟨[.rootDir, .normal "lib"]⟩, "4.4.2", .x64, some [clearedLauncher], none, none,
    []⟩

/-- A cache whose probes are not used. -/
def clearedResolver : Resolver Unit where
  os := ⟨false, id, some⟩
  sha256 text := text
  getInstallationDetails _ _ := none

/-- The cache file of the executable. -/
def clearedFile : PathBuf := clearedResolver.generateCacheFile clearedDirectory clearedLauncher

/-- The cache that a process starts with, in an existing directory with at most this file. -/
def startedWorld (file : Option DiskFile) : ClearingWorld Unit where
  cacheDir := some clearedDirectory
  cacheDirLocked := false
  locks := ∅
  entries := []
  directory := true
  disk path := if path = clearedFile then file else none
  nextInode := 1
  files _ := ⟨some (), true, 0, none⟩
  begun := 0
  cleared := []
  returned := []

/-- A file that an earlier process has stored. -/
def storedFile : DiskFile := ⟨0, some ⟨clearedInstallation, []⟩, 0⟩

/-- INTERNAL: this is how a process may start. -/
theorem startedWorld_initial (file : Option DiskFile)
    (hfile : ∀ f ∈ file, f.stamp = 0 ∧ f.inode = 0) : (startedWorld file).Initial where
  cacheDirLocked := rfl
  locks := rfl
  entries := rfl
  disk path f hf := by
    change (if path = clearedFile then file else none) = some f at hf
    split at hf
    · obtain ⟨hstamp, hinode⟩ := hfile f hf
      exact ⟨Option.some_ne_none _, hstamp, by rw [hinode]; exact Nat.zero_lt_one⟩
    · cases hf
  begun := rfl
  cleared := rfl
  returned := rfl

/-- INTERNAL: only the one file may be there. -/
theorem startedWorld_listed (file : Option DiskFile) (path : PathBuf)
    (h : (startedWorld file).disk path ≠ none) : path ∈ [clearedFile] := by
  change (if path = clearedFile then file else none) ≠ none at h
  split at h
  · rename_i heq
    exact List.mem_singleton.mpr heq
  · exact absurd rfl h

/-- INTERNAL: once it is unlinked, nothing is there. -/
theorem startedWorld_unlinked (file : Option DiskFile) (path : PathBuf) :
    Function.update (startedWorld file).disk clearedFile none path = none := by
  by_cases heq : path = clearedFile
  · rw [heq, Function.update_self]
  · rw [Function.update_of_ne heq]
    exact if_neg heq

/-- The cache is cleared, then the executable is looked up, stored and got. -/
theorem undisturbed_reachable : ∃ s,
    ((cacheClearing clearedResolver).machine.when (ClearsUndisturbed clearedResolver)).Reachable s ∧
      s.tasks = [.finished 1 .ok, .got 0 [1] (some (clearedInstallation, 1))] := by
  have h0 : ((cacheClearing clearedResolver).machine.when
      (ClearsUndisturbed clearedResolver)).Reachable ⟨startedWorld (some storedFile), []⟩ :=
    .init ⟨startedWorld_initial _ (by rintro f ⟨⟩; exact ⟨rfl, rfl⟩), rfl⟩
  have h1 := TaskSystem.reachable_spawn h0 .clear
  have h2 := TaskSystem.reachable_step (i := 0) (a := ()) h1 rfl trivial .begin
  have h3 := TaskSystem.reachable_step (i := 0) (a := ()) h2 rfl trivial .clearLocks
  have h4 := TaskSystem.reachable_step (i := 0) (a := ()) h3 rfl (fun _ => rfl)
    (.startRemoval rfl nofun rfl (startedWorld_listed _))
  have h5 := TaskSystem.reachable_step (i := 0) (a := ()) h4 rfl trivial .unlink
  have h6 := TaskSystem.reachable_step (i := 0) (a := ()) h5 rfl trivial
    (.removeDir (startedWorld_unlinked _))
  have h7 := TaskSystem.reachable_spawn h6 (.createCache clearedLauncher)
  have h8 := TaskSystem.reachable_step (i := 1) (a := ()) h7 rfl trivial (.sample rfl)
  have h9 := TaskSystem.reachable_step (i := 1) (a := ()) h8 rfl trivial .create
  have h10 := TaskSystem.reachable_step (i := 1) (a := ()) h9 rfl trivial (.lock rfl rfl)
  have h11 := TaskSystem.reachable_step (i := 1) (a := ()) h10 rfl trivial
    (.store rfl rfl ⟨clearedInstallation, []⟩)
  have h12 := TaskSystem.reachable_step (i := 1) (a := ()) h11 rfl trivial (.storeFails (.inl rfl))
  have h13 := TaskSystem.reachable_step (i := 1) (a := ()) h12 rfl trivial (.hit rfl rfl rfl)
  exact ⟨_, h13, rfl⟩

/-- The theorem for this run. -/
theorem clearing_works_undisturbed : ∃ s : ClearingState Unit,
    s.tasks = [.finished 1 .ok, .got 0 [1] (some (clearedInstallation, 1))] ∧
      ClearingWorks s := by
  obtain ⟨s, hs, htasks⟩ := undisturbed_reachable
  exact ⟨s, htasks, clearing_works hs⟩

/-- The cache is cleared twice: the second call does not find the directory. -/
theorem clearedTwice_reachable : ∃ s, (cacheClearing clearedResolver).Reachable s ∧
    s.tasks = [.finished 1 .ok, .finished 2 .notFound] := by
  have h0 : (cacheClearing clearedResolver).Reachable ⟨startedWorld none, []⟩ :=
    .init ⟨startedWorld_initial _ nofun, rfl⟩
  have h1 := Machine.Reachable.step h0 (TaskSystem.Step.spawn .clear)
  have h2 := Machine.Reachable.step h1 (TaskSystem.Step.step (i := 0) (a := ()) rfl .begin)
  have h3 := Machine.Reachable.step h2 (TaskSystem.Step.step (i := 0) (a := ()) rfl .clearLocks)
  have h4 := Machine.Reachable.step h3 (TaskSystem.Step.step (i := 0) (a := ()) rfl
    (.startRemoval rfl nofun rfl (startedWorld_listed _)))
  have h5 := Machine.Reachable.step h4 (TaskSystem.Step.step (i := 0) (a := ()) rfl .unlink)
  have h6 := Machine.Reachable.step h5 (TaskSystem.Step.step (i := 0) (a := ()) rfl
    (.removeDir (startedWorld_unlinked _)))
  have h7 := Machine.Reachable.step h6 (TaskSystem.Step.spawn .clear)
  have h8 := Machine.Reachable.step h7 (TaskSystem.Step.step (i := 1) (a := ()) rfl .begin)
  have h9 := Machine.Reachable.step h8 (TaskSystem.Step.step (i := 1) (a := ()) rfl .clearLocks)
  have h10 := Machine.Reachable.step h9
    (TaskSystem.Step.step (i := 1) (a := ()) rfl (.notFound rfl nofun rfl))
  exact ⟨_, h10, rfl⟩

/-- Between the two parts of `clear` the executable is looked up, and what an earlier process
has stored is read from its file; it is still there for a later lookup. -/
theorem reloaded_reachable : ∃ s, (cacheClearing clearedResolver).Reachable s ∧
    s.tasks = [.finished 1 .ok, .holding 0 [], .got 0 [1] (some (clearedInstallation, 0))] := by
  have h0 : (cacheClearing clearedResolver).Reachable ⟨startedWorld (some storedFile), []⟩ :=
    .init ⟨startedWorld_initial _ (by rintro f ⟨⟩; exact ⟨rfl, rfl⟩), rfl⟩
  have h1 := Machine.Reachable.step h0 (TaskSystem.Step.spawn .clear)
  have h2 := Machine.Reachable.step h1
    (TaskSystem.Step.spawn (.createCache clearedLauncher))
  have h3 := Machine.Reachable.step h2 (TaskSystem.Step.step (i := 0) (a := ()) rfl .begin)
  have h4 := Machine.Reachable.step h3 (TaskSystem.Step.step (i := 0) (a := ()) rfl .clearLocks)
  have h5 := Machine.Reachable.step h4
    (TaskSystem.Step.step (i := 1) (a := ()) rfl (.sample rfl))
  have h6 := Machine.Reachable.step h5 (TaskSystem.Step.step (i := 1) (a := ()) rfl .create)
  have h7 := Machine.Reachable.step h6
    (TaskSystem.Step.step (i := 1) (a := ()) rfl (.lock rfl rfl))
  have h8 := Machine.Reachable.step h7
    (TaskSystem.Step.step (i := 1) (a := ()) rfl (.miss rfl rfl rfl))
  have h9 := Machine.Reachable.step h8
    (TaskSystem.Step.step (i := 1) (a := ()) rfl (.load rfl rfl rfl rfl))
  have h10 := Machine.Reachable.step h9
    (TaskSystem.Step.step (i := 1) (a := ()) rfl (.remember rfl))
  have h11 := Machine.Reachable.step h10 (TaskSystem.Step.step (i := 1) (a := ()) rfl .return)
  have h12 := Machine.Reachable.step h11
    (TaskSystem.Step.step (i := 1) (a := ()) rfl (.unlock rfl))
  have h13 := Machine.Reachable.step h12 (TaskSystem.Step.step (i := 0) (a := ()) rfl
    (.startRemoval rfl nofun rfl (startedWorld_listed _)))
  have h14 := Machine.Reachable.step h13 (TaskSystem.Step.step (i := 0) (a := ()) rfl .unlink)
  have h15 := Machine.Reachable.step h14 (TaskSystem.Step.step (i := 0) (a := ()) rfl
    (.removeDir (startedWorld_unlinked _)))
  have h16 := Machine.Reachable.step h15
    (TaskSystem.Step.spawn (.createCache clearedLauncher))
  have h17 := Machine.Reachable.step h16
    (TaskSystem.Step.step (i := 2) (a := ()) rfl (.sample rfl))
  have h18 := Machine.Reachable.step h17 (TaskSystem.Step.step (i := 2) (a := ()) rfl .create)
  have h19 := Machine.Reachable.step h18
    (TaskSystem.Step.step (i := 2) (a := ()) rfl (.lock rfl rfl))
  have h20 := Machine.Reachable.step h19
    (TaskSystem.Step.step (i := 2) (a := ()) rfl (.hit rfl rfl rfl))
  exact ⟨_, h20, rfl⟩

/-- Clearing the cache may fail, and may leave an installation behind. -/
theorem not_clearing_works :
    (¬ ∀ s, (cacheClearing clearedResolver).Reachable s →
      ∀ clear result, ClearingCall.finished clear result ∈ s.tasks → result = .ok) ∧
    ¬ ∀ s, (cacheClearing clearedResolver).Reachable s → ∀ r after installation stamp,
      ClearingCall.got r after (some (installation, stamp)) ∈ s.tasks →
        ∀ clear ∈ after, clear ≤ stamp := by
  constructor
  · intro h
    obtain ⟨s, hs, htasks⟩ := clearedTwice_reachable
    have hresult := h s hs 2 .notFound (by rw [htasks]; exact List.mem_of_getElem? (i := 1) rfl)
    cases hresult
  · intro h
    obtain ⟨s, hs, htasks⟩ := reloaded_reachable
    have hstamp := h s hs 0 [1] clearedInstallation 0
      (by rw [htasks]; exact List.mem_of_getElem? (i := 2) rfl) 1 (List.mem_singleton.mpr rfl)
    cases hstamp

end Runs

end REnvTools.Analysis
