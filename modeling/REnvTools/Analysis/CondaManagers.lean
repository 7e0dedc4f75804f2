import REnvTools.Analysis.CondaCreator
import REnvTools.Model.CondaManagers

/-!
# The managers that are found once and then remembered

The calls race for the two maps of managers, and a call may find an entry in one map that another
call has made, while it finds nothing in the other. It is answered as if there were no maps: an
entry is always what would be found now.
-/

set_option autoImplicit false

namespace REnvTools.Analysis

open Lib Program Model

variable {files : CondaFiles}

/-! ## The maps -/

/-- INTERNAL: the empty map. -/
theorem current_empty (find : PathBuf → Option CondaManager) : Current find fun _ => none := by
  intro condaDir manager h
  cases h

/-- INTERNAL: what is found is inserted. -/
theorem current_update {find cache : PathBuf → Option CondaManager} {condaDir : PathBuf}
    {manager : CondaManager} (h : Current find cache) (hfind : find condaDir = some manager) :
    Current find (Function.update cache condaDir (some manager)) := by
  intro other manager' hother
  by_cases heq : other = condaDir
  · subst heq
    rw [Function.update_self] at hother
    rw [hfind, hother]
  · rw [Function.update_of_ne heq] at hother
    exact h other manager' hother

/-- INTERNAL: the entries of another map are inserted. -/
theorem current_insertManagers {find cache source : PathBuf → Option CondaManager}
    (h : Current find cache) (hsource : Current find source) :
    Current find (insertManagers cache source) := by
  intro condaDir manager hmem
  obtain hmem | ⟨-, hmem⟩ := Option.or_eq_some_iff.mp hmem
  · exact hsource _ _ hmem
  · exact h _ _ hmem

/-- INTERNAL: what is found for an installation belongs to it. -/
theorem of_getCondaManager {condaDir : PathBuf} {manager : CondaManager}
    (h : getCondaManager files condaDir = some manager) :
    manager.condaDir = some condaDir ∧ manager.managerType = .conda := by
  obtain ⟨executable, -, rfl⟩ := Option.map_eq_some_iff.mp h
  exact ⟨rfl, rfl⟩

/-- INTERNAL: a manager of mamba is of the directory that was asked for. -/
theorem of_getMambaManager {condaDir : PathBuf} {manager : CondaManager}
    (h : getMambaManager files condaDir = some manager) :
    manager.condaDir = some condaDir ∧ manager.managerType = .mamba := by
  obtain ⟨executable, -, rfl⟩ := Option.map_eq_some_iff.mp h
  exact ⟨rfl, rfl⟩

/-- A manager of the installation. -/
def Manages (files : CondaFiles) (condaDir : PathBuf) (manager : CondaManager) : Prop :=
  getCondaManager files condaDir = some manager ∨ getMambaManager files condaDir = some manager

/-- Both maps are current. -/
def ManagersCurrent (files : CondaFiles) (sh : CondaManagers) : Prop :=
  Current (getCondaManager files) sh.managers ∧ Current (getMambaManager files) sh.mambaManagers

/-- Caching a manager of an installation keeps the maps current. -/
theorem ManagersCurrent.cacheManager {sh : CondaManagers} {condaDir : PathBuf}
    {manager : CondaManager} (h : ManagersCurrent files sh)
    (hmanager : Manages files condaDir manager) :
    ManagersCurrent files (sh.cacheManager manager) := by
  unfold CondaManagers.cacheManager
  obtain hfind | hfind := hmanager
  · obtain ⟨hdir, htype⟩ := of_getCondaManager hfind
    rw [hdir]
    dsimp only
    rw [htype, if_neg (by decide)]
    exact ⟨current_update h.1 hfind, h.2⟩
  · obtain ⟨hdir, htype⟩ := of_getMambaManager hfind
    rw [hdir]
    dsimp only
    rw [htype, if_pos rfl]
    exact ⟨h.1, current_update h.2 hfind⟩

/-- The family of a manager is all that the installation has. -/
theorem mem_managerFamily {condaDir : PathBuf} {manager other : CondaManager}
    (h : Manages files condaDir manager) :
    other ∈ managerFamily files manager ↔ Manages files condaDir other := by
  have hdir : manager.condaDir = some condaDir := by
    obtain h | h := h
    · exact (of_getCondaManager h).1
    · exact (of_getMambaManager h).1
  have hfamily : other ∈ managerFamily files manager ↔
      other = manager ∨ Manages files condaDir other := by
    unfold managerFamily Manages
    rw [hdir]
    simp only [List.mem_cons, List.mem_append, Option.mem_toList]
  rw [hfamily]
  exact ⟨fun hor => hor.elim (fun heq => heq ▸ h) id, .inr⟩

/-- INTERNAL: the preferred manager is one of the installation. -/
theorem manages_of_preferredManager {condaDir : PathBuf} {preferMamba : Bool}
    {manager : CondaManager}
    (h : preferredManager preferMamba (getCondaManager files condaDir)
      (getMambaManager files condaDir) = some manager) : Manages files condaDir manager := by
  unfold preferredManager at h
  split at h
  · obtain h | ⟨-, h⟩ := Option.or_eq_some_iff.mp h
    · exact .inr h
    · exact .inl h
  · obtain h | ⟨-, h⟩ := Option.or_eq_some_iff.mp h
    · exact .inl h
    · exact .inr h

/-! ## The calls -/

/-- The installation has created the environment. -/
def Created (files : CondaFiles) (condaPrefix condaDir : PathBuf) : Prop :=
  getCondaInstallationUsedToCreateCondaEnv files condaPrefix = .ok (some condaDir)

/-- What a call knows: where it has looked in the maps, it has what would be found now. -/
def Knows (files : CondaFiles) : ManagersThread → Prop
  | .preferring condaPrefix condaDir | .lookingConda condaPrefix condaDir _ =>
    Created files condaPrefix condaDir
  | .insertingConda condaPrefix condaDir _ manager =>
    Created files condaPrefix condaDir ∧ getCondaManager files condaDir = some manager
  | .lookingMamba condaPrefix condaDir _ conda =>
    Created files condaPrefix condaDir ∧ conda = getCondaManager files condaDir
  | .insertingMamba condaPrefix condaDir _ conda manager =>
    Created files condaPrefix condaDir ∧ conda = getCondaManager files condaDir ∧
      getMambaManager files condaDir = some manager
  | .answered condaPrefix condaDir preferMamba manager =>
    Created files condaPrefix condaDir ∧ manager = preferredManager preferMamba
      (getCondaManager files condaDir) (getMambaManager files condaDir)
  | .reporting condaPrefix condaDir reported pending =>
    Created files condaPrefix condaDir ∧
      ∀ manager, manager ∈ reported ++ pending ↔ Manages files condaDir manager
  | .syncing _ source | .merging _ source | .emptyingMamba source | .mergingMamba source =>
    ManagersCurrent files source
  | _ => True

/-- What one step preserves. -/
theorem knows_step {sh sh' : CondaManagers} {thread thread' : ManagersThread}
    (hstep : ManagersStep files sh thread sh' thread') (hG : ManagersCurrent files sh)
    (hL : Knows files thread) : ManagersCurrent files sh' ∧ Knows files thread' := by
  cases hstep with
  | configure => exact ⟨hG, trivial⟩
  | clear => exact ⟨⟨current_empty _, hG.2⟩, trivial⟩
  | clearMamba => exact ⟨⟨hG.1, current_empty _⟩, trivial⟩
  | created h => exact ⟨hG, h⟩
  | notCreated | syncOther => exact ⟨hG, trivial⟩
  | prefer => exact ⟨hG, hL⟩
  | hitConda h => exact ⟨hG, hL, (hG.1 _ _ h).symm⟩
  | noConda _ hfind => exact ⟨hG, hL, hfind.symm⟩
  | findConda _ hfind => exact ⟨hG, hL, hfind⟩
  | existingConda h => exact ⟨hG, hL.1, (hG.1 _ _ h).symm⟩
  | insertConda => exact ⟨⟨current_update hG.1 hL.2, hG.2⟩, hL.1, hL.2.symm⟩
  | hitMamba h =>
    refine ⟨hG, hL.1, ?_⟩
    rw [hL.2, hG.2 _ _ h]
  | noMamba _ hfind =>
    refine ⟨hG, hL.1, ?_⟩
    rw [hL.2, hfind]
  | findMamba _ hfind => exact ⟨hG, hL.1, hL.2, hfind⟩
  | existingMamba h =>
    refine ⟨hG, hL.1, ?_⟩
    rw [hL.2.1, hG.2 _ _ h]
  | insertMamba =>
    refine ⟨⟨hG.1, current_update hG.2 hL.2.2⟩, hL.1, ?_⟩
    rw [hL.2.1, hL.2.2]
  | family =>
    refine ⟨hG, hL.1, fun manager => ?_⟩
    rw [List.nil_append]
    exact mem_managerFamily (manages_of_preferredManager hL.2.symm)
  | report =>
    have hmanager := (hL.2 _).mp (List.mem_append_right _ List.mem_cons_self)
    refine ⟨hG.cacheManager hmanager, hL.1, fun other => ?_⟩
    rw [← hL.2 other, List.append_assoc]
    rfl
  | syncFull => exact ⟨⟨current_empty _, hG.2⟩, hL⟩
  | syncFiltered => exact ⟨hG, hL⟩
  | mergeFull | mergeFiltered => exact ⟨⟨current_insertManagers hG.1 hL.1, hG.2⟩, hL⟩
  | emptyMamba => exact ⟨⟨hG.1, current_empty _⟩, hL⟩
  | mergeMamba => exact ⟨⟨hG.1, current_insertManagers hG.2 hL.2⟩, trivial⟩

/-- **Remembering managers changes no answer.** In every interleaving of calls on one locator,
while the files of the installations stay as they are, the maps hold what would be found now; the
manager that is returned for a prefix is the preferred one of those that would be found for the
installation that has created the environment; and the managers that are reported with it are
exactly those of that installation. -/
theorem conda_managers {s : TaskSystem.State CondaManagers ManagersThread}
    (h : (condaManagers files).Reachable s) :
    ManagersCurrent files s.shared ∧ ∀ (i : ℕ) (condaPrefix condaDir : PathBuf),
      (∀ preferMamba manager,
        s.tasks[i]? = some (.answered condaPrefix condaDir preferMamba manager) →
        Created files condaPrefix condaDir ∧ manager = preferredManager preferMamba
          (getCondaManager files condaDir) (getMambaManager files condaDir)) ∧
      ∀ reported, s.tasks[i]? = some (.reporting condaPrefix condaDir reported []) →
        Created files condaPrefix condaDir ∧
          ∀ manager, manager ∈ reported ↔ Manages files condaDir manager := by
  have hinvariant := TaskSystem.invariant (G := ManagersCurrent files)
    (L := fun _ _ thread => Knows files thread) ?_ ?_ ?_ ?_ h
  · refine ⟨hinvariant.1, fun i condaPrefix condaDir => ⟨?_, ?_⟩⟩
    · exact fun preferMamba manager hi => hinvariant.2 i _ hi
    · intro reported hi
      obtain ⟨hcreated, hmem⟩ := hinvariant.2 i _ hi
      exact ⟨hcreated, by simpa using hmem⟩
  · rintro sh ⟨hconda, hmamba⟩
    refine ⟨fun condaDir manager hmem => ?_, fun condaDir manager hmem => ?_⟩
    · rw [hconda] at hmem
      cases hmem
    · rw [hmamba] at hmem
      cases hmem
  · intro s thread _ _ hbegins
    cases hbegins with
    | sync scope hconda hmamba => exact ⟨hconda, hmamba⟩
    | configure | clear | ask => trivial
  · exact fun s i thread _ sh' thread' _ _ hstep hG hL => knows_step hstep hG hL
  · exact fun s i thread _ sh' thread' j other _ _ _ _ _ _ _ hother => hother

/-! ## Two calls for one environment -/

/-- The manager of the installation. -/
def studyManager : CondaManager :=
  ⟨rootedPath ["opt", "conda", "bin", "conda"], none, some (rootedPath ["opt", "conda"]), .conda⟩

/-- Both calls find nothing in the map; the second one inserts first. -/
theorem study_reachable :
    ∃ s, (condaManagers studyFiles).Reachable s ∧ s.tasks[0]? =
      some (.answered (rootedPath ["data", "study"]) (rootedPath ["opt", "conda"]) false
        (some studyManager)) := by
  have hcreated : getCondaInstallationUsedToCreateCondaEnv studyFiles
      (rootedPath ["data", "study"]) = .ok (some (rootedPath ["opt", "conda"])) := by decide
  have hconda : getCondaManager studyFiles (rootedPath ["opt", "conda"]) = some studyManager := by
    decide
  have hmamba : getMambaManager studyFiles (rootedPath ["opt", "conda"]) = none := by decide
  have hinserted : Function.update (fun _ : PathBuf => none) (rootedPath ["opt", "conda"])
      (some studyManager) (rootedPath ["opt", "conda"]) = some studyManager :=
    Function.update_self ..
  have h0 : (condaManagers studyFiles).Reachable ⟨⟨fun _ => none, fun _ => none, none⟩, []⟩ :=
    .init ⟨⟨fun _ => rfl, fun _ => rfl⟩, rfl⟩
  have h1 := Machine.Reachable.step h0
    (TaskSystem.Step.spawn (.ask (rootedPath ["data", "study"])))
  have h2 := Machine.Reachable.step h1
    (TaskSystem.Step.spawn (.ask (rootedPath ["data", "study"])))
  have h3 := Machine.Reachable.step h2
    (TaskSystem.Step.step (i := 0) (a := ()) rfl (.created hcreated))
  have h4 := Machine.Reachable.step h3
    (TaskSystem.Step.step (i := 1) (a := ()) rfl (.created hcreated))
  have h5 := Machine.Reachable.step h4 (TaskSystem.Step.step (i := 0) (a := ()) rfl .prefer)
  have h6 := Machine.Reachable.step h5 (TaskSystem.Step.step (i := 1) (a := ()) rfl .prefer)
  have h7 := Machine.Reachable.step h6
    (TaskSystem.Step.step (i := 0) (a := ()) rfl (.findConda rfl hconda))
  have h8 := Machine.Reachable.step h7
    (TaskSystem.Step.step (i := 1) (a := ()) rfl (.findConda rfl hconda))
  have h9 := Machine.Reachable.step h8
    (TaskSystem.Step.step (i := 1) (a := ()) rfl (.insertConda rfl))
  have h10 := Machine.Reachable.step h9
    (TaskSystem.Step.step (i := 0) (a := ()) rfl (.existingConda hinserted))
  have h11 := Machine.Reachable.step h10
    (TaskSystem.Step.step (i := 0) (a := ()) rfl (.noMamba rfl hmamba))
  exact ⟨_, h11, rfl⟩

/-- The theorem for this run. -/
theorem conda_managers_race :
    ∃ s, (condaManagers studyFiles).Reachable s ∧
      some studyManager = preferredManager false
        (getCondaManager studyFiles (rootedPath ["opt", "conda"]))
        (getMambaManager studyFiles (rootedPath ["opt", "conda"])) := by
  obtain ⟨s, hs, htask⟩ := study_reachable
  exact ⟨s, hs, (((conda_managers hs).2 0 _ _).1 _ _ htask).2⟩

end REnvTools.Analysis
