import REnvTools.Lib.TaskPool
import REnvTools.Program.CondaManagers
import REnvTools.Program.Scan

/-!
# The managers of the Conda locator

The maps `managers` and `mamba_managers` of one `Conda` locator while any number of calls of
`get_manager_for_prefix`, `report_manager_family`, `configure`, `clear` and
`sync_refresh_state_from` are under way on it. Each section under a lock is one step; the files
of the installations do not change meanwhile.

SRC: crates/ret-conda/src/lib.rs:191-245, 449-480, crates/ret-core/src/cache.rs:35-90
-/

set_option autoImplicit false

namespace REnvTools.Model

open Program Lib

/-- Every entry is what would be found now. -/
def Current (find : PathBuf → Option CondaManager) (cache : PathBuf → Option CondaManager) :
    Prop :=
  ∀ condaDir manager, cache condaDir = some manager → find condaDir = some manager

/-- Where a call is. `preferMamba` is what it has read of the configuration, `conda` the manager
that it has got from the first of the maps. A manager that is answered may be reported with its
family. -/
inductive ManagersThread
  | configuring (condaExecutable : Option PathBuf)
  | clearing
  | clearingMamba
  | done
  | asking (condaPrefix : PathBuf)
  | notCreated (condaPrefix : PathBuf)
  | preferring (condaPrefix condaDir : PathBuf)
  | lookingConda (condaPrefix condaDir : PathBuf) (preferMamba : Bool)
  | insertingConda (condaPrefix condaDir : PathBuf) (preferMamba : Bool) (manager : CondaManager)
  | lookingMamba (condaPrefix condaDir : PathBuf) (preferMamba : Bool)
      (conda : Option CondaManager)
  | insertingMamba (condaPrefix condaDir : PathBuf) (preferMamba : Bool)
      (conda : Option CondaManager) (manager : CondaManager)
  | answered (condaPrefix condaDir : PathBuf) (preferMamba : Bool)
      (manager : Option CondaManager)
  | reporting (condaPrefix condaDir : PathBuf) (reported pending : List CondaManager)
  | syncing (scope : RefreshStateSyncScope) (source : CondaManagers)
  | merging (full : Bool) (source : CondaManagers)
  | emptyingMamba (source : CondaManagers)
  | mergingMamba (source : CondaManagers)

namespace ManagersThread

/-- A call where it begins. The maps of a locator that is copied from are current as well. -/
inductive Begins (files : CondaFiles) : ManagersThread → Prop
  | configure (condaExecutable : Option PathBuf) : Begins files (.configuring condaExecutable)
  | clear : Begins files .clearing
  | ask (condaPrefix : PathBuf) : Begins files (.asking condaPrefix)
  | sync (scope : RefreshStateSyncScope) {source : CondaManagers}
      (hconda : Current (getCondaManager files) source.managers)
      (hmamba : Current (getMambaManager files) source.mambaManagers) :
      Begins files (.syncing scope source)

end ManagersThread

/-- `LocatorCache::insert_many`. -/
def insertManagers (cache source : PathBuf → Option CondaManager) :
    PathBuf → Option CondaManager :=
  fun condaDir => (source condaDir).or (cache condaDir)

/-- The steps of a call over the maps. -/
inductive ManagersStep (files : CondaFiles) :
    CondaManagers → ManagersThread → CondaManagers → ManagersThread → Prop
  | configure {sh : CondaManagers} {condaExecutable : Option PathBuf} :
      ManagersStep files sh (.configuring condaExecutable) { sh with condaExecutable } .done
  | clear {sh : CondaManagers} :
      ManagersStep files sh .clearing { sh with managers := fun _ => none } .clearingMamba
  | clearMamba {sh : CondaManagers} :
      ManagersStep files sh .clearingMamba { sh with mambaManagers := fun _ => none } .done
  | created {sh : CondaManagers} {condaPrefix condaDir : PathBuf}
      (h : getCondaInstallationUsedToCreateCondaEnv files condaPrefix = .ok (some condaDir)) :
      ManagersStep files sh (.asking condaPrefix) sh (.preferring condaPrefix condaDir)
  | notCreated {sh : CondaManagers} {condaPrefix : PathBuf}
      (h : getCondaInstallationUsedToCreateCondaEnv files condaPrefix = .ok none) :
      ManagersStep files sh (.asking condaPrefix) sh (.notCreated condaPrefix)
  | prefer {sh : CondaManagers} {condaPrefix condaDir : PathBuf} :
      ManagersStep files sh (.preferring condaPrefix condaDir) sh
        (.lookingConda condaPrefix condaDir (sh.condaExecutable.any isMambaExecutable))
  | hitConda {sh : CondaManagers} {condaPrefix condaDir : PathBuf} {preferMamba : Bool}
      {manager : CondaManager} (h : sh.managers condaDir = some manager) :
      ManagersStep files sh (.lookingConda condaPrefix condaDir preferMamba) sh
        (.lookingMamba condaPrefix condaDir preferMamba (some manager))
  | noConda {sh : CondaManagers} {condaPrefix condaDir : PathBuf} {preferMamba : Bool}
      (h : sh.managers condaDir = none) (hfind : getCondaManager files condaDir = none) :
      ManagersStep files sh (.lookingConda condaPrefix condaDir preferMamba) sh
        (.lookingMamba condaPrefix condaDir preferMamba none)
  | findConda {sh : CondaManagers} {condaPrefix condaDir : PathBuf} {preferMamba : Bool}
      {manager : CondaManager} (h : sh.managers condaDir = none)
      (hfind : getCondaManager files condaDir = some manager) :
      ManagersStep files sh (.lookingConda condaPrefix condaDir preferMamba) sh
        (.insertingConda condaPrefix condaDir preferMamba manager)
  /-- Another call has inserted meanwhile. -/
  | existingConda {sh : CondaManagers} {condaPrefix condaDir : PathBuf} {preferMamba : Bool}
      {manager existing : CondaManager} (h : sh.managers condaDir = some existing) :
      ManagersStep files sh (.insertingConda condaPrefix condaDir preferMamba manager) sh
        (.lookingMamba condaPrefix condaDir preferMamba (some existing))
  | insertConda {sh : CondaManagers} {condaPrefix condaDir : PathBuf} {preferMamba : Bool}
      {manager : CondaManager} (h : sh.managers condaDir = none) :
      ManagersStep files sh (.insertingConda condaPrefix condaDir preferMamba manager)
        { sh with managers := Function.update sh.managers condaDir (some manager) }
        (.lookingMamba condaPrefix condaDir preferMamba (some manager))
  | hitMamba {sh : CondaManagers} {condaPrefix condaDir : PathBuf} {preferMamba : Bool}
      {conda : Option CondaManager} {manager : CondaManager}
      (h : sh.mambaManagers condaDir = some manager) :
      ManagersStep files sh (.lookingMamba condaPrefix condaDir preferMamba conda) sh
        (.answered condaPrefix condaDir preferMamba
          (preferredManager preferMamba conda (some manager)))
  | noMamba {sh : CondaManagers} {condaPrefix condaDir : PathBuf} {preferMamba : Bool}
      {conda : Option CondaManager} (h : sh.mambaManagers condaDir = none)
      (hfind : getMambaManager files condaDir = none) :
      ManagersStep files sh (.lookingMamba condaPrefix condaDir preferMamba conda) sh
        (.answered condaPrefix condaDir preferMamba (preferredManager preferMamba conda none))
  | findMamba {sh : CondaManagers} {condaPrefix condaDir : PathBuf} {preferMamba : Bool}
      {conda : Option CondaManager} {manager : CondaManager}
      (h : sh.mambaManagers condaDir = none)
      (hfind : getMambaManager files condaDir = some manager) :
      ManagersStep files sh (.lookingMamba condaPrefix condaDir preferMamba conda) sh
        (.insertingMamba condaPrefix condaDir preferMamba conda manager)
  /-- Another call has inserted meanwhile. -/
  | existingMamba {sh : CondaManagers} {condaPrefix condaDir : PathBuf} {preferMamba : Bool}
      {conda : Option CondaManager} {manager existing : CondaManager}
      (h : sh.mambaManagers condaDir = some existing) :
      ManagersStep files sh (.insertingMamba condaPrefix condaDir preferMamba conda manager) sh
        (.answered condaPrefix condaDir preferMamba
          (preferredManager preferMamba conda (some existing)))
  | insertMamba {sh : CondaManagers} {condaPrefix condaDir : PathBuf} {preferMamba : Bool}
      {conda : Option CondaManager} {manager : CondaManager}
      (h : sh.mambaManagers condaDir = none) :
      ManagersStep files sh (.insertingMamba condaPrefix condaDir preferMamba conda manager)
        { sh with mambaManagers := Function.update sh.mambaManagers condaDir (some manager) }
        (.answered condaPrefix condaDir preferMamba
          (preferredManager preferMamba conda (some manager)))
  | family {sh : CondaManagers} {condaPrefix condaDir : PathBuf} {preferMamba : Bool}
      {manager : CondaManager} :
      ManagersStep files sh (.answered condaPrefix condaDir preferMamba (some manager)) sh
        (.reporting condaPrefix condaDir [] (managerFamily files manager))
  | report {sh : CondaManagers} {condaPrefix condaDir : PathBuf}
      {reported pending : List CondaManager} {manager : CondaManager} :
      ManagersStep files sh (.reporting condaPrefix condaDir reported (manager :: pending))
        (sh.cacheManager manager)
        (.reporting condaPrefix condaDir (reported ++ [manager]) pending)
  | syncFull {sh : CondaManagers} {source : CondaManagers} :
      ManagersStep files sh (.syncing .full source) { sh with managers := fun _ => none }
        (.merging true source)
  | syncFiltered {sh : CondaManagers} {source : CondaManagers} :
      ManagersStep files sh (.syncing (.globalFiltered .conda) source) sh (.merging false source)
  | syncOther {sh : CondaManagers} {scope : RefreshStateSyncScope} {source : CondaManagers}
      (hfull : scope ≠ .full) (hconda : scope ≠ .globalFiltered .conda) :
      ManagersStep files sh (.syncing scope source) sh .done
  | mergeFull {sh : CondaManagers} {source : CondaManagers} :
      ManagersStep files sh (.merging true source)
        { sh with managers := insertManagers sh.managers source.managers } (.emptyingMamba source)
  | mergeFiltered {sh : CondaManagers} {source : CondaManagers} :
      ManagersStep files sh (.merging false source)
        { sh with managers := insertManagers sh.managers source.managers } (.mergingMamba source)
  | emptyMamba {sh : CondaManagers} {source : CondaManagers} :
      ManagersStep files sh (.emptyingMamba source) { sh with mambaManagers := fun _ => none }
        (.mergingMamba source)
  | mergeMamba {sh : CondaManagers} {source : CondaManagers} :
      ManagersStep files sh (.mergingMamba source)
        { sh with mambaManagers := insertManagers sh.mambaManagers source.mambaManagers } .done

/-- Any number of calls on one locator, which begins with empty maps. -/
def condaManagers (files : CondaFiles) : TaskSystem CondaManagers ManagersThread Unit where
  init sh :=
    (∀ condaDir, sh.managers condaDir = none) ∧ ∀ condaDir, sh.mambaManagers condaDir = none
  spawn _ := ManagersThread.Begins files
  step _ sh thread _ sh' thread' := ManagersStep files sh thread sh' thread'

end REnvTools.Model
