import REnvTools.Model.PackageInfoCache

/-!
# The Conda locator between its calls

One `Conda` locator that is asked about one environment after the other, on a file system that
stands still: `try_from` with all that it remembers. The installations by prefix are in
`condaTryFrom`; here are the managers by the directory of their installation, and the package
metadata with their fingerprints. A prefix's metadata is known by what `norm_case` makes of the
prefix.

SRC: crates/ret-conda/src/lib.rs:57-66, 128-233, 486-541, crates/ret-core/src/cache.rs:64-90
-/

set_option autoImplicit false

namespace REnvTools.Model

open Program

/-! ## What is remembered -/

/-- `LocatorCache::get_or_insert_with`: only what there is gets inserted. -/
def getOrInsertWith {κ ν : Type} [DecidableEq κ] (cache : κ → Option ν) (key : κ)
    (f : κ → Option ν) : Option ν × (κ → Option ν) :=
  match cache key with
  | some value => (some value, cache)
  | none =>
    match f key with
    | some value => (some value, Function.update cache key (some value))
    | none => (none, cache)

/-- The file system, and whether the configured executable is one of mamba. -/
structure CondaMachine where
  os : Os
  tree : DirectoryTree
  preferMamba : Bool
  /-- `RCondaPackageInfo::from`, of a prefix as `norm_case` spells it. -/
  packageInfoFrom : PathBuf → Option RCondaPackageInfo
  /-- `CondaEnvironmentFingerprint::from_prefix`. -/
  fingerprintOf : PathBuf → Option CondaEnvironmentFingerprint
  getCondaInstallationUsedToCreateCondaEnv : PathBuf → Option PathBuf
  getCondaManager : PathBuf → Option CondaManager
  getMambaManager : PathBuf → Option CondaManager
  getCondaEnvName : PathBuf → Option PathBuf → Option String
  findExecutables : PathBuf → List PathBuf
  isSymlink : PathBuf → Bool
  resolvedFrom : PathBuf → Option ResolvedRInstallation

/-- `Conda`, without its configuration. -/
structure CondaLocator where
  environments : CondaEnvironments
  managers : PathBuf → Option CondaManager
  mambaManagers : PathBuf → Option CondaManager
  packageInfo : PackageInfoCache

namespace CondaLocator

/-- `Conda::from`: nothing is remembered. -/
def fresh : CondaLocator := ⟨fun _ => none, fun _ => none, fun _ => none, ∅⟩

variable (machine : CondaMachine) (locator : CondaLocator)

/-- `Conda::get_package_info`, where both fingerprints are of one file system. -/
def getPackageInfo (condaPrefix : PathBuf) : Option RCondaPackageInfo × CondaLocator :=
  let cacheKey := machine.os.normCase condaPrefix
  let fingerprint := machine.fingerprintOf condaPrefix
  match fingerprint.bind fun fingerprint =>
      (locator.packageInfo.lookup cacheKey).filter (·.fingerprint = fingerprint) with
  | some cached => (some cached.info, locator)
  | none =>
    match machine.packageInfoFrom cacheKey with
    | none => (none, { locator with packageInfo := locator.packageInfo.erase cacheKey })
    | some info =>
      (some info,
        { locator with
          packageInfo :=
            match fingerprint with
            | some fingerprint => locator.packageInfo.insert cacheKey ⟨fingerprint, info⟩
            | none => locator.packageInfo.erase cacheKey })

/-- `Conda::get_manager_for_prefix`. -/
def getManagerForPrefix (condaPrefix : PathBuf) : Option CondaManager × CondaLocator :=
  match machine.getCondaInstallationUsedToCreateCondaEnv condaPrefix with
  | none => (none, locator)
  | some condaDir =>
    let conda := getOrInsertWith locator.managers condaDir machine.getCondaManager
    let mamba := getOrInsertWith locator.mambaManagers condaDir machine.getMambaManager
    (if machine.preferMamba then mamba.1.or conda.1 else conda.1.or mamba.1,
      { locator with managers := conda.2, mambaManagers := mamba.2 })

/-- What `try_from` is answered by the locator's own helpers. -/
def host : CondaHost where
  os := machine.os
  tree := machine.tree
  getPackageInfo condaPrefix := (locator.getPackageInfo machine condaPrefix).1
  getManagerForPrefix condaPrefix := (locator.getManagerForPrefix machine condaPrefix).1
  getCondaEnvName := machine.getCondaEnvName
  findExecutables := machine.findExecutables
  isSymlink := machine.isSymlink
  resolvedFrom := machine.resolvedFrom

/-- What the helpers remember of a call of `try_from`: an environment that is known by its
prefix asks for nothing, and the manager is asked for last. -/
def askedBy (env : REnv) : CondaLocator :=
  let host := locator.host machine
  match getPrefixFromEnv host env with
  | none => locator
  | some condaPrefix =>
    if (locator.environments condaPrefix).isSome then locator
    else
      let asked := (locator.getPackageInfo machine condaPrefix).2
      if ((host.getPackageInfo condaPrefix).isSome ∧ (inferCondaRHome host condaPrefix).isSome) ∨
          env.version.isSome then
        (asked.getManagerForPrefix machine condaPrefix).2
      else asked

/-- `Conda::try_from`. -/
def tryFrom (env : REnv) : Option RInstallation × CondaLocator :=
  let result := condaTryFrom (locator.host machine) locator.environments env
  (result.1, { locator.askedBy machine env with environments := result.2 })

/-- The locator after these calls. -/
def after (calls : List REnv) : CondaLocator :=
  calls.foldl (fun locator env => (locator.tryFrom machine env).2) locator

/-- What these calls return. -/
def answers : CondaLocator → List REnv → List (Option RInstallation)
  | _, [] => []
  | locator, env :: calls =>
    (locator.tryFrom machine env).1 :: answers (locator.tryFrom machine env).2 calls

end CondaLocator

end REnvTools.Model
