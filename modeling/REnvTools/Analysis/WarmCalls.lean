import REnvTools.Analysis.Merging
import REnvTools.Lib.ValidatedMemo
import REnvTools.Model.CondaLocator

/-!
# Asking a Conda locator again

The managers and the package metadata that a Conda locator remembers are what it would find out
again. The installation it remembers by prefix is not: it was built for the executable of the
call that filled the entry, and a later call puts its own executable and architecture in and
leaves the script path and the known executables as they are (`warm_calls_iff`).
-/

set_option autoImplicit false

namespace REnvTools.Analysis

open Program Model Lib Lib.ValidatedMemo

variable {machine : CondaMachine} {locator : CondaLocator} {env first : REnv}
  {condaPrefix rHome : PathBuf} {info : RCondaPackageInfo}

/-! ## The memos -/

/-- What the helpers remember is right. -/
structure WarmMemos (machine : CondaMachine) (locator : CondaLocator) : Prop where
  managers : Remembers machine.getCondaManager locator.managers
  mambaManagers : Remembers machine.getMambaManager locator.mambaManagers
  packageInfo : Remembers machine.packageInfoFrom fun key =>
    (locator.packageInfo.lookup key).map (·.info)

/-- INTERNAL: asking a memo. -/
theorem getOrInsertWith_spec {κ ν : Type} [DecidableEq κ] {cache f : κ → Option ν}
    (h : Remembers f cache) (key : κ) :
    (getOrInsertWith cache key f).1 = f key ∧ Remembers f (getOrInsertWith cache key f).2 := by
  have hor := h.or_eq key
  unfold getOrInsertWith
  cases hcache : cache key with
  | some value =>
    rw [hcache, Option.some_or] at hor
    exact ⟨hor, h⟩
  | none =>
    dsimp only
    cases hf : f key with
    | none => exact ⟨rfl, h⟩
    | some value => exact ⟨rfl, h.update hf⟩

/-- INTERNAL: erasing leaves what is right. -/
theorem remembers_erase {f : PathBuf → Option RCondaPackageInfo} {cache : PackageInfoCache}
    (h : Remembers f fun key => (cache.lookup key).map (·.info)) (key : PathBuf) :
    Remembers f fun key' => ((cache.erase key).lookup key').map (·.info) := by
  intro key' info hlookup
  dsimp only at hlookup
  by_cases heq : key' = key
  · subst heq
    simp at hlookup
  · rw [Finmap.lookup_erase_ne heq] at hlookup
    exact h key' info hlookup

/-- INTERNAL: so does inserting what is right. -/
theorem remembers_insert {f : PathBuf → Option RCondaPackageInfo} {cache : PackageInfoCache}
    (h : Remembers f fun key => (cache.lookup key).map (·.info)) {key : PathBuf}
    {cached : CachedPackageInfo} (hf : f key = some cached.info) :
    Remembers f fun key' => ((cache.insert key cached).lookup key').map (·.info) := by
  intro key' info hlookup
  dsimp only at hlookup
  by_cases heq : key' = key
  · subst heq
    rw [Finmap.lookup_insert, Option.map_some] at hlookup
    cases hlookup
    exact hf
  · rw [Finmap.lookup_insert_of_ne _ heq] at hlookup
    exact h key' info hlookup

/-- INTERNAL: the metadata that are remembered are those that would be parsed. -/
theorem getPackageInfo_spec (h : WarmMemos machine locator) (condaPrefix : PathBuf) :
    (locator.getPackageInfo machine condaPrefix).1 =
        machine.packageInfoFrom (machine.os.normCase condaPrefix) ∧
      WarmMemos machine (locator.getPackageInfo machine condaPrefix).2 := by
  unfold CondaLocator.getPackageInfo
  dsimp only
  split
  · rename_i cached hcached
    obtain ⟨fingerprint, -, hfilter⟩ := Option.bind_eq_some_iff.mp hcached
    have hlookup := Option.eq_some_of_filter_eq_some hfilter
    have hremembered : ((locator.packageInfo.lookup (machine.os.normCase condaPrefix)).map
        (·.info)) = some cached.info := by
      rw [hlookup]
      rfl
    exact ⟨(h.packageInfo _ _ hremembered).symm, h⟩
  · split
    · rename_i hnone
      exact ⟨hnone.symm, h.managers, h.mambaManagers, remembers_erase h.packageInfo _⟩
    · rename_i info hinfo
      refine ⟨hinfo.symm, h.managers, h.mambaManagers, ?_⟩
      cases machine.fingerprintOf condaPrefix with
      | none => exact remembers_erase h.packageInfo _
      | some fingerprint => exact remembers_insert h.packageInfo hinfo

/-- INTERNAL: the manager that is remembered is the one that would be found. -/
theorem getManagerForPrefix_spec (h : WarmMemos machine locator) (condaPrefix : PathBuf) :
    (locator.getManagerForPrefix machine condaPrefix).1 =
        (CondaLocator.fresh.getManagerForPrefix machine condaPrefix).1 ∧
      WarmMemos machine (locator.getManagerForPrefix machine condaPrefix).2 := by
  unfold CondaLocator.getManagerForPrefix
  cases machine.getCondaInstallationUsedToCreateCondaEnv condaPrefix with
  | none => exact ⟨rfl, h⟩
  | some condaDir =>
    have hconda := getOrInsertWith_spec h.managers condaDir
    have hmamba := getOrInsertWith_spec h.mambaManagers condaDir
    have hconda' := getOrInsertWith_spec (remembers_empty machine.getCondaManager) condaDir
    have hmamba' := getOrInsertWith_spec (remembers_empty machine.getMambaManager) condaDir
    refine ⟨?_, hconda.2, hmamba.2, h.packageInfo⟩
    dsimp only [CondaLocator.fresh]
    rw [hconda.1, hmamba.1, hconda'.1, hmamba'.1]

/-- INTERNAL: a locator that remembers nothing. -/
theorem warmMemos_fresh : WarmMemos machine .fresh :=
  ⟨remembers_empty _, remembers_empty _, remembers_empty _⟩

/-- With right memos the helpers answer as those of a fresh locator. -/
theorem host_of_warmMemos (h : WarmMemos machine locator) :
    locator.host machine = CondaLocator.fresh.host machine := by
  have hinfo : (fun condaPrefix => (locator.getPackageInfo machine condaPrefix).1) =
      fun condaPrefix => (CondaLocator.fresh.getPackageInfo machine condaPrefix).1 := by
    funext condaPrefix
    rw [(getPackageInfo_spec h condaPrefix).1, (getPackageInfo_spec warmMemos_fresh condaPrefix).1]
  have hmanager : (fun condaPrefix => (locator.getManagerForPrefix machine condaPrefix).1) =
      fun condaPrefix => (CondaLocator.fresh.getManagerForPrefix machine condaPrefix).1 := by
    funext condaPrefix
    exact (getManagerForPrefix_spec h condaPrefix).1
  unfold CondaLocator.host
  rw [hinfo, hmanager]

/-- **A call keeps the memos right.** -/
theorem warmMemos_tryFrom (h : WarmMemos machine locator) (env : REnv) :
    WarmMemos machine (locator.tryFrom machine env).2 := by
  have hasked : WarmMemos machine (locator.askedBy machine env) := by
    unfold CondaLocator.askedBy
    dsimp only
    split
    · exact h
    · split
      · exact h
      · rename_i condaPrefix _ _
        have hinfo := (getPackageInfo_spec h condaPrefix).2
        split
        · exact (getManagerForPrefix_spec hinfo condaPrefix).2
        · exact hinfo
  exact ⟨hasked.managers, hasked.mambaManagers, hasked.packageInfo⟩

/-- The memos are right after any calls. -/
theorem warmMemos_after (calls : List REnv) :
    WarmMemos machine (CondaLocator.fresh.after machine calls) := by
  unfold CondaLocator.after
  induction calls using List.reverseRecOn with
  | nil => exact warmMemos_fresh
  | append_singleton calls env ih =>
    rw [List.foldl_append, List.foldl_cons, List.foldl_nil]
    exact warmMemos_tryFrom ih env

/-! ## A remembered installation -/

/-- What a fresh locator returns. -/
def coldAnswer (machine : CondaMachine) (env : REnv) : Option RInstallation :=
  (CondaLocator.fresh.tryFrom machine env).1

/-- The environment's prefix is this one, and its metadata can be read. -/
structure ReadThroughMeta (machine : CondaMachine) (env : REnv) (condaPrefix : PathBuf)
    (info : RCondaPackageInfo) (rHome : PathBuf) : Prop where
  inPrefix : getPrefixFromEnv (CondaLocator.fresh.host machine) env = some condaPrefix
  packageInfo : machine.packageInfoFrom (machine.os.normCase condaPrefix) = some info
  home : inferCondaRHome (CondaLocator.fresh.host machine) condaPrefix = some rHome

/-- The environment's prefix is readable. -/
def Readable (machine : CondaMachine) (env : REnv) : Prop :=
  ∃ condaPrefix info rHome, ReadThroughMeta machine env condaPrefix info rHome

/-- What a call on a prefix has to share with the first one. -/
structure SharesRecord (host : CondaHost) (condaPrefix : PathBuf) (info : RCondaPackageInfo)
    (rHome : PathBuf) (first env : REnv) : Prop where
  arch : env.arch = none ∨ env.arch = info.arch
  executable : host.os.normCase first.executable ∈ normalizePaths host.os
      (collectRExecutables host condaPrefix rHome) ∨
    host.os.normCase first.executable = host.os.normCase env.executable
  script : ∀ path, inferScriptPath host.os (some (host.os.normCase first.executable))
      (some (host.os.normCase rHome)) info.arch = some path →
    (inferScriptPath host.os (some (host.os.normCase env.executable))
      (some (host.os.normCase rHome)) info.arch).map host.os.normCase =
        some (host.os.normCase path)

/-- A remembered installation, with the executable and the architecture of a later call. -/
def patched (os : Os) (installation : RInstallation) (env : REnv) : RInstallation :=
  RInstallationBuilder.build os
    { installation with
      executable := some (os.normCase env.executable)
      arch := env.arch.or installation.arch }

section Patched

variable {host : CondaHost}

/-- INTERNAL: a name is generated for a Conda installation with a version. -/
theorem generatedManagerDisplayName_conda (version : String) (name : Option String) :
    ∃ generated,
      generatedManagerDisplayName (some .conda) (some version) name = some generated := by
  apply Option.ne_none_iff_exists'.mp
  intro h
  unfold generatedManagerDisplayName at h
  dsimp only at h
  split at h <;> cases h

/-- INTERNAL: the known executables of an installation that is built from metadata. -/
theorem mem_knownPaths_packageInstallation (h : NormIdempotent host.os) {path : PathBuf} :
    path ∈ knownPaths (packageInstallation host env condaPrefix info rHome) ↔
      path ∈ normalizePaths host.os (collectRExecutables host condaPrefix rHome) ∨
        path = host.os.normCase env.executable := by
  have hagain : ∀ path, host.os.normCase (host.os.normCase path) = host.os.normCase path := h
  unfold packageInstallation
  rw [knownPaths_build]
  show path ∈ normalizePaths host.os
    (normalizePaths host.os (collectRExecutables host condaPrefix rHome) ++
      [host.os.normCase env.executable]) ↔ _
  rw [mem_normalizePaths_append fun q hq => normCase_of_mem_normalizePaths h hq]
  simp [hagain, eq_comm]

/-- INTERNAL: those of the patched installation. -/
theorem mem_knownPaths_patched (h : NormIdempotent host.os) {path : PathBuf} :
    path ∈ knownPaths (patched host.os
        (packageInstallation host first condaPrefix info rHome) env) ↔
      (path ∈ normalizePaths host.os (collectRExecutables host condaPrefix rHome) ∨
        path = host.os.normCase first.executable) ∨ path = host.os.normCase env.executable := by
  have hagain : ∀ path, host.os.normCase (host.os.normCase path) = host.os.normCase path := h
  have hbuilt : Built host.os (packageInstallation host first condaPrefix info rHome) :=
    built_build h _
  unfold patched
  rw [knownPaths_build]
  show path ∈ normalizePaths host.os
    (knownPaths (packageInstallation host first condaPrefix info rHome) ++
      [host.os.normCase env.executable]) ↔ _
  rw [mem_normalizePaths_append fun q hq => normCase_of_mem_knownPaths h hbuilt hq,
    mem_knownPaths_packageInstallation h]
  simp [hagain, eq_comm]

/-- INTERNAL: the script path of the patched installation, if its architecture is right. -/
theorem scriptPath_patched_iff (h : NormIdempotent host.os)
    (harch : env.arch.or info.arch = info.arch) :
    (patched host.os (packageInstallation host first condaPrefix info rHome) env).scriptPath =
        (packageInstallation host env condaPrefix info rHome).scriptPath ↔
      ∀ path, inferScriptPath host.os (some (host.os.normCase first.executable))
          (some (host.os.normCase rHome)) info.arch = some path →
        (inferScriptPath host.os (some (host.os.normCase env.executable))
          (some (host.os.normCase rHome)) info.arch).map host.os.normCase =
            some (host.os.normCase path) := by
  have hagain : ∀ path, host.os.normCase (host.os.normCase path) = host.os.normCase path := h
  have hpatched : (patched host.os (packageInstallation host first condaPrefix info rHome)
      env).scriptPath =
      (((inferScriptPath host.os (some (host.os.normCase first.executable))
          (some (host.os.normCase rHome)) info.arch).map host.os.normCase).or
        (inferScriptPath host.os (some (host.os.normCase env.executable))
          (some (host.os.normCase rHome)) info.arch)).map host.os.normCase := by
    conv_rhs => arg 2; arg 2; rw [← harch]
    rfl
  have hcold : (packageInstallation host env condaPrefix info rHome).scriptPath =
      (inferScriptPath host.os (some (host.os.normCase env.executable))
        (some (host.os.normCase rHome)) info.arch).map host.os.normCase := rfl
  rw [hpatched, hcold]
  cases inferScriptPath host.os (some (host.os.normCase first.executable))
      (some (host.os.normCase rHome)) info.arch with
  | none => simp
  | some path =>
    rw [Option.map_some, Option.some_or, Option.map_some, hagain]
    constructor
    · intro heq path' hpath'
      cases hpath'
      exact heq.symm
    · exact fun hall => (hall path rfl).symm

/-- **What a remembered installation is worth**: patched for a later call, it is what would be
built for that call exactly if the two share their record. -/
theorem patched_eq_iff (h : NormIdempotent host.os) :
    patched host.os (packageInstallation host first condaPrefix info rHome) env =
        packageInstallation host env condaPrefix info rHome ↔
      SharesRecord host condaPrefix info rHome first env := by
  constructor
  · intro heq
    have harch : env.arch.or info.arch = info.arch := congrArg RInstallation.arch heq
    constructor
    case arch =>
      cases hgiven : env.arch with
      | none => exact .inl rfl
      | some arch =>
        rw [hgiven, Option.some_or] at harch
        exact .inr harch
    case executable =>
      have hmem : host.os.normCase first.executable ∈
          knownPaths (packageInstallation host env condaPrefix info rHome) := by
        rw [← heq]
        exact (mem_knownPaths_patched h).mpr (.inl (.inr rfl))
      exact (mem_knownPaths_packageInstallation h).mp hmem
    case script =>
      exact (scriptPath_patched_iff h harch).mp (congrArg RInstallation.scriptPath heq)
  · intro hshares
    have harch : env.arch.or info.arch = info.arch := by
      rcases hshares.arch with hnone | heq
      · rw [hnone, Option.none_or]
      · rw [heq, Option.or_self]
    have hfirst : Built host.os (packageInstallation host first condaPrefix info rHome) :=
      built_build h _
    have hpatched : Built host.os
        (patched host.os (packageInstallation host first condaPrefix info rHome) env) :=
      built_build h _
    have hcold : Built host.os (packageInstallation host env condaPrefix info rHome) :=
      built_build h _
    apply RInstallation.ext
    case arch => exact harch
    case knownExecutables =>
      rw [knownExecutables_of_built hpatched, knownExecutables_of_built hcold]
      apply congrArg someUnlessEmpty
      apply (pairwise_knownPaths hpatched).eq_of_mem_iff (pairwise_knownPaths hcold)
      intro path
      rw [mem_knownPaths_patched h, mem_knownPaths_packageInstallation h]
      constructor
      · rintro ((hmem | rfl) | rfl)
        · exact .inl hmem
        · exact hshares.executable
        · exact .inr rfl
      · rintro (hmem | rfl)
        · exact .inl (.inl hmem)
        · exact .inr rfl
    case scriptPath => exact (scriptPath_patched_iff h harch).mpr hshares.script
    case displayName =>
      obtain ⟨generated, hgenerated⟩ := generatedManagerDisplayName_conda info.version
        (packageInstallation host env condaPrefix info rHome).name
      have hoverridden : ∀ old old' : Option String,
          ((none : Option String).or (generatedManagerDisplayName (some .conda)
              (some info.version) (packageInstallation host env condaPrefix info rHome).name)).or
                old =
            ((none : Option String).or (generatedManagerDisplayName (some .conda)
              (some info.version) (packageInstallation host env condaPrefix info rHome).name)).or
                old' := by
        intro old old'
        rw [hgenerated]
        rfl
      exact hoverridden (packageInstallation host first condaPrefix info rHome).displayName none
    case symlinks =>
      have hsymlinks := congrArg RInstallation.symlinks hfirst
      exact hsymlinks
    case orthogonal =>
      have horthogonal := congrArg RInstallation.orthogonal hfirst
      exact horthogonal
    -- the other fields do not depend on the call
    all_goals rfl

/-- INTERNAL: a call on a prefix whose metadata can be read. -/
theorem condaTryFrom_of_readable (environments : CondaEnvironments)
    (hinside : getPrefixFromEnv host env = some condaPrefix)
    (hinfo : host.getPackageInfo condaPrefix = some info)
    (hhome : inferCondaRHome host condaPrefix = some rHome) :
    condaTryFrom host environments env =
      match environments condaPrefix with
      | some installation => (some (patched host.os installation env), environments)
      | none =>
        (some (packageInstallation host env condaPrefix info rHome),
          Function.update environments condaPrefix
            (some (packageInstallation host env condaPrefix info rHome))) := by
  unfold condaTryFrom
  rw [hinside]
  dsimp only
  cases environments condaPrefix with
  | some installation => rfl
  | none =>
    dsimp only
    rw [hinfo, hhome]

end Patched

/-! ## Calls one after the other -/

/-- The first of the calls on this prefix. -/
def firstOn (machine : CondaMachine) (calls : List REnv) (condaPrefix : PathBuf) : Option REnv :=
  calls.find? fun call => getPrefixFromEnv (CondaLocator.fresh.host machine) call = some condaPrefix

/-- The call shares its record with the first one on its prefix. -/
def AgreesWithFirst (machine : CondaMachine) (before : List REnv) (env : REnv) : Prop :=
  ∀ condaPrefix info rHome, ReadThroughMeta machine env condaPrefix info rHome →
    ∀ first, firstOn machine before condaPrefix = some first →
      SharesRecord (CondaLocator.fresh.host machine) condaPrefix info rHome first env

/-- INTERNAL: the metadata of a fresh locator are parsed. -/
theorem getPackageInfo_fresh (machine : CondaMachine) (condaPrefix : PathBuf) :
    (CondaLocator.fresh.host machine).getPackageInfo condaPrefix =
      machine.packageInfoFrom (machine.os.normCase condaPrefix) :=
  (getPackageInfo_spec warmMemos_fresh condaPrefix).1

/-- INTERNAL: what a call does after others, if its metadata can be read. -/
theorem tryFrom_of_warmMemos (h : WarmMemos machine locator)
    (hread : ReadThroughMeta machine env condaPrefix info rHome) :
    ((locator.tryFrom machine env).1, (locator.tryFrom machine env).2.environments) =
      match locator.environments condaPrefix with
      | some installation => (some (patched machine.os installation env), locator.environments)
      | none =>
        (some (packageInstallation (CondaLocator.fresh.host machine) env condaPrefix info rHome),
          Function.update locator.environments condaPrefix (some (packageInstallation
            (CondaLocator.fresh.host machine) env condaPrefix info rHome))) := by
  have hinfo := (getPackageInfo_fresh machine condaPrefix).trans hread.packageInfo
  show condaTryFrom (locator.host machine) locator.environments env = _
  rw [host_of_warmMemos h,
    condaTryFrom_of_readable locator.environments hread.inPrefix hinfo hread.home]
  rfl

/-- A fresh locator builds the installation. -/
theorem coldAnswer_of_readThroughMeta
    (hread : ReadThroughMeta machine env condaPrefix info rHome) :
    coldAnswer machine env =
      some (packageInstallation (CondaLocator.fresh.host machine) env condaPrefix info rHome) :=
  congrArg Prod.fst (tryFrom_of_warmMemos warmMemos_fresh hread)

/-- INTERNAL: the first call on a prefix is one of the calls. -/
theorem firstOn_eq_some {calls : List REnv} (h : firstOn machine calls condaPrefix = some first) :
    first ∈ calls ∧
      getPrefixFromEnv (CondaLocator.fresh.host machine) first = some condaPrefix := by
  unfold firstOn at h
  have htest := List.find?_some h
  exact ⟨List.mem_of_find?_eq_some h, of_decide_eq_true htest⟩

/-- INTERNAL: a later call is the first one if there was none. -/
theorem firstOn_concat (calls : List REnv) (env : REnv) (condaPrefix : PathBuf) :
    firstOn machine (calls ++ [env]) condaPrefix =
      (firstOn machine calls condaPrefix).or
        (if getPrefixFromEnv (CondaLocator.fresh.host machine) env = some condaPrefix then some env
          else none) := by
  unfold firstOn
  rw [List.find?_append, List.find?_singleton]
  simp only [decide_eq_true_eq]

/-- **What is remembered by prefix**: what the first call on it returned. -/
theorem environments_after {calls : List REnv} (hreadable : ∀ call ∈ calls, Readable machine call)
    (condaPrefix : PathBuf) :
    (CondaLocator.fresh.after machine calls).environments condaPrefix =
      (firstOn machine calls condaPrefix).bind (coldAnswer machine) := by
  induction calls using List.reverseRecOn generalizing condaPrefix with
  | nil => rfl
  | append_singleton calls env ih =>
    have hcalls : ∀ call ∈ calls, Readable machine call :=
      fun call hcall => hreadable call (List.mem_append_left _ hcall)
    obtain ⟨own, info, rHome, hread⟩ :=
      hreadable env (List.mem_append_right _ (List.mem_singleton.mpr rfl))
    have hstep := congrArg Prod.snd (tryFrom_of_warmMemos
      (@warmMemos_after machine calls) hread)
    have hafter : CondaLocator.fresh.after machine (calls ++ [env]) =
        ((CondaLocator.fresh.after machine calls).tryFrom machine env).2 := by
      unfold CondaLocator.after
      rw [List.foldl_append, List.foldl_cons, List.foldl_nil]
    rw [hafter, firstOn_concat, hread.inPrefix]
    dsimp only at hstep
    rw [hstep]
    -- an entry is only made by the first call on its prefix
    cases hown : (CondaLocator.fresh.after machine calls).environments own with
    | some installation =>
      dsimp only
      rw [ih hcalls condaPrefix]
      by_cases heq : own = condaPrefix
      · subst heq
        rw [ih hcalls own] at hown
        obtain ⟨first, hfirst, -⟩ := Option.bind_eq_some_iff.mp hown
        rw [hfirst, Option.some_or]
      · rw [if_neg (fun hsome => heq (Option.some.inj hsome)), Option.or_none]
    | none =>
      dsimp only
      by_cases heq : own = condaPrefix
      · subst heq
        have hnone : firstOn machine calls own = none := by
          rw [ih hcalls own] at hown
          cases hfirst : firstOn machine calls own with
          | none => rfl
          | some first =>
            obtain ⟨hmem, -⟩ := firstOn_eq_some hfirst
            obtain ⟨_, _, _, hreadFirst⟩ := hcalls first hmem
            rw [hfirst, Option.bind_some, coldAnswer_of_readThroughMeta hreadFirst] at hown
            cases hown
        rw [Function.update_self, hnone, if_pos rfl, Option.none_or, Option.bind_some,
          coldAnswer_of_readThroughMeta hread]
      · rw [Function.update_of_ne (Ne.symm heq), ih hcalls condaPrefix,
          if_neg (fun hsome => heq (Option.some.inj hsome)), Option.or_none]

/-- **One call after others** returns what a fresh locator returns exactly if it shares its
record with the first call on its prefix. -/
theorem tryFrom_after_eq_iff (h : NormIdempotent machine.os) {before : List REnv}
    (hbefore : ∀ call ∈ before, Readable machine call) (henv : Readable machine env) :
    ((CondaLocator.fresh.after machine before).tryFrom machine env).1 = coldAnswer machine env ↔
      AgreesWithFirst machine before env := by
  obtain ⟨condaPrefix, info, rHome, hread⟩ := henv
  have hagrees : AgreesWithFirst machine before env ↔
      ∀ first, firstOn machine before condaPrefix = some first →
        SharesRecord (CondaLocator.fresh.host machine) condaPrefix info rHome first env := by
    constructor
    · exact fun hall => hall condaPrefix info rHome hread
    · intro hall condaPrefix' info' rHome' hread'
      cases hread.inPrefix.symm.trans hread'.inPrefix
      cases hread.packageInfo.symm.trans hread'.packageInfo
      cases hread.home.symm.trans hread'.home
      exact hall
  have hcall := congrArg Prod.fst (tryFrom_of_warmMemos
    (@warmMemos_after machine before) hread)
  dsimp only at hcall
  rw [hagrees, hcall, coldAnswer_of_readThroughMeta hread, environments_after hbefore condaPrefix]
  cases hfirst : firstOn machine before condaPrefix with
  | none =>
    apply iff_of_true rfl
    intro first hnone
    cases hnone
  | some first =>
    obtain ⟨hmem, hinside⟩ := firstOn_eq_some hfirst
    have hreadFirst : ReadThroughMeta machine first condaPrefix info rHome :=
      ⟨hinside, hread.packageInfo, hread.home⟩
    rw [Option.bind_some, coldAnswer_of_readThroughMeta hreadFirst]
    simp only [Option.some.injEq, forall_eq']
    have hos : NormIdempotent (CondaLocator.fresh.host machine).os := h
    exact patched_eq_iff hos

/-- INTERNAL: the answers to calls are the answers to each of them. -/
theorem answers_eq_map_iff (locator : CondaLocator) (f : REnv → Option RInstallation)
    (calls : List REnv) :
    locator.answers machine calls = calls.map f ↔
      ∀ before env rest, calls = before ++ env :: rest →
        ((locator.after machine before).tryFrom machine env).1 = f env := by
  induction calls generalizing locator with
  | nil =>
    apply iff_of_true rfl
    intro before env rest heq
    cases before <;> cases heq
  | cons call calls ih =>
    unfold CondaLocator.answers
    rw [List.map_cons, List.cons.injEq, ih]
    constructor
    · rintro ⟨hhead, htail⟩ before env rest heq
      cases before with
      | nil =>
        cases heq
        exact hhead
      | cons first before =>
        cases heq
        exact htail before env rest rfl
    · intro hall
      constructor
      · exact hall [] call calls rfl
      · intro before env rest heq
        exact hall (call :: before) env rest (congrArg (call :: ·) heq)

/-- **When a warm locator answers as a fresh one.** A call does exactly if it shares its record
with the first call on its prefix, and a whole run does exactly if all its calls do. -/
theorem warm_calls_iff (h : NormIdempotent machine.os) (calls : List REnv)
    (hreadable : ∀ call ∈ calls, Readable machine call) :
    (∀ before env rest, calls = before ++ env :: rest →
      (((CondaLocator.fresh.after machine before).tryFrom machine env).1 =
          coldAnswer machine env ↔ AgreesWithFirst machine before env)) ∧
    (CondaLocator.fresh.answers machine calls = calls.map (coldAnswer machine) ↔
      ∀ before env rest, calls = before ++ env :: rest → AgreesWithFirst machine before env) := by
  have hcall : ∀ before env rest, calls = before ++ env :: rest →
      (((CondaLocator.fresh.after machine before).tryFrom machine env).1 =
        coldAnswer machine env ↔ AgreesWithFirst machine before env) := by
    rintro before env rest rfl
    apply tryFrom_after_eq_iff h
    · exact fun call hmem => hreadable call (List.mem_append_left _ hmem)
    · exact hreadable env (List.mem_append_right _ List.mem_cons_self)
  refine ⟨hcall, (answers_eq_map_iff _ _ _).trans ?_⟩
  constructor
  · exact fun hall before env rest heq => (hcall before env rest heq).mp (hall before env rest heq)
  · exact fun hall before env rest heq => (hcall before env rest heq).mpr (hall before env rest heq)

/-! ## A wrapper of an environment's R -/

/-- A Conda environment `/env` with R, and a launcher of it in `/usr/local/bin`. -/
def wrapperMachine : CondaMachine where
  os := unixOs
  tree := plainTree
    [rootedPath [], rootedPath ["env"], rootedPath ["env", "conda-meta"], rootedPath ["env", "bin"],
      rootedPath ["env", "lib"], rootedPath ["env", "lib", "R"], rootedPath ["usr"],
      rootedPath ["usr", "local"], rootedPath ["usr", "local", "bin"]]
    [rootedPath ["env", "bin", "R"], rootedPath ["usr", "local", "bin", "R"]]
    (by decide)
  preferMamba := false
  packageInfoFrom _ := some ⟨"4.4.1", some .x64⟩
  fingerprintOf _ := none
  getCondaInstallationUsedToCreateCondaEnv _ := none
  getCondaManager _ := none
  getMambaManager _ := none
  getCondaEnvName _ _ := some "env"
  findExecutables directory :=
    if directory = rootedPath ["env"] then [rootedPath ["env", "bin", "R"]] else []
  isSymlink _ := false
  resolvedFrom _ := none

/-- R in the environment. -/
def ownEnv : REnv := REnv.new unixOs (rootedPath ["env", "bin", "R"]) none none

/-- The launcher, which was found out to run that R. -/
def wrapperEnv : REnv :=
  REnv.new unixOs (rootedPath ["usr", "local", "bin", "R"]) (some (rootedPath ["env", "lib", "R"]))
    (some "4.4.1")

/-- INTERNAL: what is read for R in the environment. -/
theorem readThroughMeta_ownEnv : ReadThroughMeta wrapperMachine ownEnv (rootedPath ["env"])
    ⟨"4.4.1", some .x64⟩ (rootedPath ["env", "lib", "R"]) :=
  ⟨by decide, rfl, by decide⟩

/-- INTERNAL: what is read for the launcher. -/
theorem readThroughMeta_wrapperEnv : ReadThroughMeta wrapperMachine wrapperEnv
    (rootedPath ["env"]) ⟨"4.4.1", some .x64⟩ (rootedPath ["env", "lib", "R"]) :=
  ⟨by decide, rfl, by decide⟩

/-- Asked about its own R only, a warm locator answers as a fresh one. -/
theorem warm_calls_own :
    CondaLocator.fresh.answers wrapperMachine [ownEnv, ownEnv] =
      [ownEnv, ownEnv].map (coldAnswer wrapperMachine) := by
  have hreadable : ∀ call ∈ [ownEnv, ownEnv], Readable wrapperMachine call := by
    intro call hcall
    have heq : call = ownEnv := by simpa using hcall
    exact heq ▸ ⟨_, _, _, readThroughMeta_ownEnv⟩
  refine (warm_calls_iff (fun _ => rfl) [ownEnv, ownEnv] hreadable).2.mpr ?_
  intro before env rest heq condaPrefix info rHome hread first hfirst
  have hmem : first ∈ [ownEnv, ownEnv] := heq ▸ List.mem_append_left _ (firstOn_eq_some hfirst).1
  have henv : env ∈ [ownEnv, ownEnv] := heq ▸ List.mem_append_right _ List.mem_cons_self
  obtain rfl : first = ownEnv := by simpa using hmem
  obtain rfl : env = ownEnv := by simpa using henv
  refine ⟨.inl rfl, .inr rfl, ?_⟩
  intro path hpath
  rw [hpath]
  rfl

/-- After a call for the launcher, R in the environment has the script path of the launcher. -/
theorem scriptPath_of_wrapper :
    ¬∀ (machine : CondaMachine) (calls : List REnv), NormIdempotent machine.os →
      (∀ call ∈ calls, Readable machine call) →
        CondaLocator.fresh.answers machine calls = calls.map (coldAnswer machine) := by
  intro h
  have hreadable : ∀ call ∈ [wrapperEnv, ownEnv], Readable wrapperMachine call := by
    intro call hcall
    rcases List.mem_cons.mp hcall with rfl | hcall
    · exact ⟨_, _, _, readThroughMeta_wrapperEnv⟩
    · rw [List.mem_singleton.mp hcall]
      exact ⟨_, _, _, readThroughMeta_ownEnv⟩
  have hanswers := h wrapperMachine [wrapperEnv, ownEnv] (fun _ => rfl) hreadable
  have hwarm : (CondaLocator.fresh.answers wrapperMachine [wrapperEnv, ownEnv]).map
      (fun answer => answer.bind (·.scriptPath)) =
        [some (rootedPath ["usr", "local", "bin", "Rscript"]),
          some (rootedPath ["usr", "local", "bin", "Rscript"])] := by
    decide
  have hcold : ([wrapperEnv, ownEnv].map (coldAnswer wrapperMachine)).map
      (fun answer => answer.bind (·.scriptPath)) =
        [some (rootedPath ["usr", "local", "bin", "Rscript"]),
          some (rootedPath ["env", "bin", "Rscript"])] := by
    decide
  rw [hanswers, hcold] at hwarm
  exact absurd hwarm (by decide)

end REnvTools.Analysis
