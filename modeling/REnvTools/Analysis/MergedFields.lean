import REnvTools.Analysis.Builder
import REnvTools.Analysis.FieldChoice

/-!
# A merge loses nothing

Over installations of builders that were set up by their setters, every field that one of two
reports has the merge has too, and its value is one of theirs (`Occurs`). The one field a merge
may make up is the script path: building the merge infers one where neither report has it,
which needs a report with a home whose executable has no file name, so that no script path was
inferred when it was built.
-/

set_option autoImplicit false

namespace REnvTools.Analysis

open Program Lib KeyedStore

variable {os : Os} {a b i : RInstallation}

/-! ## Fields -/

/-- The installation of a builder that was set up by its setters. -/
def BuiltBySetters (os : Os) (i : RInstallation) : Prop := ∃ c, SetUp os c ∧ i = c.build os

/-- The field is there if it is in one of the two, with a value that occurs in them. -/
structure Occurs {α : Type} (x y merged : Option α) : Prop where
  present : x.isSome = true ∨ y.isSome = true → merged.isSome = true
  value : ∀ v, merged = some v → x = some v ∨ y = some v

/-- INTERNAL: the first of two values occurs in them. -/
theorem occurs_or {α : Type} (x y : Option α) : Occurs x y (x.or y) := by
  constructor
  · cases x <;> cases y <;> simp
  · exact fun v => or_eq_some_cases

/-- INTERNAL: the order of the two does not matter. -/
theorem Occurs.swap {α : Type} {x y merged : Option α} (h : Occurs x y merged) :
    Occurs y x merged :=
  ⟨fun hsome => h.present hsome.symm, fun v hv => (h.value v hv).symm⟩

/-- A chosen field occurs. -/
theorem occurs_of_choosesAt {α : Type} {f : RInstallation → Option α}
    (h : ChoosesAt (mergeInstallations os) f a b) :
    Occurs (f a) (f b) (f (mergeInstallations os a b)) := by
  rcases h with hchosen | hchosen
  · rw [hchosen]
    exact occurs_or _ _
  · rw [hchosen]
    exact (occurs_or _ _).swap

/-- The value of a variable. -/
def variableOf (key : String) (i : RInstallation) : Option String :=
  (i.environmentVariables.getD ∅).lookup key

/-- The report has a home, and an executable without a file name. -/
def NamelessWithHome (i : RInstallation) : Prop :=
  i.home ≠ none ∧ ∃ executable, i.executable = some executable ∧ executable.fileName = none

/-- What a merge keeps of two reports. -/
structure KeepsFields (os : Os) (a b merged : RInstallation) : Prop where
  displayName : a.displayName.isSome = true ∨ b.displayName.isSome = true →
    merged.displayName.isSome = true
  name : Occurs a.name b.name merged.name
  executable : Occurs a.executable b.executable merged.executable
  kind : Occurs a.kind b.kind merged.kind
  version : Occurs a.version b.version merged.version
  home : Occurs a.home b.home merged.home
  manager : Occurs a.manager b.manager merged.manager
  arch : Occurs a.arch b.arch merged.arch
  knownExecutables : a.knownExecutables.isSome = true ∨ b.knownExecutables.isSome = true →
    merged.knownExecutables.isSome = true
  symlinks : a.symlinks.isSome = true ∨ b.symlinks.isSome = true → merged.symlinks.isSome = true
  locatorMetadata : Occurs a.locatorMetadata b.locatorMetadata merged.locatorMetadata
  overlay : a.rversionsOverlay.isSome = true ∨ b.rversionsOverlay.isSome = true →
    merged.rversionsOverlay.isSome = true
  label : Occurs (a.rversionsOverlay.bind (·.label)) (b.rversionsOverlay.bind (·.label))
    (merged.rversionsOverlay.bind (·.label))
  script : Occurs (a.rversionsOverlay.bind (·.script)) (b.rversionsOverlay.bind (·.script))
    (merged.rversionsOverlay.bind (·.script))
  repo : Occurs (a.rversionsOverlay.bind (·.repo)) (b.rversionsOverlay.bind (·.repo))
    (merged.rversionsOverlay.bind (·.repo))
  library : Occurs (a.rversionsOverlay.bind (·.library)) (b.rversionsOverlay.bind (·.library))
    (merged.rversionsOverlay.bind (·.library))
  module : Occurs (a.rversionsOverlay.bind (·.module)) (b.rversionsOverlay.bind (·.module))
    (merged.rversionsOverlay.bind (·.module))
  moduleStartupCommand : Occurs (a.rversionsOverlay.bind (·.moduleStartupCommand))
    (b.rversionsOverlay.bind (·.moduleStartupCommand))
    (merged.rversionsOverlay.bind (·.moduleStartupCommand))
  scriptPath_present : a.scriptPath.isSome = true ∨ b.scriptPath.isSome = true →
    merged.scriptPath.isSome = true
  scriptPath : ∀ path, merged.scriptPath = some path →
    a.scriptPath = some path ∨ b.scriptPath = some path ∨
      (a.scriptPath = none ∧ b.scriptPath = none ∧
        (NamelessWithHome a ∨ NamelessWithHome b) ∧
        (inferScriptPath os merged.executable merged.home merged.arch).map os.normCase =
          some path)
  startupCommand : Occurs a.startupCommand b.startupCommand merged.startupCommand
  environmentVariables :
    a.environmentVariables.isSome = true ∨ b.environmentVariables.isSome = true →
      merged.environmentVariables.isSome = true
  eachVariable : ∀ key, Occurs (variableOf key a) (variableOf key b) (variableOf key merged)
  orthogonal : Occurs a.orthogonal b.orthogonal merged.orthogonal
  error : Occurs a.error b.error merged.error

/-! ## The script path -/

/-- INTERNAL: what two built reports without a script path have, if the two together have
one. -/
theorem nameless_of_inferred {p q : RInstallation} {arch : Option Architecture}
    (hp : inferScriptPath os p.executable p.home p.arch = none)
    (hq : inferScriptPath os q.executable q.home q.arch = none)
    (h : inferScriptPath os (p.executable.or q.executable) (p.home.or q.home) arch ≠ none) :
    NamelessWithHome q := by
  cases hpe : p.executable with
  | none =>
    rw [hpe] at hp
    cases hph : p.home with
    | some home =>
      rw [hph] at hp
      exact absurd hp (inferScriptPath_home _ home)
    | none =>
      -- then the merge has the executable and the home of the other report
      rw [hpe, hph, Option.none_or, Option.none_or] at h
      cases hqe : q.executable with
      | none =>
        cases hqh : q.home with
        | none =>
          rw [hqe, hqh] at h
          exact absurd rfl h
        | some home =>
          rw [hqe, hqh] at hq
          exact absurd hq (inferScriptPath_home _ home)
      | some e =>
        rw [hqe, inferScriptPath_eq_none] at hq
        rw [hqe, ne_eq, inferScriptPath_eq_none] at h
        exact absurd hq h
  | some e =>
    rw [hpe, inferScriptPath_eq_none] at hp
    rw [hpe, Option.some_or, ne_eq, inferScriptPath_eq_none, not_or] at h
    obtain ⟨hname, hnone⟩ := h
    obtain ⟨hph, hpe'⟩ := hp.resolve_left hname
    have hhome : q.home ≠ none := by
      intro hqh
      apply hnone
      rw [hph, hqh]
      exact ⟨rfl, hpe'⟩
    refine ⟨hhome, ?_⟩
    cases hqe : q.executable with
    | none =>
      obtain ⟨home, hqh⟩ := Option.ne_none_iff_exists'.mp hhome
      rw [hqe, hqh] at hq
      exact absurd hq (inferScriptPath_home _ home)
    | some e' =>
      rw [hqe, inferScriptPath_eq_none] at hq
      exact ⟨e', rfl, hq.resolve_right fun hboth => hhome hboth.1⟩

/-- INTERNAL: the script path of a merge. -/
theorem scriptPath_merge_cases (h : NormIdempotent os) (ha : Built os a ∧ NormalPaths os a)
    (hb : Built os b ∧ NormalPaths os b) :
    Occurs a.scriptPath b.scriptPath (mergeInstallations os a b).scriptPath ∨
      (a.scriptPath = none ∧ b.scriptPath = none ∧ (NamelessWithHome a ∨ NamelessWithHome b) ∧
        (mergeInstallations os a b).scriptPath =
          (inferScriptPath os (mergeInstallations os a b).executable
            (mergeInstallations os a b).home (mergeInstallations os a b).arch).map
              os.normCase) := by
  obtain ⟨p, q, hcases, heq⟩ := merge_cases os a b
  have hpq : (Built os p ∧ NormalPaths os p) ∧ Built os q ∧ NormalPaths os q := by
    rcases hcases with ⟨rfl, rfl⟩ | ⟨rfl, rfl⟩
    · exact ⟨ha, hb⟩
    · exact ⟨hb, ha⟩
  obtain ⟨⟨hp, hppaths⟩, hq, hqpaths⟩ := hpq
  have hpaths : ((p.scriptPath.or q.scriptPath).map os.normCase) =
      p.scriptPath.or q.scriptPath :=
    or_map_of_normal (normCase_scriptPath h hp) (normCase_scriptPath h hq)
  have hmerged : (mergeInstallations os a b).scriptPath =
      ((p.scriptPath.or q.scriptPath).or (inferScriptPath os (p.executable.or q.executable)
        (p.home.or q.home) (p.arch.or q.arch))).map os.normCase := by
    rw [heq]
    show (((p.scriptPath.or q.scriptPath).map os.normCase).or
        (inferScriptPath os ((p.executable.or q.executable).map os.normCase)
          ((p.home.or q.home).map os.normCase) (p.arch.or q.arch))).map os.normCase = _
    rw [hpaths, or_map_of_normal hppaths.1 hqpaths.1, or_map_of_normal hppaths.2 hqpaths.2]
  have hsymm : Occurs p.scriptPath q.scriptPath (mergeInstallations os a b).scriptPath →
      Occurs a.scriptPath b.scriptPath (mergeInstallations os a b).scriptPath := by
    rcases hcases with ⟨rfl, rfl⟩ | ⟨rfl, rfl⟩
    · exact id
    · exact Occurs.swap
  -- a script path of one of the two is kept; without one, it is inferred from the merged fields
  cases hchosen : p.scriptPath.or q.scriptPath with
  | some path =>
    left
    apply hsymm
    rw [hmerged, hchosen, Option.some_or, ← hchosen, hpaths]
    exact occurs_or _ _
  | none =>
    obtain ⟨hpn, hqn⟩ := Option.or_eq_none_iff.mp hchosen
    rw [hchosen, Option.none_or] at hmerged
    cases hinferred : inferScriptPath os (p.executable.or q.executable) (p.home.or q.home)
        (p.arch.or q.arch) with
    | none =>
      left
      apply hsymm
      rw [hmerged, hinferred, hpn, hqn]
      exact occurs_or none none
    | some path =>
      right
      have hne : inferScriptPath os (p.executable.or q.executable) (p.home.or q.home)
          (p.arch.or q.arch) ≠ none := by
        rw [hinferred]
        exact Option.some_ne_none path
      have hnameless : NamelessWithHome q :=
        nameless_of_inferred (inferScriptPath_of_built hp hpn) (inferScriptPath_of_built hq hqn)
          hne
      have hsame : (inferScriptPath os (mergeInstallations os a b).executable
          (mergeInstallations os a b).home (mergeInstallations os a b).arch) =
            inferScriptPath os (p.executable.or q.executable) (p.home.or q.home)
              (p.arch.or q.arch) := by
        rw [heq]
        show inferScriptPath os ((p.executable.or q.executable).map os.normCase)
          ((p.home.or q.home).map os.normCase) (p.arch.or q.arch) = _
        rw [or_map_of_normal hppaths.1 hqpaths.1, or_map_of_normal hppaths.2 hqpaths.2]
      rw [hsame]
      rcases hcases with ⟨rfl, rfl⟩ | ⟨rfl, rfl⟩
      · exact ⟨hpn, hqn, .inr hnameless, hmerged⟩
      · exact ⟨hqn, hpn, .inl hnameless, hmerged⟩

/-! ## The environment variables -/

/-- INTERNAL: a merge chooses at each variable. -/
theorem choosesAt_variableOf (key : String) (a b : RInstallation) :
    ChoosesAt (mergeInstallations os) (variableOf key) a b :=
  choosesAt_of_or (fun _ _ _ _ => lookup_mergeEnvironmentVariables _ _ key) a b

/-- INTERNAL: a built installation with variables has one. -/
theorem environmentVariables_isSome_iff (hi : Built os i) :
    i.environmentVariables.isSome = true ↔ ∃ key, (variableOf key i).isSome = true := by
  unfold variableOf
  cases hvars : i.environmentVariables with
  | none => simp
  | some vars =>
    constructor
    · intro _
      by_contra hnone
      apply environmentVariables_of_built hi
      rw [hvars]
      apply congrArg some
      apply Finmap.ext_lookup
      intro key
      rw [Finmap.lookup_empty]
      simpa using not_exists.mp hnone key
    · exact fun _ => rfl

/-! ## The lists -/

/-- INTERNAL: what is a union is there if one of the two is. -/
theorem isSome_union {l x y : List PathBuf} (h : ∀ p, p ∈ l ↔ p ∈ x ∨ p ∈ y)
    (hsome : (someUnlessEmpty x).isSome = true ∨ (someUnlessEmpty y).isSome = true) :
    (someUnlessEmpty l).isSome = true := by
  simp only [isSome_someUnlessEmpty] at hsome ⊢
  rcases hsome with ⟨p, hp⟩ | ⟨p, hp⟩
  · exact ⟨p, (h p).mpr (.inl hp)⟩
  · exact ⟨p, (h p).mpr (.inr hp)⟩

/-! ## Both together -/

/-- INTERNAL: an installation set up by the setters is built, over normal paths. -/
theorem built_of_builtBySetters (h : NormIdempotent os) (hi : BuiltBySetters os i) :
    Built os i ∧ NormalPaths os i := by
  obtain ⟨c, hc, rfl⟩ := hi
  exact ⟨built_build h c, (paths_of_setUp h hc).1, (paths_of_setUp h hc).2⟩

/-- INTERNAL: a path that is chosen up to its normal form. -/
theorem occurs_of_normal {f : RInstallation → Option PathBuf}
    (h : ChoosesAt (mergeInstallations os) (fun i => (f i).map os.normCase) a b)
    (ha : (f a).map os.normCase = f a) (hb : (f b).map os.normCase = f b)
    (hmerged : (f (mergeInstallations os a b)).map os.normCase = f (mergeInstallations os a b)) :
    Occurs (f a) (f b) (f (mergeInstallations os a b)) := by
  have hoccurs := occurs_of_choosesAt h
  rwa [ha, hb, hmerged] at hoccurs

/-- The merge keeps the fields of two reports. -/
theorem keepsFields_merge (h : NormIdempotent os) (ha : Built os a ∧ NormalPaths os a)
    (hb : Built os b ∧ NormalPaths os b) :
    KeepsFields os a b (mergeInstallations os a b) := by
  have hmerged : Built os (mergeInstallations os a b) := built_merge h
  have hpaths := normalPaths_merge h a b
  have hscript := scriptPath_merge_cases h ha hb
  constructor
  case displayName => exact isSome_displayName_merge os
  case name => exact occurs_of_choosesAt (choosesAt_of_or (fun _ _ _ _ => rfl) a b)
  case executable =>
    exact occurs_of_normal (choosesAt_executable h a b) ha.2.1 hb.2.1 hpaths.1
  case kind => exact occurs_of_choosesAt (choosesAt_of_or (fun _ _ _ _ => rfl) a b)
  case version => exact occurs_of_choosesAt (choosesAt_of_or (fun _ _ _ _ => rfl) a b)
  case home => exact occurs_of_normal (choosesAt_home h a b) ha.2.2 hb.2.2 hpaths.2
  case manager => exact occurs_of_choosesAt (choosesAt_of_or (fun _ _ _ _ => rfl) a b)
  case arch => exact occurs_of_choosesAt (choosesAt_of_or (fun _ _ _ _ => rfl) a b)
  case knownExecutables =>
    rw [knownExecutables_of_built ha.1, knownExecutables_of_built hb.1,
      knownExecutables_of_built hmerged]
    exact isSome_union (mem_knownPaths_merge h ha.1 hb.1)
  case symlinks =>
    rw [symlinks_of_built ha.1, symlinks_of_built hb.1, symlinks_of_built hmerged]
    exact isSome_union (mem_symlinkPaths_merge h ha.1 hb.1)
  case locatorMetadata => exact occurs_of_choosesAt (choosesAt_locatorMetadata a b)
  case overlay => exact (isSome_rversionsOverlay_merge os a b).mpr
  case label => exact occurs_of_choosesAt (choosesAt_overlay (fun _ _ => rfl) a b)
  case script => exact occurs_of_choosesAt (choosesAt_overlay (fun _ _ => rfl) a b)
  case repo => exact occurs_of_choosesAt (choosesAt_overlay (fun _ _ => rfl) a b)
  case library => exact occurs_of_choosesAt (choosesAt_overlay (fun _ _ => rfl) a b)
  case module => exact occurs_of_choosesAt (choosesAt_overlay (fun _ _ => rfl) a b)
  case moduleStartupCommand =>
    exact occurs_of_choosesAt (choosesAt_overlay (fun _ _ => rfl) a b)
  case scriptPath_present =>
    intro hsome
    rcases hscript with hoccurs | ⟨hna, hnb, -⟩
    · exact hoccurs.present hsome
    · rw [hna, hnb] at hsome
      exact absurd hsome (by simp)
  case scriptPath =>
    intro path hpath
    rcases hscript with hoccurs | ⟨hna, hnb, hnameless, hinferred⟩
    · exact (hoccurs.value path hpath).imp_right .inl
    · exact .inr (.inr ⟨hna, hnb, hnameless, hinferred.symm.trans hpath⟩)
  case startupCommand => exact occurs_of_choosesAt (choosesAt_of_or (fun _ _ _ _ => rfl) a b)
  case environmentVariables =>
    rw [environmentVariables_isSome_iff ha.1, environmentVariables_isSome_iff hb.1,
      environmentVariables_isSome_iff hmerged]
    have hkeys := fun key => (occurs_of_choosesAt (@choosesAt_variableOf os key a b)).present
    rintro (⟨key, hkey⟩ | ⟨key, hkey⟩)
    · exact ⟨key, hkeys key (.inl hkey)⟩
    · exact ⟨key, hkeys key (.inr hkey)⟩
  case eachVariable => exact fun key => occurs_of_choosesAt (choosesAt_variableOf key a b)
  case orthogonal => exact occurs_of_choosesAt (choosesAt_orthogonal ha hb)
  case error => exact occurs_of_choosesAt (choosesAt_of_or (fun _ _ _ _ => rfl) a b)

/-! ## A report with itself -/

/-- INTERNAL: merging an overlay with itself. -/
theorem mergeRversionsOverlay_self (x : Option RVersionsOverlay) :
    mergeRversionsOverlay x x = x := by
  cases x with
  | none => rfl
  | some x => simp [mergeRversionsOverlay]

/-- INTERNAL: choosing between equal metadata. -/
theorem selectLocatorMetadata_self (x : Option LocatorMetadata) :
    selectLocatorMetadata x x = x := by
  cases x with
  | none => rfl
  | some x => simp [selectLocatorMetadata]

/-- INTERNAL: merging variables with themselves. -/
theorem mergeEnvironmentVariables_self (x : Option EnvironmentVariables) :
    mergeEnvironmentVariables x x = x := by
  cases x with
  | none => rfl
  | some vars =>
    apply congrArg some
    apply Finmap.ext_lookup
    intro key
    by_cases hkey : key ∈ vars
    · exact Finmap.lookup_union_left hkey
    · exact Finmap.lookup_union_right hkey

/-- Merging a report with itself changes nothing. -/
theorem merge_self (h : NormIdempotent os) (ha : Built os a ∧ NormalPaths os a) :
    mergeInstallations os a a = a := by
  have hmerged : Built os (mergeInstallations os a a) := built_merge h
  have heq : mergeInstallations os a a =
      RInstallationBuilder.build os (mergeBuilder os a a a a) := by
    apply merge_of_not_outranks
    unfold Outranks
    omega
  have hknown : knownPaths (mergeInstallations os a a) = knownPaths a :=
    (pairwise_knownPaths hmerged).eq_of_mem_iff (pairwise_knownPaths ha.1) fun p => by
      rw [mem_knownPaths_merge h ha.1 ha.1, or_self]
  have hsymlinks : symlinkPaths (mergeInstallations os a a) = symlinkPaths a :=
    (pairwise_symlinkPaths hmerged).eq_of_mem_iff (pairwise_symlinkPaths ha.1) fun p => by
      rw [mem_symlinkPaths_merge h ha.1 ha.1, or_self]
  apply RInstallation.ext
  case knownExecutables =>
    rw [knownExecutables_of_built hmerged, hknown, ← knownExecutables_of_built ha.1]
  case symlinks => rw [symlinks_of_built hmerged, hsymlinks, ← symlinks_of_built ha.1]
  case discoveredBy =>
    exact (pairwise_discoveredBy hmerged).eq_of_mem_iff (pairwise_discoveredBy ha.1)
      fun source => by rw [mem_discoveredBy_merge ha.1 ha.1, or_self]
  case displayName =>
    have hbuilt := displayName_of_built ha.1
    rw [heq]
    show (((mergeRversionsOverlay a.rversionsOverlay a.rversionsOverlay).bind (·.label)).or
        (generatedManagerDisplayName (a.kind.or a.kind) (a.version.or a.version)
          (a.name.or a.name))).or
      ((((mergeRversionsOverlay a.rversionsOverlay a.rversionsOverlay).bind (·.label)).or
        a.displayName).or a.displayName) = a.displayName
    simp only [mergeRversionsOverlay_self, Option.or_self] at hbuilt ⊢
    cases hlabel : a.rversionsOverlay.bind (·.label) with
    | some label => simpa [hlabel] using hbuilt
    | none => simpa [hlabel] using hbuilt
  case executable =>
    rw [heq]
    show (a.executable.or a.executable).map os.normCase = a.executable
    rw [Option.or_self, ha.2.1]
  case home =>
    rw [heq]
    show (a.home.or a.home).map os.normCase = a.home
    rw [Option.or_self, ha.2.2]
  case locatorMetadata =>
    rw [locatorMetadata_merge, selectLocatorMetadata_self]
  case rversionsOverlay => rw [rversionsOverlay_merge, mergeRversionsOverlay_self]
  case scriptPath =>
    rw [heq]
    show (((a.scriptPath.or a.scriptPath).map os.normCase).or
        (inferScriptPath os ((a.executable.or a.executable).map os.normCase)
          ((a.home.or a.home).map os.normCase) (a.arch.or a.arch))).map os.normCase = _
    rw [Option.or_self, Option.or_self, Option.or_self, Option.or_self, ha.2.1, ha.2.2,
      normCase_scriptPath h ha.1]
    exact scriptPath_of_built ha.1
  case environmentVariables =>
    rw [heq]
    show (mergeEnvironmentVariables a.environmentVariables a.environmentVariables).filter
      (· ≠ ∅) = _
    rw [mergeEnvironmentVariables_self]
    exact congrArg RInstallation.environmentVariables ha.1
  case orthogonal =>
    rw [heq]
    show (a.orthogonal.or a.orthogonal).or
      (inferOrthogonal os ((a.home.or a.home).map os.normCase)) = _
    rw [Option.or_self, Option.or_self, ha.2.2]
    exact congrArg RInstallation.orthogonal ha.1
  -- the other fields are the first of two that are equal
  all_goals
    rw [heq]
    exact Option.or_self

/-- **A merge loses nothing**, and merging a report with itself changes nothing. -/
theorem merge_loses_nothing (h : NormIdempotent os) (ha : BuiltBySetters os a)
    (hb : BuiltBySetters os b) :
    KeepsFields os a b (mergeInstallations os a b) ∧ mergeInstallations os a a = a :=
  ⟨keepsFields_merge h (built_of_builtBySetters h ha) (built_of_builtBySetters h hb),
    merge_self h (built_of_builtBySetters h ha)⟩

/-! ## A report of the root directory -/

/-- A report with a home whose executable is `/`. -/
def rootReport : RInstallation :=
  RInstallationBuilder.build plainOs
    { RInstallationBuilder.new none with
      executable := some (plainOs.normCase ⟨[.rootDir]⟩)
      home := some (plainOs.normCase optR) }

/-- A report of a launcher by a name of its own, without a home. -/
def wrapperReport : RInstallation :=
  RInstallationBuilder.build plainOs
    { RInstallationBuilder.new (some .rig) with
      executable := some (plainOs.normCase ((optR.join "bin").join "wrapper")) }

/-- INTERNAL: the report of the executable in the root is built. -/
theorem builtBySetters_rootReport : BuiltBySetters plainOs rootReport :=
  ⟨_, .home (some optR) (.executable (some ⟨[.rootDir]⟩) (.new none)), rfl⟩

/-- INTERNAL: the report of the wrapper is built. -/
theorem builtBySetters_wrapperReport : BuiltBySetters plainOs wrapperReport :=
  ⟨_, .executable (some ((optR.join "bin").join "wrapper")) (.new (some .rig)), rfl⟩

/-- The theorem for the report of the root directory and that of a wrapper. -/
theorem merge_loses_nothing_root :
    KeepsFields plainOs rootReport wrapperReport
        (mergeInstallations plainOs rootReport wrapperReport) ∧
      mergeInstallations plainOs rootReport rootReport = rootReport :=
  merge_loses_nothing (fun _ => rfl) builtBySetters_rootReport builtBySetters_wrapperReport

/-- The two have no script path, and their merge has one. -/
theorem scriptPath_made_up :
    ¬∀ (os : Os) (a b : RInstallation), NormIdempotent os → BuiltBySetters os a →
      BuiltBySetters os b → ∀ path, (mergeInstallations os a b).scriptPath = some path →
        a.scriptPath = some path ∨ b.scriptPath = some path := by
  intro h
  have hmerged : (mergeInstallations plainOs rootReport wrapperReport).scriptPath =
      some ((optR.join "bin").join "Rscript") := by decide
  have hoccurs := h plainOs rootReport wrapperReport (fun _ => rfl) builtBySetters_rootReport
    builtBySetters_wrapperReport _ hmerged
  exact absurd hoccurs (by decide)

end REnvTools.Analysis
