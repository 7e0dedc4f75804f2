import REnvTools.Program.Installation

/-!
# What a merge of two reports keeps

An installation is `Built` when the builder would leave it as it is; with an idempotent
`norm_case` that is every installation the builder made (`built_of_builderBuilt`), and
every merge. From that one equation come the facts about single fields.

* `key_merge`: merging two reports of a key gives a record of that key.
* `mem_knownPaths_merge`, `mem_symlinkPaths_merge`, `mem_discoveredBy_merge`: the three
  collections of a merge are unions.
* `merge_cases`: every other field is the primary's or else the secondary's.
-/

set_option autoImplicit false

namespace REnvTools.Analysis

open Program Lib

variable {os : Os} {a b i : RInstallation}

/-- `norm_case` leaves a normalised path alone. -/
def NormIdempotent (os : Os) : Prop := ∀ p, os.normCase (os.normCase p) = os.normCase p

/-- INTERNAL: the setters leave paths in normal form. -/
theorem map_normCase_map (h : NormIdempotent os) (path : Option PathBuf) :
    (path.map os.normCase).map os.normCase = path.map os.normCase := by
  cases path with
  | none => rfl
  | some path => exact congrArg some (h path)

/-- `norm_case` changes neither a normalised path nor what a path leads to. -/
structure KeyPreserving (os : Os) : Prop where
  idempotent : NormIdempotent os
  canonical : ∀ p, os.canonical (os.normCase p) = os.canonical p

/-! ## Options -/

section Options

variable {α β : Type}

/-- Two options with one image have it together. -/
theorem map_or_of_eq {x y : Option α} {f : α → β} {z : Option β} (hx : x.map f = z)
    (hy : y.map f = z) : (x.or y).map f = z := by
  cases x with
  | none => exact hy
  | some _ => exact hx

/-- Two options that are bound to one value are so together. -/
theorem bind_or_of_eq {x y : Option α} {f : α → Option β} {z : Option β} (hx : x.bind f = z)
    (hy : y.bind f = z) : (x.or y).bind f = z := by
  cases x with
  | none => exact hy
  | some _ => exact hx

/-- An option that is offered twice in front counts once. -/
theorem or_or_self_left (x y : Option α) : x.or (x.or y) = x.or y := by
  cases x <;> rfl

/-- An option that is offered twice behind counts once. -/
theorem or_or_self_right (x y : Option α) : (x.or y).or y = x.or y := by
  cases x <;> cases y <;> rfl

/-- A value of either comes from one of them. -/
theorem or_eq_some_cases {x y : Option α} {z : α} (h : x.or y = some z) :
    x = some z ∨ y = some z := by
  cases x with
  | none => exact .inr h
  | some _ => exact .inl h

/-- INTERNAL: a list read back as none where it is empty. -/
theorem getD_map_someUnlessEmpty {l : List α} {f : List α → List α} (hf : f [] = []) :
    ((someUnlessEmpty l).map f).getD [] = f l := by
  cases l with
  | nil => exact hf.symm
  | cons => rfl

end Options

/-! ## Built installations -/

/-- The builder leaves the installation as it is. -/
def Built (os : Os) (i : RInstallation) : Prop := RInstallationBuilder.build os i = i

/-- The known executables, as a list. -/
def knownPaths (i : RInstallation) : List PathBuf := i.knownExecutables.getD []

/-- The symlinks, as a list. -/
def symlinkPaths (i : RInstallation) : List PathBuf := i.symlinks.getD []

section Built

/-- The normal forms of the paths. -/
theorem mem_normalizePaths {paths : List PathBuf} {p : PathBuf} :
    p ∈ normalizePaths os paths ↔ ∃ q ∈ paths, os.normCase q = p := by
  simp [normalizePaths]

/-- Of paths in normal form and others, the others are normalised. -/
theorem mem_normalizePaths_append {paths more : List PathBuf} {p : PathBuf}
    (hpaths : ∀ q ∈ paths, os.normCase q = q) :
    p ∈ normalizePaths os (paths ++ more) ↔ p ∈ paths ∨ ∃ q ∈ more, os.normCase q = p := by
  rw [mem_normalizePaths]
  constructor
  · rintro ⟨q, hq, rfl⟩
    rcases List.mem_append.mp hq with hq | hq
    · rw [hpaths q hq]
      exact .inl hq
    · exact .inr ⟨q, hq, rfl⟩
  · rintro (hp | ⟨q, hq, rfl⟩)
    · exact ⟨p, List.mem_append_left _ hp, hpaths p hp⟩
    · exact ⟨q, List.mem_append_right _ hq, rfl⟩

/-- INTERNAL: no path has no normal form. -/
theorem normalizePaths_nil : normalizePaths os [] = [] := rfl

/-- Normalised paths are normalised. -/
theorem normCase_of_mem_normalizePaths (h : NormIdempotent os) {paths : List PathBuf}
    {p : PathBuf} (hp : p ∈ normalizePaths os paths) : os.normCase p = p := by
  obtain ⟨q, -, rfl⟩ := mem_normalizePaths.mp hp
  exact h q

/-- INTERNAL: paths that are there already add nothing. -/
theorem normalizePaths_eq_self (h : NormIdempotent os) (paths more : List PathBuf)
    (hmore : ∀ p ∈ more, os.normCase p ∈ normalizePaths os paths) :
    normalizePaths os (normalizePaths os paths ++ more) = normalizePaths os paths := by
  apply (pairwise_sortDedup _).eq_of_mem_iff (pairwise_sortDedup _)
  intro p
  show p ∈ normalizePaths os _ ↔ p ∈ normalizePaths os _
  rw [mem_normalizePaths_append fun q hq => normCase_of_mem_normalizePaths h hq]
  constructor
  · rintro (hp | ⟨q, hq, rfl⟩)
    · exact hp
    · exact hmore q hq
  · exact .inl

/-- The executables that the builder lists. -/
theorem knownPaths_build (c : RInstallationBuilder) :
    knownPaths (c.build os) =
      normalizePaths os (c.knownExecutables.getD [] ++ c.executable.toList) :=
  getD_someUnlessEmpty _

/-- The symbolic links that the builder lists. -/
theorem symlinkPaths_build (c : RInstallationBuilder) :
    symlinkPaths (c.build os) = normalizePaths os (c.symlinks.getD []) :=
  getD_someUnlessEmpty _

/-- INTERNAL: the sources default once. -/
theorem sortDedup_sources {P : Prop} [Decidable P] (l : List DiscoverySource) :
    sortDedup (if sortDedup (if l = [] ∧ P then [DiscoverySource.locator] else l) = [] ∧ P
        then [DiscoverySource.locator]
        else sortDedup (if l = [] ∧ P then [DiscoverySource.locator] else l)) =
      sortDedup (if l = [] ∧ P then [DiscoverySource.locator] else l) := by
  by_cases hdefault : l = [] ∧ P
  · rw [if_pos hdefault, if_neg (by simp), sortDedup_eq_self (pairwise_sortDedup _)]
  · rw [if_neg hdefault, if_neg (by rwa [sortDedup_eq_nil]),
      sortDedup_eq_self (pairwise_sortDedup _)]

/-- **Building twice is building once.** -/
theorem build_build (h : NormIdempotent os) (c : RInstallationBuilder) :
    RInstallationBuilder.build os (c.build os) = c.build os := by
  have hknown : normalizePaths os (knownPaths (c.build os) ++ c.executable.toList) =
      knownPaths (c.build os) := by
    rw [knownPaths_build]
    refine normalizePaths_eq_self h _ _ fun p hp => mem_normalizePaths.mpr ⟨p, ?_, rfl⟩
    exact List.mem_append_right _ hp
  have hsymlinks : normalizePaths os (symlinkPaths (c.build os)) =
      symlinkPaths (c.build os) := by
    rw [symlinkPaths_build]
    have hself := normalizePaths_eq_self h (c.symlinks.getD []) [] (by simp)
    rwa [List.append_nil] at hself
  apply RInstallation.ext
  case displayName => exact or_or_self_left _ _
  case knownExecutables =>
    show someUnlessEmpty (normalizePaths os (knownPaths (c.build os) ++ c.executable.toList)) = _
    rw [hknown, knownPaths_build]
    rfl
  case symlinks =>
    show someUnlessEmpty (normalizePaths os (symlinkPaths (c.build os))) = _
    rw [hsymlinks, symlinkPaths_build]
    rfl
  case discoveredBy => exact sortDedup_sources _
  case scriptPath =>
    show (((c.scriptPath.or (inferScriptPath os c.executable c.home c.arch)).map
      os.normCase).or (inferScriptPath os c.executable c.home c.arch)).map os.normCase =
        (c.scriptPath.or (inferScriptPath os c.executable c.home c.arch)).map os.normCase
    cases c.scriptPath <;> cases inferScriptPath os c.executable c.home c.arch <;>
      simp [show ∀ p, os.normCase (os.normCase p) = os.normCase p from h]
  case environmentVariables =>
    show Option.filter _ (Option.filter _ _) = Option.filter _ _
    cases c.environmentVariables with
    | none => rfl
    | some vars => by_cases hvars : vars = ∅ <;> simp [Option.filter, hvars]
  case orthogonal => exact or_or_self_right _ _
  all_goals rfl

/-- The builder leaves what it has built as it is. -/
theorem built_build (h : NormIdempotent os) (c : RInstallationBuilder) :
    Built os (c.build os) :=
  build_build h c

/-- INTERNAL: what a builder made is built. -/
theorem built_of_builderBuilt (h : NormIdempotent os) (hi : BuilderBuilt os i) :
    Built os i := by
  obtain ⟨c, rfl⟩ := hi
  exact build_build h c

/-- A built record lists its executables in normal form, its own among them. -/
theorem knownPaths_of_built (hi : Built os i) :
    knownPaths i = normalizePaths os (knownPaths i ++ i.executable.toList) := by
  have hb : knownPaths (RInstallationBuilder.build os i) = _ := knownPaths_build i
  rwa [hi] at hb

/-- A built record lists its symbolic links in normal form. -/
theorem symlinkPaths_of_built (hi : Built os i) :
    symlinkPaths i = normalizePaths os (symlinkPaths i) := by
  have hb : symlinkPaths (RInstallationBuilder.build os i) = _ := symlinkPaths_build i
  rwa [hi] at hb

/-- INTERNAL: a listed executable is in normal form. -/
theorem normCase_of_mem_knownPaths (h : NormIdempotent os) (hi : Built os i) {p : PathBuf}
    (hp : p ∈ knownPaths i) : os.normCase p = p := by
  rw [knownPaths_of_built hi] at hp
  exact normCase_of_mem_normalizePaths h hp

/-- INTERNAL: a listed symbolic link is in normal form. -/
theorem normCase_of_mem_symlinkPaths (h : NormIdempotent os) (hi : Built os i) {p : PathBuf}
    (hp : p ∈ symlinkPaths i) : os.normCase p = p := by
  rw [symlinkPaths_of_built hi] at hp
  exact normCase_of_mem_normalizePaths h hp

/-- The executable is a known executable. -/
theorem executable_mem_knownPaths (hi : Built os i) {p : PathBuf}
    (hp : i.executable = some p) : os.normCase p ∈ knownPaths i := by
  rw [knownPaths_of_built hi, hp]
  exact mem_normalizePaths.mpr ⟨p, by simp, rfl⟩

/-- INTERNAL: a built record has no empty list of executables. -/
theorem knownExecutables_of_built (hi : Built os i) :
    i.knownExecutables = someUnlessEmpty (knownPaths i) := by
  have hb : someUnlessEmpty (normalizePaths os (knownPaths i ++ i.executable.toList)) =
      i.knownExecutables := congrArg RInstallation.knownExecutables hi
  rw [← hb, ← knownPaths_of_built hi]

/-- INTERNAL: a built record has no empty list of symbolic links. -/
theorem symlinks_of_built (hi : Built os i) :
    i.symlinks = someUnlessEmpty (symlinkPaths i) := by
  have hb : someUnlessEmpty (normalizePaths os (symlinkPaths i)) = i.symlinks :=
    congrArg RInstallation.symlinks hi
  rw [← hb, ← symlinkPaths_of_built hi]

/-- The executables of a built record are sorted, each listed once. -/
theorem pairwise_knownPaths (hi : Built os i) : (knownPaths i).Pairwise (· < ·) := by
  rw [knownPaths_of_built hi]
  exact pairwise_sortDedup _

/-- The symbolic links of a built record are sorted, each listed once. -/
theorem pairwise_symlinkPaths (hi : Built os i) : (symlinkPaths i).Pairwise (· < ·) := by
  rw [symlinkPaths_of_built hi]
  exact pairwise_sortDedup _

/-- The sources of a built record are sorted, each listed once. -/
theorem pairwise_discoveredBy (hi : Built os i) : i.discoveredBy.Pairwise (· < ·) := by
  have hb : (RInstallationBuilder.build os i).discoveredBy = i.discoveredBy := by rw [hi]
  rw [← hb]
  exact pairwise_sortDedup _

/-- Only the kinds that are no locator's come without a source. -/
theorem kind_of_discoveredBy_nil (hi : Built os i) (hnil : i.discoveredBy = []) :
    ¬(i.kind ≠ some .globalPaths ∧ i.kind.isSome) := by
  intro hkind
  have hb : sortDedup (if i.discoveredBy = [] ∧ i.kind ≠ some .globalPaths ∧ i.kind.isSome
      then [DiscoverySource.locator] else i.discoveredBy) = i.discoveredBy :=
    congrArg RInstallation.discoveredBy hi
  rw [if_pos ⟨hnil, hkind⟩, hnil, sortDedup_eq_nil] at hb
  cases hb

/-- A built record has no empty map of variables. -/
theorem environmentVariables_of_built (hi : Built os i) :
    i.environmentVariables ≠ some ∅ := by
  intro hempty
  have hb : i.environmentVariables.filter (· ≠ ∅) = i.environmentVariables :=
    congrArg RInstallation.environmentVariables hi
  rw [hempty] at hb
  simp [Option.filter] at hb

end Built

/-! ## The merge -/

section Merge

/-- The primary and the secondary report are the two in some order. -/
theorem merge_cases (os : Os) (a b : RInstallation) :
    ∃ primary secondary, ((primary = a ∧ secondary = b) ∨ (primary = b ∧ secondary = a)) ∧
      mergeInstallations os a b =
        RInstallationBuilder.build os (mergeBuilder os a b primary secondary) := by
  by_cases h : Outranks b a
  · exact ⟨b, a, .inr ⟨rfl, rfl⟩, by
      simp only [mergeInstallations, preferredInstallation, if_pos h]⟩
  · exact ⟨a, b, .inl ⟨rfl, rfl⟩, by
      simp only [mergeInstallations, preferredInstallation, if_neg h]⟩

/-- What both reports have, the primary and the secondary have. -/
theorem merge_cases_of {P : RInstallation → Prop} (os : Os) (ha : P a) (hb : P b) :
    ∃ primary secondary, P primary ∧ P secondary ∧
      mergeInstallations os a b =
        RInstallationBuilder.build os (mergeBuilder os a b primary secondary) := by
  obtain ⟨primary, secondary, hcases, heq⟩ := merge_cases os a b
  rcases hcases with ⟨rfl, rfl⟩ | ⟨rfl, rfl⟩
  · exact ⟨_, _, ha, hb, heq⟩
  · exact ⟨_, _, hb, ha, heq⟩

/-- A field that one of the reports has, the primary or the secondary has. -/
theorem isSome_or_of_merge {α : Type} (os : Os) (f : RInstallation → Option α)
    (h : (f a).isSome = true ∨ (f b).isSome = true) :
    ∃ primary secondary, ((f primary).or (f secondary)).isSome = true ∧
      mergeInstallations os a b =
        RInstallationBuilder.build os (mergeBuilder os a b primary secondary) := by
  obtain ⟨primary, secondary, hcases, heq⟩ := merge_cases os a b
  refine ⟨primary, secondary, ?_, heq⟩
  rw [Option.isSome_or, Bool.or_eq_true]
  rcases hcases with ⟨rfl, rfl⟩ | ⟨rfl, rfl⟩
  · exact h
  · exact h.symm

/-- A merge shows a name if one of the reports does. -/
theorem isSome_displayName_merge (os : Os)
    (h : a.displayName.isSome = true ∨ b.displayName.isSome = true) :
    (mergeInstallations os a b).displayName.isSome = true := by
  obtain ⟨primary, secondary, hor, heq⟩ := isSome_or_of_merge os (·.displayName) h
  rw [heq]
  show (Option.or _ (Option.or (Option.or _ _) _)).isSome = true
  rw [Option.isSome_or, Option.or_assoc, Option.isSome_or, Option.isSome_or, hor]
  simp

/-- A merge is built. -/
theorem built_merge (h : NormIdempotent os) : Built os (mergeInstallations os a b) := by
  obtain ⟨primary, secondary, -, heq⟩ := merge_cases os a b
  rw [heq]
  exact built_build h _

/-- INTERNAL: a normalised union, with more paths that are already in it. -/
theorem mem_normalized_union (h : NormIdempotent os) {l l' more : List PathBuf}
    (hl : ∀ p ∈ l, os.normCase p = p) (hl' : ∀ p ∈ l', os.normCase p = p)
    (hmore : ∀ p ∈ more, os.normCase p ∈ l ∨ os.normCase p ∈ l') (p : PathBuf) :
    p ∈ normalizePaths os (normalizePaths os (sortDedup (l ++ l')) ++ more) ↔
      p ∈ l ∨ p ∈ l' := by
  have hunion : ∀ q, q ∈ normalizePaths os (sortDedup (l ++ l')) ↔ q ∈ l ∨ q ∈ l' := by
    intro q
    simp only [mem_normalizePaths, mem_sortDedup, List.mem_append]
    constructor
    · rintro ⟨r, hr | hr, rfl⟩
      · exact .inl (by rwa [hl r hr])
      · exact .inr (by rwa [hl' r hr])
    · rintro (hq | hq)
      · exact ⟨q, .inl hq, hl q hq⟩
      · exact ⟨q, .inr hq, hl' q hq⟩
  rw [normalizePaths_eq_self h _ _ fun q hq => (hunion _).mpr (hmore q hq)]
  exact hunion p

/-- The known executables of a merge are those of the two. -/
theorem mem_knownPaths_merge (h : NormIdempotent os) (ha : Built os a) (hb : Built os b)
    (p : PathBuf) :
    p ∈ knownPaths (mergeInstallations os a b) ↔ p ∈ knownPaths a ∨ p ∈ knownPaths b := by
  obtain ⟨primary, secondary, hcases, heq⟩ := merge_cases os a b
  rw [heq, knownPaths_build]
  show p ∈ normalizePaths os (((someUnlessEmpty (sortDedup (knownPaths a ++ knownPaths b))).map
    (normalizePaths os)).getD [] ++
      ((primary.executable.or secondary.executable).map os.normCase).toList) ↔ _
  rw [getD_map_someUnlessEmpty normalizePaths_nil]
  refine mem_normalized_union h (fun p hp => normCase_of_mem_knownPaths h ha hp)
    (fun p hp => normCase_of_mem_knownPaths h hb hp) ?_ p
  intro q hq
  obtain ⟨e, he, rfl⟩ := Option.map_eq_some_iff.mp (Option.mem_toList.mp hq)
  rw [h e]
  have hab : a.executable = some e ∨ b.executable = some e := by
    rcases hcases with ⟨rfl, rfl⟩ | ⟨rfl, rfl⟩
    · exact or_eq_some_cases he
    · exact (or_eq_some_cases he).symm
  exact hab.imp (executable_mem_knownPaths ha) (executable_mem_knownPaths hb)

/-- The symbolic links of a merge are those of both. -/
theorem mem_symlinkPaths_merge (h : NormIdempotent os) (ha : Built os a) (hb : Built os b)
    (p : PathBuf) :
    p ∈ symlinkPaths (mergeInstallations os a b) ↔
      p ∈ symlinkPaths a ∨ p ∈ symlinkPaths b := by
  obtain ⟨primary, secondary, -, heq⟩ := merge_cases os a b
  rw [heq, symlinkPaths_build]
  show p ∈ normalizePaths os (((someUnlessEmpty
    (sortDedup (symlinkPaths a ++ symlinkPaths b))).map (normalizePaths os)).getD []) ↔ _
  rw [getD_map_someUnlessEmpty normalizePaths_nil]
  have hnone : ∀ q ∈ ([] : List PathBuf),
      os.normCase q ∈ symlinkPaths a ∨ os.normCase q ∈ symlinkPaths b := by simp
  have hunion := mem_normalized_union h
    (fun p hp => normCase_of_mem_symlinkPaths h ha hp)
    (fun p hp => normCase_of_mem_symlinkPaths h hb hp) hnone p
  rwa [List.append_nil] at hunion

/-- The kind of a merge is that of one of the two. -/
theorem kind_merge_cases (os : Os) (a b : RInstallation) :
    (mergeInstallations os a b).kind = a.kind ∨ (mergeInstallations os a b).kind = b.kind := by
  obtain ⟨primary, secondary, hcases, heq⟩ := merge_cases os a b
  rw [heq]
  show primary.kind.or secondary.kind = _ ∨ primary.kind.or secondary.kind = _
  rcases hcases with ⟨rfl, rfl⟩ | ⟨rfl, rfl⟩
  · cases primary.kind <;> simp
  · cases primary.kind <;> simp

/-- The sources of a merge are those of both. -/
theorem mem_discoveredBy_merge (ha : Built os a) (hb : Built os b) (source : DiscoverySource) :
    source ∈ (mergeInstallations os a b).discoveredBy ↔
      source ∈ a.discoveredBy ∨ source ∈ b.discoveredBy := by
  have hkind := kind_merge_cases os a b
  obtain ⟨primary, secondary, -, heq⟩ := merge_cases os a b
  rw [heq] at hkind ⊢
  -- without sources neither report is a locator's, so the merge is not one either
  have hdefault : ¬((mergeBuilder os a b primary secondary).discoveredBy = [] ∧
      (mergeBuilder os a b primary secondary).kind ≠ some .globalPaths ∧
      (mergeBuilder os a b primary secondary).kind.isSome) := by
    rintro ⟨hnil, hlocator⟩
    have hnil' : sortDedup (sortDedup (a.discoveredBy ++ b.discoveredBy)) = [] := hnil
    rw [sortDedup_eq_nil, sortDedup_eq_nil, List.append_eq_nil_iff] at hnil'
    rcases hkind with hkind | hkind
    · exact kind_of_discoveredBy_nil ha hnil'.1 (hkind ▸ hlocator)
    · exact kind_of_discoveredBy_nil hb hnil'.2 (hkind ▸ hlocator)
  show source ∈ sortDedup (if _ then _ else _) ↔ _
  rw [if_neg hdefault]
  simp [mergeBuilder]

end Merge

/-! ## The key -/

section Key

/-- The sorted entries determine the variables. -/
theorem sortedEntries_injective : Function.Injective sortedEntries := by
  intro m m' h
  have hcoe : ∀ v : EnvironmentVariables,
      (↑(sortedEntries v) : Multiset (String ×ₗ String)) =
        v.entries.map fun e => toLex (e.1, e.2) := by
    intro v
    unfold sortedEntries
    induction v.entries.map (fun e => toLex (e.1, e.2)) using Quotient.inductionOn with
    | h l => exact Multiset.coe_eq_coe.mpr (List.perm_insertionSort _ l)
  have hentries : m.entries = m'.entries := by
    refine Multiset.map_injective (f := fun e : (_ : String) × String => toLex (e.1, e.2)) ?_ ?_
    · rintro ⟨k, v⟩ ⟨k', v'⟩ heq
      cases heq
      rfl
    · rw [← hcoe, ← hcoe, h]
  exact Finmap.ext hentries

/-- What it means to have a key, part by part. -/
theorem getInstallationKey_eq_some {k : InstallationKey} :
    getInstallationKey os i = some k ↔
      ¬(i.home = none ∧ i.executable = none) ∧
      i.home.map os.canonical = k.home ∧
      i.executable.bind (fun p => (os.canonical p).parent) = k.launchDirectory ∧
      i.executable.bind (fun p => (os.canonical p).fileName.map launcherName) =
        k.launcherName ∧
      i.arch.map Architecture.asSerializedStr = k.architecture ∧
      i.startupCommand = k.startup ∧
      sortedEntries (i.environmentVariables.getD ∅) = k.environment := by
  unfold getInstallationKey
  split
  · rename_i hnone
    simp [hnone]
  · rename_i hsome
    have hdir : (i.executable.map os.canonical).bind PathBuf.parent =
        i.executable.bind fun p => (os.canonical p).parent := by
      cases i.executable <;> rfl
    have hname : ((i.executable.map os.canonical).bind PathBuf.fileName).map launcherName =
        i.executable.bind fun p => (os.canonical p).fileName.map launcherName := by
      cases i.executable <;> rfl
    simp only [hdir, hname, Option.some.injEq, hsome, not_false_eq_true, true_and]
    constructor
    · rintro rfl
      exact ⟨rfl, rfl, rfl, rfl, rfl, rfl⟩
    · rintro ⟨h1, h2, h3, h4, h5, h6⟩
      simp only [h1, h2, h3, h4, h5, h6]

/-- The variables of the primary come first. -/
theorem lookup_mergeEnvironmentVariables (x y : Option EnvironmentVariables) (key : String) :
    (((mergeEnvironmentVariables x y).filter (· ≠ ∅)).getD ∅).lookup key =
      ((x.getD ∅).lookup key).or ((y.getD ∅).lookup key) := by
  have hfilter : ∀ z : Option EnvironmentVariables,
      (z.filter (· ≠ ∅)).getD ∅ = z.getD ∅ := by
    intro z
    cases z with
    | none => rfl
    | some v => by_cases hv : v = ∅ <;> simp [Option.filter, hv]
  rw [hfilter]
  cases x with
  | none => cases y <;> simp [mergeEnvironmentVariables]
  | some v =>
    cases y with
    | none => simp [mergeEnvironmentVariables]
    | some w =>
      show (v ∪ w).lookup key = (v.lookup key).or (w.lookup key)
      by_cases hkey : key ∈ v
      · rw [Finmap.lookup_union_left hkey]
        obtain ⟨value, hvalue⟩ := Finmap.mem_iff.mp hkey
        rw [hvalue, Option.some_or]
      · rw [Finmap.lookup_union_right hkey, Finmap.lookup_eq_none.mpr hkey, Option.none_or]

/-- Merging equal environments gives that environment. -/
theorem mergeEnvironmentVariables_getD {x y : Option EnvironmentVariables}
    {m : EnvironmentVariables} (hx : x.getD ∅ = m) (hy : y.getD ∅ = m) :
    ((mergeEnvironmentVariables x y).filter (· ≠ ∅)).getD ∅ = m := by
  apply Finmap.ext_lookup
  intro key
  rw [lookup_mergeEnvironmentVariables, hx, hy, Option.or_self]

/-- **A merge has the key of the two.** -/
theorem key_merge (h : KeyPreserving os) {k : InstallationKey}
    (ha : getInstallationKey os a = some k) (hb : getInstallationKey os b = some k) :
    getInstallationKey os (mergeInstallations os a b) = some k := by
  obtain ⟨primary, secondary, hp, hs, heq⟩ :=
    merge_cases_of (P := fun i => getInstallationKey os i = some k) os ha hb
  rw [getInstallationKey_eq_some] at hp hs
  obtain ⟨hpsome, hphome, hpdir, hpname, hparch, hpstart, hpenv⟩ := hp
  obtain ⟨hssome, hshome, hsdir, hsname, hsarch, hsstart, hsenv⟩ := hs
  have henv : primary.environmentVariables.getD ∅ = secondary.environmentVariables.getD ∅ :=
    sortedEntries_injective (hpenv.trans hsenv.symm)
  rw [heq, getInstallationKey_eq_some]
  simp only [RInstallationBuilder.build_home, RInstallationBuilder.build_executable,
    RInstallationBuilder.build_arch, RInstallationBuilder.build_startupCommand,
    RInstallationBuilder.build_environmentVariables, mergeBuilder]
  have hcanonical : os.canonical ∘ os.normCase = os.canonical := funext h.canonical
  have hbind : ∀ {β : Type} (x : Option PathBuf) (f : PathBuf → Option β),
      (x.map os.normCase).bind (fun p => f (os.canonical p)) =
        x.bind fun p => f (os.canonical p) := by
    intro β x f
    cases x with
    | none => rfl
    | some p => simp [h.canonical]
  refine ⟨?_, ?_, ?_, ?_, map_or_of_eq hparch hsarch, ?_, ?_⟩
  · rintro ⟨hhome, hexec⟩
    simp only [Option.map_eq_none_iff, Option.or_eq_none_iff] at hhome hexec
    exact hpsome ⟨hhome.1, hexec.1⟩
  · rw [Option.map_map, hcanonical]
    exact map_or_of_eq hphome hshome
  · rw [hbind _ PathBuf.parent]
    exact bind_or_of_eq hpdir hsdir
  · rw [hbind _ fun p => p.fileName.map launcherName]
    exact bind_or_of_eq hpname hsname
  · rw [hpstart, hsstart]
    cases k.startup <;> rfl
  · rw [mergeEnvironmentVariables_getD rfl henv.symm]
    exact hpenv

end Key

end REnvTools.Analysis
