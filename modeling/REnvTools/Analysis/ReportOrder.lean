import REnvTools.Analysis.FieldChoice

/-!
# What the order of the reports decides

Two reports of one installation that differ in a field and rank alike are merged in
favour of the first, so the final record depends on their order
(`version_depends_on_order`). What does not depend on it:

* the keys, the three collections, and the fields the key determines;
* which of the other fields are present, and the priority of the locator metadata;
* the value of a field in which the reports do not contradict each other, and the whole
  record if they contradict each other in no field;
* what a report says that ranks above all others (`Leads`).
-/

set_option autoImplicit false

namespace REnvTools.Analysis

open Program Lib KeyedStore

variable {os : Os}

/-! ## Two orders -/

/-- Whether the field is there does not depend on the order, nor does its value if the
reports have one value only. -/
structure ChosenAlike {α : Type} (f : RInstallation → Option α) (reports : List RInstallation)
    (r r' : RInstallation) : Prop where
  isSome : (f r).isSome = (f r').isSome
  value : SingleValued f reports → f r = f r'

/-- The fields of the overlay. -/
def overlayFields : List (RVersionsOverlay → Option String) :=
  [(·.label), (·.script), (·.repo), (·.library), (·.module), (·.moduleStartupCommand)]

/-- Reports with normalised paths that contradict each other in no field. -/
structure OneValued (os : Os) (reports : List RInstallation) : Prop where
  paths : ∀ i ∈ reports, NormalPaths os i
  displayName : SingleValued (·.displayName) reports
  name : SingleValued (·.name) reports
  executable : SingleValued (·.executable) reports
  kind : SingleValued (·.kind) reports
  version : SingleValued (·.version) reports
  home : SingleValued (·.home) reports
  manager : SingleValued (·.manager) reports
  locatorMetadata : SingleValued (·.locatorMetadata) reports
  overlayField : ∀ g ∈ overlayFields,
    SingleValued (fun i => i.rversionsOverlay.bind g) reports
  scriptPath : SingleValued (·.scriptPath) reports
  orthogonal : SingleValued (·.orthogonal) reports
  error : SingleValued (·.error) reports

/-- What two records merged from the same reports in different orders have in common. -/
structure SameUpToChoice (os : Os) (reports : List RInstallation) (r r' : RInstallation) :
    Prop where
  knownExecutables : r.knownExecutables = r'.knownExecutables
  symlinks : r.symlinks = r'.symlinks
  discoveredBy : r.discoveredBy = r'.discoveredBy
  arch : r.arch = r'.arch
  startupCommand : r.startupCommand = r'.startupCommand
  environmentVariables : r.environmentVariables = r'.environmentVariables
  priority : installationPriority r = installationPriority r'
  name : ChosenAlike (·.name) reports r r'
  executable : ChosenAlike (fun i => i.executable.map os.normCase) reports r r'
  kind : ChosenAlike (·.kind) reports r r'
  version : ChosenAlike (·.version) reports r r'
  home : ChosenAlike (fun i => i.home.map os.normCase) reports r r'
  manager : ChosenAlike (·.manager) reports r r'
  locatorMetadata : ChosenAlike (·.locatorMetadata) reports r r'
  overlay : r.rversionsOverlay.isSome = r'.rversionsOverlay.isSome
  overlayField : ∀ g ∈ overlayFields,
    ChosenAlike (fun i => i.rversionsOverlay.bind g) reports r r'
  error : ChosenAlike (·.error) reports r r'

section Orders

variable {k : InstallationKey} {reports reports' : List RInstallation} {r r' : RInstallation}

/-- INTERNAL: a field at which merges choose is chosen alike in any order. -/
theorem chosenAlike_of_perm {α : Type} {P : RInstallation → Prop}
    {f : RInstallation → Option α}
    (hP : ∀ a b, P a → P b → P (mergeInstallations os a b))
    (hf : ∀ a b, P a → P b → ChoosesAt (mergeInstallations os) f a b)
    (hreports : ∀ i ∈ reports, P i) (hperm : reports.Perm reports')
    (h : mergeAll (mergeInstallations os) reports = some r)
    (h' : mergeAll (mergeInstallations os) reports' = some r') :
    ChosenAlike f reports r r' :=
  ⟨isSome_of_perm hP hf hreports hperm h h',
    fun hsingle => eq_of_perm hP hf hreports hsingle hperm h h'⟩

/-- The priority of a merge is the greatest of the reports'. -/
theorem installationPriority_of_perm (hperm : reports.Perm reports')
    (h : mergeAll (mergeInstallations os) reports = some r)
    (h' : mergeAll (mergeInstallations os) reports' = some r') :
    installationPriority r = installationPriority r' := by
  have hle : ∀ n, n ≤ installationPriority r ↔ n ≤ installationPriority r' := by
    intro n
    refine mergeAll_iff_of_perm (P := fun _ => True)
      (Q := fun i => n ≤ installationPriority i) (fun _ _ _ _ => trivial) ?_
      (fun _ _ => trivial) hperm h h'
    intro a b _ _
    rw [installationPriority_merge, le_max_iff]
  exact le_antisymm ((hle _).mp le_rfl) ((hle _).mpr le_rfl)

/-- Overlays that agree in every field are equal. -/
theorem overlay_ext {x y : Option RVersionsOverlay} (hsome : x.isSome = y.isSome)
    (h : ∀ g ∈ overlayFields, x.bind g = y.bind g) : x = y := by
  cases x with
  | none =>
    cases y with
    | none => rfl
    | some _ => cases hsome
  | some v =>
    cases y with
    | none => cases hsome
    | some w =>
      simp only [overlayFields, List.forall_mem_cons, Option.bind_some] at h
      obtain ⟨hlabel, hscript, hrepo, hlibrary, hmodule, hstartup, -⟩ := h
      cases v
      cases w
      simp_all

/-- A value no report contradicts is the merged record's. -/
theorem eq_some_of_mem {α : Type} {f : RInstallation → Option α}
    (hf : ∀ a b, ChoosesAt (mergeInstallations os) f a b) (hsingle : SingleValued f reports)
    (hr : mergeAll (mergeInstallations os) reports = some r) {i : RInstallation}
    (hi : i ∈ reports) {x : α} (hx : f i = some x) : f r = some x :=
  (mergeAll_eq_some_iff (P := fun _ => True) (fun _ _ _ _ => trivial)
    (fun a b _ _ => hf a b) (fun _ _ => trivial) hsingle hr x).mpr ⟨i, hi, hx⟩

/-- A merge chooses at the kind. -/
theorem choosesAt_kind (a b : RInstallation) :
    ChoosesAt (mergeInstallations os) (·.kind) a b :=
  choosesAt_of_or (fun _ _ _ _ => rfl) a b

/-- A merge chooses at the version. -/
theorem choosesAt_version (a b : RInstallation) :
    ChoosesAt (mergeInstallations os) (·.version) a b :=
  choosesAt_of_or (fun _ _ _ _ => rfl) a b

/-- A merge chooses at each field of the overlay. -/
theorem choosesAt_overlayField {g : RVersionsOverlay → Option String}
    (hg : g ∈ overlayFields) (a b : RInstallation) :
    ChoosesAt (mergeInstallations os) (fun i => i.rversionsOverlay.bind g) a b := by
  refine choosesAt_overlay (fun x y => ?_) a b
  simp only [overlayFields, List.mem_cons, List.not_mem_nil, or_false] at hg
  rcases hg with rfl | rfl | rfl | rfl | rfl | rfl <;> rfl

/-- A label or a generated name is the display name; otherwise the reports' is. -/
theorem displayName_of_perm (hone : OneValued os reports) (hperm : reports.Perm reports')
    (hr : mergeAll (mergeInstallations os) reports = some r)
    (hr' : mergeAll (mergeInstallations os) reports' = some r') (hbuilt : Built os r)
    (hbuilt' : Built os r') (hkind : r.kind = r'.kind) (hversion : r.version = r'.version)
    (hname : r.name = r'.name)
    (hlabel : r.rversionsOverlay.bind (·.label) = r'.rversionsOverlay.bind (·.label)) :
    r.displayName = r'.displayName := by
  have hdisplay := displayName_of_built hbuilt
  have hdisplay' := displayName_of_built hbuilt'
  rw [← hkind, ← hversion, ← hname, ← hlabel] at hdisplay'
  cases hgiven : (r.rversionsOverlay.bind (·.label)).or
      (generatedManagerDisplayName r.kind r.version r.name) with
  | some name =>
    rw [hgiven, Option.some_or] at hdisplay hdisplay'
    exact hdisplay.symm.trans hdisplay'
  | none =>
    obtain ⟨hnolabel, hgenerated⟩ := Option.or_eq_none_iff.mp hgiven
    have hunnamed : ∀ i ∈ reports, Unnamed r i := by
      intro i hi
      refine ⟨?_, fun x hx => eq_some_of_mem choosesAt_kind hone.kind hr hi hx,
        fun x hx => eq_some_of_mem choosesAt_version hone.version hr hi hx⟩
      by_contra hlabeled
      obtain ⟨x, hx⟩ := Option.ne_none_iff_exists'.mp hlabeled
      have hg : RVersionsOverlay.label ∈ overlayFields := by simp [overlayFields]
      have hrx := eq_some_of_mem (choosesAt_overlayField hg) (hone.overlayField _ hg) hr hi hx
      rw [hnolabel] at hrx
      cases hrx
    exact eq_of_perm (unnamed_merge os) (fun a b => choosesAt_displayName hgenerated)
      hunnamed hone.displayName hperm hr hr'

/-- **Records merged from the same reports** differ only in contradicted fields. -/
theorem sameUpToChoice_of_perm (h : NormIdempotent os)
    (hbuilt : ∀ i ∈ reports, BuilderBuilt os i) (hbuilt' : ∀ i ∈ reports', BuilderBuilt os i)
    (hperm' : (reportsOf os k reports).Perm (reportsOf os k reports'))
    (hr : (filedInstallations os reports).store.lookup k = some r)
    (hr' : (filedInstallations os reports').store.lookup k = some r') :
    SameUpToChoice os (reportsOf os k reports) r r' := by
  obtain ⟨hknown, hsymlinks, hdiscovered⟩ := collections_of_lookup h hbuilt hr
  obtain ⟨hknown', hsymlinks', hdiscovered'⟩ := collections_of_lookup h hbuilt' hr'
  rw [lookup_run] at hr hr'
  obtain ⟨harch, hstart, henv⟩ := keyParts_eq
    (mergeAll_induction (keyParts_merge h) (fun i hi => keyParts_of_storedUnder
      (storedUnder_of_mem_reportsOf h hbuilt i hi)) hr)
    (mergeAll_induction (keyParts_merge h) (fun i hi => keyParts_of_storedUnder
      (storedUnder_of_mem_reportsOf h hbuilt' i hi)) hr')
  have halike : ∀ {α : Type} {f : RInstallation → Option α},
      (∀ a b, ChoosesAt (mergeInstallations os) f a b) →
        ChosenAlike f (reportsOf os k reports) r r' := fun hf =>
    chosenAlike_of_perm (P := fun _ => True) (fun _ _ _ _ => trivial)
      (fun a b _ _ => hf a b) (fun _ _ => trivial) hperm' hr hr'
  refine ⟨?_, ?_, ?_, harch, hstart, henv, installationPriority_of_perm hperm' hr hr',
    halike (choosesAt_of_or fun _ _ _ _ => rfl), halike (choosesAt_executable h),
    halike choosesAt_kind, halike choosesAt_version, halike (choosesAt_home h),
    halike (choosesAt_of_or fun _ _ _ _ => rfl), halike choosesAt_locatorMetadata, ?_,
    fun g hg => halike (choosesAt_overlayField hg),
    halike (choosesAt_of_or fun _ _ _ _ => rfl)⟩
  · rw [hknown, hknown', sortDedup_congr fun _ => (hperm'.flatMap_right _).mem_iff]
  · rw [hsymlinks, hsymlinks', sortDedup_congr fun _ => (hperm'.flatMap_right _).mem_iff]
  · rw [hdiscovered, hdiscovered', sortDedup_congr fun _ => (hperm'.flatMap_right _).mem_iff]
  · rw [Bool.eq_iff_iff]
    exact mergeAll_iff_of_perm (P := fun _ => True)
      (Q := fun i => i.rversionsOverlay.isSome = true) (fun _ _ _ _ => trivial)
      (fun a b _ _ => isSome_rversionsOverlay_merge os a b) (fun _ _ => trivial) hperm' hr hr'

/-- Normalised paths that agree up to `norm_case` agree. -/
theorem singleValued_normal {f : RInstallation → Option PathBuf}
    (hnormal : ∀ i ∈ reports, (f i).map os.normCase = f i) (hsingle : SingleValued f reports) :
    SingleValued (fun i => (f i).map os.normCase) reports := by
  intro i hi j hj x y hx hy
  simp only [hnormal i hi] at hx
  simp only [hnormal j hj] at hy
  exact hsingle i hi j hj x y hx hy

/-- **Without contradictions** the order does not matter at all. -/
theorem eq_of_oneValued (h : NormIdempotent os) (hone : OneValued os (reportsOf os k reports))
    (hbuilt : ∀ i ∈ reports, BuilderBuilt os i) (hbuilt' : ∀ i ∈ reports', BuilderBuilt os i)
    (hperm' : (reportsOf os k reports).Perm (reportsOf os k reports'))
    (hr : (filedInstallations os reports).store.lookup k = some r)
    (hr' : (filedInstallations os reports').store.lookup k = some r') : r = r' := by
  have hsame := sameUpToChoice_of_perm h hbuilt hbuilt' hperm' hr hr'
  have hstored := storedUnder_of_mem_reportsOf (k := k) h hbuilt
  rw [lookup_run] at hr hr'
  have hpaths' : ∀ i ∈ reportsOf os k reports', NormalPaths os i := fun i hi =>
    hone.paths i (hperm'.mem_iff.mpr hi)
  have hmerge : ∀ a b, Built os a → Built os b → Built os (mergeInstallations os a b) :=
    fun _ _ _ _ => built_merge h
  -- both records are merges of reports that are built and normal, so they are too
  have hnormal : NormalPaths os r :=
    mergeAll_induction (fun a b _ _ => normalPaths_merge h a b) hone.paths hr
  have hnormal' : NormalPaths os r' :=
    mergeAll_induction (fun a b _ _ => normalPaths_merge h a b) hpaths' hr'
  have hbuiltr : Built os r := mergeAll_induction hmerge (fun i hi => (hstored i hi).1) hr
  have hbuiltr' : Built os r' := mergeAll_induction hmerge
    (fun i hi => (hstored i (hperm'.mem_iff.mpr hi)).1) hr'
  have hexecutable := hsame.executable.value
    (singleValued_normal (fun i hi => (hone.paths i hi).1) hone.executable)
  have hhome := hsame.home.value
    (singleValued_normal (fun i hi => (hone.paths i hi).2) hone.home)
  have hlabel := (hsame.overlayField _ (by simp [overlayFields])).value
    (hone.overlayField RVersionsOverlay.label (by simp [overlayFields]))
  apply RInstallation.ext
  case displayName =>
    exact displayName_of_perm hone hperm' hr hr' hbuiltr hbuiltr'
      (hsame.kind.value hone.kind) (hsame.version.value hone.version)
      (hsame.name.value hone.name) hlabel
  case name => exact hsame.name.value hone.name
  case executable => exact hnormal.1.symm.trans (hexecutable.trans hnormal'.1)
  case kind => exact hsame.kind.value hone.kind
  case version => exact hsame.version.value hone.version
  case home => exact hnormal.2.symm.trans (hhome.trans hnormal'.2)
  case manager => exact hsame.manager.value hone.manager
  case arch => exact hsame.arch
  case knownExecutables => exact hsame.knownExecutables
  case symlinks => exact hsame.symlinks
  case discoveredBy => exact hsame.discoveredBy
  case locatorMetadata => exact hsame.locatorMetadata.value hone.locatorMetadata
  case rversionsOverlay =>
    exact overlay_ext hsame.overlay fun g hg =>
      (hsame.overlayField g hg).value (hone.overlayField g hg)
  case scriptPath =>
    exact eq_of_perm (scriptReady_merge h)
      (fun a b => choosesAt_scriptPath h hone.executable)
      (fun i hi => ⟨keyParts_of_storedUnder (hstored i hi), hone.paths i hi,
        fun e he => ⟨i, hi, he⟩⟩)
      hone.scriptPath hperm' hr hr'
  case startupCommand => exact hsame.startupCommand
  case environmentVariables => exact hsame.environmentVariables
  case orthogonal =>
    exact eq_of_perm (P := fun i => Built os i ∧ NormalPaths os i)
      (fun a b _ _ => ⟨built_merge h, normalPaths_merge h a b⟩)
      (fun a b => choosesAt_orthogonal)
      (fun i hi => ⟨(hstored i hi).1, hone.paths i hi⟩) hone.orthogonal hperm' hr hr'
  case error => exact hsame.error.value hone.error

/-- **What the order of the reports leaves open.** In any two orders of the same reports
the final maps have the same keys; under each key the two records differ at most in fields
in which the reports of the key contradict each other, and not at all if there are none.
What a leading report of the key says, both records repeat. -/
theorem order_of_reports {σ : Type} (inner : Reporter σ) (s : σ) (h : NormIdempotent os)
    (hperm : reports.Perm reports') (hbuilt : ∀ i ∈ reports, BuilderBuilt os i) :
    (∀ k, k ∈ finalMap os inner s reports ↔ k ∈ finalMap os inner s reports') ∧
    ∀ k r r', (finalMap os inner s reports).lookup k = some r →
      (finalMap os inner s reports').lookup k = some r' →
      SameUpToChoice os (reportsOf os k reports) r r' ∧
      (OneValued os (reportsOf os k reports) → r = r') ∧
      ∀ t ∈ reportsOf os k reports, Leads t (reportsOf os k reports) →
        Repeats os t r ∧ Repeats os t r' := by
  rw [finalMap_eq, finalMap_eq]
  constructor
  · intro k
    rw [mem_run, mem_run]
    simp only [hperm.mem_iff]
  · intro k r r' hr hr'
    have hbuilt' : ∀ i ∈ reports', BuilderBuilt os i := fun i hi =>
      hbuilt i (hperm.mem_iff.mpr hi)
    have hperm' : (reportsOf os k reports).Perm (reportsOf os k reports') := hperm.filter _
    refine ⟨sameUpToChoice_of_perm h hbuilt hbuilt' hperm' hr hr',
      fun hone => eq_of_oneValued h hone hbuilt hbuilt' hperm' hr hr', ?_⟩
    rw [lookup_run] at hr hr'
    intro t ht hlead
    exact ⟨repeats_of_leads h hlead ht hr,
      repeats_of_leads h (leads_of_perm hperm' hlead) (hperm'.mem_iff.mp ht) hr'⟩

end Orders

/-! ## Two versions of one installation -/

/-- A report of `/opt/R` that gives a version. -/
def sampleVersion (version : String) : RInstallation :=
  RInstallationBuilder.build plainOs
    { RInstallationBuilder.new (some .rig) with
      executable := some ((optR.join "bin").join "R")
      home := some optR
      version := some version }

/-- Reports of one launcher with two versions. -/
def sampleVersions : List RInstallation := [sampleVersion "4.4.0", sampleVersion "4.4.1"]

/-- INTERNAL: the sample reports are built. -/
theorem sampleVersions_builderBuilt : ∀ i ∈ sampleVersions, BuilderBuilt plainOs i := by
  simp only [sampleVersions, List.forall_mem_cons]
  exact ⟨⟨_, rfl⟩, ⟨_, rfl⟩, by simp⟩

/-- INTERNAL: their reverse is another order of them. -/
theorem sampleVersions_reverse : sampleVersions.Perm sampleVersions.reverse :=
  (List.reverse_perm _).symm

/-- The theorem for two versions in both orders. -/
theorem order_of_reports_versions :
    sampleInstallationKey ∈ finalMap plainOs collectReporter ⟨[], []⟩ sampleVersions ↔
      sampleInstallationKey ∈
        finalMap plainOs collectReporter ⟨[], []⟩ sampleVersions.reverse :=
  (order_of_reports collectReporter ⟨[], []⟩ plainOs_keyPreserving.idempotent
    sampleVersions_reverse sampleVersions_builderBuilt).1 sampleInstallationKey

/-- The two versions rank alike, so the first one stays. -/
theorem version_depends_on_order :
    (∀ i ∈ sampleVersions, BuilderBuilt plainOs i) ∧
    sampleVersions.Perm sampleVersions.reverse ∧
    ((finalMap plainOs collectReporter ⟨[], []⟩ sampleVersions).lookup
      sampleInstallationKey).bind (·.version) = some "4.4.0" ∧
    ((finalMap plainOs collectReporter ⟨[], []⟩ sampleVersions.reverse).lookup
      sampleInstallationKey).bind (·.version) = some "4.4.1" ∧
    finalMap plainOs collectReporter ⟨[], []⟩ sampleVersions ≠
      finalMap plainOs collectReporter ⟨[], []⟩ sampleVersions.reverse := by
  have hfirst : ((finalMap plainOs collectReporter ⟨[], []⟩ sampleVersions).lookup
      sampleInstallationKey).bind (·.version) = some "4.4.0" := by decide
  have hlast : ((finalMap plainOs collectReporter ⟨[], []⟩ sampleVersions.reverse).lookup
      sampleInstallationKey).bind (·.version) = some "4.4.1" := by decide
  refine ⟨sampleVersions_builderBuilt, sampleVersions_reverse, hfirst, hlast, ?_⟩
  intro heq
  rw [heq, hlast] at hfirst
  simp at hfirst

end REnvTools.Analysis
