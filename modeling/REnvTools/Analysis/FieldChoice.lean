import REnvTools.Analysis.ReportStore

/-!
# What a merge makes of each field

Every field of a merge is chosen from one of the two reports (`ChoosesAt`), except the
parts of the key, in which they agree (`KeyParts`), and the fields the builder derives:
over normalised paths it infers no orthogonal flag, no script path and no display name
that neither report has. A report that ranks above all others (`Leads`) decides every
field it has (`repeats_of_leads`).
-/

set_option autoImplicit false

namespace REnvTools.Analysis

open Program Lib KeyedStore

variable {os : Os} {a b i : RInstallation}

/-! ## Fields a merge chooses -/

section Choice

variable {α : Type}

/-- A field of which the builder makes the primary's value, or else the secondary's. -/
theorem choosesAt_of_build {P : RInstallation → Prop} {f : RInstallation → Option α}
    (hf : ∀ p s, P p → P s → f (RInstallationBuilder.build os (mergeBuilder os a b p s)) =
      (f p).or (f s)) (ha : P a) (hb : P b) : ChoosesAt (mergeInstallations os) f a b := by
  obtain ⟨primary, secondary, hcases, heq⟩ := merge_cases os a b
  unfold ChoosesAt
  rw [heq]
  rcases hcases with ⟨rfl, rfl⟩ | ⟨rfl, rfl⟩
  · exact .inl (hf _ _ ha hb)
  · exact .inr (hf _ _ hb ha)

/-- INTERNAL: a merge chooses at a field that `or` fills. -/
theorem choosesAt_of_or {f : RInstallation → Option α}
    (hf : ∀ a b p s, f (RInstallationBuilder.build os (mergeBuilder os a b p s)) =
      (f p).or (f s)) (a b : RInstallation) : ChoosesAt (mergeInstallations os) f a b :=
  choosesAt_of_build (P := fun _ => True) (fun p s _ _ => hf a b p s) trivial trivial

/-- A merge chooses at the executable. -/
theorem choosesAt_executable (h : NormIdempotent os) (a b : RInstallation) :
    ChoosesAt (mergeInstallations os) (fun i => i.executable.map os.normCase) a b := by
  refine choosesAt_of_or (fun a b p s => ?_) a b
  show ((p.executable.or s.executable).map os.normCase).map os.normCase = _
  cases p.executable <;> cases s.executable <;> simp [h _]

/-- A merge chooses at the home. -/
theorem choosesAt_home (h : NormIdempotent os) (a b : RInstallation) :
    ChoosesAt (mergeInstallations os) (fun i => i.home.map os.normCase) a b := by
  refine choosesAt_of_or (fun a b p s => ?_) a b
  show ((p.home.or s.home).map os.normCase).map os.normCase = _
  cases p.home <;> cases s.home <;> simp [h _]

/-- INTERNAL: the metadata of a merge. -/
theorem locatorMetadata_merge (os : Os) (a b : RInstallation) :
    (mergeInstallations os a b).locatorMetadata =
      selectLocatorMetadata a.locatorMetadata b.locatorMetadata := by
  obtain ⟨primary, secondary, -, heq⟩ := merge_cases os a b
  rw [heq]
  rfl

/-- A merge chooses at the metadata of the locators. -/
theorem choosesAt_locatorMetadata (a b : RInstallation) :
    ChoosesAt (mergeInstallations os) (·.locatorMetadata) a b := by
  unfold ChoosesAt
  simp only [locatorMetadata_merge]
  cases a.locatorMetadata with
  | none => cases b.locatorMetadata <;> exact .inl rfl
  | some x =>
    cases b.locatorMetadata with
    | none => exact .inl rfl
    | some y =>
      simp only [selectLocatorMetadata]
      split
      · exact .inr rfl
      · exact .inl rfl

/-- The metadata of higher priority is selected. -/
theorem installationPriority_merge (os : Os) (a b : RInstallation) :
    installationPriority (mergeInstallations os a b) =
      max (installationPriority a) (installationPriority b) := by
  unfold installationPriority
  rw [locatorMetadata_merge]
  cases a.locatorMetadata with
  | none => cases b.locatorMetadata <;> simp [selectLocatorMetadata]
  | some x =>
    cases b.locatorMetadata with
    | none => simp [selectLocatorMetadata]
    | some y =>
      simp only [selectLocatorMetadata]
      split
      · simp only [Option.map_some, Option.getD_some]
        omega
      · simp only [Option.map_some, Option.getD_some]
        omega

/-- INTERNAL: the overlay of a merge. -/
theorem rversionsOverlay_merge (os : Os) (a b : RInstallation) :
    (mergeInstallations os a b).rversionsOverlay =
      mergeRversionsOverlay a.rversionsOverlay b.rversionsOverlay := by
  obtain ⟨primary, secondary, -, heq⟩ := merge_cases os a b
  rw [heq]
  rfl

/-- A field of the overlay is the existing one's or else the new one's. -/
theorem choosesAt_overlay {g : RVersionsOverlay → Option α}
    (hg : ∀ x y, (mergeRversionsOverlay (some x) (some y)).bind g = (g x).or (g y))
    (a b : RInstallation) :
    ChoosesAt (mergeInstallations os) (fun i => i.rversionsOverlay.bind g) a b := by
  refine .inl ?_
  simp only [rversionsOverlay_merge]
  cases a.rversionsOverlay with
  | none => cases b.rversionsOverlay <;> rfl
  | some x =>
    cases b.rversionsOverlay with
    | none => simp [mergeRversionsOverlay]
    | some y => exact hg x y

/-- A merge has an overlay exactly if one of the two has. -/
theorem isSome_rversionsOverlay_merge (os : Os) (a b : RInstallation) :
    (mergeInstallations os a b).rversionsOverlay.isSome = true ↔
      a.rversionsOverlay.isSome = true ∨ b.rversionsOverlay.isSome = true := by
  rw [rversionsOverlay_merge]
  cases a.rversionsOverlay <;> cases b.rversionsOverlay <;> simp [mergeRversionsOverlay]

end Choice

/-! ## What the key determines -/

/-- The parts of the key no path takes part in. -/
structure KeyParts (os : Os) (k : InstallationKey) (i : RInstallation) : Prop where
  built : Built os i
  identified : ¬(i.home = none ∧ i.executable = none)
  arch : i.arch.map Architecture.asSerializedStr = k.architecture
  startup : i.startupCommand = k.startup
  environment : sortedEntries (i.environmentVariables.getD ∅) = k.environment

/-- INTERNAL: a report that is stored under the key has its parts. -/
theorem keyParts_of_storedUnder {k : InstallationKey} (h : StoredUnder os k i) :
    KeyParts os k i := by
  obtain ⟨hsome, -, -, -, harch, hstart, henv⟩ := getInstallationKey_eq_some.mp h.2
  exact ⟨h.1, hsome, harch, hstart, henv⟩

/-- A merge has the parts of the key that both of the two have. -/
theorem keyParts_merge (h : NormIdempotent os) {k : InstallationKey} (a b : RInstallation)
    (ha : KeyParts os k a) (hb : KeyParts os k b) :
    KeyParts os k (mergeInstallations os a b) := by
  obtain ⟨primary, secondary, hp, hs, heq⟩ := merge_cases_of os ha hb
  have henv : primary.environmentVariables.getD ∅ = secondary.environmentVariables.getD ∅ :=
    sortedEntries_injective (hp.environment.trans hs.environment.symm)
  rw [heq]
  refine ⟨built_build h _, ?_, map_or_of_eq hp.arch hs.arch, ?_, ?_⟩
  · rintro ⟨hhome, hexec⟩
    simp only [RInstallationBuilder.build_home, RInstallationBuilder.build_executable,
      mergeBuilder, Option.map_eq_none_iff, Option.or_eq_none_iff] at hhome hexec
    exact hp.identified ⟨hhome.1, hexec.1⟩
  · show primary.startupCommand.or secondary.startupCommand = _
    rw [hp.startup, hs.startup]
    cases k.startup <;> rfl
  · show sortedEntries (((mergeEnvironmentVariables primary.environmentVariables
      secondary.environmentVariables).filter (· ≠ ∅)).getD ∅) = _
    rw [mergeEnvironmentVariables_getD rfl henv.symm]
    exact hp.environment

/-- The parts of a key determine architecture, startup command and variables. -/
theorem keyParts_eq {k : InstallationKey} {r r' : RInstallation} (h : KeyParts os k r)
    (h' : KeyParts os k r') : r.arch = r'.arch ∧ r.startupCommand = r'.startupCommand ∧
      r.environmentVariables = r'.environmentVariables := by
  refine ⟨?_, h.startup.trans h'.startup.symm, ?_⟩
  · exact Option.map_injective Architecture.asSerializedStr_injective
      (h.arch.trans h'.arch.symm)
  · have hget := sortedEntries_injective (h.environment.trans h'.environment.symm)
    have hne := environmentVariables_of_built h.built
    have hne' := environmentVariables_of_built h'.built
    cases hr : r.environmentVariables with
    | none =>
      cases hr' : r'.environmentVariables with
      | none => rfl
      | some v =>
        rw [hr, hr'] at hget
        exact absurd (hr'.trans (congrArg some hget.symm)) hne'
    | some v =>
      cases hr' : r'.environmentVariables with
      | none =>
        rw [hr, hr'] at hget
        exact absurd (hr.trans (congrArg some hget)) hne
      | some w =>
        rw [hr, hr'] at hget
        exact congrArg some hget

/-! ## What the builder derives -/

/-- The paths of an installation as the builder's setters leave them. -/
def NormalPaths (os : Os) (i : RInstallation) : Prop :=
  i.executable.map os.normCase = i.executable ∧ i.home.map os.normCase = i.home

/-- The paths of a merge are in their normal form. -/
theorem normalPaths_merge (h : NormIdempotent os) (a b : RInstallation) :
    NormalPaths os (mergeInstallations os a b) := by
  obtain ⟨primary, secondary, -, heq⟩ := merge_cases os a b
  rw [heq]
  exact ⟨map_normCase_map h _, map_normCase_map h _⟩

/-- INTERNAL: the first of two normal paths is normal. -/
theorem or_map_of_normal {x y : Option PathBuf} (hx : x.map os.normCase = x)
    (hy : y.map os.normCase = y) : (x.or y).map os.normCase = x.or y := by
  cases x with
  | none => exact hy
  | some _ => exact hx

section Orthogonal

/-- INTERNAL: a built record without the flag has a home that gives none. -/
theorem inferOrthogonal_of_built (hi : Built os i) (hnone : i.orthogonal = none) :
    inferOrthogonal os i.home = none := by
  have hb : i.orthogonal.or (inferOrthogonal os i.home) = i.orthogonal :=
    congrArg RInstallation.orthogonal hi
  rwa [hnone, Option.none_or] at hb

/-- Over normalised paths the merge infers no flag that neither report has. -/
theorem choosesAt_orthogonal (ha : Built os a ∧ NormalPaths os a)
    (hb : Built os b ∧ NormalPaths os b) :
    ChoosesAt (mergeInstallations os) (·.orthogonal) a b := by
  refine choosesAt_of_build (P := fun i => Built os i ∧ NormalPaths os i) ?_ ha hb
  intro p q hp hq
  show (p.orthogonal.or q.orthogonal).or
      (inferOrthogonal os ((p.home.or q.home).map os.normCase)) =
    p.orthogonal.or q.orthogonal
  rw [or_map_of_normal hp.2.2 hq.2.2]
  cases hpo : p.orthogonal with
  | some _ => rfl
  | none =>
    cases hqo : q.orthogonal with
    | some _ => rfl
    | none =>
      have hpi := inferOrthogonal_of_built hp.1 hpo
      have hqi := inferOrthogonal_of_built hq.1 hqo
      cases hhome : p.home with
      | none => simpa using hqi
      | some home => simpa [hhome] using hpi

end Orthogonal

section ScriptPath

/-- INTERNAL: building a built record again leaves its script path. -/
theorem scriptPath_of_built (hi : Built os i) :
    (i.scriptPath.or (inferScriptPath os i.executable i.home i.arch)).map os.normCase =
      i.scriptPath :=
  congrArg RInstallation.scriptPath hi

/-- INTERNAL: a built record without a script path has paths that give none. -/
theorem inferScriptPath_of_built (hi : Built os i) (hnone : i.scriptPath = none) :
    inferScriptPath os i.executable i.home i.arch = none := by
  have hb := scriptPath_of_built hi
  rw [hnone, Option.none_or] at hb
  exact Option.map_eq_none_iff.mp hb

/-- INTERNAL: the script path of a built record is in its normal form. -/
theorem normCase_scriptPath (h : NormIdempotent os) (hi : Built os i) :
    i.scriptPath.map os.normCase = i.scriptPath := by
  have hb := scriptPath_of_built hi
  rw [← hb, Option.map_map]
  cases i.scriptPath.or (inferScriptPath os i.executable i.home i.arch) <;> simp [h _]

/-- From a home alone a script path is always inferred. -/
theorem inferScriptPath_home (arch : Option Architecture) (home : PathBuf) :
    inferScriptPath os none (some home) arch ≠ none := by
  simp [inferScriptPath]

/-- Beside an executable that decides nothing, only a home can. -/
theorem inferScriptPath_eq_none (e : PathBuf) (home : Option PathBuf)
    (arch : Option Architecture) :
    inferScriptPath os (some e) home arch = none ↔
      e.fileName = none ∨ (home = none ∧ inferScriptPath os (some e) none none = none) := by
  simp only [inferScriptPath, Option.map_none]
  cases e.fileName with
  | none => simp
  | some name =>
    dsimp only
    split_ifs <;> simp

/-- With one executable, what cannot be inferred from either report cannot be inferred
from the two together. -/
theorem inferScriptPath_or {p q : RInstallation} (arch : Option Architecture)
    (hp : inferScriptPath os p.executable p.home p.arch = none)
    (hq : inferScriptPath os q.executable q.home q.arch = none)
    (hpi : ¬(p.home = none ∧ p.executable = none))
    (hqi : ¬(q.home = none ∧ q.executable = none))
    (hagree : ∀ x y, p.executable = some x → q.executable = some y → x = y) :
    inferScriptPath os (p.executable.or q.executable) (p.home.or q.home) arch = none := by
  have hexec : ∀ j : RInstallation, inferScriptPath os j.executable j.home j.arch = none →
      ¬(j.home = none ∧ j.executable = none) → ∃ e, j.executable = some e := by
    intro j hj hji
    cases he : j.executable with
    | some e => exact ⟨e, rfl⟩
    | none =>
      cases hh : j.home with
      | none => exact absurd ⟨hh, he⟩ hji
      | some home =>
        rw [he, hh] at hj
        exact absurd hj (inferScriptPath_home _ home)
  obtain ⟨e, he⟩ := hexec p hp hpi
  obtain ⟨e', he'⟩ := hexec q hq hqi
  obtain rfl := hagree e e' he he'
  rw [he, inferScriptPath_eq_none] at hp
  rw [he', inferScriptPath_eq_none] at hq
  rw [he, Option.some_or, inferScriptPath_eq_none]
  rcases hp with hname | ⟨hp, hnone⟩
  · exact .inl hname
  · rcases hq with hname | ⟨hq, -⟩
    · exact .inl hname
    · exact .inr ⟨by rw [hp, hq, Option.none_or], hnone⟩

/-- What the choice of a script path needs of the reports. -/
structure ScriptReady (os : Os) (k : InstallationKey) (reports : List RInstallation)
    (i : RInstallation) : Prop where
  parts : KeyParts os k i
  paths : NormalPaths os i
  carried : ∀ e, i.executable = some e → ∃ j ∈ reports, j.executable = some e

variable {k : InstallationKey} {reports : List RInstallation}

/-- A merge of records that are ready for their script path is ready. -/
theorem scriptReady_merge (h : NormIdempotent os) (a b : RInstallation)
    (ha : ScriptReady os k reports a) (hb : ScriptReady os k reports b) :
    ScriptReady os k reports (mergeInstallations os a b) := by
  refine ⟨keyParts_merge h a b ha.parts hb.parts, normalPaths_merge h a b, ?_⟩
  intro e he
  obtain ⟨primary, secondary, hp, hs, heq⟩ := merge_cases_of os ha hb
  rw [heq] at he
  have hchosen : (primary.executable.or secondary.executable).map os.normCase = some e := he
  rw [or_map_of_normal hp.paths.1 hs.paths.1] at hchosen
  exact (or_eq_some_cases hchosen).elim (hp.carried e) (hs.carried e)

/-- With one executable the merge infers no script path that neither report has. -/
theorem choosesAt_scriptPath (h : NormIdempotent os)
    (hsingle : SingleValued (·.executable) reports) (ha : ScriptReady os k reports a)
    (hb : ScriptReady os k reports b) :
    ChoosesAt (mergeInstallations os) (·.scriptPath) a b := by
  refine choosesAt_of_build (P := ScriptReady os k reports) ?_ ha hb
  intro p q hp hq
  show (((p.scriptPath.or q.scriptPath).map os.normCase).or
      (inferScriptPath os ((p.executable.or q.executable).map os.normCase)
        ((p.home.or q.home).map os.normCase) (p.arch.or q.arch))).map os.normCase =
    p.scriptPath.or q.scriptPath
  rw [or_map_of_normal hp.paths.1 hq.paths.1, or_map_of_normal hp.paths.2 hq.paths.2]
  have hps := normCase_scriptPath h hp.parts.built
  have hqs := normCase_scriptPath h hq.parts.built
  rw [or_map_of_normal hps hqs]
  cases hchosen : p.scriptPath.or q.scriptPath with
  | some path =>
    rw [Option.some_or, ← hchosen]
    exact or_map_of_normal hps hqs
  | none =>
    obtain ⟨hpn, hqn⟩ := Option.or_eq_none_iff.mp hchosen
    have hagree : ∀ x y, p.executable = some x → q.executable = some y → x = y := by
      intro x y hx hy
      obtain ⟨j, hj, hjx⟩ := hp.carried x hx
      obtain ⟨j', hj', hjy⟩ := hq.carried y hy
      exact hsingle j hj j' hj' x y hjx hjy
    rw [inferScriptPath_or _ (inferScriptPath_of_built hp.parts.built hpn)
      (inferScriptPath_of_built hq.parts.built hqn) hp.parts.identified
      hq.parts.identified hagree]
    rfl

end ScriptPath

section DisplayName

/-- A name is generated from a kind and a version. -/
theorem generatedManagerDisplayName_mono {kind kind' : Option RInstallationKind}
    {version version' name name' : Option String}
    (hkind : ∀ x, kind = some x → kind' = some x)
    (hversion : ∀ x, version = some x → version' = some x)
    (h : generatedManagerDisplayName kind' version' name' = none) :
    generatedManagerDisplayName kind version name = none := by
  cases kind with
  | none => rfl
  | some x =>
    rw [hkind x rfl] at h
    cases version with
    | none => cases x <;> rfl
    | some v =>
      rw [hversion v rfl] at h
      cases x <;> first | rfl | cases h

/-- INTERNAL: building a built record again leaves its display name. -/
theorem displayName_of_built (hi : Built os i) :
    ((i.rversionsOverlay.bind (·.label)).or
      (generatedManagerDisplayName i.kind i.version i.name)).or i.displayName =
        i.displayName :=
  congrArg RInstallation.displayName hi

/-- Nothing overrides the display names of reports below such a record. -/
structure Unnamed (r i : RInstallation) : Prop where
  label : i.rversionsOverlay.bind (·.label) = none
  kind : ∀ x, i.kind = some x → r.kind = some x
  version : ∀ x, i.version = some x → r.version = some x

/-- INTERNAL: the label of merged overlays. -/
theorem label_mergeRversionsOverlay (x y : Option RVersionsOverlay) :
    (mergeRversionsOverlay x y).bind (·.label) = (x.bind (·.label)).or (y.bind (·.label)) := by
  cases x with
  | none => cases y <;> rfl
  | some x => cases y <;> simp [mergeRversionsOverlay]

/-- INTERNAL: the label of a merge. -/
theorem label_merge (os : Os) (a b : RInstallation) :
    (mergeInstallations os a b).rversionsOverlay.bind (·.label) =
      (a.rversionsOverlay.bind (·.label)).or (b.rversionsOverlay.bind (·.label)) := by
  rw [rversionsOverlay_merge, label_mergeRversionsOverlay]

variable {r : RInstallation}

/-- A merge of records that override no display name overrides none. -/
theorem unnamed_merge (os : Os) (a b : RInstallation) (ha : Unnamed r a) (hb : Unnamed r b) :
    Unnamed r (mergeInstallations os a b) := by
  obtain ⟨primary, secondary, hp, hs, heq⟩ := merge_cases_of os ha hb
  refine ⟨by rw [label_merge, ha.label, hb.label]; rfl, ?_, ?_⟩
  · intro x hx
    rw [heq] at hx
    exact (or_eq_some_cases hx).elim (hp.kind x) (hs.kind x)
  · intro x hx
    rw [heq] at hx
    exact (or_eq_some_cases hx).elim (hp.version x) (hs.version x)

/-- Without a label and a generated name, the display name is that of a report. -/
theorem choosesAt_displayName
    (hr : generatedManagerDisplayName r.kind r.version r.name = none) (ha : Unnamed r a)
    (hb : Unnamed r b) : ChoosesAt (mergeInstallations os) (·.displayName) a b := by
  refine choosesAt_of_build (P := Unnamed r) ?_ ha hb
  intro p s hp hs
  have hlabel : (mergeRversionsOverlay a.rversionsOverlay b.rversionsOverlay).bind
      (·.label) = none := by
    rw [label_mergeRversionsOverlay, ha.label, hb.label]
    rfl
  have hgenerated : generatedManagerDisplayName (p.kind.or s.kind) (p.version.or s.version)
      (p.name.or s.name) = none :=
    generatedManagerDisplayName_mono
      (fun x hx => (or_eq_some_cases hx).elim (hp.kind x) (hs.kind x))
      (fun x hx => (or_eq_some_cases hx).elim (hp.version x) (hs.version x)) hr
  show (((mergeRversionsOverlay a.rversionsOverlay b.rversionsOverlay).bind (·.label)).or
      (generatedManagerDisplayName (p.kind.or s.kind) (p.version.or s.version)
        (p.name.or s.name))).or
      ((((mergeRversionsOverlay a.rversionsOverlay b.rversionsOverlay).bind (·.label)).or
        p.displayName).or s.displayName) = p.displayName.or s.displayName
  rw [hlabel, hgenerated]
  rfl

end DisplayName

/-! ## A report that leads -/

section Lead

/-- The report ranks above every other, also above what others are merged into: by its
priority alone, or by its kind where no priority is greater. -/
def Leads (t : RInstallation) (reports : List RInstallation) : Prop :=
  (∀ i ∈ reports, i = t ∨ installationPriority i < installationPriority t) ∨
  (∀ i ∈ reports, i = t ∨ (installationPriority i ≤ installationPriority t ∧
    kindSpecificity i < kindSpecificity t))

/-- INTERNAL: a report leads in any order. -/
theorem leads_of_perm {reports reports' : List RInstallation} {t : RInstallation}
    (hperm : reports.Perm reports') (h : Leads t reports) : Leads t reports' := by
  simpa only [Leads, hperm.mem_iff] using h

/-- INTERNAL: a merge whose new report is the primary one. -/
theorem merge_of_outranks (h : Outranks b a) :
    mergeInstallations os a b = RInstallationBuilder.build os (mergeBuilder os a b b a) := by
  simp only [mergeInstallations, preferredInstallation, if_pos h]

/-- INTERNAL: a merge whose existing record is the primary one. -/
theorem merge_of_not_outranks (h : ¬Outranks b a) :
    mergeInstallations os a b = RInstallationBuilder.build os (mergeBuilder os a b a b) := by
  simp only [mergeInstallations, preferredInstallation, if_neg h]

/-- The records below a leading report, and those it has been merged into. -/
structure Ladder (os : Os) (Below Level : RInstallation → Prop) : Prop where
  below : ∀ a b, Below a → Below b → Below (mergeInstallations os a b)
  level : ∀ a b, Level a ∨ Level b → Below a ∨ Level a → Below b ∨ Level b →
    Level (mergeInstallations os a b)
  outranks : ∀ a b, Below a → Level b → Outranks b a
  stays : ∀ a b, Level a → Below b → ¬Outranks b a
  apart : ∀ a, Below a → ¬Level a

/-- A field the leading report has is the merged record's. -/
theorem eq_some_of_level {α : Type} {f : RInstallation → Option α} {Below Level}
    {reports : List RInstallation} {t r : RInstallation} {x : α}
    (hladder : Ladder os Below Level)
    (hf : ∀ a b p s, f p = some x →
      f (RInstallationBuilder.build os (mergeBuilder os a b p s)) = some x)
    (hreports : ∀ i ∈ reports, i = t ∨ Below i) (ht : t ∈ reports) (hlevel : Level t)
    (hx : f t = some x) (hr : mergeAll (mergeInstallations os) reports = some r) :
    f r = some x := by
  -- a merge with a record of the level is of the level and keeps its field
  have hkept : ∀ a b, Level a ∧ f a = some x ∨ Level b ∧ f b = some x →
      Below a ∨ (Level a ∧ f a = some x) → Below b ∨ (Level b ∧ f b = some x) →
      Level (mergeInstallations os a b) ∧ f (mergeInstallations os a b) = some x := by
    intro a b hone ha hb
    refine ⟨hladder.level a b (hone.imp And.left And.left) (ha.imp_right And.left)
      (hb.imp_right And.left), ?_⟩
    by_cases hout : Outranks b a
    · rw [merge_of_outranks hout]
      rcases hb with hb | hb
      · rcases hone with hone | hone
        · exact absurd hout (hladder.stays a b hone.1 hb)
        · exact absurd hone.1 (hladder.apart b hb)
      · exact hf a b b a hb.2
    · rw [merge_of_not_outranks hout]
      rcases ha with ha | ha
      · rcases hone with hone | hone
        · exact absurd hone.1 (hladder.apart a ha)
        · exact absurd (hladder.outranks a b ha hone.1) hout
      · exact hf a b a b ha.2
  have hiff := mergeAll_iff (P := fun i => Below i ∨ (Level i ∧ f i = some x))
    (Q := fun i => Level i ∧ f i = some x) ?_ ?_ ?_ hr
  · exact (hiff.mpr ⟨t, ht, hlevel, hx⟩).2
  · intro a b ha hb
    by_cases hone : (Level a ∧ f a = some x) ∨ (Level b ∧ f b = some x)
    · exact .inr (hkept a b hone ha hb)
    · rw [not_or] at hone
      exact .inl (hladder.below a b (ha.resolve_right hone.1) (hb.resolve_right hone.2))
  · intro a b ha hb
    refine ⟨?_, fun hone => hkept a b hone ha hb⟩
    intro hmerged
    by_contra hone
    rw [not_or] at hone
    exact hladder.apart _ (hladder.below a b (ha.resolve_right hone.1)
      (hb.resolve_right hone.2)) hmerged.1
  · intro i hi
    rcases hreports i hi with rfl | hbelow
    · exact .inr ⟨hlevel, hx⟩
    · exact .inl hbelow

/-- The reports of a lower priority and those of this one form a ladder. -/
theorem ladder_priority (os : Os) (n : ℕ) :
    Ladder os (fun i => installationPriority i < n) (fun i => installationPriority i = n) := by
  constructor
  · intro a b ha hb
    rw [installationPriority_merge]
    exact max_lt ha hb
  · intro a b hone ha hb
    rw [installationPriority_merge]
    omega
  · intro a b ha hb
    exact .inl (hb ▸ ha)
  · intro a b ha hb
    unfold Outranks
    omega
  · intro a ha
    exact ha.ne

/-- The kind of a merge is the more specific one, where the priorities let it. -/
theorem kindSpecificity_merge_le (os : Os) (a b : RInstallation) :
    kindSpecificity (mergeInstallations os a b) ≤
      max (kindSpecificity a) (kindSpecificity b) := by
  rcases kind_merge_cases os a b with hkind | hkind
  · rw [show kindSpecificity (mergeInstallations os a b) = kindSpecificity a by
      unfold kindSpecificity
      rw [hkind]]
    exact le_max_left _ _
  · rw [show kindSpecificity (mergeInstallations os a b) = kindSpecificity b by
      unfold kindSpecificity
      rw [hkind]]
    exact le_max_right _ _

/-- INTERNAL: a merge is at least as specific as its primary record. -/
theorem le_kindSpecificity_build (a b p s : RInstallation) :
    kindSpecificity p ≤
      kindSpecificity (RInstallationBuilder.build os (mergeBuilder os a b p s)) := by
  unfold kindSpecificity
  rw [RInstallationBuilder.build_kind]
  show _ ≤ kindSpecificity { p with kind := p.kind.or s.kind }
  unfold kindSpecificity
  cases p.kind with
  | none => exact Nat.zero_le _
  | some kind => exact le_rfl

/-- Among reports of one priority, those of a less specific kind and of this one form a ladder. -/
theorem ladder_kind (os : Os) (n m : ℕ) :
    Ladder os (fun i => installationPriority i ≤ n ∧ kindSpecificity i < m)
      (fun i => installationPriority i = n ∧ kindSpecificity i = m) := by
  constructor
  · intro a b ha hb
    rw [installationPriority_merge]
    exact ⟨max_le ha.1 hb.1, (kindSpecificity_merge_le os a b).trans_lt (max_lt ha.2 hb.2)⟩
  · intro a b hone ha hb
    have hpriority : installationPriority (mergeInstallations os a b) = n := by
      rw [installationPriority_merge]
      omega
    have hle : kindSpecificity (mergeInstallations os a b) ≤ m := by
      have := kindSpecificity_merge_le os a b
      omega
    refine ⟨hpriority, le_antisymm hle ?_⟩
    by_cases hout : Outranks b a
    · have hb' : kindSpecificity b = m := by
        unfold Outranks at hout
        omega
      rw [merge_of_outranks hout, ← hb']
      exact le_kindSpecificity_build a b b a
    · have ha' : kindSpecificity a = m := by
        unfold Outranks at hout
        omega
      rw [merge_of_not_outranks hout, ← ha']
      exact le_kindSpecificity_build a b a b
  · intro a b ha hb
    unfold Outranks
    omega
  · intro a b ha hb
    unfold Outranks
    omega
  · intro a ha hlevel
    omega

/-- **What a leading report says stands**, in whatever order the reports come. -/
theorem eq_some_of_leads {α : Type} {f : RInstallation → Option α}
    {reports : List RInstallation} {t r : RInstallation}
    (hf : ∀ a b p s x, f p = some x →
      f (RInstallationBuilder.build os (mergeBuilder os a b p s)) = some x)
    (hlead : Leads t reports) (ht : t ∈ reports)
    (hr : mergeAll (mergeInstallations os) reports = some r) {x : α} (hx : f t = some x) :
    f r = some x := by
  rcases hlead with hlead | hlead
  · exact eq_some_of_level (ladder_priority os (installationPriority t))
      (fun a b p s => hf a b p s x) hlead ht rfl hx hr
  · exact eq_some_of_level
      (ladder_kind os (installationPriority t) (kindSpecificity t))
      (fun a b p s => hf a b p s x) hlead ht ⟨rfl, rfl⟩ hx hr

/-- The fields in which the record repeats the report. -/
structure Repeats (os : Os) (t r : RInstallation) : Prop where
  name : ∀ x, t.name = some x → r.name = some x
  executable : ∀ x, t.executable.map os.normCase = some x →
    r.executable.map os.normCase = some x
  kind : ∀ x, t.kind = some x → r.kind = some x
  version : ∀ x, t.version = some x → r.version = some x
  home : ∀ x, t.home.map os.normCase = some x → r.home.map os.normCase = some x
  manager : ∀ x, t.manager = some x → r.manager = some x
  scriptPath : ∀ x, t.scriptPath.map os.normCase = some x →
    r.scriptPath.map os.normCase = some x
  orthogonal : ∀ x, t.orthogonal = some x → r.orthogonal = some x
  error : ∀ x, t.error = some x → r.error = some x

/-- The merge of all reports repeats the one that leads. -/
theorem repeats_of_leads (h : NormIdempotent os) {reports : List RInstallation}
    {t r : RInstallation} (hlead : Leads t reports) (ht : t ∈ reports)
    (hr : mergeAll (mergeInstallations os) reports = some r) : Repeats os t r := by
  have hor : ∀ {α : Type} {u v : Option α} {x : α}, u = some x → u.or v = some x := by
    rintro α _ v x rfl
    rfl
  have hpath : ∀ {u v : Option PathBuf} {x : PathBuf}, u.map os.normCase = some x →
      ((u.or v).map os.normCase).map os.normCase = some x := by
    intro u v x hu
    obtain ⟨p, rfl, rfl⟩ := Option.map_eq_some_iff.mp hu
    simp [h _]
  constructor
  case name => exact fun x => eq_some_of_leads (fun a b p s x hx => hor hx) hlead ht hr
  case executable => exact fun x => eq_some_of_leads (fun a b p s x hx => hpath hx) hlead ht hr
  case kind => exact fun x => eq_some_of_leads (fun a b p s x hx => hor hx) hlead ht hr
  case version => exact fun x => eq_some_of_leads (fun a b p s x hx => hor hx) hlead ht hr
  case home => exact fun x => eq_some_of_leads (fun a b p s x hx => hpath hx) hlead ht hr
  case manager => exact fun x => eq_some_of_leads (fun a b p s x hx => hor hx) hlead ht hr
  case scriptPath =>
    refine fun x => eq_some_of_leads (f := fun i => i.scriptPath.map os.normCase) ?_ hlead ht hr
    intro a b p s x hx
    obtain ⟨path, hsome, rfl⟩ := Option.map_eq_some_iff.mp hx
    show (((((p.scriptPath.or s.scriptPath).map os.normCase).or _).map
      os.normCase)).map os.normCase = _
    simp [hsome, h _]
  case orthogonal =>
    exact fun x => eq_some_of_leads (fun a b p s x hx => hor (hor hx)) hlead ht hr
  case error => exact fun x => eq_some_of_leads (fun a b p s x hx => hor hx) hlead ht hr

end Lead

end REnvTools.Analysis
