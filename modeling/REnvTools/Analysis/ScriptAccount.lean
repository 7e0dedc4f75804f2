import REnvTools.Analysis.MergedFields

/-!
# Whose script path is left

The reports on an executable are merged one after the other, and with them their script paths.
Which one is left is decided by what the reports say alone: an `Account` is kept of those seen so
far, and each further report goes before the account or behind it, by its rank. The account of all
of them says what script path their merge has (`map_of_mergeAll`).
-/

set_option autoImplicit false

namespace REnvTools.Analysis

open Program Lib KeyedStore

variable {os : Os} {a b i : RInstallation}

/-! ## The fields a report gives -/

/-- The fields that `installation_completeness` counts. -/
inductive Field
  | displayName | name | executable | kind | version | home | manager | arch
  | knownExecutables | symlinks | locatorMetadata | rversionsOverlay | scriptPath
  | startupCommand | environmentVariables | orthogonal | error

/-- The fields in this order. -/
def Field.all : List Field :=
  [displayName, name, executable, kind, version, home, manager, arch, knownExecutables, symlinks,
    locatorMetadata, rversionsOverlay, scriptPath, startupCommand, environmentVariables,
    orthogonal, error]

/-- Whether a report gives a field. -/
def gives (i : RInstallation) : Field → Bool
  | .displayName => i.displayName.isSome
  | .name => i.name.isSome
  | .executable => i.executable.isSome
  | .kind => i.kind.isSome
  | .version => i.version.isSome
  | .home => i.home.isSome
  | .manager => i.manager.isSome
  | .arch => i.arch.isSome
  | .knownExecutables => i.knownExecutables.isSome
  | .symlinks => i.symlinks.isSome
  | .locatorMetadata => i.locatorMetadata.isSome
  | .rversionsOverlay => i.rversionsOverlay.isSome
  | .scriptPath => i.scriptPath.isSome
  | .startupCommand => i.startupCommand.isSome
  | .environmentVariables => i.environmentVariables.isSome
  | .orthogonal => i.orthogonal.isSome
  | .error => i.error.isSome

/-- How many of the fields are given. -/
def fieldCount (given : Field → Bool) : ℕ := (Field.all.map given).count true

/-! ## Accounts -/

/-- What the reports seen so far come to, as far as it bears on the script path that is left: the
highest priority of one of them, the foremost kind, executable, home, architecture and script
path, and which fields are given. -/
structure Account where
  priority : ℕ
  kind : Option RInstallationKind
  executable : Option PathBuf
  home : Option PathBuf
  arch : Option Architecture
  scriptPath : Option PathBuf
  given : Field → Bool

namespace Account

/-- The account of one report. -/
def of (i : RInstallation) : Account where
  priority := installationPriority i
  kind := i.kind
  executable := i.executable
  home := i.home
  arch := i.arch
  scriptPath := i.scriptPath
  given := gives i

/-- A report goes before the account: it has a higher priority, or the same and a more specific
kind, or the same of both and gives more fields than the account has. -/
def YieldsTo (account : Account) (i : RInstallation) : Prop :=
  installationPriority i > account.priority ∨
    (installationPriority i = account.priority ∧
      kindSpecificity i > kindSpecificity (RInstallationBuilder.new account.kind)) ∨
    (installationPriority i = account.priority ∧
      kindSpecificity i = kindSpecificity (RInstallationBuilder.new account.kind) ∧
      fieldCount (gives i) > fieldCount account.given)

instance (account : Account) (i : RInstallation) : Decidable (account.YieldsTo i) :=
  inferInstanceAs (Decidable (_ ∨ _ ∨ _))

/-- The account with one report more. Without a script path in either, the one is taken that the
foremost executable, home and architecture suggest; and a kind of Conda or Pixi with a version
gives a display name. -/
def add (os : Os) (account : Account) (i : RInstallation) : Account :=
  let foremost {α : Type} (mine theirs : Option α) : Option α :=
    if account.YieldsTo i then theirs.or mine else mine.or theirs
  let kind := foremost account.kind i.kind
  let executable := foremost account.executable i.executable
  let home := foremost account.home i.home
  let arch := foremost account.arch i.arch
  let scriptPath := (foremost account.scriptPath i.scriptPath).or
    ((inferScriptPath os executable home arch).map os.normCase)
  { priority := max account.priority (installationPriority i)
    kind := kind
    executable := executable
    home := home
    arch := arch
    scriptPath := scriptPath
    given := fun field =>
      match field with
      | .displayName => account.given .displayName || gives i .displayName ||
          ((kind = some .conda || kind = some .pixi) &&
            (account.given .version || gives i .version))
      | .scriptPath => scriptPath.isSome
      | field => account.given field || gives i field }

end Account

/-- The account of reports, in their order. -/
def accountOf (os : Os) : List RInstallation → Option Account
  | [] => none
  | i :: reports => some (reports.foldl (Account.add os) (.of i))

/-! ## The account of a merge -/

/-- INTERNAL: a name is generated for a kind with environments, from a version. -/
theorem isSome_generatedManagerDisplayName (kind : Option RInstallationKind)
    (version name : Option String) :
    (generatedManagerDisplayName kind version name).isSome =
      ((kind = some .conda || kind = some .pixi) && version.isSome) := by
  unfold generatedManagerDisplayName
  rcases kind with _ | kind
  · rfl
  · cases kind <;> simp

/-- INTERNAL: a field that occurs is there exactly if it is in one of the two. -/
theorem Occurs.isSome_eq {α : Type} {x y merged : Option α} (h : Occurs x y merged) :
    merged.isSome = (x.isSome || y.isSome) := by
  rw [Bool.eq_iff_iff, Bool.or_eq_true]
  constructor
  · intro hsome
    obtain ⟨v, hv⟩ := Option.isSome_iff_exists.mp hsome
    refine (h.value v hv).imp ?_ ?_
    · rintro rfl
      rfl
    · rintro rfl
      rfl
  · exact h.present

/-- INTERNAL: a union is there exactly if one of its parts is. -/
theorem isSome_someUnlessEmpty_union {l x y : List PathBuf} (h : ∀ p, p ∈ l ↔ p ∈ x ∨ p ∈ y) :
    (someUnlessEmpty l).isSome = ((someUnlessEmpty x).isSome || (someUnlessEmpty y).isSome) := by
  rw [Bool.eq_iff_iff, Bool.or_eq_true]
  simp only [isSome_someUnlessEmpty, h, exists_or]

/-- INTERNAL: a built report with a label has a display name. -/
theorem isSome_displayName_of_label (hi : Built os i)
    (hlabel : (i.rversionsOverlay.bind (·.label)).isSome = true) :
    i.displayName.isSome = true := by
  rw [← displayName_of_built hi, Option.isSome_or, Option.isSome_or, hlabel]
  rfl

/-- INTERNAL: what is in one of two places is not needed in a third. -/
theorem or_absorb {label generated x y : Bool} (h : label = true → (x || y) = true) :
    ((label || generated) || ((label || x) || y)) = (x || y || generated) := by
  revert h
  cases label <;> cases generated <;> cases x <;> cases y <;> decide

section Merge

variable (h : NormIdempotent os) (ha : Built os a ∧ NormalPaths os a)
  (hb : Built os b ∧ NormalPaths os b)

include h ha hb

/-- INTERNAL: which fields a merge has, but for the display name and the script path. -/
theorem gives_merge {field : Field} (hname : field ≠ .displayName) (hscript : field ≠ .scriptPath) :
    gives (mergeInstallations os a b) field = (gives a field || gives b field) := by
  have hkeeps := keepsFields_merge h ha hb
  have hmerged : Built os (mergeInstallations os a b) := built_merge h
  cases field with
  | displayName => exact absurd rfl hname
  | scriptPath => exact absurd rfl hscript
  | name => exact hkeeps.name.isSome_eq
  | executable => exact hkeeps.executable.isSome_eq
  | kind => exact hkeeps.kind.isSome_eq
  | version => exact hkeeps.version.isSome_eq
  | home => exact hkeeps.home.isSome_eq
  | manager => exact hkeeps.manager.isSome_eq
  | arch => exact hkeeps.arch.isSome_eq
  | locatorMetadata => exact hkeeps.locatorMetadata.isSome_eq
  | startupCommand => exact hkeeps.startupCommand.isSome_eq
  | orthogonal => exact hkeeps.orthogonal.isSome_eq
  | error => exact hkeeps.error.isSome_eq
  | knownExecutables =>
    show (mergeInstallations os a b).knownExecutables.isSome = _
    rw [knownExecutables_of_built hmerged,
      isSome_someUnlessEmpty_union (mem_knownPaths_merge h ha.1 hb.1),
      ← knownExecutables_of_built ha.1, ← knownExecutables_of_built hb.1]
    rfl
  | symlinks =>
    show (mergeInstallations os a b).symlinks.isSome = _
    rw [symlinks_of_built hmerged,
      isSome_someUnlessEmpty_union (mem_symlinkPaths_merge h ha.1 hb.1),
      ← symlinks_of_built ha.1, ← symlinks_of_built hb.1]
    rfl
  | rversionsOverlay =>
    rw [Bool.eq_iff_iff, Bool.or_eq_true]
    exact isSome_rversionsOverlay_merge os a b
  | environmentVariables =>
    rw [Bool.eq_iff_iff, Bool.or_eq_true]
    show (mergeInstallations os a b).environmentVariables.isSome = true ↔
      a.environmentVariables.isSome = true ∨ b.environmentVariables.isSome = true
    rw [environmentVariables_isSome_iff ha.1, environmentVariables_isSome_iff hb.1,
      environmentVariables_isSome_iff hmerged, ← exists_or]
    refine exists_congr fun key => ?_
    rw [(hkeeps.eachVariable key).isSome_eq, Bool.or_eq_true]

omit h in
/-- INTERNAL: when a merge has a display name. -/
theorem isSome_displayName_merge_eq :
    (mergeInstallations os a b).displayName.isSome =
      (a.displayName.isSome || b.displayName.isSome ||
        (generatedManagerDisplayName (mergeInstallations os a b).kind
          (mergeInstallations os a b).version (mergeInstallations os a b).name).isSome) := by
  have hlabel := label_merge os a b
  obtain ⟨primary, secondary, hcases, heq⟩ := merge_cases os a b
  have hdisplay : (mergeInstallations os a b).displayName =
      (((mergeInstallations os a b).rversionsOverlay.bind (·.label)).or
        (generatedManagerDisplayName (mergeInstallations os a b).kind
          (mergeInstallations os a b).version (mergeInstallations os a b).name)).or
        ((((mergeInstallations os a b).rversionsOverlay.bind (·.label)).or
          primary.displayName).or secondary.displayName) := by
    rw [heq]
    rfl
  have hnames : (primary.displayName.isSome || secondary.displayName.isSome) =
      (a.displayName.isSome || b.displayName.isSome) := by
    rcases hcases with ⟨rfl, rfl⟩ | ⟨rfl, rfl⟩
    · rfl
    · exact Bool.or_comm _ _
  -- a label of one of the two is also its display name
  have hname : ((a.rversionsOverlay.bind (·.label)).isSome ||
      (b.rversionsOverlay.bind (·.label)).isSome) = true →
        (primary.displayName.isSome || secondary.displayName.isSome) = true := by
    rw [hnames, Bool.or_eq_true, Bool.or_eq_true]
    exact Or.imp (isSome_displayName_of_label ha.1) (isSome_displayName_of_label hb.1)
  rw [hdisplay, hlabel]
  simp only [Option.isSome_or, ← hnames]
  exact or_absorb hname

include h

/-- INTERNAL: the script path of a merge, of which the first report is the primary one. -/
theorem scriptPath_build (x y : RInstallation) :
    (RInstallationBuilder.build os (mergeBuilder os x y a b)).scriptPath =
      (a.scriptPath.or b.scriptPath).or ((inferScriptPath os (a.executable.or b.executable)
        (a.home.or b.home) (a.arch.or b.arch)).map os.normCase) := by
  have hpaths : (a.scriptPath.or b.scriptPath).map os.normCase = a.scriptPath.or b.scriptPath :=
    or_map_of_normal (normCase_scriptPath h ha.1) (normCase_scriptPath h hb.1)
  show (((a.scriptPath.or b.scriptPath).map os.normCase).or
      (inferScriptPath os ((a.executable.or b.executable).map os.normCase)
        ((a.home.or b.home).map os.normCase) (a.arch.or b.arch))).map os.normCase = _
  rw [hpaths, or_map_of_normal ha.2.1 hb.2.1, or_map_of_normal ha.2.2 hb.2.2, Option.map_or,
    hpaths]

/-- **The account of a merge** is that of the existing record with the new report more. -/
theorem of_merge : Account.of (mergeInstallations os a b) = (Account.of a).add os b := by
  have hgives : ∀ {field : Field}, field ≠ .displayName → field ≠ .scriptPath →
      gives (mergeInstallations os a b) field = (gives a field || gives b field) :=
    gives_merge h ha hb
  have hdisplay := isSome_displayName_merge_eq ha hb
  rw [isSome_generatedManagerDisplayName] at hdisplay
  have hversion : (mergeInstallations os a b).version.isSome =
      (a.version.isSome || b.version.isSome) :=
    @hgives .version (by simp) (by simp)
  have hpriority := installationPriority_merge os a b
  -- the account and the merge prefer the same of the two
  have houtranks : Outranks b a ↔ (Account.of a).YieldsTo b := Iff.rfl
  have hfields : (mergeInstallations os a b).kind = ((Account.of a).add os b).kind ∧
      (mergeInstallations os a b).executable = ((Account.of a).add os b).executable ∧
      (mergeInstallations os a b).home = ((Account.of a).add os b).home ∧
      (mergeInstallations os a b).arch = ((Account.of a).add os b).arch ∧
      (mergeInstallations os a b).scriptPath = ((Account.of a).add os b).scriptPath := by
    unfold Account.add
    by_cases hb' : Outranks b a
    · rw [merge_of_outranks hb']
      simp only [if_pos (houtranks.mp hb')]
      exact ⟨rfl, or_map_of_normal hb.2.1 ha.2.1, or_map_of_normal hb.2.2 ha.2.2, rfl,
        scriptPath_build h hb ha a b⟩
    · rw [merge_of_not_outranks hb']
      simp only [if_neg (houtranks.not.mp hb')]
      exact ⟨rfl, or_map_of_normal ha.2.1 hb.2.1, or_map_of_normal ha.2.2 hb.2.2, rfl,
        scriptPath_build h ha hb a b⟩
  obtain ⟨hkind, hexecutable, hhome, harch, hscript⟩ := hfields
  have hgiven : gives (mergeInstallations os a b) = ((Account.of a).add os b).given := by
    funext field
    by_cases hname : field = .displayName
    · subst hname
      rw [hkind, hversion] at hdisplay
      exact hdisplay
    · by_cases hpath : field = .scriptPath
      · subst hpath
        exact congrArg Option.isSome hscript
      · rw [hgives hname hpath]
        cases field <;> first | rfl | contradiction
  unfold Account.of
  rw [hpriority, hkind, hexecutable, hhome, harch, hscript, hgiven]
  rfl

end Merge

/-- **The account of the reports is that of their merge.** -/
theorem map_of_mergeAll (h : NormIdempotent os) {reports : List RInstallation}
    (hreports : ∀ i ∈ reports, Built os i ∧ NormalPaths os i) :
    (mergeAll (mergeInstallations os) reports).map Account.of = accountOf os reports := by
  cases reports with
  | nil => rfl
  | cons i reports =>
    rw [List.forall_mem_cons] at hreports
    show some (Account.of (reports.foldl (mergeInstallations os) i)) =
      some (reports.foldl (Account.add os) (.of i))
    congr 1
    obtain ⟨hi, hreports⟩ := hreports
    induction reports generalizing i with
    | nil => rfl
    | cons j reports ih =>
      rw [List.forall_mem_cons] at hreports
      obtain ⟨hj, hreports⟩ := hreports
      rw [List.foldl_cons, List.foldl_cons, ← of_merge h hi hj]
      exact ih _ ⟨built_merge h, normalPaths_merge h i j⟩ hreports

end REnvTools.Analysis
