import REnvTools.Analysis.Builder
import REnvTools.Analysis.FieldChoice

/-!
# Where a merged record comes from

The kind, the name, the home and the executable of a merge are those of the preferred report.
The locator metadata are selected by their priority alone, and stay the existing ones between
equals. So they are the preferred report's as well (`merge_provenance`), unless the new report
is preferred for its kind or its completeness and brings other metadata of equal priority.
-/

set_option autoImplicit false

namespace REnvTools.Analysis

open Program Lib KeyedStore

variable {os : Os} {a b i : RInstallation}

/-! ## Records that follow a report -/

/-- The report says what kind of installation it is about, its name, and how it was located. -/
structure Described (i : RInstallation) : Prop where
  kind : i.kind ≠ none
  name : i.name ≠ none
  locatorMetadata : i.locatorMetadata ≠ none

/-- The record has the kind, the name, the home and the executable of the report. -/
structure FollowsReport (os : Os) (i record : RInstallation) : Prop where
  kind : record.kind = i.kind
  name : record.name = i.name
  home : record.home = i.home.map os.normCase
  executable : ∀ e, i.executable = some e → record.executable = some (os.normCase e)

/-- The report a merge prefers. -/
def preferred (existing new : RInstallation) : RInstallation :=
  (preferredInstallation existing new).1

/-- INTERNAL: a new report that outranks the existing one is preferred. -/
theorem preferred_of_outranks (h : Outranks b a) : preferred a b = b := by
  unfold preferred preferredInstallation
  rw [if_pos h]

/-- INTERNAL: otherwise the existing report is. -/
theorem preferred_of_not_outranks (h : ¬Outranks b a) : preferred a b = a := by
  unfold preferred preferredInstallation
  rw [if_neg h]

/-- Reports of one key have a home both, or none of them has. -/
theorem home_eq_none_of_key (hkey : getInstallationKey os a = getInstallationKey os b)
    (hnone : a.home = none) : b.home = none := by
  cases hk : getInstallationKey os b with
  | none =>
    by_contra hhome
    unfold getInstallationKey at hk
    rw [if_neg (fun hboth => hhome hboth.1)] at hk
    cases hk
  | some k =>
    rw [hk] at hkey
    obtain ⟨-, ha, -⟩ := getInstallationKey_eq_some.mp hkey
    obtain ⟨-, hb, -⟩ := getInstallationKey_eq_some.mp hk
    rw [hnone, Option.map_none] at ha
    rw [← ha] at hb
    exact Option.map_eq_none_iff.mp hb

/-- INTERNAL: a field the primary has is the primary's. -/
theorem or_of_ne_none {α : Type} {x : Option α} (y : Option α) (h : x ≠ none) : x.or y = x := by
  obtain ⟨v, rfl⟩ := Option.ne_none_iff_exists'.mp h
  rfl

/-- What the builder makes of a primary and a secondary follows the primary. -/
theorem followsReport_build {p s : RInstallation} (hp : Described p)
    (hhome : p.home = none → s.home = none) :
    FollowsReport os p (RInstallationBuilder.build os (mergeBuilder os a b p s)) := by
  constructor
  case kind => exact or_of_ne_none _ hp.kind
  case name => exact or_of_ne_none _ hp.name
  case home =>
    show (p.home.or s.home).map os.normCase = p.home.map os.normCase
    cases hph : p.home with
    | none =>
      rw [hhome hph]
      rfl
    | some home => rfl
  case executable =>
    intro e he
    show (p.executable.or s.executable).map os.normCase = some (os.normCase e)
    rw [he]
    rfl

/-- A merge of described reports follows the preferred one. -/
theorem followsReport_merge (hkey : getInstallationKey os a = getInstallationKey os b)
    (ha : Described a) (hb : Described b) :
    FollowsReport os (preferred a b) (mergeInstallations os a b) := by
  by_cases hout : Outranks b a
  · rw [preferred_of_outranks hout, merge_of_outranks hout]
    apply followsReport_build hb
    exact fun hnone => home_eq_none_of_key hkey.symm hnone
  · rw [preferred_of_not_outranks hout, merge_of_not_outranks hout]
    apply followsReport_build ha
    exact fun hnone => home_eq_none_of_key hkey hnone

/-! ## The metadata -/

/-- The metadata of the new report are selected when their priority is higher. -/
theorem locatorMetadata_merge_eq (ha : Described a) (hb : Described b) :
    (mergeInstallations os a b).locatorMetadata =
      if installationPriority a < installationPriority b then b.locatorMetadata
      else a.locatorMetadata := by
  obtain ⟨x, hx⟩ := Option.ne_none_iff_exists'.mp ha.locatorMetadata
  obtain ⟨y, hy⟩ := Option.ne_none_iff_exists'.mp hb.locatorMetadata
  rw [locatorMetadata_merge]
  unfold installationPriority
  rw [hx, hy]
  show (if x.priority < y.priority then some y else some x) = _
  rfl

/-- A report of higher priority is preferred, and one of lower priority is not. -/
theorem outranks_of_priority (h : installationPriority a ≠ installationPriority b) :
    Outranks b a ↔ installationPriority a < installationPriority b := by
  unfold Outranks
  omega

/-- The metadata are the preferred report's, but for a new report that is preferred for less
than its priority. -/
theorem locatorMetadata_eq_preferred_iff (ha : Described a) (hb : Described b) :
    (mergeInstallations os a b).locatorMetadata = (preferred a b).locatorMetadata ↔
      installationPriority a ≠ installationPriority b ∨ ¬Outranks b a ∨
        a.locatorMetadata = b.locatorMetadata := by
  rw [locatorMetadata_merge_eq ha hb]
  by_cases hpriority : installationPriority a = installationPriority b
  · rw [if_neg (by omega)]
    by_cases hout : Outranks b a
    · rw [preferred_of_outranks hout]
      constructor
      · exact fun heq => .inr (.inr heq)
      · rintro (hne | hnot | heq)
        · exact absurd hpriority hne
        · exact absurd hout hnot
        · exact heq
    · rw [preferred_of_not_outranks hout]
      exact iff_of_true rfl (.inr (.inl hout))
  · apply iff_of_true _ (.inl hpriority)
    by_cases hlt : installationPriority a < installationPriority b
    · rw [if_pos hlt, preferred_of_outranks ((outranks_of_priority hpriority).mpr hlt)]
    · rw [if_neg hlt,
        preferred_of_not_outranks (mt (outranks_of_priority hpriority).mp hlt)]

/-- **Where a merged record comes from**: everything but the metadata follows the preferred
report, and the metadata do unless priority leaves the choice open. -/
theorem merge_provenance (hkey : getInstallationKey os a = getInstallationKey os b)
    (ha : Described a) (hb : Described b) :
    FollowsReport os (preferred a b) (mergeInstallations os a b) ∧
      (mergeInstallations os a b).locatorMetadata =
        (if installationPriority a < installationPriority b then b.locatorMetadata
          else a.locatorMetadata) ∧
      ((mergeInstallations os a b).locatorMetadata = (preferred a b).locatorMetadata ↔
        installationPriority a ≠ installationPriority b ∨ ¬Outranks b a ∨
          a.locatorMetadata = b.locatorMetadata) :=
  ⟨followsReport_merge hkey ha hb, locatorMetadata_merge_eq ha hb,
    locatorMetadata_eq_preferred_iff ha hb⟩

/-! ## One environment, found by two paths -/

/-- `/envs/NAME`, where every name is a link to one environment. -/
def envPath (name : String) : PathBuf := ⟨[.rootDir, .normal "envs", .normal name]⟩

/-- A host where the paths below `/envs` all lead to the same home. -/
def linkedOs : Os :=
  ⟨false, id, fun path => if path.components.take 2 = [.rootDir, .normal "envs"] then
    some (envPath "base") else none⟩

/-- A report of the environment by one of its names. -/
def environmentReport (name : String) (version : Option String) : RInstallation :=
  RInstallationBuilder.build linkedOs
    { RInstallationBuilder.new (some .conda) with
      name := some name
      version := version
      home := some (linkedOs.normCase (envPath name))
      locatorMetadata := some (.conda (envPath name)) }

/-- INTERNAL: the sample reports are described. -/
theorem described_environmentReport (name : String) (version : Option String) :
    Described (environmentReport name version) :=
  ⟨Option.some_ne_none _, Option.some_ne_none _, Option.some_ne_none _⟩

/-- The theorem for two names of one environment. -/
theorem merge_provenance_linked :
    FollowsReport linkedOs (environmentReport "alias" (some "4.4.1"))
        (mergeInstallations linkedOs (environmentReport "base" none)
          (environmentReport "alias" (some "4.4.1"))) := by
  have hkey : getInstallationKey linkedOs (environmentReport "base" none) =
      getInstallationKey linkedOs (environmentReport "alias" (some "4.4.1")) := by decide
  have hpreferred : preferred (environmentReport "base" none)
      (environmentReport "alias" (some "4.4.1")) = environmentReport "alias" (some "4.4.1") :=
    preferred_of_outranks (by decide)
  have hmerged := (merge_provenance hkey (described_environmentReport "base" none)
    (described_environmentReport "alias" (some "4.4.1"))).1
  rwa [hpreferred] at hmerged

/-- The merge is named after one report and has the metadata of the other. -/
theorem metadata_of_another_report :
    ¬∀ (os : Os) (a b : RInstallation), BuilderBuilt os a → BuilderBuilt os b →
      getInstallationKey os a = getInstallationKey os b → Described a → Described b →
        ∃ i, (i = a ∨ i = b) ∧ FollowsReport os i (mergeInstallations os a b) ∧
          (mergeInstallations os a b).locatorMetadata = i.locatorMetadata := by
  intro h
  obtain ⟨i, rfl | rfl, hfollows, hmetadata⟩ := h linkedOs (environmentReport "base" none)
    (environmentReport "alias" (some "4.4.1")) ⟨_, rfl⟩ ⟨_, rfl⟩ (by decide)
    (described_environmentReport _ _) (described_environmentReport _ _)
  · exact absurd hfollows.name (by decide)
  · exact absurd hmetadata (by decide)

end REnvTools.Analysis
