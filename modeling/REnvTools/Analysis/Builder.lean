import REnvTools.Analysis.Merging

/-!
# What the builder hands out

Every installation from the builder is in a form that building again does not change
(`build_build`), with sorted lists that are never empty. The builder puts the normal form of
the executable among the known ones. That is the executable itself where the executable was
set by the setter, which every builder comes from (`SetUp`); a record whose executable was
written past it keeps the executable as it is.
-/

set_option autoImplicit false

namespace REnvTools.Analysis

open Program Lib

variable {os : Os} {i : RInstallation}

/-! ## Built installations -/

/-- The form of an installation from the builder. -/
structure NormalForm (os : Os) (i : RInstallation) : Prop where
  known_sorted : ∀ paths, i.knownExecutables = some paths → paths.Pairwise (· < ·) ∧ paths ≠ []
  symlinks_sorted : ∀ paths, i.symlinks = some paths → paths.Pairwise (· < ·) ∧ paths ≠ []
  sources_sorted : i.discoveredBy.Pairwise (· < ·)
  sources_nonempty : ∀ kind, i.kind = some kind → kind ≠ .globalPaths → i.discoveredBy ≠ []
  variables_nonempty : i.environmentVariables ≠ some ∅
  executable_known : ∀ executable, i.executable = some executable →
    ∃ paths, i.knownExecutables = some paths ∧ os.normCase executable ∈ paths

/-- What the builder leaves as it is has this form. -/
theorem normalForm_of_built (hi : Built os i) : NormalForm os i := by
  constructor
  case known_sorted =>
    intro paths hpaths
    rw [knownExecutables_of_built hi, someUnlessEmpty_eq_some] at hpaths
    obtain ⟨rfl, hne⟩ := hpaths
    exact ⟨pairwise_knownPaths hi, hne⟩
  case symlinks_sorted =>
    intro paths hpaths
    rw [symlinks_of_built hi, someUnlessEmpty_eq_some] at hpaths
    obtain ⟨rfl, hne⟩ := hpaths
    exact ⟨pairwise_symlinkPaths hi, hne⟩
  case sources_sorted => exact pairwise_discoveredBy hi
  case sources_nonempty =>
    intro kind hkind hlocator hnil
    apply kind_of_discoveredBy_nil hi hnil
    rw [hkind]
    exact ⟨fun heq => hlocator (Option.some.inj heq), rfl⟩
  case variables_nonempty => exact environmentVariables_of_built hi
  case executable_known =>
    intro executable hexecutable
    have hmem := executable_mem_knownPaths hi hexecutable
    refine ⟨knownPaths i, ?_, hmem⟩
    rw [knownExecutables_of_built hi, someUnlessEmpty_eq_some]
    exact ⟨rfl, List.ne_nil_of_mem hmem⟩

/-! ## How builders are set up -/

/-- A builder that was set up by `new`, `from_installation` of an installation from such a
builder, and the setters; those other than `executable` and `home` leave these two alone. -/
inductive SetUp (os : Os) : RInstallationBuilder → Prop
  | new (kind : Option RInstallationKind) : SetUp os (.new kind)
  | executable {b : RInstallationBuilder} (executable : Option PathBuf) (h : SetUp os b) :
      SetUp os { b with executable := executable.map os.normCase }
  | home {b : RInstallationBuilder} (home : Option PathBuf) (h : SetUp os b) :
      SetUp os { b with home := home.map os.normCase }
  | setter {b b' : RInstallationBuilder} (h : SetUp os b)
      (hexecutable : b'.executable = b.executable) (hhome : b'.home = b.home) : SetUp os b'
  | fromInstallation {b : RInstallationBuilder} (h : SetUp os b) :
      SetUp os (.fromInstallation (b.build os))

/-- Its executable and its home are in normal form. -/
theorem paths_of_setUp (hidem : NormIdempotent os) {b : RInstallationBuilder} (h : SetUp os b) :
    b.executable.map os.normCase = b.executable ∧ b.home.map os.normCase = b.home := by
  induction h with
  | new kind => exact ⟨rfl, rfl⟩
  | executable path _ ih => exact ⟨map_normCase_map hidem path, ih.2⟩
  | home path _ ih => exact ⟨ih.1, map_normCase_map hidem path⟩
  | setter _ hexecutable hhome ih =>
    rw [hexecutable, hhome]
    exact ih
  | fromInstallation _ ih => exact ih

/-- **The builder is a normaliser.** Building again changes nothing, and what is built is in
normal form, with the executable itself among the known ones if the builder was set up by its
setters. -/
theorem builder_normalises (h : NormIdempotent os) (b : RInstallationBuilder) :
    RInstallationBuilder.build os (.fromInstallation (b.build os)) = b.build os ∧
      NormalForm os (b.build os) ∧
      (SetUp os b → ∀ executable, (b.build os).executable = some executable →
        ∃ paths, (b.build os).knownExecutables = some paths ∧ executable ∈ paths) := by
  have hform := normalForm_of_built (built_build h b)
  refine ⟨build_build h b, hform, fun hsetup executable hexecutable => ?_⟩
  obtain ⟨paths, hpaths, hmem⟩ := hform.executable_known executable hexecutable
  have hnormal := (paths_of_setUp h hsetup).1
  rw [show b.executable = some executable from hexecutable] at hnormal
  rw [Option.some.inj hnormal] at hmem
  exact ⟨paths, hpaths, hmem⟩

/-! ## Two spellings of one launcher -/

/-- `C:\R\bin\R.exe`. -/
def normalLauncher : PathBuf :=
  ⟨[.drive "C:", .rootDir, .normal "R", .normal "bin", .normal "R.exe"]⟩

/-- `c:\r\bin\r.exe`. -/
def lowerLauncher : PathBuf :=
  ⟨[.drive "c:", .rootDir, .normal "r", .normal "bin", .normal "r.exe"]⟩

/-- A Windows host with this launcher. -/
def windowsOs : Os :=
  ⟨true, fun path => if path = lowerLauncher then normalLauncher else path, fun _ => none⟩

/-- INTERNAL: the spelling of a path in lower case is settled. -/
theorem normIdempotent_windowsOs : NormIdempotent windowsOs := by
  intro path
  have hnormal : normalLauncher ≠ lowerLauncher := by decide
  show (if (if path = lowerLauncher then normalLauncher else path) = lowerLauncher then
    normalLauncher else if path = lowerLauncher then normalLauncher else path) = _
  by_cases hpath : path = lowerLauncher
  · rw [if_pos hpath, if_neg hnormal]
    exact (if_pos hpath).symm
  · rw [if_neg hpath, if_neg hpath]
    exact (if_neg hpath).symm

/-- A builder from a record whose executable was written in lower case. -/
def lowerBuilder : RInstallationBuilder :=
  .fromInstallation { RInstallationBuilder.new none with executable := some lowerLauncher }

/-- The builder normalises this one. -/
theorem builder_normalises_lower :
    RInstallationBuilder.build windowsOs (.fromInstallation (lowerBuilder.build windowsOs)) =
        lowerBuilder.build windowsOs ∧
      NormalForm windowsOs (lowerBuilder.build windowsOs) ∧
      (SetUp windowsOs lowerBuilder →
        ∀ executable, (lowerBuilder.build windowsOs).executable = some executable →
          ∃ paths, (lowerBuilder.build windowsOs).knownExecutables = some paths ∧
            executable ∈ paths) :=
  builder_normalises normIdempotent_windowsOs lowerBuilder

/-- Its executable is not among the known ones, only the normal form of it. -/
theorem executable_not_known :
    ¬∀ (os : Os) (b : RInstallationBuilder), NormIdempotent os →
      ∀ executable, (b.build os).executable = some executable →
        ∃ paths, (b.build os).knownExecutables = some paths ∧ executable ∈ paths := by
  intro h
  obtain ⟨paths, hpaths, hmem⟩ := h windowsOs lowerBuilder normIdempotent_windowsOs
    lowerLauncher rfl
  have hknown : (lowerBuilder.build windowsOs).knownExecutables = some [normalLauncher] := by
    decide
  rw [hknown] at hpaths
  cases hpaths
  exact absurd hmem (by decide)

end REnvTools.Analysis
