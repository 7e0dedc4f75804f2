import REnvTools.Lib.Words
import REnvTools.Program.CondaPackages

/-!
# The architecture of a Conda platform

Where the `arch` of a package says nothing, `parse_arch` looks for the names of architectures
anywhere in its `subdir`. A platform is named by its system and, after the last hyphen, its
architecture, so this is right for `linux-64` and `osx-arm64`, and wrong where one name is part of
another, as in `linux-ppc64le` or `emscripten-wasm32` (`architecture_named_iff`).
-/

set_option autoImplicit false

namespace REnvTools.Analysis

open Lib Program Reading

/-! ## The tests -/

/-- What platforms call an architecture after their last hyphen, which is also what `parse_arch`
looks for. -/
def platformNames : Architecture → List String
  | .arm64 => ["aarch64", "arm64"]
  | .x64 => ["64"]
  | .x86 => ["32"]

/-- What is looked for before the names of an architecture. -/
def earlierNames : Architecture → List String
  | .arm64 => []
  | .x64 => ["aarch64", "arm64"]
  | .x86 => ["aarch64", "arm64", "64"]

/-- What `parse_arch` makes of a platform in lower case. -/
def platformArchitecture (platform : String) : Option Architecture :=
  if textContains platform "aarch64" || textContains platform "arm64" then some .arm64
  else if textContains platform "64" then some .x64
  else if textContains platform "32" then some .x86
  else none

/-- The `arch` field is absent, or names no architecture. -/
def ArchUnrecognised (pkg : CondaMetaPackage) : Prop :=
  ∀ arch, pkg.arch = some arch →
    ∀ name ∈ ["aarch64", "arm64", "x86_64", "x86", "i686", "i386"],
      textContains (toAsciiLowercase arch) name = false

/-- Where `arch` names no architecture, the platform decides. -/
theorem parseArch_of_unrecognised {pkg : CondaMetaPackage} (h : ArchUnrecognised pkg) :
    parseArch pkg =
      pkg.subdir.bind fun subdir => platformArchitecture (toAsciiLowercase subdir) := by
  unfold parseArch
  cases harch : pkg.arch with
  | none => cases pkg.subdir <;> rfl
  | some arch =>
    have hnone := h arch harch
    simp only [List.forall_mem_cons] at hnone
    obtain ⟨haarch64, harm64, hx64, hx86, hi686, hi386, -⟩ := hnone
    simp only [haarch64, harm64, hx64, hx86, hi686, hi386]
    cases pkg.subdir <;> rfl

/-- **The cascade**: an architecture is found if one of its names is somewhere in the platform,
and none of those that are looked for before. -/
theorem platformArchitecture_eq_some {platform : String} {architecture : Architecture} :
    platformArchitecture platform = some architecture ↔
      (∃ name ∈ platformNames architecture, textContains platform name = true) ∧
        ∀ name ∈ earlierNames architecture, textContains platform name = false := by
  unfold platformArchitecture
  cases architecture <;>
    simp only [platformNames, earlierNames, List.mem_cons, List.not_mem_nil, or_false,
      exists_eq_or_imp, exists_eq_left, forall_eq_or_imp, forall_eq, false_imp_iff, implies_true]
  all_goals
    generalize textContains platform "aarch64" = aarch64, textContains platform "arm64" = arm64,
      textContains platform "64" = x64, textContains platform "32" = x86
    revert aarch64 arm64 x64 x86
    decide

/-- Nothing is found exactly if there is no `64` and no `32`. -/
theorem platformArchitecture_eq_none {platform : String} :
    platformArchitecture platform = none ↔
      textContains platform "64" = false ∧ textContains platform "32" = false := by
  have hpart : ∀ name ∈ platformNames .arm64, "64".toList <:+: name.toList := by decide
  have hcontained : ∀ name ∈ platformNames .arm64, textContains platform name = true →
      textContains platform "64" = true :=
    fun name hname hfound => decide_eq_true ((hpart name hname).trans (of_decide_eq_true hfound))
  have haarch64 := hcontained "aarch64" (by decide)
  have harm64 := hcontained "arm64" (by decide)
  unfold platformArchitecture
  generalize textContains platform "aarch64" = aarch64, textContains platform "arm64" = arm64,
    textContains platform "64" = x64, textContains platform "32" = x86 at haarch64 harm64 ⊢
  revert aarch64 arm64 x64 x86
  decide

/-! ## Platforms -/

/-- The platform is one of the architecture: the part after its last hyphen is a name of it. -/
def IsPlatformOf (platform : String) (architecture : Architecture) : Prop :=
  ∃ before last, platform = before ++ "-" ++ last ∧ '-' ∉ last.toList ∧
    last ∈ platformNames architecture

/-- The cascade is not misled: either the part after the last hyphen names an architecture, and
nothing that is looked for earlier is before that hyphen; or there is no `64` and no `32`. -/
def ReadsPlainly (platform : String) : Prop :=
  (∃ architecture before last, platform = before ++ "-" ++ last ∧ '-' ∉ last.toList ∧
    last ∈ platformNames architecture ∧
    ∀ name ∈ earlierNames architecture, textContains before name = false) ∨
  textContains platform "64" = false ∧ textContains platform "32" = false

/-- INTERNAL: a name without a hyphen is before the last one or after it. -/
theorem textContains_hyphen {before last name : String} (hname : '-' ∉ name.toList) :
    textContains (before ++ "-" ++ last) name =
      (textContains before name || textContains last name) := by
  unfold textContains
  rw [← Bool.decide_or, String.toList_append, String.toList_append]
  exact decide_eq_decide.mpr (by simpa using infix_append_cons_iff hname)

/-- INTERNAL: the names that are looked for earlier have no hyphen, and are in none of the later
names. -/
theorem earlierNames_apart (architecture : Architecture) :
    ∀ name ∈ earlierNames architecture, '-' ∉ name.toList ∧
      ∀ last ∈ platformNames architecture, textContains last name = false := by
  cases architecture <;> decide

/-- **The cascade on a platform**: what it finds is what the platform is named after exactly if
it is not misled. -/
theorem platformArchitecture_named_iff (platform : String) :
    (∀ architecture, platformArchitecture platform = some architecture →
      IsPlatformOf platform architecture) ↔ ReadsPlainly platform := by
  constructor
  · intro hnamed
    cases hfound : platformArchitecture platform with
    | none => exact .inr (platformArchitecture_eq_none.mp hfound)
    | some architecture =>
      obtain ⟨before, last, rfl, hhyphen, hlast⟩ := hnamed architecture hfound
      refine .inl ⟨architecture, before, last, rfl, hhyphen, hlast, fun name hname => ?_⟩
      have hnot := (platformArchitecture_eq_some.mp hfound).2 name hname
      rw [textContains_hyphen (earlierNames_apart architecture name hname).1] at hnot
      exact (Bool.or_eq_false_iff.mp hnot).1
  · rintro (⟨architecture, before, last, rfl, hhyphen, hlast, hbefore⟩ | hnone) found hfound
    · -- the name after the hyphen is found, and no earlier one on either side of it
      have hown : textContains (before ++ "-" ++ last) last = true := by
        rw [textContains_hyphen hhyphen]
        exact Bool.or_eq_true_iff.mpr (.inr (decide_eq_true List.infix_rfl))
      have hearlier : ∀ name ∈ earlierNames architecture,
          textContains (before ++ "-" ++ last) name = false := by
        intro name hname
        obtain ⟨hapart, hnot⟩ := earlierNames_apart architecture name hname
        rw [textContains_hyphen hapart, hbefore name hname, hnot last hlast, Bool.false_or]
      have hsome := platformArchitecture_eq_some.mpr ⟨⟨last, hlast, hown⟩, hearlier⟩
      cases hsome.symm.trans hfound
      exact ⟨before, last, rfl, hhyphen, hlast⟩
    · cases (platformArchitecture_eq_none.mpr hnone).symm.trans hfound

example :
    ["linux-64", "osx-arm64", "win-32", "linux-s390x", "noarch"].map platformArchitecture =
        [some .x64, some .arm64, some .x86, none, none] ∧
      ["linux-ppc64le", "linux-riscv64", "emscripten-wasm32"].map platformArchitecture =
        [some .x64, some .x64, some .x86] := by decide

/-! ## Package files -/

/-- The platform of the package is one of the architecture, in any letter case. -/
def SubdirNames (pkg : CondaMetaPackage) (architecture : Architecture) : Prop :=
  ∃ subdir, pkg.subdir = some subdir ∧ IsPlatformOf (toAsciiLowercase subdir) architecture

/-- What is read of a package file. -/
theorem follows_readPackageJson {parser : PackageParser} {path fallbackVersion contents : String}
    {info : Option RCondaPackageInfo} :
    (readPackageJson parser path fallbackVersion).Follows [⟨.readToString path, some contents⟩]
        (.done info) ↔
      info = (parser.fromStr contents).map fun pkg =>
        ⟨pkg.version.getD fallbackVersion, parseArch pkg⟩ := by
  constructor
  · intro h
    cases h with
    | cons h => exact (follows_done h).2
  · rintro rfl
    exact .cons (.nil _)

/-- **When the platform of a package is read right**: the architecture that `read_package_json`
returns for a package whose `arch` names none is the one that its platform names, exactly if the
platform does not mislead the cascade. -/
theorem architecture_named_iff {parser : PackageParser} {contents : String}
    {pkg : CondaMetaPackage} (path fallbackVersion : String)
    (hpkg : parser.fromStr contents = some pkg) (hunrecognised : ArchUnrecognised pkg) :
    (∀ info, (readPackageJson parser path fallbackVersion).Follows
        [⟨.readToString path, some contents⟩] (.done (some info)) →
      ∀ architecture, info.arch = some architecture → SubdirNames pkg architecture) ↔
    ∀ subdir, pkg.subdir = some subdir → ReadsPlainly (toAsciiLowercase subdir) := by
  simp only [follows_readPackageJson, hpkg, Option.map_some, Option.some.injEq, forall_eq,
    parseArch_of_unrecognised hunrecognised, SubdirNames]
  cases pkg.subdir with
  | none => simp
  | some subdir =>
    simpa using platformArchitecture_named_iff (toAsciiLowercase subdir)

/-! ## Two platforms -/

/-- A package file that has only its platform. -/
def platformFile (subdir : String) : String := "\x7b\"subdir\":\"" ++ subdir ++ "\"\x7d"

/-- The package that such a file is parsed to. -/
def platformPackage (subdir : String) : CondaMetaPackage := ⟨none, some subdir, none⟩

/-- What is parsed of this file. -/
def platformParser (subdir : String) : PackageParser where
  isDecimal := Char.isDigit
  fromStr text := if text = platformFile subdir then some (platformPackage subdir) else none

/-- INTERNAL: the file is parsed. -/
theorem platformParser_fromStr (subdir : String) :
    (platformParser subdir).fromStr (platformFile subdir) = some (platformPackage subdir) :=
  if_pos rfl

/-- INTERNAL: there is no `arch`. -/
theorem platformPackage_unrecognised (subdir : String) :
    ArchUnrecognised (platformPackage subdir) := by
  intro arch harch
  cases harch

/-- INTERNAL: what is read of the file. -/
theorem platformParser_reads (subdir : String) :
    (readPackageJson (platformParser subdir) "r-base-4.4.1-0.json" "4.4.1").Follows
      [⟨.readToString "r-base-4.4.1-0.json", some (platformFile subdir)⟩]
      (.done (some ⟨"4.4.1", parseArch (platformPackage subdir)⟩)) := by
  rw [follows_readPackageJson, platformParser_fromStr]
  rfl

/-- The theorem for `linux-64`. -/
theorem architecture_named_linux64 : parseArch (platformPackage "linux-64") = some .x64 ∧
    SubdirNames (platformPackage "linux-64") .x64 := by
  have hfound : parseArch (platformPackage "linux-64") = some .x64 := by decide
  refine ⟨hfound, (architecture_named_iff _ _ (platformParser_fromStr "linux-64")
    (platformPackage_unrecognised "linux-64")).mpr ?_ _ (platformParser_reads "linux-64") _ hfound⟩
  rintro _ ⟨⟩
  exact .inl ⟨.x64, "linux", "64", by decide, by decide, by decide, by decide⟩

/-- A platform may be read as one of another architecture: `linux-ppc64le` as `X64`. -/
theorem not_architecture_named :
    ¬ ∀ (parser : PackageParser) (path fallbackVersion contents : String)
      (pkg : CondaMetaPackage), parser.fromStr contents = some pkg → ArchUnrecognised pkg →
      ∀ info, (readPackageJson parser path fallbackVersion).Follows
          [⟨.readToString path, some contents⟩] (.done (some info)) →
        ∀ architecture, info.arch = some architecture → SubdirNames pkg architecture := by
  intro h
  have hfound : parseArch (platformPackage "linux-ppc64le") = some .x64 := by decide
  obtain ⟨_, ⟨⟩, before, last, hparts, -, hlast⟩ := h _ _ _ _ _
    (platformParser_fromStr "linux-ppc64le") (platformPackage_unrecognised "linux-ppc64le")
    _ (platformParser_reads "linux-ppc64le") _ hfound
  obtain rfl := List.mem_singleton.mp hlast
  have hright : (before ++ "-" ++ "64").toList.getLast? = some '4' := by
    simp [String.toList_append, List.getLast?_append]
  rw [← hparts] at hright
  exact absurd hright (by decide)

end REnvTools.Analysis
