import REnvTools.Analysis.CondaState
import REnvTools.Analysis.GlobalLocators
import REnvTools.Analysis.Resolution
import REnvTools.Program.AllLocators

/-!
# What all locators make of an executable

Each locator is written on its own, and identification merges what they say. `Sound` is what is
asked of each of them: that it speaks of the executable it was asked about, and only of kinds that
it declares. `sound_of_mem_createLocators` goes through them all. From this comes what
identification gives, `identification_collects`.
-/

set_option autoImplicit false

namespace REnvTools.Analysis

open Lib Program Model

/-! ## What a locator says -/

/-- What may be said about an executable: an installation as the builder leaves it, which lists
the executable and is of one of these kinds. -/
structure Claims (os : Os) (executable : PathBuf) (categories : List RInstallationKind)
    (installation : RInstallation) : Prop where
  built : Built os installation
  listed : executable ∈ knownPaths installation
  kind : ∃ kind ∈ categories, installation.kind = some kind

/-- What the locators remember: Conda under each prefix an installation of it, the others under
each executable what may be said about it. -/
structure Remembers (os : Os) (state : LocatorsState) : Prop where
  environments : KeyedByPrefix state.environments
  spack : ∀ executable installation, state.spackReported executable = some installation →
    Claims os executable [.spack] installation
  linuxGlobal : ∀ executable installation,
    state.linuxGlobalReported executable = some installation →
      Claims os executable [.linuxGlobal] installation

/-- A locator speaks of the executable it was asked about, and its `find` and its `try_from` only
of the kinds that it declares. -/
structure Sound (platform : Platform) (locator : CreatedLocator) : Prop where
  tryFrom : ∀ (host : LocatorsHost) (state : LocatorsState) (env : REnv)
    (installation : RInstallation), Remembers (host.os platform) state →
      platform.normCase env.executable = env.executable →
      locator.tryFrom host state env = some installation →
      Claims (host.os platform) env.executable locator.supportedCategories installation
  found : ∀ (host : LocatorsHost), ∀ installation ∈ locator.found host,
    ∃ kind ∈ locator.supportedCategories, installation.kind = some kind

section Locators

variable {platform : Platform} (hnorm : ∀ path, platform.normCase (platform.normCase path) =
  platform.normCase path)

/-- INTERNAL: what the builder is given it lists. -/
theorem claims_build {os : Os} (h : NormIdempotent os) {b : RInstallationBuilder}
    {executable : PathBuf} {kind : RInstallationKind} {categories : List RInstallationKind}
    (hnormal : os.normCase executable = executable)
    (hlisted : executable ∈ b.knownExecutables.getD [] ++ b.executable.toList)
    (hkind : b.kind = some kind) (hmem : kind ∈ categories) :
    Claims os executable categories (b.build os) where
  built := built_build h b
  listed := by
    rw [knownPaths_build]
    exact mem_normalizePaths.mpr ⟨executable, hlisted, hnormal⟩
  kind := ⟨kind, hmem, hkind⟩

/-- INTERNAL: the executable that the builder is given it lists. -/
theorem claims_build_executable {os : Os} (h : NormIdempotent os) {b : RInstallationBuilder}
    {executable : PathBuf} {kind : RInstallationKind} {categories : List RInstallationKind}
    (hnormal : os.normCase executable = executable)
    (hexecutable : b.executable = some (os.normCase executable))
    (hkind : b.kind = some kind) (hmem : kind ∈ categories) :
    Claims os executable categories (b.build os) := by
  refine claims_build h hnormal (List.mem_append_right _ ?_) hkind hmem
  rw [hexecutable, hnormal]
  exact List.mem_singleton_self executable

include hnorm

/-- INTERNAL: the operating system normalises once. -/
theorem normIdempotent_os (host : GlobalHost) : NormIdempotent (host.os platform) := hnorm

/-- INTERNAL: the environment of a resolved executable is in normal form. -/
theorem normCase_toREnv (host : GlobalHost) (resolved : ResolvedRInstallation) :
    platform.normCase (resolved.toREnv (host.os platform)).executable =
      (resolved.toREnv (host.os platform)).executable :=
  hnorm resolved.executable

omit hnorm in
/-- INTERNAL: what a loop over executables reports. -/
theorem mem_foundAmong {host : LocatorsHost} {executables : List PathBuf} {tryFrom : Locator}
    {installation : RInstallation}
    (h : installation ∈ foundAmong platform host executables tryFrom) :
    ∃ resolved : ResolvedRInstallation,
      tryFrom (resolved.toREnv (host.os platform)) = some installation := by
  obtain ⟨executable, -, h⟩ := List.mem_filterMap.mp h
  obtain ⟨resolved, -, h⟩ := Option.bind_eq_some_iff.mp h
  exact ⟨resolved, h⟩

/-- A locator that remembers nothing is sound if its `try_from` is. -/
theorem sound_plainCreated {kind : LocatorKind} {category : RInstallationKind}
    {tryFrom : InstallerHost → Locator} {executables : InstallerHost → List PathBuf}
    (h : ∀ (host : InstallerHost) (env : REnv) (installation : RInstallation),
      platform.normCase env.executable = env.executable →
      tryFrom host env = some installation →
      Claims (host.os platform) env.executable [category] installation) :
    Sound platform (plainCreated platform kind category tryFrom executables) where
  tryFrom host _ env installation _ hnormal hclaim := h host.toInstallerHost env installation
    hnormal hclaim
  found host installation hfound := by
    obtain ⟨resolved, hclaim⟩ := mem_foundAmong hfound
    exact (h host.toInstallerHost _ installation (normCase_toREnv hnorm _ resolved) hclaim).kind

/-- INTERNAL: what most locators build. -/
theorem claims_environmentInstallation (host : InstallerHost) {env : REnv}
    (hnormal : platform.normCase env.executable = env.executable) (kind : RInstallationKind)
    (displayName : String) (manager : Option EnvManager) (orthogonal : Option Bool)
    (home : PathBuf) :
    Claims (host.os platform) env.executable [kind]
      (environmentInstallation platform host kind displayName manager orthogonal env home) :=
  claims_build_executable (normIdempotent_os hnorm host.toGlobalHost) hnormal rfl rfl
    List.mem_cons_self

/-- INTERNAL: what Homebrew and the framework build. -/
theorem claims_extendedInstallation (host : InstallerHost) {env : REnv}
    (hnormal : platform.normCase env.executable = env.executable) (kind : RInstallationKind)
    (displayName : String) (manager : Option EnvManager) (extraExecutables : List PathBuf)
    (version : Option String) (arch : Architecture) (home : PathBuf) :
    Claims (host.os platform) env.executable [kind]
      (extendedInstallation platform host kind displayName manager extraExecutables version arch
        env home) :=
  claims_build_executable (normIdempotent_os hnorm host.toGlobalHost) hnormal rfl rfl
    List.mem_cons_self

/-- INTERNAL: what the locators of package managers build. -/
theorem claims_packageManagerInstallation (host : GlobalHost) {env : REnv}
    (hnormal : platform.normCase env.executable = env.executable) (kind : RInstallationKind)
    (displayName : String) (manager : Option EnvManager)
    (executable resolvedExecutable home : PathBuf) :
    Claims (host.os platform) env.executable [kind]
      (packageManagerInstallation platform host kind displayName manager env executable
        resolvedExecutable home) := by
  refine claims_build (normIdempotent_os hnorm host) hnormal (List.mem_append_left _ ?_) rfl
    List.mem_cons_self
  refine mem_normalizePaths.mpr ⟨env.executable, List.mem_append_right _ ?_, hnormal⟩
  exact List.mem_append_left _ List.mem_cons_self

/-! ### On Windows -/

/-- The locator of the Windows registry is sound. -/
theorem sound_registryCreated : Sound platform (registryCreated platform) := by
  have hclaim : ∀ (host : InstallerHost) (env : REnv) (installation : RInstallation),
      platform.normCase env.executable = env.executable →
      registryInstallationFromEnv platform host env = some installation →
      Claims (host.os platform) env.executable [.windowsRegistry] installation := by
    intro host env installation hnormal h
    obtain ⟨home, -, rfl⟩ := Option.map_eq_some_iff.mp h
    exact claims_environmentInstallation hnorm host hnormal _ _ _ _ home
  constructor
  case tryFrom =>
    intro host _ env installation _ hnormal h
    replace h : registryTryFrom platform host.toInstallerHost env = some installation := h
    unfold registryTryFrom at h
    split at h
    · cases h
    · dsimp only at h
      split at h
      · exact hclaim _ env installation hnormal h
      · cases h
  case found =>
    intro host installation hfound
    obtain ⟨resolved, h⟩ := mem_foundAmong hfound
    exact (hclaim _ _ _ (normCase_toREnv hnorm _ resolved) h).kind

/-- The locator of the directories in which Windows installers put R is sound. -/
theorem sound_windowsHqCreated (environment : InstallerHost) :
    Sound platform (windowsHqCreated platform environment) := by
  unfold windowsHqCreated
  refine sound_plainCreated hnorm fun host env installation hnormal h => ?_
  simp only [windowsHqTryFrom, Option.ite_none_left_eq_some, Option.bind_eq_some_iff,
    Option.ite_none_right_eq_some, Option.some.injEq] at h
  obtain ⟨-, -, -, home, -, -, rfl⟩ := h
  exact claims_environmentInstallation hnorm host hnormal _ _ _ _ home

/-- The locator of Scoop is sound. -/
theorem sound_scoopCreated (environment : InstallerHost) :
    Sound platform (scoopCreated platform environment) := by
  unfold scoopCreated
  refine sound_plainCreated hnorm fun host env installation hnormal h => ?_
  simp only [scoopTryFrom, Option.ite_none_left_eq_some, Option.bind_eq_some_iff,
    Option.ite_none_right_eq_some, Option.some.injEq] at h
  obtain ⟨-, -, -, home, -, -, rfl⟩ := h
  exact claims_environmentInstallation hnorm host hnormal _ _ _ _ home

/-- The locator of Chocolatey is sound. -/
theorem sound_chocolateyCreated (environment : InstallerHost) :
    Sound platform (chocolateyCreated platform environment) := by
  unfold chocolateyCreated
  refine sound_plainCreated hnorm fun host env installation hnormal h => ?_
  simp only [chocolateyTryFrom, Option.ite_none_left_eq_some, Option.bind_eq_some_iff,
    Option.ite_none_right_eq_some, Option.some.injEq] at h
  obtain ⟨-, -, -, home, -, root, -, -, rfl⟩ := h
  exact claims_environmentInstallation hnorm host hnormal _ _ _ _ home

/-! ### Everywhere -/

/-- The locator of Pixi is sound. -/
theorem sound_pixiCreated (environment : InstallerHost) :
    Sound platform (pixiCreated platform environment) := by
  have hclaim : ∀ (host : LocatorsHost) (env : REnv) (installation : RInstallation),
      platform.normCase env.executable = env.executable →
      pixiTryFrom (host.pixi platform) env = some installation →
      Claims (host.os platform) env.executable [.pixi] installation := by
    intro host env installation hnormal h
    simp only [pixiTryFrom, Option.bind_eq_bind, Option.bind_eq_some_iff,
      Option.ite_none_left_eq_some, Option.some.injEq] at h
    obtain ⟨version, -, pixiPrefix, -, -, rfl⟩ := h
    exact claims_build_executable (normIdempotent_os hnorm host.toGlobalHost) hnormal rfl rfl
      List.mem_cons_self
  constructor
  case tryFrom => exact fun host _ env installation _ => hclaim host env installation
  case found =>
    intro host installation hfound
    obtain ⟨resolved, h⟩ := mem_foundAmong hfound
    exact (hclaim host _ _ (normCase_toREnv hnorm _ resolved) h).kind

/-- The locator of Conda is sound. -/
theorem sound_condaCreated : Sound platform (condaCreated platform) := by
  constructor
  case tryFrom =>
    intro host state env installation hstate hnormal h
    replace h : (condaTryFrom (host.conda platform) state.environments env).1 =
      some installation := h
    rw [condaTryFrom_eq] at h
    have hidempotent := normIdempotent_os hnorm host.toGlobalHost
    split at h
    · cases h
    · rename_i condaPrefix _
      split at h
      · rename_i known hknown
        cases Option.some.inj h
        exact claims_build_executable hidempotent hnormal rfl
          (hstate.environments _ _ hknown).1 List.mem_cons_self
      · split at h
        · cases h
        · rename_i identified hidentified
          cases Option.some.inj h
          have hkind := (describes_of_identifyPrefix hidentified).1
          unfold identifyPrefix at hidentified
          split at hidentified
          · cases hidentified
            exact claims_build_executable hidempotent hnormal rfl hkind List.mem_cons_self
          · split at hidentified
            · cases hidentified
            · obtain ⟨resolved, hresolved, rfl⟩ := Option.map_eq_some_iff.mp hidentified
              obtain ⟨runtime, -, rfl⟩ := Option.map_eq_some_iff.mp hresolved
              refine claims_build_executable hidempotent hnormal ?_ hkind List.mem_cons_self
              exact congrArg some (hnorm env.executable)
  case found =>
    intro host installation hfound
    obtain ⟨condaPrefix, -, h⟩ := List.mem_filterMap.mp hfound
    exact ⟨.conda, List.mem_cons_self, (describes_of_buildPrefix h).1⟩

/-- The locator of rig is sound, whether it is configured or not. -/
theorem sound_rigCreated (environment : InstallerHost) (configured : Option (Option PathBuf)) :
    Sound platform (rigCreated platform environment configured) := by
  unfold rigCreated
  refine sound_plainCreated hnorm fun host env installation hnormal h => ?_
  simp only [rigTryFrom, Option.bind_eq_some_iff, Option.ite_none_left_eq_some,
    Option.some.injEq] at h
  obtain ⟨home, -, -, rfl⟩ := h
  exact claims_environmentInstallation hnorm host hnormal _ _ _ _ home

/-! ### On Unix -/

/-- The locator of Homebrew is sound. -/
theorem sound_homebrewCreated (environment : InstallerHost) :
    Sound platform (homebrewCreated platform environment) := by
  unfold homebrewCreated
  refine sound_plainCreated hnorm fun host env installation hnormal h => ?_
  simp only [homebrewTryFrom, Option.ite_none_left_eq_some, Option.bind_eq_some_iff,
    Option.some.injEq] at h
  obtain ⟨-, home, -, -, rfl⟩ := h
  exact claims_extendedInstallation hnorm host hnormal _ _ _ _ _ _ home

/-- The locators of Nix and Guix are sound. -/
theorem sound_profileCreated (kind : LocatorKind) (locator : ProfileLocator) :
    Sound platform (profileCreated platform kind locator) := by
  unfold profileCreated
  refine sound_plainCreated hnorm fun host env installation hnormal h => ?_
  obtain ⟨home, -, rfl⟩ := profileTryFrom_eq_some h
  exact claims_packageManagerInstallation hnorm host.toGlobalHost hnormal _ _ _ _ _ home

/-- The locator of Spack is sound. -/
theorem sound_spackCreated (locator : SpackLocator) :
    Sound platform (spackCreated platform locator) := by
  have hclaim : ∀ (host : GlobalHost) (env : REnv) (installation : RInstallation),
      platform.normCase env.executable = env.executable →
      spackInstallationFromEnv platform host locator env = some installation →
      Claims (host.os platform) env.executable [.spack] installation := by
    intro host env installation hnormal h
    obtain ⟨home, -, rfl⟩ := spackInstallationFromEnv_eq_some h
    exact claims_packageManagerInstallation hnorm host hnormal _ _ _ _ _ home
  constructor
  case tryFrom =>
    intro host state env installation hstate hnormal h
    replace h : spackTryFrom platform host.toGlobalHost locator
      (state.spackReported env.executable) env = some installation := h
    simp only [spackTryFrom, Option.ite_none_left_eq_some, Option.bind_eq_some_iff] at h
    obtain ⟨-, -, -, h⟩ := h
    obtain hstored | ⟨-, h⟩ := Option.or_eq_some_iff.mp h
    · exact hstate.spack _ _ hstored
    · simp only [Option.bind_eq_some_iff, Option.ite_none_right_eq_some] at h
      obtain ⟨home, -, -, h⟩ := h
      exact hclaim _ env installation hnormal h
  case found =>
    intro host installation hfound
    obtain ⟨resolved, h⟩ := mem_foundAmong hfound
    exact (hclaim _ _ _ (normCase_toREnv hnorm _ resolved) h).kind

omit hnorm in
/-- INTERNAL: the kinds of the r-versions file are declared. -/
theorem mem_rversions_categories (host : ActivationHost) (executable home : PathBuf) :
    inferKind host executable home ∈ (rversionsCreated platform).supportedCategories := by
  unfold inferKind
  split <;> simp [rversionsCreated]

/-- The locator of `r-versions` is sound. -/
theorem sound_rversionsCreated : Sound platform (rversionsCreated platform) := by
  constructor
  case tryFrom =>
    intro host state env installation _ hnormal h
    replace h : rversionsTryFrom (host.activation platform) state.rversionsEntries env =
      some installation := h
    simp only [rversionsTryFrom, Option.ite_none_left_eq_some, Option.map_eq_some_iff] at h
    obtain ⟨-, entry, -, rfl⟩ := h
    exact claims_build_executable (normIdempotent_os hnorm host.toGlobalHost) hnormal rfl rfl
      (mem_rversions_categories _ _ _)
  case found =>
    intro host installation hfound
    replace hfound : installation ∈ rversionsFind (host.activation platform)
      (loadedEntries platform host) := hfound
    unfold rversionsFind at hfound
    split at hfound
    · cases hfound
    · obtain ⟨entry, -, rfl⟩ := List.mem_map.mp hfound
      exact ⟨_, mem_rversions_categories _ _ _, rfl⟩

omit hnorm in
/-- INTERNAL: what the `module` command provides is of its kind. -/
theorem kind_of_mem_moduleFind {host : ActivationHost} {locator : EnvironmentModule}
    {listing : PathBuf → Option (List Char)} {installation : RInstallation}
    (h : .installation installation ∈ moduleFind host locator listing) :
    installation.kind = some .environmentModule := by
  unfold moduleFind at h
  split at h
  · cases h
  · split at h
    · cases h
    · obtain ⟨moduleName, -, h⟩ := List.mem_flatMap.mp h
      unfold reportModule at h
      dsimp only at h
      split at h
      · cases h
      · split at h
        · cases h
        · rename_i built hbuilt
          obtain h | h := List.mem_append.mp h
          · obtain ⟨manager, -, hmanager⟩ := Option.map_eq_some_iff.mp (Option.mem_toList.mp h)
            cases hmanager
          · cases List.mem_singleton.mp h
            cases hbuilt
            rfl

/-- The locator of environment modules is sound. -/
theorem sound_moduleCreated (locator : EnvironmentModule) :
    Sound platform (moduleCreated platform locator) := by
  constructor
  case tryFrom =>
    intro host _ env installation _ hnormal h
    replace h : moduleTryFrom (host.activation platform) locator env = some installation := h
    unfold moduleTryFrom at h
    split at h
    · cases h
    · split at h
      · cases h
      · split at h
        · unfold installationFromEnv at h
          split at h
          · cases Option.some.inj h
            exact claims_build_executable (normIdempotent_os hnorm host.toGlobalHost) hnormal
              rfl rfl List.mem_cons_self
          · cases h
        · cases h
  case found =>
    intro host installation hfound
    obtain ⟨message, hmessage, h⟩ := List.mem_filterMap.mp hfound
    refine ⟨.environmentModule, List.mem_cons_self, ?_⟩
    cases message with
    | manager => cases h
    | installation found =>
      cases Option.some.inj h
      exact kind_of_mem_moduleFind hmessage

/-! ### On macOS, and on Linux -/

/-- The locator of MacPorts is sound. -/
theorem sound_macPortsCreated (environment : InstallerHost) :
    Sound platform (macPortsCreated platform environment) := by
  unfold macPortsCreated
  refine sound_plainCreated hnorm fun host env installation hnormal h => ?_
  simp only [macPortsTryFrom, Option.ite_none_left_eq_some, Option.bind_eq_some_iff,
    Option.some.injEq] at h
  obtain ⟨-, -, -, home, -, -, rfl⟩ := h
  exact claims_environmentInstallation hnorm host hnormal _ _ _ _ home

/-- The locator of the frameworks is sound. -/
theorem sound_macFrameworkCreated (environment : InstallerHost) :
    Sound platform (macFrameworkCreated platform environment) := by
  unfold macFrameworkCreated
  refine sound_plainCreated hnorm fun host env installation hnormal h => ?_
  simp only [macFrameworkTryFrom, Option.ite_none_left_eq_some, Option.bind_eq_some_iff,
    Option.map_eq_some_iff] at h
  obtain ⟨-, home, -, -, versions, -, rfl⟩ := h
  exact claims_extendedInstallation hnorm host hnormal _ _ _ _ _ _ home

/-- The locator of the global directories is sound. -/
theorem sound_linuxGlobalCreated : Sound platform (linuxGlobalCreated platform) := by
  constructor
  case tryFrom =>
    intro host state env installation hstate hnormal h
    replace h : linuxGlobalTryFrom platform host.toGlobalHost
      (state.linuxGlobalReported env.executable) env = some installation := h
    simp only [linuxGlobalTryFrom, Option.ite_none_left_eq_some, Option.bind_eq_some_iff] at h
    obtain ⟨-, -, -, parent, -, -, h⟩ := h
    obtain hstored | ⟨-, h⟩ := Option.or_eq_some_iff.mp h
    · exact hstate.linuxGlobal _ _ hstored
    · cases Option.some.inj h
      exact claims_build_executable (normIdempotent_os hnorm host.toGlobalHost) hnormal rfl rfl
        List.mem_cons_self
  case found =>
    intro host installation hfound
    obtain ⟨executable, -, h⟩ := List.mem_filterMap.mp hfound
    obtain ⟨resolved, -, rfl⟩ := Option.map_eq_some_iff.mp h
    exact ⟨.linuxGlobal, List.mem_cons_self, rfl⟩

/-- **All locators are sound.** -/
theorem sound_of_mem_createLocators {environment : LocatorsHost}
    {rigConfigured : Option (Option PathBuf)} {locator : CreatedLocator}
    (h : locator ∈ createLocators platform environment rigConfigured) :
    Sound platform locator := by
  have hand : ∀ {condition : Bool} {locators : List CreatedLocator},
      locator ∈ (if condition then locators else []) → locator ∈ locators := by
    intro condition locators h
    split at h
    · exact h
    · cases h
  have hunless : ∀ {condition : Bool} {locators : List CreatedLocator},
      locator ∈ (if condition then [] else locators) → locator ∈ locators := by
    intro condition locators h
    split at h
    · cases h
    · exact h
  simp only [createLocators, List.mem_append] at h
  obtain (((h | h) | h) | h) | h := h
  case inl.inl.inl.inl =>
    have hwindows := hand h
    simp only [List.mem_cons, List.not_mem_nil, or_false] at hwindows
    obtain rfl | rfl | rfl | rfl := hwindows
    · exact sound_registryCreated hnorm
    · exact sound_windowsHqCreated hnorm _
    · exact sound_scoopCreated hnorm _
    · exact sound_chocolateyCreated hnorm _
  case inl.inl.inl.inr =>
    simp only [List.mem_cons, List.not_mem_nil, or_false] at h
    obtain rfl | rfl | rfl := h
    · exact sound_pixiCreated hnorm _
    · exact sound_condaCreated hnorm
    · exact sound_rigCreated hnorm _ _
  case inl.inl.inr =>
    have hunix := hunless h
    simp only [List.mem_cons, List.not_mem_nil, or_false] at hunix
    obtain rfl | rfl | rfl | rfl | rfl | rfl := hunix
    · exact sound_homebrewCreated hnorm _
    · exact sound_profileCreated hnorm _ _
    · exact sound_profileCreated hnorm _ _
    · exact sound_spackCreated hnorm _
    · exact sound_rversionsCreated hnorm
    · exact sound_moduleCreated hnorm _
  case inl.inr =>
    have hmacos := hand h
    simp only [List.mem_cons, List.not_mem_nil, or_false] at hmacos
    obtain rfl | rfl := hmacos
    · exact sound_macPortsCreated hnorm _
    · exact sound_macFrameworkCreated hnorm _
  case inr =>
    have hlinux := hunless h
    rw [List.mem_singleton] at hlinux
    subst hlinux
    exact sound_linuxGlobalCreated hnorm

end Locators

/-! ## What the locators remember -/

/-- The maps of the locators, each at some moment of the calls that are under way on it. -/
structure Reached (platform : Platform) (environment : LocatorsHost) (hosts : Set GlobalHost)
    (state : LocatorsState) : Prop where
  environments : ∃ s, condaLocator.Reachable s ∧ state.environments = s.shared.environments
  spack : ∃ s : GlobalState, ((spackLocator platform (spack platform
    environment.toGlobalHost)).discovery platform hosts).system.Reachable s ∧
      state.spackReported = s.shared.entries
  linuxGlobal : ∃ s : GlobalState,
    ((linuxGlobalLocator platform).discovery platform hosts).system.Reachable s ∧
      state.linuxGlobalReported = s.shared.entries

section Remembered

variable {platform : Platform} {hosts : Set GlobalHost} {locator : GlobalLocator}

/-- INTERNAL: what a locator of global installations has in its map. -/
theorem claims_of_entry (host : GlobalHost)
    (hinstallation : ∀ (finder : GlobalHost) (resolved : ResolvedRInstallation)
      (installation : RInstallation), locator.installationOf finder resolved = some installation →
      ∃ executable, Claims (finder.os platform) executable [locator.kind] installation)
    {s : GlobalState} (h : (locator.discovery platform hosts).system.Reachable s)
    {executable : PathBuf} {installation : RInstallation}
    (hentry : s.shared.entries executable = some installation) :
    Claims (host.os platform) executable [locator.kind] installation := by
  obtain ⟨i, t, insertion, ht, hmem, -, rfl, hkey⟩ := Discovery.entry_inserted h hentry
  obtain ⟨-, ⟨finder, -, hanswer⟩, -⟩ := Discovery.insertion_probed h ht hmem
  obtain ⟨resolved, -, hmade⟩ := Option.bind_eq_some_iff.mp hanswer.symm
  obtain ⟨other, hclaims⟩ := hinstallation finder resolved insertion.record hmade
  replace hkey : executable ∈ insertedEntries insertion.record := hkey
  rw [insertedEntries_of_mem hclaims.listed] at hkey
  exact ⟨hclaims.built, hkey, hclaims.kind⟩

/-- **What the locators remember may be said.** -/
theorem Reached.remembers (hnorm : ∀ path, platform.normCase (platform.normCase path) =
      platform.normCase path) {environment : LocatorsHost} {state : LocatorsState}
    (h : Reached platform environment hosts state) (host : GlobalHost) :
    Remembers (host.os platform) state where
  environments := by
    obtain ⟨s, hs, henvironments⟩ := h.environments
    rw [henvironments]
    exact (conda_describes hs).1
  spack := by
    intro executable installation hentry
    obtain ⟨s, hs, hreported⟩ := h.spack
    rw [hreported] at hentry
    refine claims_of_entry host (fun finder resolved installation hmade => ?_) hs hentry
    replace hmade : spackInstallationFromEnv platform finder
      (Program.spack platform environment.toGlobalHost)
      (resolved.toREnv (finder.os platform)) = some installation := hmade
    obtain ⟨home, -, rfl⟩ := spackInstallationFromEnv_eq_some hmade
    exact ⟨_, claims_packageManagerInstallation hnorm finder (normCase_toREnv hnorm finder resolved)
      _ _ _ _ _ home⟩
  linuxGlobal := by
    intro executable installation hentry
    obtain ⟨s, hs, hreported⟩ := h.linuxGlobal
    rw [hreported] at hentry
    refine claims_of_entry host (fun finder resolved installation hmade => ?_) hs hentry
    cases Option.some.inj hmade
    exact ⟨_, claims_build_executable (normIdempotent_os hnorm finder)
      (normCase_toREnv hnorm finder resolved) rfl rfl List.mem_cons_self⟩

end Remembered

/-! ## Identification -/

/-- What the locators say about an environment. -/
def claimsOn (locators : List CreatedLocator) (host : LocatorsHost) (state : LocatorsState)
    (env : REnv) : List RInstallation :=
  locators.filterMap fun locator => locator.tryFrom host state env

/-- The `try_from` of each locator. -/
def tryFroms (locators : List CreatedLocator) (host : LocatorsHost) (state : LocatorsState) :
    List Locator :=
  locators.map fun locator => locator.tryFrom host state

/-- An installation that is put together from these: its collections are theirs, and its kind is
that of one of them. -/
structure Collects (claims : List RInstallation) (installation : RInstallation) : Prop where
  known : ∀ path, path ∈ knownPaths installation ↔ ∃ claim ∈ claims, path ∈ knownPaths claim
  symlinks : ∀ path, path ∈ symlinkPaths installation ↔
    ∃ claim ∈ claims, path ∈ symlinkPaths claim
  sources : ∀ source, source ∈ installation.discoveredBy ↔
    ∃ claim ∈ claims, source ∈ claim.discoveredBy
  kind : ∃ claim ∈ claims, installation.kind = claim.kind

section Identification

variable {os : Os}

/-- INTERNAL: what a fold collects, if the operation does. -/
theorem foldl_collects {α : Type} {op : α → α → α} {Q M : α → Prop}
    (hQ : ∀ a b, Q a → Q b → Q (op a b))
    (hM : ∀ a b, Q a → Q b → (M (op a b) ↔ M a ∨ M b)) {l : List α} :
    ∀ {a : α}, (∀ b ∈ a :: l, Q b) → Q (l.foldl op a) ∧ (M (l.foldl op a) ↔ ∃ b ∈ a :: l, M b) := by
  induction l with
  | nil =>
    intro a ha
    exact ⟨ha a List.mem_cons_self, by simp⟩
  | cons b l ih =>
    intro a hall
    simp only [List.forall_mem_cons] at hall
    obtain ⟨ha, hb, hl⟩ := hall
    obtain ⟨hQ', hM'⟩ := ih (List.forall_mem_cons.mpr ⟨hQ a b ha hb, hl⟩)
    refine ⟨hQ', hM'.trans ?_⟩
    simp only [List.exists_mem_cons_iff, hM a b ha hb, or_assoc]

/-- What identification makes of what the locators say. -/
theorem collects_of_identify (h : NormIdempotent os) {locators : List Locator} {env : REnv}
    (hbuilt : ∀ claim ∈ locators.filterMap (· env), Built os claim) {installation : RInstallation}
    (hidentified : identifyInstallationWithoutResolution os locators env = some installation) :
    Built os installation ∧ Collects (locators.filterMap (· env)) installation := by
  unfold identifyInstallationWithoutResolution at hidentified
  generalize locators.filterMap (· env) = claims at hbuilt hidentified
  cases claims with
  | nil => cases hidentified
  | cons first claims =>
    cases Option.some.inj hidentified
    have hcollects : ∀ M : RInstallation → Prop,
        (∀ a b, Built os a → Built os b → (M (mergeInstallations os a b) ↔ M a ∨ M b)) →
        (M (claims.foldl (mergeInstallations os) first) ↔ ∃ claim ∈ first :: claims, M claim) :=
      fun M hM => (foldl_collects (fun _ _ _ _ => built_merge h) hM hbuilt).2
    refine ⟨(foldl_collects (M := fun _ => True) (fun _ _ _ _ => built_merge h) (by simp)
      hbuilt).1, ?_, ?_, ?_, ?_⟩
    · exact fun path => hcollects (path ∈ knownPaths ·) fun a b ha hb =>
        mem_knownPaths_merge h ha hb path
    · exact fun path => hcollects (path ∈ symlinkPaths ·) fun a b ha hb =>
        mem_symlinkPaths_merge h ha hb path
    · exact fun source => hcollects (source ∈ RInstallation.discoveredBy ·) fun a b ha hb =>
        mem_discoveredBy_merge ha hb source
    · clear hidentified hcollects hbuilt
      induction claims generalizing first with
      | nil => exact ⟨first, List.mem_cons_self, rfl⟩
      | cons second claims ih =>
        obtain ⟨claim, hclaim, hkind⟩ := ih (mergeInstallations os first second)
        obtain rfl | hclaim := List.mem_cons.mp hclaim
        · obtain hfirst | hsecond := kind_merge_cases os first second
          · exact ⟨first, List.mem_cons_self, hkind.trans hfirst⟩
          · exact ⟨second, List.mem_cons_of_mem _ List.mem_cons_self, hkind.trans hsecond⟩
        · exact ⟨claim, List.mem_cons_of_mem _ (List.mem_cons_of_mem _ hclaim), hkind⟩

/-- INTERNAL: what is recorded of the runtime comes on top of what the locators say. -/
theorem mem_knownPaths_mergeResolved (h : NormIdempotent os) {installation : RInstallation}
    (hbuilt : Built os installation) {resolved : ResolvedRInstallation}
    (hnormal : ∀ path ∈ resolved.executable :: resolved.knownExecutables.getD [],
      os.normCase path = path) (path : PathBuf) :
    path ∈ knownPaths (markLocatorDiscovery os
        (mergeResolvedInstallation os installation resolved)) ↔
      path ∈ knownPaths installation ∨
        path ∈ resolved.executable :: resolved.knownExecutables.getD [] := by
  have hagree : AgreeExceptDiscovery
      (markLocatorDiscovery os (mergeResolvedInstallation os installation resolved))
      (mergeResolvedInstallation os installation resolved) := agree_markLocatorDiscovery h _
  have hmark : knownPaths (markLocatorDiscovery os
      (mergeResolvedInstallation os installation resolved)) =
        knownPaths (mergeResolvedInstallation os installation resolved) := by
    have hfields := congrArg knownPaths hagree
    exact hfields
  rw [hmark]
  unfold mergeResolvedInstallation
  rw [knownPaths_build]
  show path ∈ normalizePaths os (normalizePaths os (sortDedup (knownPaths installation ++
    [resolved.executable] ++ resolved.knownExecutables.getD [])) ++
      [os.normCase resolved.executable]) ↔ _
  rw [List.append_assoc]
  refine mem_normalized_union h (fun p hp => normCase_of_mem_knownPaths h hbuilt hp) hnormal ?_ path
  intro p hp
  rw [List.mem_singleton.mp hp, h]
  exact .inr ((hnormal _ List.mem_cons_self).symm ▸ List.mem_cons_self)

end Identification

/-- The claims that identification keeps: those on the environment of the runtime, or else those
on the environment that it was asked about. -/
def keptClaims (locators : List CreatedLocator) (host : LocatorsHost) (state : LocatorsState)
    (resolvedEnv env : REnv) : List RInstallation :=
  if claimsOn locators host state resolvedEnv = [] then claimsOn locators host state env
  else claimsOn locators host state resolvedEnv

/-- What identification makes of a runtime: the runtime's own executable, home, version and
architecture, the executables that it or the locators know, and the kind of one of the claims, or
what the directory of the executable says if there are none. -/
structure IdentifiedAs (os : Os) (claims : List RInstallation) (resolved : ResolvedRInstallation)
    (globalSearchPaths : List PathBuf) (installation : RInstallation) : Prop where
  built : Built os installation
  executable : installation.executable = some resolved.executable
  home : installation.home = some resolved.home
  version : installation.version = some resolved.version
  arch : installation.arch = some resolved.arch
  known : ∀ path, path ∈ knownPaths installation ↔
    (∃ claim ∈ claims, path ∈ knownPaths claim) ∨
      path ∈ resolved.executable :: resolved.knownExecutables.getD []
  claimed : claims ≠ [] → ∃ claim ∈ claims, installation.kind = claim.kind
  unclaimed : claims = [] → installation.kind = inferFallbackKind resolved globalSearchPaths

section Identified

variable {platform : Platform} (hnorm : ∀ path, platform.normCase (platform.normCase path) =
  platform.normCase path) {host : LocatorsHost} {resolved : ResolvedRInstallation}

include hnorm

/-- INTERNAL: a resolved runtime is in normal form. -/
theorem normCase_of_resolvedFrom {executable : PathBuf}
    (h : host.resolvedFrom platform executable = some resolved) :
    resolved.executable = platform.normCase executable ∧
      platform.normCase resolved.home = resolved.home ∧
      ∀ path ∈ resolved.executable :: resolved.knownExecutables.getD [],
        platform.normCase path = path := by
  obtain ⟨runtime, -, rfl⟩ := Option.map_eq_some_iff.mp h
  refine ⟨rfl, ?_, fun path hpath => ?_⟩
  · show platform.normCase (if platform.windows then _ else _) = if platform.windows then _ else _
    split
    · exact hnorm _
    · exact hnorm _
  · obtain rfl | hpath := List.mem_cons.mp hpath
    · exact hnorm executable
    · exact normCase_of_mem_normalizePaths (normIdempotent_os hnorm host.toGlobalHost) hpath

/-- INTERNAL: what is identified from claims. -/
theorem identifiedAs_of_collects {executable : PathBuf}
    (h : host.resolvedFrom platform executable = some resolved) {claims : List RInstallation}
    {globalSearchPaths : List PathBuf} {installation : RInstallation}
    (hbuilt : Built (host.os platform) installation) (hcollects : Collects claims installation) :
    IdentifiedAs (host.os platform) claims resolved globalSearchPaths
      (markLocatorDiscovery (host.os platform)
        (mergeResolvedInstallation (host.os platform) installation resolved)) := by
  have hidempotent := normIdempotent_os hnorm host.toGlobalHost
  obtain ⟨-, hhome, hnormal⟩ := normCase_of_resolvedFrom hnorm h
  refine ⟨built_build hidempotent _, congrArg some (hnormal _ List.mem_cons_self),
    congrArg some hhome, rfl, rfl, fun path => ?_, fun _ => hcollects.kind, fun hnone => ?_⟩
  · rw [mem_knownPaths_mergeResolved hidempotent hbuilt hnormal, hcollects.known]
  · obtain ⟨claim, hclaim, -⟩ := hcollects.kind
    rw [hnone] at hclaim
    cases hclaim

omit hnorm in
/-- INTERNAL: paths in normal form are left as they are. -/
theorem mem_normalizePaths_of_normal {os : Os} {paths : List PathBuf}
    (h : ∀ path ∈ paths, os.normCase path = path) (path : PathBuf) :
    path ∈ normalizePaths os paths ↔ path ∈ paths := by
  have happend : path ∈ normalizePaths os (paths ++ []) ↔ _ := mem_normalizePaths_append h
  simpa using happend

/-- INTERNAL: what is identified without claims. -/
theorem identifiedAs_unknown {executable : PathBuf}
    (h : host.resolvedFrom platform executable = some resolved)
    (globalSearchPaths : List PathBuf) :
    IdentifiedAs (host.os platform) [] resolved globalSearchPaths
      (createUnknownInstallation (host.os platform) resolved
        (inferFallbackKind resolved globalSearchPaths)) := by
  have hidempotent := normIdempotent_os hnorm host.toGlobalHost
  obtain ⟨-, hhome, hnormal⟩ := normCase_of_resolvedFrom hnorm h
  refine ⟨built_build hidempotent _, congrArg some (hnormal _ List.mem_cons_self),
    congrArg some hhome, rfl, rfl, fun path => ?_, fun hsome => absurd rfl hsome, fun _ => rfl⟩
  have hlist : ∀ q, q ∈ (resolved.knownExecutables.map
      (normalizePaths (host.os platform))).getD [] ↔ q ∈ resolved.knownExecutables.getD [] := by
    intro q
    cases hknown : resolved.knownExecutables with
    | none => rfl
    | some paths =>
      rw [hknown] at hnormal
      exact mem_normalizePaths_of_normal (fun p hp => hnormal p (List.mem_cons_of_mem _ hp)) q
  unfold createUnknownInstallation
  rw [knownPaths_build]
  show path ∈ normalizePaths (host.os platform)
    ((resolved.knownExecutables.map (normalizePaths (host.os platform))).getD [] ++
      [platform.normCase resolved.executable]) ↔ _
  have hagain : platform.normCase (platform.normCase resolved.executable) =
      resolved.executable := (hnorm _).trans (hnormal _ List.mem_cons_self)
  have hmore : (∃ q ∈ [platform.normCase resolved.executable],
      (host.os platform).normCase q = path) ↔ path = resolved.executable := by
    constructor
    · rintro ⟨q, hq, rfl⟩
      rw [List.mem_singleton.mp hq]
      exact hagain
    · rintro rfl
      exact ⟨_, List.mem_singleton_self _, hagain⟩
  rw [mem_normalizePaths_append fun q hq =>
    hnormal q (List.mem_cons_of_mem _ ((hlist q).mp hq)), hlist, hmore, or_comm, List.mem_cons]
  simp

end Identified

/-- **Identification collects what the locators say.** Take any moment of the calls that are under
way on the locators, and an executable whose path is in normal form. What is identified without
resolution lists the executable, is as the builder leaves it, and is of a kind that a locator
declares; its executables, symlinks and sources are those that some locator names, no more and no
fewer. If the executable can be resolved, it is identified: as this executable with the home, the
version and the architecture of its runtime, whatever the locators say, listing besides what they
list the runtime's own executables, and of the kind of a claim if there is one. -/
theorem identification_collects {platform : Platform}
    (hnorm : ∀ path, platform.normCase (platform.normCase path) = platform.normCase path)
    (environment : LocatorsHost) (rigConfigured : Option (Option PathBuf))
    {hosts : Set GlobalHost} {state : LocatorsState}
    (hstate : Reached platform environment hosts state) (host : LocatorsHost)
    (globalSearchPaths : List PathBuf) {env : REnv}
    (henv : platform.normCase env.executable = env.executable) :
    (∀ installation, identifyInstallationWithoutResolution (host.os platform)
        (tryFroms (createLocators platform environment rigConfigured) host state) env =
          some installation →
      Claims (host.os platform) env.executable
        ((createLocators platform environment rigConfigured).flatMap
          CreatedLocator.supportedCategories) installation ∧
      Collects (claimsOn (createLocators platform environment rigConfigured) host state env)
        installation) ∧
    ∀ resolved, host.resolvedFrom platform env.executable = some resolved →
      resolved.executable = env.executable ∧
      ∃ installation, identifyRInstallationUsingLocators (host.identifying platform) env
          (tryFroms (createLocators platform environment rigConfigured) host state)
          globalSearchPaths = some installation ∧
        IdentifiedAs (host.os platform)
          (keptClaims (createLocators platform environment rigConfigured) host state
            (resolved.toREnv (host.os platform)) env)
          resolved globalSearchPaths installation := by
  have hidempotent := normIdempotent_os hnorm host.toGlobalHost
  have hremembers := hstate.remembers hnorm host.toGlobalHost
  generalize hlocators : createLocators platform environment rigConfigured = locators
  have hsound : ∀ locator ∈ locators, Sound platform locator := fun locator hmem =>
    sound_of_mem_createLocators hnorm (hlocators ▸ hmem)
  have hclaims : ∀ {asked : REnv}, platform.normCase asked.executable = asked.executable →
      ∀ claim ∈ claimsOn locators host state asked, ∃ locator ∈ locators,
        Claims (host.os platform) asked.executable locator.supportedCategories claim := by
    intro asked hnormal claim hclaim
    obtain ⟨locator, hmem, h⟩ := List.mem_filterMap.mp hclaim
    exact ⟨locator, hmem, (hsound locator hmem).tryFrom host state asked claim hremembers hnormal h⟩
  have hcollects : ∀ {asked : REnv} {installation : RInstallation},
      platform.normCase asked.executable = asked.executable →
      identifyInstallationWithoutResolution (host.os platform) (tryFroms locators host state)
        asked = some installation →
      Built (host.os platform) installation ∧
        Collects (claimsOn locators host state asked) installation := by
    intro asked installation hnormal h
    have heq : (tryFroms locators host state).filterMap (· asked) =
        claimsOn locators host state asked := List.filterMap_map
    rw [← heq]
    refine collects_of_identify hidempotent (fun claim hclaim => ?_) h
    rw [heq] at hclaim
    obtain ⟨locator, -, hclaim⟩ := hclaims hnormal claim hclaim
    exact hclaim.built
  have hnone : ∀ {asked : REnv}, identifyInstallationWithoutResolution (host.os platform)
      (tryFroms locators host state) asked = none → claimsOn locators host state asked = [] := by
    intro asked h
    rw [identifyInstallationWithoutResolution_eq_none] at h
    refine List.filterMap_eq_nil_iff.mpr fun locator hmem => h _ ?_
    exact List.mem_map_of_mem hmem
  have hsome : ∀ {asked : REnv} {installation : RInstallation},
      Collects (claimsOn locators host state asked) installation →
      claimsOn locators host state asked ≠ [] := by
    rintro asked installation ⟨-, -, -, claim, hclaim, -⟩
    exact List.ne_nil_of_mem hclaim
  refine ⟨fun installation h => ?_, fun resolved hresolved => ?_⟩
  · obtain ⟨hbuilt, hcollected⟩ := hcollects henv h
    obtain ⟨claim, hclaim, hkind⟩ := hcollected.kind
    obtain ⟨locator, hmem, hsays⟩ := hclaims henv claim hclaim
    obtain ⟨kind, hcategory, hclaimed⟩ := hsays.kind
    refine ⟨⟨hbuilt, ?_, kind, ?_, hkind.trans hclaimed⟩, hcollected⟩
    · exact (hcollected.known _).mpr ⟨claim, hclaim, hsays.listed⟩
    · exact List.mem_flatMap.mpr ⟨locator, hmem, hcategory⟩
  · obtain ⟨hexecutable, -, -⟩ := normCase_of_resolvedFrom hnorm hresolved
    have hinfo : resolvedRInstallationFrom (host.identifying platform) env.executable =
      some resolved := hresolved
    refine ⟨hexecutable.trans henv, _, identifyRInstallationUsingLocators_eq
      (tryFroms locators host state) globalSearchPaths hinfo, ?_⟩
    unfold keptClaims
    show IdentifiedAs _ _ _ _ (Option.getD (Option.map _ (Option.or
      (identifyInstallationWithoutResolution (host.os platform) (tryFroms locators host state)
        (resolved.toREnv (host.os platform))) _)) _)
    cases hfirst : identifyInstallationWithoutResolution (host.os platform)
      (tryFroms locators host state) (resolved.toREnv (host.os platform)) with
    | some installation =>
      obtain ⟨hbuilt, hcollected⟩ := hcollects (normCase_toREnv hnorm _ resolved) hfirst
      rw [if_neg (hsome hcollected)]
      exact identifiedAs_of_collects hnorm hresolved hbuilt hcollected
    | none =>
      rw [if_pos (hnone hfirst), Option.none_or]
      show IdentifiedAs _ _ _ _ (Option.getD (Option.map _
        (identifyInstallationWithoutResolution (host.os platform)
          (tryFroms locators host state) env)) _)
      cases hsecond : identifyInstallationWithoutResolution (host.os platform)
        (tryFroms locators host state) env with
      | some installation =>
        obtain ⟨hbuilt, hcollected⟩ := hcollects henv hsecond
        exact identifiedAs_of_collects hnorm hresolved hbuilt hcollected
      | none =>
        rw [hnone hsecond]
        exact identifiedAs_unknown hnorm hresolved globalSearchPaths

/-! ## The R of a distribution -/

section Examples

/-- A machine with the R of the distribution, and nothing else. -/
def distroMachine : LocatorsHost where
  toGlobalHost := distroHost
  registryPaths := []
  jsonText _ _ := none
  readToString _ := none
  read _ := none
  run _ _ := none
  splitPaths _ := []
  moduleListing _ := none
  getPackageInfo _ := none
  getManagerForPrefix _ := none
  getCondaEnvName _ _ := none
  condaEnvironmentPaths := []

/-- What the locators remember when they have been made. -/
def newState : LocatorsState := ⟨fun _ => none, fun _ => none, fun _ => none, []⟩

/-- INTERNAL: nothing has been called yet. -/
theorem reached_newState (platform : Platform) (environment : LocatorsHost)
    (hosts : Set GlobalHost) : Reached platform environment hosts newState where
  environments := ⟨⟨⟨fun _ => none, 0⟩, []⟩, .init ⟨⟨keyedByPrefix_empty, rfl⟩, rfl⟩, rfl⟩
  spack := ⟨⟨⟨fun _ => none, 0⟩, []⟩, .init ⟨rfl, rfl⟩, rfl⟩
  linuxGlobal := ⟨⟨⟨fun _ => none, 0⟩, []⟩, .init ⟨rfl, rfl⟩, rfl⟩

/-- What is identified lists the R and has its version. -/
theorem identification_collects_distro :
    ∃ installation, identifyRInstallationUsingLocators (distroMachine.identifying linuxPlatform)
        (REnv.new unixOs distroR none none)
        (tryFroms (createLocators linuxPlatform distroMachine none) distroMachine newState) [] =
          some installation ∧
      installation.version = some "4.4.1" ∧ distroR ∈ knownPaths installation := by
  have hresolved : distroMachine.resolvedFrom linuxPlatform distroR =
      some (buildResolved (distroMachine.identifying linuxPlatform) distroR
        ⟨rootedPath ["usr", "lib", "R"], "4.4.1", .x64, [], none⟩) := rfl
  have hnormal : linuxPlatform.normCase (REnv.new unixOs distroR none none).executable =
    (REnv.new unixOs distroR none none).executable := rfl
  obtain ⟨-, installation, hidentified, hinstallation⟩ := (identification_collects
    (fun _ => rfl) distroMachine none (reached_newState linuxPlatform distroMachine {distroHost})
    distroMachine [] hnormal).2 _ hresolved
  refine ⟨installation, hidentified, hinstallation.version,
    (hinstallation.known distroR).mpr (.inr ?_)⟩
  exact List.mem_cons_self

end Examples

end REnvTools.Analysis
