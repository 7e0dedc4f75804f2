import REnvTools.Analysis.ReportStore

/-!
# The order of the collected installations

`get_installations` sorts the values of a hash map by executable and home. The keys of the
map tell more launches apart than these two do: records of one launcher with different
startup commands, environments or architectures stay in the order of the hash map.
-/

set_option autoImplicit false

namespace REnvTools.Analysis

open Program Lib

/-- The order of installations goes by the executable and the home. -/
theorem ordKey_eq_iff {i j : RInstallation} :
    i.ordKey = j.ordKey ↔ i.executable = j.executable ∧ i.home = j.home := by
  constructor
  · intro h
    exact Prod.mk.inj (toLex.injective h)
  · rintro ⟨hexecutable, hhome⟩
    unfold RInstallation.ordKey
    rw [hexecutable, hhome]

/-- INTERNAL: the values of a map are what its keys lead to. -/
theorem mem_values_iff {store : Finmap (fun _ : InstallationKey => RInstallation)}
    {i : RInstallation} :
    i ∈ store.entries.map (·.2) ↔ ∃ key, store.lookup key = some i := by
  simp only [Multiset.mem_map, Sigma.exists, Finmap.lookup_eq_some_iff, exists_eq_right]

/-- **When the hash order shows**: `get_installations` gives one list for all orders of the map
exactly if no two different records have the same executable and the same home. -/
theorem getInstallations_eq_iff
    (store : Finmap (fun _ : InstallationKey => RInstallation)) :
    (∀ values values', IterationOrder store values → IterationOrder store values' →
        getInstallations values = getInstallations values') ↔
      ∀ key key' i j, store.lookup key = some i → store.lookup key' = some j →
        i.executable = j.executable → i.home = j.home → i = j := by
  unfold IterationOrder getInstallations
  rw [sortByKey_eq_iff]
  constructor
  · intro hsorted key key' i j hi hj hexecutable hhome
    exact hsorted i (mem_values_iff.mpr ⟨key, hi⟩) j (mem_values_iff.mpr ⟨key', hj⟩)
      (ordKey_eq_iff.mpr ⟨hexecutable, hhome⟩)
  · intro hrecords i hi j hj heq
    obtain ⟨key, hi⟩ := mem_values_iff.mp hi
    obtain ⟨key', hj⟩ := mem_values_iff.mp hj
    obtain ⟨hexecutable, hhome⟩ := ordKey_eq_iff.mp heq
    exact hrecords key key' i j hi hj hexecutable hhome

/-! ## A launcher that a module loads -/

/-- `/opt/R/bin/R` as it is on the path, or as it is started after a module. -/
def launchedAfter (startupCommand : Option String) : RInstallation :=
  RInstallationBuilder.build plainOs
    { RInstallationBuilder.new (some .environmentModule) with
      executable := some ((optR.join "bin").join "R")
      home := some optR
      startupCommand := startupCommand }

/-- The key of the record. -/
def launchKey (startupCommand : Option String) : InstallationKey :=
  ⟨some optR, some (optR.join "bin"), some "R", none, startupCommand, []⟩

/-- The store after both were reported. -/
def launchStore : Finmap (fun _ : InstallationKey => RInstallation) :=
  ((∅ : Finmap _).insert (launchKey none) (launchedAfter none)).insert
    (launchKey (some "module load R")) (launchedAfter (some "module load R"))

/-- The two records come in the order of the hash map. -/
theorem installations_in_hash_order :
    ¬∀ (os : Os) (store : Finmap (fun _ : InstallationKey => RInstallation)),
      (∀ key i, store.lookup key = some i →
        BuilderBuilt os i ∧ getInstallationKey os i = some key) →
      ∀ values values', IterationOrder store values → IterationOrder store values' →
        getInstallations values = getInstallations values' := by
  intro h
  have hcontent : ∀ key i, launchStore.lookup key = some i →
      BuilderBuilt plainOs i ∧ getInstallationKey plainOs i = some key := by
    intro key i hi
    unfold launchStore at hi
    by_cases hafter : key = launchKey (some "module load R")
    · subst hafter
      rw [Finmap.lookup_insert] at hi
      cases hi
      exact ⟨⟨_, rfl⟩, by decide⟩
    · rw [Finmap.lookup_insert_of_ne _ hafter] at hi
      by_cases hplain : key = launchKey none
      · subst hplain
        rw [Finmap.lookup_insert] at hi
        cases hi
        exact ⟨⟨_, rfl⟩, by decide⟩
      · rw [Finmap.lookup_insert_of_ne _ hplain, Finmap.lookup_empty] at hi
        cases hi
  have hplain : launchStore.lookup (launchKey none) = some (launchedAfter none) :=
    (Finmap.lookup_insert_of_ne _ (by decide)).trans (Finmap.lookup_insert _)
  have hsame := (sortByKey_eq_iff RInstallation.ordKey _).mp (h plainOs launchStore hcontent)
    (launchedAfter none) (mem_values_iff.mpr ⟨_, hplain⟩)
    (launchedAfter (some "module load R")) (mem_values_iff.mpr ⟨_, Finmap.lookup_insert _⟩) rfl
  exact absurd (congrArg RInstallation.startupCommand hsame) (by decide)

end REnvTools.Analysis
