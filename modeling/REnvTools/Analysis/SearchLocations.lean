import REnvTools.Model.SearchLocations

/-!
# When the search locations are stable

Two calls that both find the list empty both append to it, and the directories below the home
are appended without the check that those before them have. Where neither happens, every call
returns the list that the first one computed, without repeats
(`locationsAgree_of_appendsToEmpty`); where one of the two happens, a repeat is returned.
-/

set_option autoImplicit false

namespace REnvTools.Analysis

open Lib Program Model

variable {host : SearchHost}

/-! ## One call -/

/-- The existing directories below the home are not among the paths of environment variables. -/
def HomeApart (host : SearchHost) : Prop :=
  ∀ home, getUserHome host = some home → ∀ directory ∈ homeDirectories home,
    host.pathExists directory = true → directory ∉ environmentPaths host

/-- INTERNAL: no directory that is always looked at is below a home. -/
theorem not_mem_knownDirectories {home directory : PathBuf}
    (h : directory ∈ homeDirectories home) : directory ∉ knownDirectories := by
  have hknown : ∀ known ∈ knownDirectories,
      known.parent.bind PathBuf.fileName ≠ some ".local" ∧
        known.parent.bind PathBuf.fileName ≠ some ".nix-profile" := by decide
  intro hmem
  obtain ⟨hlocal, hnix⟩ := hknown directory hmem
  unfold homeDirectories at h
  rw [List.mem_pair] at h
  rcases h with rfl | rfl
  · exact hlocal (by rw [parent_join, Option.bind_some, fileName_join])
  · exact hnix (by rw [parent_join, Option.bind_some, fileName_join])

/-- INTERNAL: the two directories below a home differ. -/
theorem nodup_homeDirectories (home : PathBuf) : (homeDirectories home).Nodup := by
  have hne : (home.join ".local").join "bin" ≠ (home.join ".nix-profile").join "bin" := by
    intro h
    have hdirectory := (join_eq_join.mp h).1
    exact absurd (join_eq_join.mp hdirectory).2 (by decide)
  exact List.nodup_cons.mpr ⟨by simpa using hne, List.nodup_singleton _⟩

/-- What a call computes has no repeat exactly if the home is apart. -/
theorem nodup_searchPaths_iff : (searchPaths host).Nodup ↔ HomeApart host := by
  have hchecked : (pushAll (sortDedup (environmentPaths host)) knownDirectories).Nodup :=
    nodup_pushAll ((pairwise_sortDedup _).imp ne_of_lt) _
  unfold HomeApart searchPaths
  cases hhome : getUserHome host with
  | none => simpa using hchecked.filter _
  | some home =>
    have hapart : ∀ directory ∈ homeDirectories home,
        directory ∈ pushAll (sortDedup (environmentPaths host)) knownDirectories ↔
          directory ∈ environmentPaths host := by
      intro directory hdirectory
      simp [not_mem_knownDirectories hdirectory]
    simp only [List.filter_append, List.nodup_append, hchecked.filter, true_and,
      (nodup_homeDirectories home).filter, Option.some.injEq, forall_eq']
    constructor
    · intro hdisjoint directory hdirectory hexists hmem
      have hchecked := List.mem_filter.mpr ⟨(hapart directory hdirectory).mpr hmem, hexists⟩
      exact hdisjoint directory hchecked directory (List.mem_filter.mpr ⟨hdirectory, hexists⟩) rfl
    · rintro hhomeApart path hpath directory hdirectory rfl
      obtain ⟨hdirectory, hexists⟩ := List.mem_filter.mp hdirectory
      exact hhomeApart path hdirectory hexists
        ((hapart path hdirectory).mp (List.mem_filter.mp hpath).1)

/-! ## Runs -/

/-- Every call that has returned has returned the same list, and it has no repeat. -/
def LocationsAgree (s : TaskSystem.State (List PathBuf) LocationsCall) : Prop :=
  (∀ (i j : ℕ) (locations locations' : List PathBuf),
    s.tasks[i]? = some (LocationsCall.returned locations) →
    s.tasks[j]? = some (LocationsCall.returned locations') → locations = locations') ∧
  ∀ (i : ℕ) (locations : List PathBuf),
    s.tasks[i]? = some (LocationsCall.returned locations) → locations.Nodup

/-- A call appends only while the list is empty. -/
def AppendsToEmpty : TaskSystem.State (List PathBuf) LocationsCall → TaskSystem.Label Unit → Prop :=
  TaskSystem.StepsMeet fun s call => call = .computing → s.shared = []

/-- INTERNAL: what a call that finds only its own list knows. -/
def SeesSearchPaths (host : SearchHost) (locations : List PathBuf) : ℕ → LocationsCall → Prop
  | _, .called | _, .computing => True
  | _, .cloning => locations = searchPaths host
  | _, .returned cloned => cloned = searchPaths host

/-- Where no call appends to a list that is filled, every call returns what the first one
computed. -/
theorem returned_of_appendsToEmpty {s : TaskSystem.State (List PathBuf) LocationsCall}
    (h : ((searchLocations host).machine.when AppendsToEmpty).Reachable s) {i : ℕ}
    {locations : List PathBuf} (hreturned : s.tasks[i]? = some (.returned locations)) :
    locations = searchPaths host := by
  have hinv := TaskSystem.invariant_when
    (G := fun locations => locations = [] ∨ locations = searchPaths host)
    (L := SeesSearchPaths host) (fun _ hinit => .inl hinit)
    (fun s call _ _ _ hspawn => by
      cases hspawn
      trivial)
    (fun s i call a locations' call' _ hmeets hcall hstep hG hL => by
      cases hstep with
      | findEmpty hempty => exact ⟨hG, trivial⟩
      | findFilled hfilled => exact ⟨hG, hG.resolve_left hfilled⟩
      | append =>
        have hempty : s.shared = [] := hmeets _ hcall rfl
        rw [hempty, List.nil_append]
        exact ⟨.inr rfl, rfl⟩
      | clone => exact ⟨hG, hL⟩)
    (fun s i call a locations' call' j other _ hmeets hcall hstep _ _ hG _ hother => by
      cases hstep with
      | findEmpty | findFilled | clone => exact hother
      | append =>
        have hempty : s.shared = [] := hmeets _ hcall rfl
        cases other with
        | called | computing => trivial
        | cloning =>
          show s.shared ++ searchPaths host = searchPaths host
          rw [hempty, List.nil_append]
        | returned => exact hother)
    h
  exact hinv.2 i _ hreturned

/-- Where no call appends to a list that is filled and the home is apart, the calls agree. -/
theorem locationsAgree_of_appendsToEmpty {s : TaskSystem.State (List PathBuf) LocationsCall}
    (h : ((searchLocations host).machine.when AppendsToEmpty).Reachable s)
    (hhome : HomeApart host) : LocationsAgree s := by
  refine ⟨fun i j locations locations' hi hj => ?_, fun i locations hi => ?_⟩
  · rw [returned_of_appendsToEmpty h hi, returned_of_appendsToEmpty h hj]
  · rw [returned_of_appendsToEmpty h hi]
    exact nodup_searchPaths_iff.mpr hhome

/-- INTERNAL: a call may start at any moment. -/
theorem spawn_called (locations : List PathBuf) : (searchLocations host).spawn locations .called :=
  rfl

/-- INTERNAL: the state after the only call has returned. -/
theorem reachable_single (host : SearchHost) :
    ((searchLocations host).machine.when AppendsToEmpty).Reachable
      ⟨searchPaths host, [.returned (searchPaths host)]⟩ := by
  have h0 : ((searchLocations host).machine.when AppendsToEmpty).Reachable ⟨[], []⟩ :=
    .init ⟨rfl, rfl⟩
  have h1 := TaskSystem.reachable_spawn h0 (spawn_called [])
  have h2 := TaskSystem.reachable_step (i := 0) (a := ()) h1 rfl nofun (.findEmpty rfl)
  have h3 := TaskSystem.reachable_step (i := 0) (a := ()) h2 rfl (fun _ => rfl) .append
  exact TaskSystem.reachable_step (i := 0) (a := ()) h3 rfl nofun .clone

/-- INTERNAL: the list holds only what a call computes. -/
theorem shared_subset {s : TaskSystem.State (List PathBuf) LocationsCall}
    (h : (searchLocations host).Reachable s) : s.shared ⊆ searchPaths host := by
  refine h.invariant (I := fun s => s.shared ⊆ searchPaths host) ?_ ?_
  · rintro s ⟨hempty, -⟩
    rw [show s.shared = [] from hempty]
    exact List.nil_subset _
  · rintro s a s' hsubset hstep
    cases hstep with
    | spawn => exact hsubset
    | step _ hstep =>
      cases hstep with
      | findEmpty | findFilled | clone => exact hsubset
      | append => exact List.append_subset.mpr ⟨hsubset, List.Subset.refl _⟩

/-- The call appends to a list that is filled, or has done so. -/
def RepeatsPaths (locations : List PathBuf) : LocationsCall → Prop
  | .called => False
  | .computing => locations ≠ []
  | .cloning => ¬locations.Nodup
  | .returned cloned => ¬cloned.Nodup

/-- INTERNAL: a list only grows, so what another call repeats stays repeated. -/
theorem RepeatsPaths.append {locations : List PathBuf} {call : LocationsCall}
    (h : RepeatsPaths locations call) (paths : List PathBuf) :
    RepeatsPaths (locations ++ paths) call := by
  cases call with
  | called => exact h
  | computing => exact fun hnil => h (List.append_eq_nil_iff.mp hnil).1
  | cloning => exact fun hnodup => h (hnodup.sublist (List.sublist_append_left _ _))
  | returned => exact h

/-- A call that is about to append to a filled list keeps on repeating. -/
theorem repeats_step {s s' : TaskSystem.State (List PathBuf) LocationsCall}
    {label : TaskSystem.Label Unit} (hs : (searchLocations host).Reachable s)
    (hstep : (searchLocations host).machine.step s label s') {i : ℕ} {call : LocationsCall}
    (hcall : s.tasks[i]? = some call) (h : RepeatsPaths s.shared call) :
    ∃ call', s'.tasks[i]? = some call' ∧ RepeatsPaths s'.shared call' := by
  obtain ⟨call', hcall', hcases⟩ := TaskSystem.thread_step hstep hcall
  refine ⟨call', hcall', ?_⟩
  rcases hcases with ⟨rfl, hshared⟩ | ⟨_, hown⟩ | ⟨rfl, _, _, _, _, hother⟩
  · rwa [hshared]
  · generalize s'.shared = locations at hown ⊢
    cases hown with
    | findEmpty | findFilled => exact h.elim
    | append =>
      obtain ⟨path, hpath⟩ := List.exists_mem_of_ne_nil _ h
      exact fun hnodup =>
        (List.nodup_append.mp hnodup).2.2 path hpath path (shared_subset hs hpath) rfl
    | clone => exact h
  · generalize s'.shared = locations at hother ⊢
    cases hother with
    | findEmpty | findFilled | clone => exact h
    | append => exact h.append _

/-- **When the search locations are stable**: the calls of all runs in which no call appends to a
list that is filled agree on a list without repeats, exactly if the home is apart; and a call
that does append to a filled list returns a repeat. -/
theorem search_locations_stable_iff (host : SearchHost) :
    ((∀ s, ((searchLocations host).machine.when AppendsToEmpty).Reachable s → LocationsAgree s) ↔
      HomeApart host) ∧
    ∀ (s s' : TaskSystem.State (List PathBuf) LocationsCall) (i : ℕ) (locations : List PathBuf),
      (searchLocations host).Reachable s → s.tasks[i]? = some .computing → s.shared ≠ [] →
      Relation.ReflTransGen (fun s s' => ∃ a, (searchLocations host).machine.step s a s') s s' →
      s'.tasks[i]? = some (.returned locations) → ¬locations.Nodup := by
  refine ⟨⟨fun h => ?_, fun hhome s hs => locationsAgree_of_appendsToEmpty hs hhome⟩, ?_⟩
  · exact nodup_searchPaths_iff.mp ((h _ (reachable_single host)).2 0 _ rfl)
  · intro s s' i locations hs hcall hfilled hrun hreturned
    have hrepeats : (searchLocations host).Reachable s' ∧
        ∃ call, s'.tasks[i]? = some call ∧ RepeatsPaths s'.shared call := by
      clear hreturned
      induction hrun with
      | refl => exact ⟨hs, .computing, hcall, hfilled⟩
      | tail _ hstep ih =>
        obtain ⟨a, hstep⟩ := hstep
        obtain ⟨hreachable, call, hcall, hrepeats⟩ := ih
        exact ⟨.step hreachable hstep, repeats_step hreachable hstep hcall hrepeats⟩
    obtain ⟨-, call, hcall, hrepeats⟩ := hrepeats
    rw [hreturned] at hcall
    cases hcall
    exact hrepeats

/-! ## Two calls at once -/

/-- A process with `PATH=/usr/bin` and no home. -/
def pathHost : SearchHost where
  getEnvVar key := if key = "PATH" then some "/usr/bin" else none
  splitPaths _ := [rootedPath ["usr", "bin"]]
  pathFrom text := ⟨[.normal text]⟩
  normCase path := path
  pathExists path := path == rootedPath ["usr", "bin"]

/-- Two calls that find the list empty return two lists. -/
theorem appended_twice :
    ¬∀ (host : SearchHost) (s : TaskSystem.State (List PathBuf) LocationsCall),
      (searchLocations host).Reachable s → LocationsAgree s := by
  intro h
  have hpath : rootedPath ["usr", "bin"] ∈ searchPaths pathHost :=
    List.mem_filter.mpr ⟨mem_pushAll.mpr (.inr (by decide)), by decide⟩
  have h0 : ((searchLocations pathHost).machine.when
      (TaskSystem.StepsMeet fun _ _ => True)).Reachable ⟨[], []⟩ := .init ⟨rfl, rfl⟩
  have h1 := TaskSystem.reachable_spawn h0 (spawn_called [])
  have h2 := TaskSystem.reachable_spawn h1 (spawn_called [])
  have h3 := TaskSystem.reachable_step (i := 0) (a := ()) h2 rfl trivial (.findEmpty rfl)
  have h4 := TaskSystem.reachable_step (i := 1) (a := ()) h3 rfl trivial (.findEmpty rfl)
  have h5 := TaskSystem.reachable_step (i := 0) (a := ()) h4 rfl trivial .append
  have h6 := TaskSystem.reachable_step (i := 0) (a := ()) h5 rfl trivial .clone
  have h7 := TaskSystem.reachable_step (i := 1) (a := ()) h6 rfl trivial .append
  have h8 := TaskSystem.reachable_step (i := 1) (a := ()) h7 rfl trivial .clone
  have hsame := (h pathHost _ h8.of_when).1 0 1 _ _ rfl rfl
  have hlength := congrArg List.length hsame
  have hpos := List.length_pos_of_mem hpath
  simp only [List.nil_append, List.length_append] at hlength
  omega

end REnvTools.Analysis
