import REnvTools.Model.CondaState

/-!
# What the Conda locator has discovered

The threads of `find` and the calls of `try_from` race for the prefixes: whoever finds nothing
under a prefix builds an installation and inserts it, so that the same prefix may be inserted
twice. No prefix is lost by that: what a thread of `find` skips because it is known has been
reported, returned or copied since the map was last emptied.
-/

set_option autoImplicit false

namespace REnvTools.Analysis

open Lib Program Model

/-! ## What is built describes its prefix -/

section Builders

variable {host : CondaHost} {condaPrefix : PathBuf} {installation : RInstallation}

/-- `report_prefix` builds an installation of its prefix. -/
theorem describes_of_buildPrefix {manager : Option CondaManager}
    (h : buildPrefix host condaPrefix manager = some installation) :
    DescribesPrefix condaPrefix installation := by
  obtain ⟨executable, -, h⟩ := Option.bind_eq_some_iff.mp h
  split at h
  · cases h
    exact ⟨rfl, rfl⟩
  · obtain ⟨resolved, -, rfl⟩ := Option.map_eq_some_iff.mp h
    exact ⟨rfl, rfl⟩

/-- `try_from` builds an installation of its prefix. -/
theorem describes_of_identifyPrefix {env : REnv}
    (h : identifyPrefix host env condaPrefix = some installation) :
    DescribesPrefix condaPrefix installation := by
  unfold identifyPrefix at h
  split at h
  · cases h
    exact ⟨rfl, rfl⟩
  · split at h
    · cases h
    · obtain ⟨resolved, -, rfl⟩ := Option.map_eq_some_iff.mp h
      exact ⟨rfl, rfl⟩

/-- What is returned for a known prefix describes it. -/
theorem describes_knownInstallation {env : REnv} (h : DescribesPrefix condaPrefix installation) :
    DescribesPrefix condaPrefix (knownInstallation host env installation) := h

end Builders

/-! ## The map -/

/-- What a thread carries for a prefix describes it. -/
def CarriesDescriptions : CondaThread → Prop
  | .inserting condaPrefix installation | .reporting condaPrefix installation _
  | .found condaPrefix (.reported installation) _ | .storing condaPrefix installation
  | .recalled condaPrefix installation _ | .identified condaPrefix installation _ =>
    DescribesPrefix condaPrefix installation
  | .syncing _ source | .merging source | .synced source _ => KeyedByPrefix source
  | _ => True

/-- The thread has put this into the map, at a time when it had been emptied so often. -/
inductive Wrote : CondaThread → ℕ × PathBuf × RInstallation → Prop
  | reporting {condaPrefix : PathBuf} {installation : RInstallation} {clears : ℕ} :
      Wrote (.reporting condaPrefix installation clears) (clears, condaPrefix, installation)
  | reported {condaPrefix : PathBuf} {installation : RInstallation} {clears : ℕ} :
      Wrote (.found condaPrefix (.reported installation) clears)
        (clears, condaPrefix, installation)
  | identified {condaPrefix : PathBuf} {installation : RInstallation} {clears : ℕ} :
      Wrote (.identified condaPrefix installation clears) (clears, condaPrefix, installation)
  | synced {source : CondaEnvironments} {condaPrefix : PathBuf} {installation : RInstallation}
      {clears : ℕ} (h : source condaPrefix = some installation) :
      Wrote (.synced source clears) (clears, condaPrefix, installation)

/-- The thread knows that something was in the map under the prefix, at a time when it had been
emptied so often. -/
inductive Saw : CondaThread → ℕ → PathBuf → Prop
  | wrote {thread : CondaThread} {clears : ℕ} {condaPrefix : PathBuf}
      {installation : RInstallation} (h : Wrote thread (clears, condaPrefix, installation)) :
      Saw thread clears condaPrefix
  | known {condaPrefix : PathBuf} {clears : ℕ} :
      Saw (.found condaPrefix .known clears) clears condaPrefix
  | recalled {condaPrefix : PathBuf} {installation : RInstallation} {clears : ℕ} :
      Saw (.recalled condaPrefix installation clears) clears condaPrefix

/-- What was inserted is there. -/
theorem insert_self (sh : CondaState) (condaPrefix : PathBuf) (installation : RInstallation) :
    (sh.insert condaPrefix installation).environments condaPrefix = some installation :=
  Function.update_self ..

/-- Nothing else has changed. -/
theorem insert_of_ne (sh : CondaState) {condaPrefix other : PathBuf}
    (installation : RInstallation) (h : other ≠ condaPrefix) :
    (sh.insert condaPrefix installation).environments other = sh.environments other :=
  Function.update_of_ne h ..

/-- INTERNAL: inserting an installation of the prefix. -/
theorem keyedByPrefix_insert {sh : CondaState} {condaPrefix : PathBuf}
    {installation : RInstallation} (h : KeyedByPrefix sh.environments)
    (hdescribes : DescribesPrefix condaPrefix installation) :
    KeyedByPrefix (sh.insert condaPrefix installation).environments := by
  intro other installation' hother
  by_cases heq : other = condaPrefix
  · subst heq
    rw [insert_self] at hother
    cases hother
    exact hdescribes
  · exact h other installation' ((insert_of_ne sh installation heq).symm.trans hother)

/-- INTERNAL: inserting the entries of another map. -/
theorem keyedByPrefix_insertMany {sh : CondaState} {source : CondaEnvironments}
    (h : KeyedByPrefix sh.environments) (hsource : KeyedByPrefix source) :
    KeyedByPrefix (sh.insertMany source).environments := by
  intro condaPrefix installation hmem
  obtain hmem | ⟨-, hmem⟩ := Option.or_eq_some_iff.mp hmem
  · exact hsource _ _ hmem
  · exact h _ _ hmem

/-- INTERNAL: the empty map. -/
theorem keyedByPrefix_empty : KeyedByPrefix fun _ => none := by
  intro condaPrefix installation h
  cases h

/-- What there is under a prefix describes it, and so does what the threads carry. -/
theorem conda_describes {s : TaskSystem.State CondaState CondaThread}
    (h : condaLocator.Reachable s) :
    KeyedByPrefix s.shared.environments ∧
      ∀ (i : ℕ) (thread : CondaThread), s.tasks[i]? = some thread →
        CarriesDescriptions thread := by
  refine TaskSystem.invariant (G := fun sh => KeyedByPrefix sh.environments)
    (L := fun _ _ thread => CarriesDescriptions thread) ?_ ?_ ?_ ?_ h
  · exact fun sh hsh => hsh.1
  · intro s thread _ _ hbegins
    cases hbegins with
    | sync scope hsource => exact hsource
    | find | findPrefix | tryFrom => trivial
  · intro s i thread _ sh' thread' _ _ hstep hG hL
    cases hstep with
    | clear => exact ⟨keyedByPrefix_empty, trivial⟩
    | askManager | notEnvironment | known | unknown | unresolved | locate | outside | miss
    | decline | syncOther => exact ⟨hG, trivial⟩
    | build host hbuilt => exact ⟨hG, describes_of_buildPrefix hbuilt⟩
    | insert | store => exact ⟨keyedByPrefix_insert hG hL, hL⟩
    | report => exact ⟨hG, hL⟩
    | hit host hknown => exact ⟨hG, describes_knownInstallation (hG _ _ hknown)⟩
    | identify host hidentified => exact ⟨hG, describes_of_identifyPrefix hidentified⟩
    | syncFull => exact ⟨keyedByPrefix_empty, hL⟩
    | syncFiltered => exact ⟨hG, hL⟩
    | merge => exact ⟨keyedByPrefix_insertMany hG hL, hL⟩
  · exact fun s i thread _ sh' thread' j other _ _ _ _ _ _ _ hother => hother

/-! ## Who has put it there -/

/-- A thread that has put something into the map goes on carrying it. -/
theorem Wrote.keep {sh sh' : CondaState} {thread thread' : CondaThread}
    {entry : ℕ × PathBuf × RInstallation} (h : Wrote thread entry)
    (hstep : CondaStep sh thread sh' thread') : Wrote thread' entry := by
  cases h <;> cases hstep
  exact .reported

/-- What a step leaves in the map was there, or the thread has put it there. -/
theorem wrote_of_step {sh sh' : CondaState} {thread thread' : CondaThread}
    {condaPrefix : PathBuf} {installation : RInstallation}
    (hstep : CondaStep sh thread sh' thread')
    (h : sh'.environments condaPrefix = some installation) :
    (sh'.clears = sh.clears ∧ sh.environments condaPrefix = some installation) ∨
      Wrote thread' (sh'.clears, condaPrefix, installation) := by
  have hinsert : ∀ {own installation'},
      (sh.insert own installation').environments condaPrefix = some installation →
      sh.environments condaPrefix = some installation ∨
        own = condaPrefix ∧ installation' = installation := by
    intro own installation' hmem
    by_cases heq : condaPrefix = own
    · subst heq
      rw [insert_self] at hmem
      exact .inr ⟨rfl, Option.some.inj hmem⟩
    · exact .inl ((insert_of_ne sh installation' heq).symm.trans hmem)
  cases hstep with
  | clear | syncFull => cases h
  | insert =>
    obtain hmem | ⟨rfl, rfl⟩ := hinsert h
    · exact .inl ⟨rfl, hmem⟩
    · exact .inr .reporting
  | store =>
    obtain hmem | ⟨rfl, rfl⟩ := hinsert h
    · exact .inl ⟨rfl, hmem⟩
    · exact .inr .identified
  | merge =>
    obtain hmem | ⟨-, hmem⟩ := Option.or_eq_some_iff.mp h
    · exact .inr (.synced hmem)
    · exact .inl ⟨rfl, hmem⟩
  | _ => exact .inl ⟨rfl, h⟩

/-- Whatever is in the map, once it has been emptied, was put there by a thread since. -/
theorem conda_provenance {s : TaskSystem.State CondaState CondaThread}
    (h : condaLocator.Reachable s) (hcleared : 0 < s.shared.clears) {condaPrefix : PathBuf}
    {installation : RInstallation}
    (hmem : s.shared.environments condaPrefix = some installation) :
    ∃ (i : ℕ) (thread : CondaThread), s.tasks[i]? = some thread ∧
      Wrote thread (s.shared.clears, condaPrefix, installation) := by
  refine TaskSystem.provenance (P := condaLocator)
    (F := fun sh entry => 0 < sh.clears ∧ sh.clears = entry.1 ∧
      sh.environments entry.2.1 = some entry.2.2)
    (W := Wrote) ?_ ?_ ?_ h (b := (s.shared.clears, condaPrefix, installation))
    ⟨hcleared, rfl, hmem⟩
  · rintro sh entry ⟨-, hzero⟩ ⟨hpos, -, -⟩
    omega
  · rintro _ sh thread _ sh' thread' ⟨clears, condaPrefix, installation⟩ hstep
      ⟨hpos, hclears, hmem⟩
    dsimp only at hclears hmem ⊢
    subst hclears
    obtain ⟨hsame, hmem⟩ | hwrote := wrote_of_step hstep hmem
    · exact .inl ⟨hsame ▸ hpos, hsame.symm, hmem⟩
    · exact .inr hwrote
  · exact fun _ sh thread _ sh' thread' entry hstep hwrote => hwrote.keep hstep

/-! ## What stays there -/

/-- A step empties the map, which is counted, or takes nothing out of it. -/
theorem conda_keeps {sh sh' : CondaState} {thread thread' : CondaThread}
    (hstep : CondaStep sh thread sh' thread') :
    sh.clears < sh'.clears ∨ sh'.clears = sh.clears ∧ ∀ condaPrefix,
      (sh.environments condaPrefix).isSome → (sh'.environments condaPrefix).isSome := by
  have hinsert : ∀ own installation condaPrefix, (sh.environments condaPrefix).isSome →
      ((sh.insert own installation).environments condaPrefix).isSome := by
    intro own installation condaPrefix hsome
    by_cases heq : condaPrefix = own
    · subst heq
      exact Option.isSome_iff_exists.mpr ⟨installation, insert_self ..⟩
    · exact (congrArg Option.isSome (insert_of_ne sh installation heq)).trans hsome
  cases hstep with
  | clear | syncFull => exact .inl (Nat.lt_succ_self _)
  | insert | store => exact .inr ⟨rfl, hinsert _ _⟩
  | @merge source =>
    refine .inr ⟨rfl, fun condaPrefix hsome => ?_⟩
    show ((source condaPrefix).or (sh.environments condaPrefix)).isSome
    rw [Option.isSome_or, hsome, Bool.or_true]
  | _ => exact .inr ⟨rfl, fun _ hsome => hsome⟩

/-- INTERNAL: a thread that sees an entry has seen it before, or it is there. -/
theorem saw_of_step {sh sh' : CondaState} {thread thread' : CondaThread} {clears : ℕ}
    {condaPrefix : PathBuf} (hstep : CondaStep sh thread sh' thread')
    (h : Saw thread' clears condaPrefix) :
    Saw thread clears condaPrefix ∨
      clears = sh'.clears ∧ (sh'.environments condaPrefix).isSome := by
  cases hstep with
  | insert | store =>
    cases h with
    | wrote hwrote =>
      cases hwrote
      exact .inr ⟨rfl, Option.isSome_iff_exists.mpr ⟨_, insert_self ..⟩⟩
  | report =>
    cases h with
    | wrote hwrote =>
      cases hwrote
      exact .inl (.wrote .reporting)
  | merge =>
    cases h with
    | wrote hwrote =>
      cases hwrote with
      | synced hsource =>
        exact .inr ⟨rfl, Option.isSome_iff_exists.mpr
          ⟨_, Option.or_eq_some_iff.mpr (.inl hsource)⟩⟩
  | known host henv hknown =>
    cases h with
    | wrote hwrote => cases hwrote
    | known => exact .inr ⟨rfl, Option.isSome_iff_exists.mpr ⟨_, hknown⟩⟩
  | hit host hknown =>
    cases h with
    | wrote hwrote => cases hwrote
    | recalled => exact .inr ⟨rfl, Option.isSome_iff_exists.mpr ⟨_, hknown⟩⟩
  | _ =>
    cases h with
    | wrote hwrote => cases hwrote

/-- What a thread has seen in the map is there until the map is emptied. -/
theorem conda_remembers {s : TaskSystem.State CondaState CondaThread}
    (h : condaLocator.Reachable s) {i : ℕ} {thread : CondaThread} {clears : ℕ}
    {condaPrefix : PathBuf} (hi : s.tasks[i]? = some thread)
    (hsaw : Saw thread clears condaPrefix) :
    clears ≤ s.shared.clears ∧
      (clears = s.shared.clears → (s.shared.environments condaPrefix).isSome) := by
  have hkeeps : ∀ {sh sh' : CondaState} {own own' : CondaThread}, CondaStep sh own sh' own' →
      (clears ≤ sh.clears ∧ (clears = sh.clears → (sh.environments condaPrefix).isSome)) →
      clears ≤ sh'.clears ∧ (clears = sh'.clears → (sh'.environments condaPrefix).isSome) := by
    rintro sh sh' own own' hstep ⟨hle, hsome⟩
    obtain hlt | ⟨hsame, hkept⟩ := conda_keeps hstep
    · exact ⟨by omega, fun heq => by omega⟩
    · exact ⟨hsame ▸ hle, fun heq => hkept _ (hsome (heq.trans hsame))⟩
  refine (TaskSystem.invariant (P := condaLocator) (G := fun _ => True)
    (L := fun sh _ thread => Saw thread clears condaPrefix →
      clears ≤ sh.clears ∧ (clears = sh.clears → (sh.environments condaPrefix).isSome))
    ?_ ?_ ?_ ?_ h).2 i thread hi hsaw
  · exact fun _ _ => trivial
  · intro s thread _ _ hbegins hsaw
    cases hbegins <;>
      cases hsaw with
      | wrote hwrote => cases hwrote
  · refine fun s i thread _ sh' thread' _ _ hstep _ hL => ⟨trivial, fun hsaw => ?_⟩
    obtain hsaw | ⟨rfl, hsome⟩ := saw_of_step hstep hsaw
    · exact hkeeps hstep (hL hsaw)
    · exact ⟨le_rfl, fun _ => hsome⟩
  · exact fun s i thread _ sh' thread' j other _ _ hstep _ _ _ _ hother hsaw =>
      hkeeps hstep (hother hsaw)

/-! ## A call that runs alone -/

/-- The states and steps of a run that goes on from a state. -/
abbrev CondaRun :
    TaskSystem.State CondaState CondaThread → TaskSystem.State CondaState CondaThread → Prop :=
  Relation.ReflTransGen fun s s' => ∃ label, condaLocator.machine.step s label s'

/-- One thread steps, as part of a run. -/
theorem CondaRun.step {s s' : TaskSystem.State CondaState CondaThread} {i : ℕ}
    {thread thread' : CondaThread} {sh' : CondaState} (hrun : CondaRun s s')
    (hi : s'.tasks[i]? = some thread) (hstep : CondaStep s'.shared thread sh' thread') :
    CondaRun s ⟨sh', s'.tasks.set i thread'⟩ :=
  hrun.tail ⟨.step i (), .step hi hstep⟩

/-- What `try_from` returns. -/
def condaAnswer : CondaThread → Option RInstallation
  | .recalled _ installation _ | .identified _ installation _ => some installation
  | _ => none

/-- A call of `try_from` during which no other call steps, on a machine that stands still, ends
with what `condaTryFrom` returns and inserts. -/
theorem condaTryFrom_alone (host : CondaHost) {s : TaskSystem.State CondaState CondaThread}
    {i : ℕ} {env : REnv} (hi : s.tasks[i]? = some (.calling env)) :
    ∃ thread, thread.Ended ∧
      condaAnswer thread = (condaTryFrom host s.shared.environments env).1 ∧
      CondaRun s ⟨⟨(condaTryFrom host s.shared.environments env).2, s.shared.clears⟩,
        s.tasks.set i thread⟩ := by
  have hset : ∀ thread, (s.tasks.set i thread)[i]? = some thread :=
    fun thread => List.getElem?_set_self (List.getElem?_eq_some_iff.mp hi).1
  rw [condaTryFrom_eq]
  cases hprefix : getPrefixFromEnv host env with
  | none => exact ⟨_, .declined, rfl, CondaRun.step .refl hi (.outside host hprefix)⟩
  | some condaPrefix =>
    have hlocated : CondaRun s _ := CondaRun.step .refl hi (.locate host hprefix)
    dsimp only
    cases hknown : s.shared.environments condaPrefix with
    | some installation =>
      have hrecalled := CondaRun.step hlocated (hset _) (.hit host hknown)
      rw [List.set_set] at hrecalled
      exact ⟨_, .recalled, rfl, hrecalled⟩
    | none =>
      have hmissed := CondaRun.step hlocated (hset _) (.miss hknown)
      rw [List.set_set] at hmissed
      dsimp only
      cases hidentified : identifyPrefix host env condaPrefix with
      | none =>
        have hdeclined := CondaRun.step hmissed (hset _) (.decline host hidentified)
        rw [List.set_set] at hdeclined
        exact ⟨_, .declined, rfl, hdeclined⟩
      | some installation =>
        have hbuilt := CondaRun.step hmissed (hset _) (.identify host hidentified)
        rw [List.set_set] at hbuilt
        have hstored := CondaRun.step hbuilt (hset _) .store
        rw [List.set_set] at hstored
        exact ⟨_, .identified, rfl, hstored⟩

/-! ## The guarantee -/

/-- Something about the prefix was made known: reported by `find`, returned by `try_from`, or
copied from another locator. -/
def MadeKnown (tasks : List CondaThread) (clears : ℕ) (condaPrefix : PathBuf)
    (installation : RInstallation) : Prop :=
  CondaThread.found condaPrefix (.reported installation) clears ∈ tasks ∨
    CondaThread.identified condaPrefix installation clears ∈ tasks ∨
      ∃ source, CondaThread.synced source clears ∈ tasks ∧
        source condaPrefix = some installation

/-- **No prefix is lost.** In every interleaving of `find`, `try_from` and the copying of
another locator's state, every installation in the map, reported, or returned for a prefix
describes that prefix; and once all calls have ended, there is something about every prefix that
a thread of `find` has reported or skipped because it was known, that `try_from` has returned, or
that was copied, unless the map was emptied since; and it was made known after the map was last
emptied. -/
theorem conda_discovery {s : TaskSystem.State CondaState CondaThread}
    (h : condaLocator.Reachable s) :
    (KeyedByPrefix s.shared.environments ∧ ∀ thread ∈ s.tasks, CarriesDescriptions thread) ∧
      ((∀ thread ∈ s.tasks, thread.Ended) → 0 < s.shared.clears →
        (∀ thread ∈ s.tasks, ∀ condaPrefix, Saw thread s.shared.clears condaPrefix →
          (s.shared.environments condaPrefix).isSome) ∧
        ∀ condaPrefix installation, s.shared.environments condaPrefix = some installation →
          MadeKnown s.tasks s.shared.clears condaPrefix installation) := by
  obtain ⟨hkeyed, hcarries⟩ := conda_describes h
  refine ⟨⟨hkeyed, fun thread hthread => ?_⟩, fun hended hcleared => ⟨?_, ?_⟩⟩
  · obtain ⟨i, hi⟩ := List.mem_iff_getElem?.mp hthread
    exact hcarries i thread hi
  · intro thread hthread condaPrefix hsaw
    obtain ⟨i, hi⟩ := List.mem_iff_getElem?.mp hthread
    exact (conda_remembers h hi hsaw).2 rfl
  · intro condaPrefix installation hmem
    obtain ⟨i, thread, hi, hwrote⟩ := conda_provenance h hcleared hmem
    have hthread := List.mem_of_getElem? hi
    cases hwrote with
    | reporting => cases hended _ hthread
    | reported => exact .inl hthread
    | identified => exact .inr (.inl hthread)
    | synced hsource => exact .inr (.inr ⟨_, hthread, hsource⟩)

/-! ## A prefix that is identified before it is found -/

/-- A conda environment `/base`. -/
def baseConda : CondaHost where
  os := unixOs
  tree := plainTree [rootedPath [], rootedPath ["base"], rootedPath ["base", "conda-meta"],
    rootedPath ["base", "bin"]] [rootedPath ["base", "bin", "R"]] (by decide)
  getPackageInfo _ := none
  getManagerForPrefix _ := none
  getCondaEnvName _ _ := none
  findExecutables _ := []
  isSymlink _ := false
  resolvedFrom executable :=
    some ⟨executable, rootedPath ["base"], "4.4.2", .x64, none, none, none, []⟩

/-- R in the environment. -/
def baseEnv : REnv := REnv.new unixOs (rootedPath ["base", "bin", "R"]) none (some "4.4.2")

/-- What `try_from` makes of it. -/
def baseInstallation : RInstallation :=
  buildCondaInstallation baseConda (rootedPath ["base"])
    ⟨baseEnv.executable, rootedPath ["base"], "4.4.2", .x64, none, none, none, []⟩ none

/-- `find` empties the map, `try_from` identifies R while a thread of `find` asks for the manager,
and the thread skips the prefix. -/
theorem skipped_reachable :
    ∃ s, condaLocator.Reachable s ∧ s.shared.clears = 1 ∧
      s.tasks = [.cleared, .found (rootedPath ["base"]) .known 1,
        .identified (rootedPath ["base"]) baseInstallation 1] := by
  have h0 : condaLocator.Reachable ⟨⟨fun _ => none, 0⟩, []⟩ :=
    .init ⟨⟨keyedByPrefix_empty, rfl⟩, rfl⟩
  have h1 := Machine.Reachable.step h0 (TaskSystem.Step.spawn .find)
  have h2 := Machine.Reachable.step h1 (TaskSystem.Step.spawn (.findPrefix (rootedPath ["base"])))
  have h3 := Machine.Reachable.step h2 (TaskSystem.Step.spawn (.tryFrom baseEnv))
  have h4 := Machine.Reachable.step h3 (TaskSystem.Step.step (i := 0) (a := ()) rfl .clear)
  have h5 := Machine.Reachable.step h4
    (TaskSystem.Step.step (i := 1) (a := ()) rfl (.askManager baseConda))
  have h6 := Machine.Reachable.step h5 (TaskSystem.Step.step (i := 2) (a := ()) rfl
    (.locate baseConda (show getPrefixFromEnv baseConda baseEnv = some (rootedPath ["base"]) by
      decide)))
  have h7 := Machine.Reachable.step h6 (TaskSystem.Step.step (i := 2) (a := ()) rfl (.miss rfl))
  have h8 := Machine.Reachable.step h7 (TaskSystem.Step.step (i := 2) (a := ()) rfl
    (.identify baseConda (show identifyPrefix baseConda baseEnv (rootedPath ["base"]) =
      some baseInstallation from rfl)))
  have h9 := Machine.Reachable.step h8 (TaskSystem.Step.step (i := 2) (a := ()) rfl .store)
  have h10 := Machine.Reachable.step h9 (TaskSystem.Step.step (i := 1) (a := ()) rfl
    (.known baseConda (by decide) (insert_self ..)))
  exact ⟨_, h10, rfl, rfl⟩

/-- The theorem for this run. -/
theorem conda_discovery_skipped :
    ∃ s : TaskSystem.State CondaState CondaThread,
      CondaThread.found (rootedPath ["base"]) .known 1 ∈ s.tasks ∧
        (s.shared.environments (rootedPath ["base"])).isSome := by
  obtain ⟨s, hs, hclears, htasks⟩ := skipped_reachable
  have hended : ∀ thread ∈ s.tasks, thread.Ended := by
    rw [htasks]
    intro thread hthread
    simp only [List.mem_cons, List.not_mem_nil, or_false] at hthread
    obtain rfl | rfl | rfl := hthread
    · exact .cleared
    · exact .found
    · exact .identified
  have hmem : CondaThread.found (rootedPath ["base"]) .known 1 ∈ s.tasks := by
    rw [htasks]
    exact List.mem_cons_of_mem _ List.mem_cons_self
  have hsaw :
      Saw (.found (rootedPath ["base"]) .known 1) s.shared.clears (rootedPath ["base"]) := by
    rw [hclears]
    exact .known
  exact ⟨s, hmem, ((conda_discovery hs).2 hended (hclears ▸ Nat.one_pos)).1 _ hmem _ hsaw⟩

end REnvTools.Analysis
