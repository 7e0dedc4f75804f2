import REnvTools.Model.Probes
import Mathlib.Logic.Relation
import Mathlib.Tactic.Common

/-!
# Shutting the probes down

Once `shutdown_probes` has returned nothing is spawned any more. That every child is then
over or has been sent the kill holds of the runs in which `shutdown_probes` meets no child
whose last reference is released but whose drop has not killed it yet.
-/

set_option autoImplicit false

namespace REnvTools.Analysis

open REnvTools.Lib REnvTools.Model

variable {w w' : ProbeWorld} {call call' : ProbeCall}

/-! ## One step -/

/-- The call holds the mutex of the registry. -/
def HoldsRegistry : ProbeCall → Bool
  | .spawning | .retaining .. | .upgrading .. => true
  | _ => false

/-- INTERNAL: a call that goes on after terminating does not hold the registry. -/
theorem holdsRegistry_resume (caller : TerminateCaller) (c : ℕ) :
    HoldsRegistry (caller.resume c) = false := by
  cases caller with
  | shutdown rest => rfl
  | drop after => cases after <;> rfl

/-- INTERNAL: a call that goes on after a release does not hold the registry. -/
theorem holdsRegistry_afterRelease (after : AfterRelease) :
    HoldsRegistry after.resume = false := by
  cases after <;> rfl

/-- The mutex is taken by the call that did not hold it and given back by the one that did. -/
theorem locked_of_step (h : ProbeStep w call w' call')
    (hheld : (HoldsRegistry call).toNat ≤ w.locked.toNat) :
    w'.locked.toNat + (HoldsRegistry call).toNat =
      w.locked.toNat + (HoldsRegistry call').toNat := by
  have hlocked : HoldsRegistry call = true → w.locked = true := by
    intro hholds
    rw [hholds] at hheld
    cases hw : w.locked with
    | true => rfl
    | false => simp [hw] at hheld
  cases h with
  | lock hlock | stop hlock => rw [hlock]; rfl
  | spawnFails | register | unlock => rw [hlocked rfl]; rfl
  | release => rw [holdsRegistry_afterRelease]; rfl
  | exitSeen | wait => rw [holdsRegistry_resume]; rfl
  | _ => rfl

/-- The registry is stopped only by a call that has just locked it, and for good. -/
theorem stopped_of_step (h : ProbeStep w call w' call') :
    w'.registry.stopped = w.registry.stopped ∨
      w.locked = false ∧ w'.registry.stopped = true := by
  cases h with
  | stop hlock => exact .inr ⟨hlock, rfl⟩
  | _ => exact .inl rfl

/-- INTERNAL: giving up its mutex leaves a child settled. -/
theorem settled_leave (child : ProbeChild) (caller : TerminateCaller) (h : child.Settled) :
    (caller.leave child).Settled := by
  cases caller <;> exact h

/-- A step adds a child, or changes one child, which stays settled. -/
theorem children_of_step (h : ProbeStep w call w' call') :
    (call = .spawning ∧ w'.children = w.children ++ [ProbeChild.spawned]) ∨
      w'.children = w.children ∨
      ∃ c child child', w.children[c]? = some child ∧ w'.children = w.children.set c child' ∧
        (child.Settled → child'.Settled) := by
  cases h with
  | spawn => exact .inl ⟨rfl, rfl⟩
  | release hc | releaseLast hc | upgrade hc | lockChild hc =>
    exact .inr (.inr ⟨_, _, _, hc, rfl, id⟩)
  | kill hc => exact .inr (.inr ⟨_, _, _, hc, rfl, fun _ => .inr rfl⟩)
  | exit hc => exact .inr (.inr ⟨_, _, _, hc, rfl, fun _ => .inl rfl⟩)
  | exitSeen hc | wait hc => exact .inr (.inr ⟨_, _, _, hc, rfl, settled_leave _ _⟩)
  | _ => exact .inr (.inl rfl)

/-- INTERNAL: a call that is about to spawn has just seen the registry open. -/
theorem open_of_step_spawning (h : ProbeStep w call w' call') (hspawning : call' = .spawning) :
    w'.registry.stopped = false := by
  cases h with
  | lock _ hopen => exact hopen
  | @release _ after =>
    cases after <;> cases hspawning
  | exitSeen | wait =>
    have hholds := congrArg HoldsRegistry hspawning
    rw [holdsRegistry_resume] at hholds
    cases hholds
  | _ => cases hspawning

/-! ## Nothing is spawned -/

/-- **The registry is not stopped between the check of a spawning call and its spawn.** -/
theorem spawning_open {s : ProbeState} (h : probes.Reachable s) :
    s.shared.locked.toNat = (s.tasks.map fun call => (HoldsRegistry call).toNat).sum ∧ True ∧
      ∀ (i : ℕ) call, s.tasks[i]? = some call → call = .spawning →
        s.shared.registry.stopped = false := by
  refine TaskSystem.invariant_ledger (f := fun w => w.locked.toNat)
    (g := fun call => (HoldsRegistry call).toNat) (G := fun _ => True)
    (L := fun w _ call => call = .spawning → w.registry.stopped = false) ?_ ?_ ?_ ?_ h
  · rintro _ rfl
    exact ⟨rfl, trivial⟩
  · rintro s t _ _ (_ | _ | _) <;> exact ⟨rfl, by simp⟩
  · intro s i call a w' call' _ _ hstep hheld _ _
    exact ⟨locked_of_step hstep hheld, trivial, open_of_step_spawning hstep⟩
  · intro s i call a w' call' j other _ _ hstep _ _ hheld _ _ hopen hspawning
    obtain hsame | ⟨hlock, _⟩ := stopped_of_step hstep
    · rw [hsame]
      exact hopen hspawning
    · rw [hspawning, hlock] at hheld
      simp [HoldsRegistry] at hheld

/-- INTERNAL: a stopped registry stays stopped. -/
theorem stopped_stays {s s' : ProbeState} {label : TaskSystem.Label Unit}
    (hstopped : s.shared.registry.stopped = true) (hstep : probes.machine.step s label s') :
    s'.shared.registry.stopped = true := by
  cases hstep with
  | spawn => exact hstopped
  | step _ h =>
    obtain hsame | ⟨_, hstops⟩ := stopped_of_step h
    · exact hsame.trans hstopped
    · exact hstops

/-- INTERNAL: a stopped registry spawns nothing in one step. -/
theorem length_children_of_step {s s' : ProbeState} {label : TaskSystem.Label Unit}
    (hs : probes.Reachable s) (hstopped : s.shared.registry.stopped = true)
    (hstep : probes.machine.step s label s') :
    s'.shared.children.length = s.shared.children.length := by
  cases hstep with
  | spawn => rfl
  | step ht h =>
    obtain ⟨hspawning, _⟩ | hsame | ⟨_, _, _, _, hset, _⟩ := children_of_step h
    · have hopen := (spawning_open hs).2.2 _ _ ht hspawning
      rw [hstopped] at hopen
      cases hopen
    · rw [hsame]
    · rw [hset, List.length_set]

/-- One state of the probes leads to another. -/
def LeadsTo : ProbeState → ProbeState → Prop :=
  Relation.ReflTransGen fun s s' => ∃ label, probes.machine.step s label s'

/-- **A stopped registry spawns nothing any more.** -/
theorem length_children_of_stopped {s s' : ProbeState} (hs : probes.Reachable s)
    (hstopped : s.shared.registry.stopped = true) (hlater : LeadsTo s s') :
    s'.shared.children.length = s.shared.children.length := by
  have hall : probes.Reachable s' ∧ s'.shared.registry.stopped = true ∧
      s'.shared.children.length = s.shared.children.length := by
    induction hlater with
    | refl => exact ⟨hs, hstopped, rfl⟩
    | tail _ hstep ih =>
      obtain ⟨label, hstep⟩ := hstep
      obtain ⟨hreach, hstop, hlength⟩ := ih
      exact ⟨.step hreach hstep, stopped_stays hstop hstep,
        (length_children_of_step hreach hstop hstep).trans hlength⟩
  exact hall.2.2

/-! ## Every child is settled -/

/-- The children that are still to be seen to after a release. -/
def owedAfterRelease : AfterRelease → Option (List ℕ)
  | .finish => none
  | .reap rest => some rest

/-- The children that are still to be seen to after `terminate`. -/
def owedAfterTerminate : TerminateCaller → Option (List ℕ)
  | .drop after => owedAfterRelease after
  | .shutdown rest => some rest

/-- The children that a call of `shutdown_probes` has still to see to, once it has stopped the
registry. -/
def owed : ProbeCall → Option (List ℕ)
  | .upgrading rest upgraded => some (upgraded ++ rest)
  | .reaping rest => some rest
  | .terminating c (.shutdown rest) | .killing c (.shutdown rest) => some (c :: rest)
  | .terminating _ (.drop after) | .killing _ (.drop after) => owedAfterRelease after
  | .waiting _ caller => owedAfterTerminate caller
  | .releasing _ after => owedAfterRelease after
  | .returned => some []
  | _ => none

/-- INTERNAL: what a call owes when it goes on after a release. -/
theorem owed_afterRelease (after : AfterRelease) :
    owed after.resume = owedAfterRelease after := by
  cases after <;> rfl

/-- INTERNAL: what a call owes when it goes on after terminating. -/
theorem owed_resume (c : ℕ) (caller : TerminateCaller) :
    owed (caller.resume c) = owedAfterTerminate caller := by
  cases caller with
  | drop after => exact owed_afterRelease after
  | shutdown rest => rfl

/-- The registry is stopped, and each child is settled or owed. -/
def Accounted (w : ProbeWorld) (owing : List ℕ) : Prop :=
  w.registry.stopped = true ∧
    ∀ (c : ℕ) child, w.children[c]? = some child → child.Settled ∨ c ∈ owing

/-- INTERNAL: the account is kept by a step that spawns nothing. -/
theorem accounted_of_step {owing : List ℕ} (h : ProbeStep w call w' call')
    (hopen : call = .spawning → w.registry.stopped = false) (hacc : Accounted w owing) :
    Accounted w' owing := by
  obtain ⟨hstopped, hchildren⟩ := hacc
  constructor
  · obtain hsame | ⟨_, hstops⟩ := stopped_of_step h
    · exact hsame.trans hstopped
    · exact hstops
  · intro c child hc
    obtain ⟨hspawning, _⟩ | hsame | ⟨k, old, new, hk, hset, hsettled⟩ := children_of_step h
    · rw [hopen hspawning] at hstopped
      cases hstopped
    · rw [hsame] at hc
      exact hchildren c child hc
    · rw [hset] at hc
      obtain ⟨rfl, rfl⟩ | ⟨-, hc⟩ := Pool.getElem?_set_cases hc
      · exact (hchildren k old hk).imp_left hsettled
      · exact hchildren c child hc

/-- INTERNAL: settled children need not be owed. -/
theorem Accounted.forget {owing owing' : List ℕ} (hacc : Accounted w owing)
    (hforget : ∀ c ∈ owing, ∀ child, w.children[c]? = some child →
      child.Settled ∨ c ∈ owing') : Accounted w owing' := by
  refine ⟨hacc.1, fun c child hc => ?_⟩
  obtain hsettled | hmem := hacc.2 c child hc
  · exact .inl hsettled
  · exact hforget c hmem child hc

/-- INTERNAL: a child that is settled need not be owed. -/
theorem Accounted.tail {c : ℕ} {rest : List ℕ} {child : ProbeChild}
    (hacc : Accounted w (c :: rest)) (hc : w.children[c]? = some child)
    (hsettled : child.Settled) : Accounted w rest := by
  apply hacc.forget
  intro k hk other hother
  obtain rfl | hk := List.mem_cons.mp hk
  · rw [hc] at hother
    cases hother
    exact .inl hsettled
  · exact .inr hk

/-- INTERNAL: the child that a step has set. -/
theorem getElem?_setChild {c : ℕ} {old : ProbeChild} (hc : w.children[c]? = some old)
    (child : ProbeChild) : (w.setChild c child).children[c]? = some child := by
  obtain ⟨hlt, _⟩ := List.getElem?_eq_some_iff.mp hc
  exact List.getElem?_set_self hlt

/-- When the call stops the registry, each child that is not registered is settled, and so is
each child that it cannot upgrade. -/
def SeesReleases (w : ProbeWorld) (call : ProbeCall) : Prop :=
  (call = .stopping → ∀ (c : ℕ) child, w.children[c]? = some child →
    child.Settled ∨ c ∈ w.registry.children) ∧
  ∀ c rest upgraded, call = .upgrading (c :: rest) upgraded →
    ∀ child, w.children[c]? = some child → child.strong = 0 → child.Settled

/-- INTERNAL: what the stepping call owes after its step. -/
theorem accounted_self (h : ProbeStep w call w' call')
    (hopen : call = .spawning → w.registry.stopped = false) (hsees : SeesReleases w call)
    (hacc : ∀ owing, owed call = some owing → Accounted w owing) :
    ∀ owing, owed call' = some owing → Accounted w' owing := by
  have hkeep : ∀ owing, owed call = some owing → Accounted w' owing :=
    fun owing howed => accounted_of_step h hopen (hacc owing howed)
  intro owing howed
  cases h with
  | stop =>
    cases howed
    exact ⟨rfl, hsees.1 rfl⟩
  | upgrade =>
    cases howed
    rw [List.append_assoc]
    exact hkeep _ rfl
  | @upgradeFails c rest upgraded child hc hzero =>
    cases howed
    apply (hkeep _ rfl).forget
    intro k hk other hother
    rw [List.mem_append, List.mem_cons] at hk
    obtain hk | rfl | hk := hk
    · exact .inr (List.mem_append_left _ hk)
    · rw [hc] at hother
      cases hother
      exact .inl (hsees.2 _ _ _ rfl child hc hzero)
    · exact .inr (List.mem_append_right _ hk)
  | unlock =>
    cases howed
    have hacc' := hkeep _ rfl
    rwa [List.append_nil] at hacc'
  | @exitSeen c caller child hc hexited =>
    rw [owed_resume] at howed
    cases caller with
    | drop after => exact hkeep _ howed
    | shutdown rest =>
      cases howed
      exact (hkeep _ rfl).tail (getElem?_setChild hc _) (.inl hexited)
  | @kill c caller child hc =>
    cases caller with
    | drop after => exact hkeep _ howed
    | shutdown rest =>
      cases howed
      exact (hkeep _ rfl).tail (getElem?_setChild hc _) (.inr rfl)
  | @exitUnseen c caller =>
    cases caller with
    | drop after => exact hkeep _ howed
    | shutdown rest => exact hkeep _ howed
  | wait =>
    rw [owed_resume] at howed
    exact hkeep _ howed
  | release =>
    rw [owed_afterRelease] at howed
    exact hkeep _ howed
  | lockChild | reaped | releaseLast => exact hkeep _ howed
  | _ => cases howed

/-- Each call sees the releases, in the sense of `SeesReleases`, at each of its steps. -/
def ReleasesSeen : ProbeState → TaskSystem.Label Unit → Prop :=
  TaskSystem.StepsMeet fun s call => SeesReleases s.shared call

/-- **What a call of `shutdown_probes` has not settled yet, it still owes.** -/
theorem accounted_of_reachable {s : ProbeState}
    (h : (probes.machine.when ReleasesSeen).Reachable s) :
    True ∧ ∀ (i : ℕ) call, s.tasks[i]? = some call →
      ∀ owing, owed call = some owing → Accounted s.shared owing := by
  refine TaskSystem.invariant_when (G := fun _ => True)
    (L := fun w _ call => ∀ owing, owed call = some owing → Accounted w owing)
    (fun _ _ => trivial) ?_ ?_ ?_ h
  · rintro s t _ _ _ (_ | _ | _) owing howed <;> cases howed
  · intro s i call a w' call' hs hsees hi hstep _ hacc
    exact ⟨trivial, accounted_self hstep ((spawning_open hs.of_when).2.2 i call hi)
      (hsees call hi) hacc⟩
  · intro s i call a w' call' j other hs _ hi hstep _ _ _ _ hother owing howed
    exact accounted_of_step hstep ((spawning_open hs.of_when).2.2 i call hi)
      (hother owing howed)

/-- Each child that was ever spawned is over or has been sent the kill, and no child is spawned
any more. -/
def ShutdownFinal (s : ProbeState) : Prop :=
  (∀ child ∈ s.shared.children, child.exited = true ∨ child.killed = true) ∧
    ∀ s', LeadsTo s s' → s'.shared.children.length = s.shared.children.length

/-- **Shutdown is final** once a call of `shutdown_probes` has returned, in every run in which
the releases are seen. -/
theorem shutdown_final {s : ProbeState} (h : (probes.machine.when ReleasesSeen).Reachable s)
    (hreturned : ProbeCall.returned ∈ s.tasks) : ShutdownFinal s := by
  obtain ⟨i, hi⟩ := List.mem_iff_getElem?.mp hreturned
  have hacc := (accounted_of_reachable h).2 i .returned hi [] rfl
  constructor
  · intro child hchild
    obtain ⟨c, hc⟩ := List.mem_iff_getElem?.mp hchild
    obtain hsettled | hnil := hacc.2 c child hc
    · exact hsettled
    · cases hnil
  · intro s' hlater
    exact length_children_of_stopped h.of_when hacc.1 hlater

/-! ### A child that is reaped -/

/-- `shutdown_probes` has killed the child of a call that still polls it. -/
def reapedState : ProbeState :=
  ⟨⟨⟨true, []⟩, false, [⟨1, false, false, true⟩]⟩, [.polling 0, .returned]⟩

/-- The run. -/
theorem reapedState_reachable : (probes.machine.when ReleasesSeen).Reachable reapedState := by
  have h0 : (probes.machine.when ReleasesSeen).Reachable ⟨⟨⟨false, []⟩, false, []⟩, []⟩ :=
    .init ⟨rfl, rfl⟩
  have h1 := TaskSystem.reachable_spawn (TaskSystem.reachable_spawn h0 .outputWithTimeout)
    .shutdownProbes
  have h2 := TaskSystem.reachable_step (i := 0) (a := ()) h1 rfl ⟨nofun, nofun⟩ (.lock rfl rfl)
  have h3 := TaskSystem.reachable_step (i := 0) (a := ()) h2 rfl ⟨nofun, nofun⟩ .spawn
  have h4 := TaskSystem.reachable_step (i := 0) (a := ()) h3 rfl ⟨nofun, nofun⟩ .register
  have hstop : SeesReleases ⟨⟨false, [0]⟩, false, [ProbeChild.spawned]⟩ .stopping := by
    refine ⟨fun _ c child hc => .inr ?_, nofun⟩
    obtain ⟨hlt, _⟩ := List.getElem?_eq_some_iff.mp hc
    exact List.mem_singleton.mpr (Nat.lt_one_iff.mp hlt)
  have h5 := TaskSystem.reachable_step (i := 1) (a := ()) h4 rfl hstop (.stop rfl)
  have hupgrade : SeesReleases ⟨⟨true, []⟩, true, [ProbeChild.spawned]⟩ (.upgrading [0] []) := by
    refine ⟨nofun, fun c rest upgraded heq child hc hzero => ?_⟩
    cases heq
    cases hc
    cases hzero
  have h6 := TaskSystem.reachable_step (i := 1) (a := ()) h5 rfl hupgrade (.upgrade rfl nofun)
  have h7 := TaskSystem.reachable_step (i := 1) (a := ()) h6 rfl ⟨nofun, nofun⟩ .unlock
  have h8 := TaskSystem.reachable_step (i := 1) (a := ()) h7 rfl ⟨nofun, nofun⟩ (.lockChild rfl rfl)
  have h9 := TaskSystem.reachable_step (i := 1) (a := ()) h8 rfl ⟨nofun, nofun⟩ .exitUnseen
  have h10 := TaskSystem.reachable_step (i := 1) (a := ()) h9 rfl ⟨nofun, nofun⟩ (.kill rfl)
  have h11 := TaskSystem.reachable_step (i := 1) (a := ()) h10 rfl ⟨nofun, nofun⟩ (.wait rfl)
  have h12 := TaskSystem.reachable_step (i := 1) (a := ()) h11 rfl ⟨nofun, nofun⟩
    (.release rfl nofun)
  exact TaskSystem.reachable_step (i := 1) (a := ()) h12 rfl ⟨nofun, nofun⟩ .reaped

/-- The theorem for this run. -/
theorem shutdown_final_reaped : ShutdownFinal reapedState :=
  shutdown_final reapedState_reachable (List.mem_iff_getElem?.mpr ⟨1, rfl⟩)

/-! ## The releases that are not seen -/

/-- The call is in `ProbeChild::drop` of the child and has not sent the kill. -/
def InDrop (c : ℕ) : ProbeCall → Prop
  | .terminating k (.drop _) | .killing k (.drop _) => k = c
  | _ => False

/-- The child is not referred to any more, and still running. -/
def Released (w : ProbeWorld) (c : ℕ) : Prop :=
  ∃ child, w.children[c]? = some child ∧ child.strong = 0 ∧ ¬ child.Settled

/-- INTERNAL: a child is released by a call that goes on to drop it, and the drop ends with
the child settled. -/
theorem released_of_step {c : ℕ} (h : ProbeStep w call w' call') (hreleased : Released w' c) :
    InDrop c call' ∨ ¬ InDrop c call ∧ Released w c := by
  obtain ⟨child', hc', hzero, hrunning⟩ := hreleased
  -- a step that sets one child leaves the others as they were
  have hset : ∀ {k old new}, w.children[k]? = some old → w' = w.setChild k new →
      k = c ∧ child' = new ∨ k ≠ c ∧ Released w c := by
    intro k old new hk hw'
    subst hw'
    obtain hnew | ⟨hne, hold⟩ := Pool.getElem?_set_cases hc'
    · exact .inl hnew
    · exact .inr ⟨hne, child', hold, hzero, hrunning⟩
  cases h with
  | spawn =>
    refine .inr ⟨id, ?_⟩
    change (w.children ++ [ProbeChild.spawned])[c]? = some child' at hc'
    rw [List.getElem?_append] at hc'
    split at hc'
    · exact ⟨child', hc', hzero, hrunning⟩
    · rw [List.getElem?_singleton] at hc'
      split at hc'
      · cases hc'
        cases hzero
      · cases hc'
  | @release k after child hk hlast =>
    refine .inr ⟨id, ?_⟩
    obtain ⟨rfl, rfl⟩ | ⟨_, hreleased⟩ := hset hk rfl
    · refine ⟨child, hk, ?_, hrunning⟩
      change child.strong - 1 = 0 at hzero
      omega
    · exact hreleased
  | @releaseLast k after child hk =>
    obtain ⟨rfl, _⟩ | ⟨_, hreleased⟩ := hset hk rfl
    · exact .inl rfl
    · exact .inr ⟨id, hreleased⟩
  | @exitSeen k caller child hk hexited =>
    obtain ⟨rfl, rfl⟩ | ⟨hne, hreleased⟩ := hset hk rfl
    · exact absurd (settled_leave child caller (.inl hexited)) hrunning
    · refine .inr ⟨?_, hreleased⟩
      cases caller with
      | drop after => exact hne
      | shutdown rest => exact id
  | @exitUnseen k caller =>
    by_cases hdrop : InDrop c (.terminating k caller)
    · cases caller with
      | drop after => exact .inl hdrop
      | shutdown rest => cases hdrop
    · exact .inr ⟨hdrop, child', hc', hzero, hrunning⟩
  | @kill k caller child hk =>
    obtain ⟨rfl, rfl⟩ | ⟨hne, hreleased⟩ := hset hk rfl
    · exact absurd (.inr rfl) hrunning
    · refine .inr ⟨?_, hreleased⟩
      cases caller with
      | drop after => exact hne
      | shutdown rest => exact id
  | @wait k caller child hk =>
    refine .inr ⟨id, ?_⟩
    obtain ⟨rfl, rfl⟩ | ⟨_, hreleased⟩ := hset hk rfl
    · refine ⟨child, hk, ?_, fun hsettled => hrunning (settled_leave child caller hsettled)⟩
      cases caller <;> exact hzero
    · exact hreleased
  | @upgrade k rest upgraded child hk =>
    refine .inr ⟨id, ?_⟩
    obtain ⟨rfl, rfl⟩ | ⟨_, hreleased⟩ := hset hk rfl
    · cases hzero
    · exact hreleased
  | @lockChild k rest child hk =>
    refine .inr ⟨id, ?_⟩
    obtain ⟨rfl, rfl⟩ | ⟨_, hreleased⟩ := hset hk rfl
    · exact ⟨child, hk, hzero, hrunning⟩
    · exact hreleased
  | @exit k child hk =>
    refine .inr ⟨id, ?_⟩
    obtain ⟨rfl, rfl⟩ | ⟨_, hreleased⟩ := hset hk rfl
    · exact absurd (.inl rfl) hrunning
    · exact hreleased
  | _ => exact .inr ⟨id, child', hc', hzero, hrunning⟩

/-- **A released child that still runs is in the drop of some call.** -/
theorem released_inDrop {s : ProbeState} (h : probes.Reachable s) {c : ℕ}
    (hreleased : Released s.shared c) : ∃ call ∈ s.tasks, InDrop c call := by
  induction h with
  | init hinit =>
    obtain ⟨child, hc, _⟩ := hreleased
    rw [hinit.1] at hc
    cases hc
  | step _ hstep ih =>
    cases hstep with
    | spawn =>
      obtain ⟨call, hmem, hdrop⟩ := ih hreleased
      exact ⟨call, List.mem_append_left _ hmem, hdrop⟩
    | @step i call a w' call' hi hstep =>
      obtain hdrop | ⟨hnot, hbefore⟩ := released_of_step hstep hreleased
      · refine ⟨call', ?_, hdrop⟩
        obtain ⟨hlt, _⟩ := List.getElem?_eq_some_iff.mp hi
        exact List.mem_set hlt call'
      · obtain ⟨other, hmem, hdrop⟩ := ih hbefore
        refine ⟨other, Pool.mem_set_of_ne hi ?_ hmem, hdrop⟩
        rintro rfl
        exact hnot hdrop

/-- Each child that is referred to is in the list. -/
def Referenced (w : ProbeWorld) (children : List ℕ) : Prop :=
  ∀ (c : ℕ) child, w.children[c]? = some child → child.strong ≠ 0 → c ∈ children

/-- INTERNAL: a child that has lost its last reference does not get another one. -/
theorem referenced_setChild {c : ℕ} {child child' : ProbeChild} {children : List ℕ}
    (hc : w.children[c]? = some child) (hstrong : child'.strong ≠ 0 → child.strong ≠ 0)
    (h : Referenced w children) : Referenced (w.setChild c child') children := by
  intro k other hk hother
  obtain ⟨rfl, rfl⟩ | ⟨-, hold⟩ := Pool.getElem?_set_cases hk
  · exact h _ child hc (hstrong hother)
  · exact h k other hold hother

/-- INTERNAL: only a spawn brings a new reference. -/
theorem referenced_of_step {children : List ℕ} (h : ProbeStep w call w' call')
    (hspawning : call ≠ .spawning) (href : Referenced w children) : Referenced w' children := by
  cases h with
  | spawn => exact absurd rfl hspawning
  | @release _ _ child hc =>
    refine referenced_setChild hc (fun hleft hzero => hleft ?_) href
    change child.strong - 1 = 0
    omega
  | releaseLast hc => exact referenced_setChild hc (fun hleft => absurd rfl hleft) href
  | upgrade hc hstrong => exact referenced_setChild hc (fun _ => hstrong) href
  | kill hc | lockChild hc | exit hc => exact referenced_setChild hc id href
  | @exitSeen _ caller _ hc | @wait _ caller _ hc =>
    refine referenced_setChild hc ?_ href
    cases caller <;> exact id
  | _ => exact href

/-- What a call knows of the registry while it holds the mutex. -/
def RegistryKnown (w : ProbeWorld) : ProbeCall → Prop
  | .spawning => Referenced w w.registry.children
  | .retaining new kept rest => Referenced w (kept ++ rest ++ [new])
  | .upgrading .. => w.registry.stopped = true
  | _ => True

/-- INTERNAL: the same after a step of another call. -/
theorem registryKnown_other {other : ProbeCall} (h : ProbeStep w call w' call')
    (hheld : (HoldsRegistry call).toNat + (HoldsRegistry other).toNat ≤ w.locked.toNat)
    (hknown : RegistryKnown w other) : RegistryKnown w' other := by
  have hone : w.locked.toNat ≤ 1 := Bool.toNat_le w.locked
  cases other with
  | spawning | retaining =>
    have hspawning : call ≠ .spawning := by
      rintro rfl
      simp only [HoldsRegistry, Bool.toNat_true] at hheld
      omega
    have href := referenced_of_step h hspawning hknown
    cases h with
    | stop hlock =>
      rw [hlock] at hheld
      simp [HoldsRegistry] at hheld
    | register =>
      simp only [HoldsRegistry, Bool.toNat_true] at hheld
      omega
    | _ => exact href
  | upgrading =>
    obtain hsame | ⟨_, hstops⟩ := stopped_of_step h
    · exact hsame.trans hknown
    · exact hstops
  | _ => trivial

/-- INTERNAL: a call that does not hold the mutex knows nothing. -/
theorem registryKnown_of_not_holds (h : HoldsRegistry call = false) : RegistryKnown w call := by
  cases call with
  | spawning | retaining | upgrading => cases h
  | _ => trivial

/-- INTERNAL: the new child is referred to, and so may be those that were. -/
theorem referenced_spawn {children : List ℕ} (href : Referenced w children) :
    Referenced { w with children := w.children ++ [ProbeChild.spawned] }
      (children ++ [w.children.length]) := by
  intro c child hc hstrong
  change (w.children ++ [ProbeChild.spawned])[c]? = some child at hc
  rw [List.mem_append, List.mem_singleton]
  by_cases hlt : c < w.children.length
  · rw [List.getElem?_append_left hlt] at hc
    exact .inl (href c child hc hstrong)
  · obtain ⟨hbound, _⟩ := List.getElem?_eq_some_iff.mp hc
    rw [List.length_append, List.length_singleton] at hbound
    exact .inr (by omega)

/-- INTERNAL: `retain` leaves out only what is not referred to. -/
theorem referenced_retain {new c : ℕ} {kept rest : List ℕ} {child : ProbeChild}
    (hc : w.children[c]? = some child) (href : Referenced w (kept ++ c :: rest ++ [new])) :
    Referenced w ((if 0 < child.strong then kept ++ [c] else kept) ++ rest ++ [new]) := by
  intro k other hk hstrong
  have hmem := href k other hk hstrong
  split
  · rwa [List.append_assoc kept]
  · rename_i hzero
    have hne : k ≠ c := by
      rintro rfl
      rw [hc] at hk
      cases hk
      omega
    simp only [List.mem_append, List.mem_cons] at hmem ⊢
    tauto

/-- INTERNAL: what is known of the registry after a step of the call that knew it. -/
theorem registryKnown_self (h : ProbeStep w call w' call')
    (hheld : (HoldsRegistry call).toNat ≤ w.locked.toNat)
    (hopen : w.locked = false → w.registry.stopped = false → Referenced w w.registry.children)
    (hknown : RegistryKnown w call) :
    (w'.locked = false → w'.registry.stopped = false →
      Referenced w' w'.registry.children) ∧ RegistryKnown w' call' := by
  have hopen' : call ≠ .spawning → w.locked = false → w.registry.stopped = false →
      Referenced w' w.registry.children :=
    fun hne hlock hstopped => referenced_of_step h hne (hopen hlock hstopped)
  cases h with
  | lock hlock hstopped => exact ⟨fun hfree => (by cases hfree), hopen hlock hstopped⟩
  | spawnFails => exact ⟨fun _ _ => hknown, trivial⟩
  | spawn =>
    refine ⟨fun hfree => ?_, referenced_spawn hknown⟩
    change w.locked = false at hfree
    rw [hfree] at hheld
    simp [HoldsRegistry] at hheld
  | retain hc => exact ⟨hopen' (by simp), referenced_retain hc hknown⟩
  | register =>
    refine ⟨fun _ _ => ?_, trivial⟩
    change Referenced w (_ ++ [] ++ _) at hknown
    rwa [List.append_nil] at hknown
  | stop => exact ⟨fun hfree => (by cases hfree), rfl⟩
  | upgrade | upgradeFails => exact ⟨hopen' (by simp), hknown⟩
  | unlock =>
    refine ⟨fun _ hstopped => ?_, trivial⟩
    change w.registry.stopped = true at hknown
    change w.registry.stopped = false at hstopped
    rw [hknown] at hstopped
    cases hstopped
  | release =>
    exact ⟨hopen' (by simp), registryKnown_of_not_holds (holdsRegistry_afterRelease _)⟩
  | exitSeen | wait =>
    exact ⟨hopen' (by simp), registryKnown_of_not_holds (holdsRegistry_resume _ _)⟩
  | _ => exact ⟨hopen' (by simp), trivial⟩

/-- **While the registry is open, each child that is referred to is registered**, unless the
registry is being changed. -/
theorem registered_of_reachable {s : ProbeState} (h : probes.Reachable s) :
    s.shared.locked.toNat = (s.tasks.map fun call => (HoldsRegistry call).toNat).sum ∧
      (s.shared.locked = false → s.shared.registry.stopped = false →
        Referenced s.shared s.shared.registry.children) ∧
      ∀ (i : ℕ) call, s.tasks[i]? = some call → RegistryKnown s.shared call := by
  refine TaskSystem.invariant_ledger (f := fun w => w.locked.toNat)
    (g := fun call => (HoldsRegistry call).toNat)
    (G := fun w => w.locked = false → w.registry.stopped = false →
      Referenced w w.registry.children)
    (L := fun w _ call => RegistryKnown w call) ?_ ?_ ?_ ?_ h
  · rintro _ rfl
    refine ⟨rfl, fun _ _ c child hc => ?_⟩
    cases hc
  · rintro s t _ _ (_ | _ | _) <;> exact ⟨rfl, trivial⟩
  · intro s i call a w' call' _ _ hstep hheld hopen hknown
    exact ⟨locked_of_step hstep hheld, registryKnown_self hstep hheld hopen hknown⟩
  · intro s i call a w' call' j other _ _ hstep _ _ hheld _ _ hknown
    exact registryKnown_other hstep hheld hknown

/-- **The releases are seen unless some call is in the drop of a child** that is not settled:
this is so at any step by which the open registry is stopped or a reference is upgraded. -/
theorem seesReleases_of_no_drop {s : ProbeState} (h : probes.Reachable s)
    (hfree : call = .stopping → s.shared.locked = false ∧ s.shared.registry.stopped = false)
    (hdrop : ∀ other ∈ s.tasks, ∀ c, InDrop c other → ¬ Released s.shared c) :
    SeesReleases s.shared call := by
  have hsettled : ∀ (c : ℕ) child, s.shared.children[c]? = some child → child.strong = 0 →
      child.Settled := by
    intro c child hc hzero
    by_contra hrunning
    have hreleased : Released s.shared c := ⟨child, hc, hzero, hrunning⟩
    obtain ⟨other, hmem, hin⟩ := released_inDrop h hreleased
    exact hdrop other hmem c hin hreleased
  constructor
  · intro hstopping c child hc
    obtain ⟨hlock, hopen⟩ := hfree hstopping
    by_cases hzero : child.strong = 0
    · exact .inl (hsettled c child hc hzero)
    · exact .inr ((registered_of_reachable h).2.1 hlock hopen c child hc hzero)
  · intro c _ _ _ child hc hzero
    exact hsettled c child hc hzero

/-! ### A child that is missed -/

/-- `shutdown_probes` has returned while a call is about to kill the child it gave up. -/
def missedState : ProbeState :=
  ⟨⟨⟨true, []⟩, false, [⟨0, false, false, false⟩]⟩, [.terminating 0 (.drop .finish), .returned]⟩

/-- The run: the last reference is released just before the registry is stopped. -/
theorem missedState_reachable : probes.Reachable missedState := by
  have h0 : probes.Reachable ⟨⟨⟨false, []⟩, false, []⟩, []⟩ := .init ⟨rfl, rfl⟩
  have h1 := Machine.Reachable.step h0 (TaskSystem.Step.spawn .outputWithTimeout)
  have h2 := Machine.Reachable.step h1 (TaskSystem.Step.spawn .shutdownProbes)
  have h3 := Machine.Reachable.step h2
    (TaskSystem.Step.step (i := 0) (a := ()) rfl (ProbeStep.lock rfl rfl))
  have h4 := Machine.Reachable.step h3
    (TaskSystem.Step.step (i := 0) (a := ()) rfl ProbeStep.spawn)
  have h5 := Machine.Reachable.step h4
    (TaskSystem.Step.step (i := 0) (a := ()) rfl ProbeStep.register)
  have h6 := Machine.Reachable.step h5
    (TaskSystem.Step.step (i := 0) (a := ()) rfl ProbeStep.giveUp)
  have h7 := Machine.Reachable.step h6
    (TaskSystem.Step.step (i := 0) (a := ()) rfl (ProbeStep.releaseLast rfl rfl))
  have h8 := Machine.Reachable.step h7
    (TaskSystem.Step.step (i := 1) (a := ()) rfl (ProbeStep.stop rfl))
  have h9 := Machine.Reachable.step h8
    (TaskSystem.Step.step (i := 1) (a := ()) rfl (ProbeStep.upgradeFails rfl rfl))
  have h10 := Machine.Reachable.step h9
    (TaskSystem.Step.step (i := 1) (a := ()) rfl ProbeStep.unlock)
  exact Machine.Reachable.step h10
    (TaskSystem.Step.step (i := 1) (a := ()) rfl ProbeStep.reaped)

/-- Shutdown is not final: it does not see a child between its last release and its kill. -/
theorem not_shutdown_final :
    ¬ ∀ s : ProbeState, probes.Reachable s → ProbeCall.returned ∈ s.tasks → ShutdownFinal s := by
  intro h
  have hfinal := h missedState missedState_reachable (List.mem_iff_getElem?.mpr ⟨1, rfl⟩)
  obtain hexited | hkilled := hfinal.1 _ (List.mem_singleton.mpr rfl)
  · cases hexited
  · cases hkilled

end REnvTools.Analysis
