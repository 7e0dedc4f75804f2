import REnvTools.Lib.Machine
import REnvTools.Lib.Pool

/-!
# Machines of threads over a shared state

A `TaskSystem` says how a new thread may start and what one atomic step of thread `i`
does to the shared state and to the thread. Its `machine` interleaves the steps of
arbitrarily many threads, and lets new threads start at any moment.

The rules of this file carry a fact about one step to every reachable state:

* `invariant`, `invariant_when`: a fact of the shared state and of each thread, kept by the
  thread's own step and not disturbed by the steps of the others;
* `conserved_when`: a quantity that moves between the shared state and the stepping thread;
* `invariant_ledger`: the invariant rule together with a shared count that always equals
  the sum of the threads' own;
* `provenance`, `provenance_thread`: what holds of the shared state, or was seen there by a thread,
  was brought about by a thread that is still there.
-/

set_option autoImplicit false

namespace REnvTools.Lib

/-- How threads start and step. -/
structure TaskSystem (σ τ α : Type) where
  /-- The shared states a run may start in, with no threads. -/
  init : σ → Prop
  /-- The local states a new thread may start in. -/
  spawn : σ → τ → Prop
  /-- One atomic step of the thread with the given number. -/
  step : ℕ → σ → τ → α → σ → τ → Prop

namespace TaskSystem

/-- The shared state and the threads' local states. -/
structure State (σ τ : Type) where
  shared : σ
  tasks : List τ

/-- What a step of the pool does. -/
inductive Label (α : Type)
  /-- A new thread starts. -/
  | spawn
  /-- Thread `i` takes a step. -/
  | step (i : ℕ) (a : α)

variable {σ τ α : Type}

/-- The steps of the pool. -/
inductive Step (P : TaskSystem σ τ α) : State σ τ → Label α → State σ τ → Prop
  | spawn {s : State σ τ} {t : τ} (h : P.spawn s.shared t) :
      Step P s .spawn ⟨s.shared, s.tasks ++ [t]⟩
  | step {s : State σ τ} {i : ℕ} {t : τ} {a : α} {sh' : σ} {t' : τ}
      (ht : s.tasks[i]? = some t) (h : P.step i s.shared t a sh' t') :
      Step P s (.step i a) ⟨sh', s.tasks.set i t'⟩

/-- The interleavings of arbitrarily many threads. -/
def machine (P : TaskSystem σ τ α) : Machine (State σ τ) (Label α) where
  init s := P.init s.shared ∧ s.tasks = []
  step := Step P

/-- The states the threads reach together. -/
abbrev Reachable (P : TaskSystem σ τ α) (s : State σ τ) : Prop := P.machine.Reachable s

variable {P : TaskSystem σ τ α} {C : State σ τ → Label α → Prop}

/-- **What a step does to one thread**: nothing, a step of its own, or a step of another thread
over the shared state. -/
theorem thread_step {s s' : State σ τ} {label : Label α} (hstep : P.machine.step s label s')
    {i : ℕ} {t : τ} (ht : s.tasks[i]? = some t) :
    ∃ t', s'.tasks[i]? = some t' ∧
      (t' = t ∧ s'.shared = s.shared ∨ (∃ a, P.step i s.shared t a s'.shared t') ∨
        t' = t ∧ ∃ j u a u', P.step j s.shared u a s'.shared u') := by
  have hlt := (List.getElem?_eq_some_iff.mp ht).1
  cases hstep with
  | spawn => exact ⟨t, (List.getElem?_append_left hlt).trans ht, .inl ⟨rfl, rfl⟩⟩
  | @step j u a sh' u' hu h =>
    by_cases hj : j = i
    · subst hj
      rw [ht] at hu
      cases hu
      exact ⟨u', List.getElem?_set_self hlt, .inr (.inl ⟨a, h⟩)⟩
    · exact ⟨t, (List.getElem?_set_ne hj).trans ht, .inr (.inr ⟨rfl, j, u, a, u', h⟩)⟩

/-- **The invariant rule.** `G` is about the shared state, `L` about one thread over it.
Every hypothesis may use what is already known of the reachable states. -/
theorem invariant_when {G : σ → Prop} {L : σ → ℕ → τ → Prop}
    (hinit : ∀ sh, P.init sh → G sh)
    (hspawn : ∀ s t, (P.machine.when C).Reachable s → C s .spawn → G s.shared →
      P.spawn s.shared t → L s.shared s.tasks.length t)
    (hself : ∀ s i t a sh' t', (P.machine.when C).Reachable s → C s (.step i a) →
      s.tasks[i]? = some t → P.step i s.shared t a sh' t' → G s.shared → L s.shared i t →
      G sh' ∧ L sh' i t')
    (hother : ∀ s i t a sh' t' j u, (P.machine.when C).Reachable s → C s (.step i a) →
      s.tasks[i]? = some t → P.step i s.shared t a sh' t' → j ≠ i → s.tasks[j]? = some u →
      G s.shared → L s.shared i t → L s.shared j u → L sh' j u)
    {s : State σ τ} (h : (P.machine.when C).Reachable s) :
    G s.shared ∧ ∀ i t, s.tasks[i]? = some t → L s.shared i t := by
  induction h with
  | init h =>
    refine ⟨hinit _ h.1, fun i t hi => ?_⟩
    rw [h.2] at hi
    cases hi
  | step hs h ih =>
    obtain ⟨hC, h⟩ := h
    obtain ⟨hG, hL⟩ := ih
    cases h with
    | spawn h =>
      exact ⟨hG, Pool.forall_getElem?_append (hspawn _ _ hs hC hG h) hL⟩
    | step ht h =>
      obtain ⟨hG', hL'⟩ := hself _ _ _ _ _ _ hs hC ht h hG (hL _ _ ht)
      exact ⟨hG', Pool.forall_getElem?_set hL' fun j u hj hu =>
        hother _ _ _ _ _ _ _ _ hs hC ht h hj hu hG (hL _ _ ht) (hL _ _ hu)⟩

/-- INTERNAL: every run is a run under the trivial restriction. -/
theorem when_true {s : State σ τ} (h : P.Reachable s) :
    (P.machine.when fun _ _ => True).Reachable s := by
  induction h with
  | init h => exact .init h
  | step _ h ih => exact .step ih ⟨trivial, h⟩

/-- The invariant rule over all runs. -/
theorem invariant {G : σ → Prop} {L : σ → ℕ → τ → Prop}
    (hinit : ∀ sh, P.init sh → G sh)
    (hspawn : ∀ s t, P.Reachable s → G s.shared → P.spawn s.shared t →
      L s.shared s.tasks.length t)
    (hself : ∀ s i t a sh' t', P.Reachable s → s.tasks[i]? = some t →
      P.step i s.shared t a sh' t' → G s.shared → L s.shared i t → G sh' ∧ L sh' i t')
    (hother : ∀ s i t a sh' t' j u, P.Reachable s → s.tasks[i]? = some t →
      P.step i s.shared t a sh' t' → j ≠ i → s.tasks[j]? = some u →
      G s.shared → L s.shared i t → L s.shared j u → L sh' j u)
    {s : State σ τ} (h : P.Reachable s) :
    G s.shared ∧ ∀ i t, s.tasks[i]? = some t → L s.shared i t :=
  invariant_when (C := fun _ _ => True) hinit (fun s t hs _ => hspawn s t hs.of_when)
    (fun s i t a sh' t' hs _ => hself s i t a sh' t' hs.of_when)
    (fun s i t a sh' t' j u hs _ => hother s i t a sh' t' j u hs.of_when) (when_true h)

/-- INTERNAL: a thread of which `W` holds is still there after a step. -/
theorem provenance_step {β : Type} {W : τ → β → Prop}
    (hkeep : ∀ i sh t a sh' t' b, P.step i sh t a sh' t' → W t b → W t' b)
    {s s' : State σ τ} {label : Label α} (h : Step P s label s') {b : β}
    (hW : ∃ (i : ℕ) (t : τ), s.tasks[i]? = some t ∧ W t b) :
    ∃ (i : ℕ) (t : τ), s'.tasks[i]? = some t ∧ W t b := by
  obtain ⟨j, u, hu, hW⟩ := hW
  have hlt := (List.getElem?_eq_some_iff.mp hu).1
  cases h with
  | spawn h => exact ⟨j, u, (List.getElem?_append_left hlt).trans hu, hW⟩
  | @step i t _ _ t' ht h =>
    by_cases hj : j = i
    · subst hj
      rw [ht] at hu
      cases hu
      exact ⟨j, t', List.getElem?_set_self hlt, hkeep _ _ _ _ _ _ b h hW⟩
    · exact ⟨j, u, (List.getElem?_set_ne (Ne.symm hj)).trans hu, hW⟩

/-- **The provenance rule.** If `F` comes to hold of the shared state only by the step of a
thread of which `W` then holds, and `W` is kept by a thread's own steps, wherever `F` holds there
is such a thread. -/
theorem provenance {β : Type} {F : σ → β → Prop} {W : τ → β → Prop}
    (hinit : ∀ sh b, P.init sh → ¬F sh b)
    (hstep : ∀ i sh t a sh' t' b, P.step i sh t a sh' t' → F sh' b → F sh b ∨ W t' b)
    (hkeep : ∀ i sh t a sh' t' b, P.step i sh t a sh' t' → W t b → W t' b)
    {s : State σ τ} (h : P.Reachable s) {b : β} (hF : F s.shared b) :
    ∃ (i : ℕ) (t : τ), s.tasks[i]? = some t ∧ W t b := by
  induction h with
  | init h => exact absurd hF (hinit _ b h.1)
  | @step s s' label _ h ih =>
    have hkept := provenance_step hkeep h (b := b)
    cases h with
    | spawn h => exact hkept (ih hF)
    | @step i t _ _ t' ht h =>
      obtain hF | hW := hstep _ _ _ _ _ _ b h hF
      · exact hkept (ih hF)
      · exact ⟨i, t', List.getElem?_set_self (List.getElem?_eq_some_iff.mp ht).1, hW⟩

/-- The provenance rule for what a thread has seen: `V` comes to hold of a thread only at a step
at which there is a thread of which `W` holds. -/
theorem provenance_thread {β : Type} {V W : τ → β → Prop}
    (hspawn : ∀ sh t b, P.spawn sh t → ¬V t b)
    (hstep : ∀ s i t a sh' t' b, P.Reachable s → s.tasks[i]? = some t →
      P.step i s.shared t a sh' t' → V t' b →
      V t b ∨ W t' b ∨ ∃ (j : ℕ) (u : τ), s.tasks[j]? = some u ∧ W u b)
    (hkeep : ∀ i sh t a sh' t' b, P.step i sh t a sh' t' → W t b → W t' b)
    {s : State σ τ} (h : P.Reachable s) {b : β} :
    ∀ (i : ℕ) (t : τ), s.tasks[i]? = some t → V t b →
      ∃ (j : ℕ) (u : τ), s.tasks[j]? = some u ∧ W u b := by
  induction h with
  | init h =>
    intro i t ht
    rw [h.2] at ht
    cases ht
  | @step s s' label hs h ih =>
    have hkept := provenance_step hkeep h (b := b)
    cases h with
    | spawn h =>
      exact Pool.forall_getElem?_append (fun hV => absurd hV (hspawn _ _ b h))
        fun i t ht hV => hkept (ih i t ht hV)
    | @step i t _ _ t' ht h =>
      refine Pool.forall_getElem?_set (fun hV => ?_) fun j u _ hu hV => hkept (ih j u hu hV)
      obtain hV | hW | hW := hstep _ _ _ _ _ _ b hs ht h hV
      · exact hkept (ih i t ht hV)
      · exact ⟨i, t', List.getElem?_set_self (List.getElem?_eq_some_iff.mp ht).1, hW⟩
      · exact hkept hW

/-! ### Conditions on the stepping thread -/

/-- The condition that each thread meets `Q` at each of its steps. -/
def StepsMeet (Q : State σ τ → τ → Prop) (s : State σ τ) : Label α → Prop
  | .spawn => True
  | .step i _ => ∀ t, s.tasks[i]? = some t → Q s t

variable {Q : State σ τ → τ → Prop}

/-- A thread starts. -/
theorem reachable_spawn {s : State σ τ} {t : τ} (hs : (P.machine.when (StepsMeet Q)).Reachable s)
    (h : P.spawn s.shared t) :
    (P.machine.when (StepsMeet Q)).Reachable ⟨s.shared, s.tasks ++ [t]⟩ := by
  have hmeets : StepsMeet (α := α) Q s .spawn := trivial
  exact .step hs ⟨hmeets, .spawn h⟩

/-- A thread that meets the condition steps. -/
theorem reachable_step {s : State σ τ} {i : ℕ} {t t' : τ} {a : α} {sh' : σ}
    (hs : (P.machine.when (StepsMeet Q)).Reachable s) (ht : s.tasks[i]? = some t) (hQ : Q s t)
    (h : P.step i s.shared t a sh' t') :
    (P.machine.when (StepsMeet Q)).Reachable ⟨sh', s.tasks.set i t'⟩ := by
  have hmeets : StepsMeet Q s (.step i a) := by
    intro u hu
    rw [ht] at hu
    cases hu
    exact hQ
  exact .step hs ⟨hmeets, .step ht h⟩

section Measures

variable {M : Type} [AddCommMonoid M]

/-- **The conservation rule.** If a step moves a quantity between the shared state and
its thread only, what is shared and what the threads hold together is what they
brought. -/
theorem conserved_when [IsRightCancelAdd M] {f : σ → M} {g brought : τ → M}
    (hinit : ∀ sh, P.init sh → f sh = 0)
    (hspawn : ∀ sh t, P.spawn sh t → g t = brought t)
    (hstep : ∀ s i t a sh' t', (P.machine.when C).Reachable s → C s (.step i a) →
      s.tasks[i]? = some t → P.step i s.shared t a sh' t' →
      f sh' + g t' = f s.shared + g t ∧ brought t' = brought t)
    {s : State σ τ} (h : (P.machine.when C).Reachable s) :
    f s.shared + (s.tasks.map g).sum = (s.tasks.map brought).sum := by
  induction h with
  | init h => simp [hinit _ h.1, h.2]
  | @step s _ _ hs h ih =>
    obtain ⟨hC, h⟩ := h
    cases h with
    | spawn h =>
      simp only [List.map_append, List.sum_append, List.map_cons, List.map_nil,
        List.sum_cons, List.sum_nil, add_zero, hspawn _ _ h, ← ih, add_assoc]
    | @step _ t _ sh' t' ht h =>
      obtain ⟨hmove, hb⟩ := hstep _ _ _ _ _ _ hs hC ht h
      rw [Pool.sum_map_set_of_eq brought ht hb, ← ih]
      refine add_right_cancel (b := g t) ?_
      calc f sh' + ((s.tasks.set _ t').map g).sum + g t
          = f sh' + ((s.tasks.map g).sum + g t') := by
            rw [add_assoc, Pool.sum_map_set g ht]
        _ = (f sh' + g t') + (s.tasks.map g).sum := by abel
        _ = (f s.shared + g t) + (s.tasks.map g).sum := by rw [hmove]
        _ = f s.shared + (s.tasks.map g).sum + g t := by abel

end Measures

/-- **The ledger rule.** `invariant` together with a shared count `f` that is the sum of
the threads' own `g`: a step may use that its thread's share, and that of any other
thread beside it, is part of the count. -/
theorem invariant_ledger {f : σ → ℕ} {g : τ → ℕ} {G : σ → Prop} {L : σ → ℕ → τ → Prop}
    (hinit : ∀ sh, P.init sh → f sh = 0 ∧ G sh)
    (hspawn : ∀ s t, P.Reachable s → G s.shared → P.spawn s.shared t →
      g t = 0 ∧ L s.shared s.tasks.length t)
    (hself : ∀ s i t a sh' t', P.Reachable s → s.tasks[i]? = some t →
      P.step i s.shared t a sh' t' → g t ≤ f s.shared → G s.shared → L s.shared i t →
      f sh' + g t = f s.shared + g t' ∧ G sh' ∧ L sh' i t')
    (hother : ∀ s i t a sh' t' j u, P.Reachable s → s.tasks[i]? = some t →
      P.step i s.shared t a sh' t' → j ≠ i → s.tasks[j]? = some u →
      g t + g u ≤ f s.shared → G s.shared → L s.shared i t → L s.shared j u → L sh' j u)
    {s : State σ τ} (h : P.Reachable s) :
    f s.shared = (s.tasks.map g).sum ∧ G s.shared ∧
      ∀ i t, s.tasks[i]? = some t → L s.shared i t := by
  induction h with
  | init h =>
    obtain ⟨hf, hG⟩ := hinit _ h.1
    refine ⟨by simp [hf, h.2], hG, fun i t hi => ?_⟩
    rw [h.2] at hi
    cases hi
  | @step s _ _ hs h ih =>
    obtain ⟨hf, hG, hL⟩ := ih
    cases h with
    | spawn h =>
      obtain ⟨hg, hL'⟩ := hspawn _ _ hs hG h
      exact ⟨by simp [hf, hg], hG, Pool.forall_getElem?_append hL' hL⟩
    | @step i t _ sh' t' ht h =>
      have hle : g t ≤ f s.shared := hf ▸ Pool.le_sum_map g ht
      obtain ⟨hmove, hG', hL'⟩ := hself _ _ _ _ _ _ hs ht h hle hG (hL _ _ ht)
      refine ⟨?_, hG', Pool.forall_getElem?_set hL' fun j u hj hu => ?_⟩
      · have hsum := Pool.sum_map_set g ht t'
        show f sh' = ((s.tasks.set i t').map g).sum
        omega
      · have hpair : g t + g u ≤ f s.shared :=
          hf ▸ Pool.add_le_sum_map g (fun h => hj h.symm) ht hu
        exact hother _ _ _ _ _ _ _ _ hs ht h hj hu hpair hG (hL _ _ ht) (hL _ _ hu)

end TaskSystem

end REnvTools.Lib
