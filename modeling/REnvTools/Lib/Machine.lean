import Mathlib.Logic.Relation

/-!
# Labelled transition machines and their reachable states

A machine is a set of initial states and a labelled step relation. Everything proved
about a concurrent component below is proved about the states such a machine reaches,
whatever order the steps come in.

* `Reachable.invariant` is the induction on a run: what holds initially and is kept by
  each step holds of every reachable state.
* `Machine.when` restricts the steps to those whose pre-state and label meet a
  condition; `Reachable.of_when` forgets the restriction.
-/

set_option autoImplicit false

namespace REnvTools.Lib

/-- A labelled transition system. -/
structure Machine (σ α : Type) where
  /-- The states a run may start in. -/
  init : σ → Prop
  /-- One step, with its label. -/
  step : σ → α → σ → Prop

namespace Machine

variable {σ α : Type}

/-- The states reached from an initial state by finitely many steps. -/
inductive Reachable (M : Machine σ α) : σ → Prop
  | init {s : σ} (h : M.init s) : Reachable M s
  | step {s s' : σ} {a : α} (hs : Reachable M s) (h : M.step s a s') : Reachable M s'

/-- The machine whose steps are those of `M` that meet `C` before they are taken. -/
def when (M : Machine σ α) (C : σ → α → Prop) : Machine σ α where
  init := M.init
  step s a s' := C s a ∧ M.step s a s'

variable {M : Machine σ α}

/-- **The invariant rule**: an inductive property holds of every reachable state. -/
theorem Reachable.invariant {I : σ → Prop} (hinit : ∀ s, M.init s → I s)
    (hstep : ∀ s a s', I s → M.step s a s' → I s') {s : σ} (h : M.Reachable s) : I s := by
  induction h with
  | init h => exact hinit _ h
  | step _ h ih => exact hstep _ _ _ ih h

/-- A run of the restricted machine is a run of the machine. -/
theorem Reachable.of_when {C : σ → α → Prop} {s : σ} (h : (M.when C).Reachable s) :
    M.Reachable s := by
  induction h with
  | init h => exact .init h
  | step _ h ih => exact .step ih h.2

end Machine

end REnvTools.Lib
