import Mathlib.Algebra.BigOperators.Group.List.Basic
import Mathlib.Algebra.Order.BigOperators.Group.List
import Mathlib.Algebra.Order.Ring.Nat
import Mathlib.Tactic.Abel

/-!
# Pools of threads

A pool is the list of the threads' local states in the order the threads were
created; thread `i` steps by `pool.set i t'`. Two kinds of facts are carried over such
a step:

* an additive measure of the pool changes by what the thread's own measure changes by
  (`sum_map_set`), which turns a conservation law of the thread into one of the pool;
* a property of all the threads is kept if the stepping thread gets it and the others
  keep it (`forall_getElem?_set`).
-/

set_option autoImplicit false

namespace REnvTools.Lib.Pool

variable {τ M : Type}

/-- **The measure rule**: replacing `t` by `t'` moves exactly `f t` and `f t'` in and
out of the sum. -/
theorem sum_map_set [AddCommMonoid M] (f : τ → M) {pool : List τ} {i : ℕ} {t : τ}
    (h : pool[i]? = some t) (t' : τ) :
    ((pool.set i t').map f).sum + f t = (pool.map f).sum + f t' := by
  induction pool generalizing i with
  | nil => simp at h
  | cons x pool ih =>
    cases i with
    | zero =>
      obtain rfl : x = t := by simpa using h
      simp only [List.set_cons_zero, List.map_cons, List.sum_cons]
      abel
    | succ i =>
      have hih := ih (i := i) (by simpa using h)
      simp only [List.set_cons_succ, List.map_cons, List.sum_cons]
      rw [add_assoc, hih]
      abel

/-- A measure the thread's step leaves alone is left alone in the pool. -/
theorem sum_map_set_of_eq [AddCommMonoid M] [IsRightCancelAdd M] (f : τ → M)
    {pool : List τ} {i : ℕ} {t t' : τ} (h : pool[i]? = some t) (heq : f t' = f t) :
    ((pool.set i t').map f).sum = (pool.map f).sum := by
  have := sum_map_set f h t'
  rw [heq] at this
  exact add_right_cancel this

/-- Each thread's measure is at most the pool's. -/
theorem le_sum_map (f : τ → ℕ) {pool : List τ} {i : ℕ} {t : τ} (h : pool[i]? = some t) :
    f t ≤ (pool.map f).sum :=
  List.single_le_sum (fun _ _ => Nat.zero_le _) _
    (List.mem_map.mpr ⟨t, List.mem_of_getElem? h, rfl⟩)

/-- Two different threads' measures together are at most the pool's. -/
theorem add_le_sum_map (f : τ → ℕ) {pool : List τ} {i j : ℕ} {t u : τ} (hij : i ≠ j)
    (hi : pool[i]? = some t) (hj : pool[j]? = some u) : f t + f u ≤ (pool.map f).sum := by
  induction pool generalizing i j with
  | nil => simp at hi
  | cons x pool ih =>
    simp only [List.map_cons, List.sum_cons]
    cases i with
    | zero =>
      cases j with
      | zero => exact absurd rfl hij
      | succ j =>
        obtain rfl : x = t := by simpa using hi
        have : f u ≤ (pool.map f).sum := le_sum_map f (i := j) (by simpa using hj)
        omega
    | succ i =>
      cases j with
      | zero =>
        obtain rfl : x = u := by simpa using hj
        have : f t ≤ (pool.map f).sum := le_sum_map f (i := i) (by simpa using hi)
        omega
      | succ j =>
        have := ih (i := i) (j := j) (by omega) (by simpa using hi) (by simpa using hj)
        omega

/-- The other threads stay in the pool when thread `i` steps. -/
theorem mem_set_of_ne {pool : List τ} {i : ℕ} {t t' u : τ} (hi : pool[i]? = some t)
    (hu : u ≠ t) (hmem : u ∈ pool) : u ∈ pool.set i t' := by
  obtain ⟨j, hj⟩ := List.mem_iff_getElem?.mp hmem
  have hij : i ≠ j := by
    rintro rfl
    rw [hi, Option.some.injEq] at hj
    exact hu hj.symm
  exact List.mem_iff_getElem?.mpr ⟨j, by rwa [List.getElem?_set_ne hij]⟩

/-- What is in the pool after thread `i` stepped to `t'` is `t'`, or was there before. -/
theorem getElem?_set_cases {pool : List τ} {i j : ℕ} {t' u : τ}
    (hj : (pool.set i t')[j]? = some u) : i = j ∧ u = t' ∨ i ≠ j ∧ pool[j]? = some u := by
  rw [List.getElem?_set] at hj
  split at hj
  · rename_i hij
    split at hj
    · cases hj
      exact .inl ⟨hij, rfl⟩
    · cases hj
  · rename_i hij
    exact .inr ⟨hij, hj⟩

/-- **The pointwise rule**: after thread `i` stepped to `t'`, a property of all threads
holds again if it holds of `t'` and of each other thread. -/
theorem forall_getElem?_set {P : ℕ → τ → Prop} {pool : List τ} {i : ℕ} {t' : τ}
    (hself : P i t') (hothers : ∀ j u, j ≠ i → pool[j]? = some u → P j u) :
    ∀ j u, (pool.set i t')[j]? = some u → P j u := by
  intro j u hj
  obtain ⟨rfl, rfl⟩ | ⟨hij, hj⟩ := getElem?_set_cases hj
  · exact hself
  · exact hothers j u hij.symm hj

/-- The pointwise rule for a new thread at the end of the pool. -/
theorem forall_getElem?_append {P : ℕ → τ → Prop} {pool : List τ} {t : τ}
    (hnew : P pool.length t) (hold : ∀ j u, pool[j]? = some u → P j u) :
    ∀ j u, (pool ++ [t])[j]? = some u → P j u := by
  intro j u hj
  rcases lt_trichotomy j pool.length with hlt | heq | hgt
  · exact hold j u (by rwa [List.getElem?_append_left hlt] at hj)
  · subst heq
    obtain rfl : t = u := by simpa using hj
    exact hnew
  · rw [List.getElem?_eq_none (by simp; omega)] at hj
    cases hj

end REnvTools.Lib.Pool
