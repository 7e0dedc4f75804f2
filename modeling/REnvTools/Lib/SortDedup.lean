import Mathlib.Data.List.Sort
import Mathlib.Data.List.Destutter

/-!
# Sorting a list and dropping consecutive repeats

`sortDedup` is `sort` followed by `dedup` on a vector over a linear order. Its result is
the strictly increasing list of the elements that occur, so it depends on the set of
elements only (`sortDedup_congr`) and leaves a strictly increasing list alone
(`sortDedup_eq_self`).
-/

set_option autoImplicit false

namespace REnvTools.Lib

section Destutter

variable {α : Type} [DecidableEq α]

/-- INTERNAL: dropping consecutive repeats loses no element. -/
theorem mem_destutter'_ne {l : List α} {a b : α} :
    a ∈ l.destutter' (· ≠ ·) b ↔ a = b ∨ a ∈ l := by
  induction l generalizing b with
  | nil => simp
  | cons c l ih =>
    rw [List.destutter'_cons]
    split
    · rw [List.mem_cons, ih, List.mem_cons]
    · rename_i hbc
      obtain rfl : b = c := not_not.mp hbc
      rw [ih, List.mem_cons]
      tauto

/-- INTERNAL: dropping consecutive repeats keeps the elements. -/
theorem mem_destutter_ne {l : List α} {a : α} : a ∈ l.destutter (· ≠ ·) ↔ a ∈ l := by
  cases l with
  | nil => simp
  | cons b l => rw [List.destutter_cons', mem_destutter'_ne, List.mem_cons]

end Destutter

variable {α : Type} [LinearOrder α]

/-- `sort` then `dedup`. -/
def sortDedup (l : List α) : List α := (l.insertionSort (· ≤ ·)).destutter (· ≠ ·)

/-- Sorting without duplicates keeps the members. -/
@[simp] theorem mem_sortDedup {l : List α} {a : α} : a ∈ sortDedup l ↔ a ∈ l := by
  rw [sortDedup, mem_destutter_ne, List.mem_insertionSort]

/-- INTERNAL: the empty list stays empty. -/
@[simp] theorem sortDedup_nil : sortDedup ([] : List α) = [] := rfl

/-- The result is strictly increasing. -/
theorem pairwise_sortDedup (l : List α) : (sortDedup l).Pairwise (· < ·) := by
  have hle : (sortDedup l).Pairwise (· ≤ ·) :=
    (List.pairwise_insertionSort (· ≤ ·) l).sublist (List.destutter_sublist _ _)
  have hne : (sortDedup l).IsChain (· ≠ ·) := List.isChain_destutter _ _
  rw [← List.isChain_iff_pairwise] at hle ⊢
  rw [List.isChain_iff_getElem] at hle hne ⊢
  exact fun i hi => lt_of_le_of_ne (hle i hi) (hne i hi)

/-- `sortDedup` depends on the set of elements only. -/
theorem sortDedup_congr {l l' : List α} (h : ∀ a, a ∈ l ↔ a ∈ l') :
    sortDedup l = sortDedup l' :=
  (pairwise_sortDedup l).eq_of_mem_iff (pairwise_sortDedup l') (by simpa using h)

/-- A strictly increasing list is already sorted and free of repeats. -/
theorem sortDedup_eq_self {l : List α} (h : l.Pairwise (· < ·)) : sortDedup l = l :=
  (pairwise_sortDedup l).eq_of_mem_iff h (by simp)

/-- INTERNAL: no other list becomes empty. -/
@[simp] theorem sortDedup_eq_nil {l : List α} : sortDedup l = [] ↔ l = [] := by
  simp only [List.eq_nil_iff_forall_not_mem, mem_sortDedup]

end REnvTools.Lib
