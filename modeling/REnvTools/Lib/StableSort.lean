import Mathlib.Data.List.Sort
import Mathlib.Data.List.TakeWhile
import Mathlib.Data.Multiset.ZeroCons

/-!
# Sorting by a key

A stable sort by a key keeps the elements of each key in the order they came in
(`filter_sortByKey`). So its result does not depend on this order exactly if no two
different elements have one key (`sortByKey_eq_iff`).
-/

set_option autoImplicit false

namespace REnvTools.Lib

variable {α β : Type} [LinearOrder β] (key : α → β)

/-- The stable sort by a key. -/
def sortByKey (l : List α) : List α := l.insertionSort fun a b => key a ≤ key b

/-- Sorting by a key permutes the list. -/
theorem perm_sortByKey (l : List α) : (sortByKey key l).Perm l := List.perm_insertionSort _ l

/-- The keys are in order then. -/
theorem pairwise_sortByKey (l : List α) :
    (sortByKey key l).Pairwise fun a b => key a ≤ key b := by
  have : Std.Total fun a b : α => key a ≤ key b := ⟨fun a b => le_total (key a) (key b)⟩
  have : IsTrans α fun a b : α => key a ≤ key b := ⟨fun _ _ _ => le_trans⟩
  exact List.pairwise_insertionSort _ l

/-- **The sort is stable**: the elements with one key stay in their order. -/
theorem filter_sortByKey (k : β) (l : List α) :
    (sortByKey key l).filter (key · = k) = l.filter (key · = k) := by
  induction l with
  | nil => rfl
  | cons a l ih =>
    -- the elements that `a` is put behind have smaller keys
    have hbefore : ((sortByKey key l).takeWhile fun b => ¬key a ≤ key b).filter (key · = key a) =
        [] := by
      rw [List.filter_eq_nil_iff]
      intro b hb heq
      have hless := List.mem_takeWhile_imp hb
      simp only [decide_eq_true_eq] at hless heq
      exact hless heq.ge
    have hsplit := congrArg (List.filter (key · = k))
      (List.takeWhile_append_dropWhile
        (p := fun b => decide ¬key a ≤ key b) (l := sortByKey key l))
    rw [List.filter_append, ih] at hsplit
    unfold sortByKey at hsplit hbefore ⊢
    rw [List.insertionSort_cons_eq_take_drop, List.filter_append, List.filter_cons,
      List.filter_cons]
    by_cases hk : key a = k
    · subst hk
      rw [hbefore, List.nil_append] at hsplit
      rw [hbefore, List.nil_append, hsplit]
    · simp only [hk, decide_false, Bool.false_eq_true, if_false]
      exact hsplit

/-- Elements that no others share a key with are sorted alike, whatever their order. -/
theorem sortByKey_eq_of_perm {l l' : List α} (h : l.Perm l')
    (hkey : ∀ a ∈ l, ∀ b ∈ l, key a = key b → a = b) : sortByKey key l = sortByKey key l' := by
  apply List.Perm.eq_of_pairwise _ (pairwise_sortByKey key l) (pairwise_sortByKey key l')
  · exact ((perm_sortByKey key l).trans h).trans (perm_sortByKey key l').symm
  · intro a b ha hb hab hba
    have ha := (perm_sortByKey key l).mem_iff.mp ha
    have hb := h.mem_iff.mpr ((perm_sortByKey key l').mem_iff.mp hb)
    exact hkey a ha b hb (le_antisymm hab hba)

/-- **When the order of the elements does not matter**: exactly if no two different ones have
one key. -/
theorem sortByKey_eq_iff (s : Multiset α) :
    (∀ l l' : List α, (l : Multiset α) = s → (l' : Multiset α) = s →
        sortByKey key l = sortByKey key l') ↔
      ∀ a ∈ s, ∀ b ∈ s, key a = key b → a = b := by
  constructor
  · intro hsame a ha b hb heq
    by_contra hne
    obtain ⟨t, rfl⟩ := Multiset.exists_cons_of_mem ha
    obtain ⟨u, rfl⟩ := Multiset.exists_cons_of_mem
      ((Multiset.mem_cons.mp hb).resolve_left (Ne.symm hne))
    -- two orders that differ in which of the two comes first
    obtain ⟨rest, rfl⟩ := Quot.exists_rep u
    have hsorted := congrArg (List.filter (key · = key a))
      (hsame (a :: b :: rest) (b :: a :: rest) rfl
        (Multiset.coe_eq_coe.mpr (List.Perm.swap a b rest)))
    rw [filter_sortByKey, filter_sortByKey] at hsorted
    simp only [List.filter_cons, heq, decide_true, if_true] at hsorted
    exact hne (List.cons.inj hsorted).1
  · intro hkey l l' hl hl'
    apply sortByKey_eq_of_perm key (Multiset.coe_eq_coe.mp (hl.trans hl'.symm))
    intro a ha b hb
    subst hl
    exact hkey a ha b hb

end REnvTools.Lib
