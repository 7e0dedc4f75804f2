import Mathlib.Data.List.Infix
import Mathlib.Data.List.Nodup

/-!
# Appending what is new

The idiom `if !list.contains(&a) { list.push(a) }`. What is in the list stays where it is
(`isPrefix_pushAll`), and a list without repeats keeps none (`nodup_pushAll`).
-/

set_option autoImplicit false

namespace REnvTools.Lib

variable {α : Type} [DecidableEq α]

/-- Append an element unless it is there. -/
def pushNew (l : List α) (a : α) : List α := if a ∈ l then l else l ++ [a]

/-- Append the elements of a list, one after another, unless they are there. -/
def pushAll (l as : List α) : List α := as.foldl pushNew l

/-- INTERNAL: nothing is added. -/
@[simp] theorem pushAll_nil (l : List α) : pushAll l [] = l := rfl

/-- INTERNAL: the first is added before the others. -/
@[simp] theorem pushAll_cons (l as : List α) (a : α) :
    pushAll l (a :: as) = pushAll (pushNew l a) as := rfl

/-- Appending two lists one after the other. -/
theorem pushAll_append (l as bs : List α) : pushAll l (as ++ bs) = pushAll (pushAll l as) bs :=
  List.foldl_append

/-- The list has the item then, and what it had. -/
@[simp] theorem mem_pushNew {l : List α} {a b : α} : b ∈ pushNew l a ↔ b ∈ l ∨ b = a := by
  unfold pushNew
  split
  · rename_i hmem
    exact ⟨.inl, fun h => h.elim id fun heq => heq ▸ hmem⟩
  · simp

/-- The list only grows at its end. -/
theorem isPrefix_pushNew (l : List α) (a : α) : l <+: pushNew l a := by
  unfold pushNew
  split
  · exact List.prefix_rfl
  · exact List.prefix_append l [a]

/-- The list has no duplicate then if it had none. -/
theorem nodup_pushNew {l : List α} (h : l.Nodup) (a : α) : (pushNew l a).Nodup := by
  unfold pushNew
  split
  · exact h
  · rename_i hnew
    exact List.nodup_append.mpr ⟨h, List.nodup_singleton a, fun b hb c hc =>
      (List.mem_singleton.mp hc) ▸ fun heq => hnew (heq ▸ hb)⟩

/-- The list has the items then, and what it had. -/
@[simp] theorem mem_pushAll {l as : List α} {b : α} : b ∈ pushAll l as ↔ b ∈ l ∨ b ∈ as := by
  induction as generalizing l with
  | nil => simp
  | cons a as ih => rw [pushAll_cons, ih, mem_pushNew, List.mem_cons, or_assoc]

/-- The list only grows at its end. -/
theorem isPrefix_pushAll (l as : List α) : l <+: pushAll l as := by
  induction as generalizing l with
  | nil => exact List.prefix_rfl
  | cons a as ih => exact (isPrefix_pushNew l a).trans (ih _)

/-- The list has no duplicate then if it had none. -/
theorem nodup_pushAll {l : List α} (h : l.Nodup) (as : List α) : (pushAll l as).Nodup := by
  induction as generalizing l with
  | nil => exact h
  | cons a as ih => exact ih (nodup_pushNew h a)

end REnvTools.Lib
