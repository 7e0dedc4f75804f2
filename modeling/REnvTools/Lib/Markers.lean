import Mathlib.Data.List.Infix
import Mathlib.Data.Nat.Notation

/-!
# Markers

A list is cut at the first place where a marker stands in it (`str::split_once`). What stands
before a marker that does not overlap itself is noise as long as the marker is no part of it
(`cutAt_append`); a list is cut at all exactly if the marker is a part of it
(`cutAt_eq_none_iff`).
-/

set_option autoImplicit false

namespace REnvTools.Lib

variable {α : Type}

/-- The marker does not overlap itself: what it begins with is not what it ends with. -/
def Unbordered (marker : List α) : Prop :=
  ∀ n, 0 < n → n < marker.length → marker.take n ≠ marker.drop (marker.length - n)

variable {marker s t : List α}

/-- INTERNAL: a marker that begins in noise and ends in the marker overlaps itself. -/
theorem not_prefix_append (hmarker : Unbordered marker) (hs : s ≠ [])
    (hnot : ¬marker <:+: s) : ¬marker <+: s ++ (marker ++ t) := by
  intro hprefix
  obtain hshort | hlong := Nat.lt_or_ge s.length marker.length
  · -- the rest of the marker is what the marker begins with
    have htake : marker = s ++ (marker ++ t).take (marker.length - s.length) := by
      have hwhole := List.prefix_iff_eq_take.mp hprefix
      rwa [List.take_append, List.take_of_length_le (Nat.le_of_lt hshort)] at hwhole
    have hbegin : (marker ++ t).take (marker.length - s.length) =
        marker.take (marker.length - s.length) :=
      List.take_append_of_le_length (Nat.sub_le _ _)
    have hpos := List.length_pos_iff.mpr hs
    refine hmarker (marker.length - s.length) (by omega) (by omega) ?_
    rw [show marker.length - (marker.length - s.length) = s.length by omega, ← hbegin]
    conv_rhs => rw [htake, List.drop_left]
  · exact hnot (List.prefix_of_prefix_length_le hprefix (List.prefix_append s _) hlong).isInfix

variable [DecidableEq α]

instance (marker : List α) : Decidable (Unbordered marker) :=
  decidable_of_iff
    (∀ n ∈ List.range marker.length, 0 < n → marker.take n ≠ marker.drop (marker.length - n))
    (by
      unfold Unbordered
      simp only [List.mem_range]
      exact ⟨fun h n hpos hlt => h n hlt hpos, fun h n hlt hpos => h n hpos hlt⟩)

/-- The parts before and after the first occurrence of the marker. -/
def cutAt (marker : List α) : List α → Option (List α × List α)
  | [] => if marker = [] then some ([], []) else none
  | a :: s =>
    if marker.isPrefixOf (a :: s) then some ([], (a :: s).drop marker.length)
    else (cutAt marker s).map fun parts => (a :: parts.1, parts.2)

/-- INTERNAL: where the marker stands at the front. -/
theorem cutAt_self (hne : marker ≠ []) (t : List α) :
    cutAt marker (marker ++ t) = some ([], t) := by
  obtain ⟨a, m, rfl⟩ := List.exists_cons_of_ne_nil hne
  rw [List.cons_append, cutAt, if_pos (by simp [List.isPrefixOf_iff_prefix, List.prefix_append])]
  simp

/-- **Noise before a marker** is cut off with it. -/
theorem cutAt_append (hmarker : Unbordered marker) (hne : marker ≠ []) (hnot : ¬marker <:+: s)
    (t : List α) : cutAt marker (s ++ marker ++ t) = some (s, t) := by
  rw [List.append_assoc]
  induction s with
  | nil => exact cutAt_self hne t
  | cons a s ih =>
    have hfront := not_prefix_append (t := t) hmarker (List.cons_ne_nil a s) hnot
    have hrest : ¬marker <:+: s := fun h => hnot (h.trans (List.suffix_cons a s).isInfix)
    rw [List.cons_append, cutAt, if_neg (by rwa [List.isPrefixOf_iff_prefix, ← List.cons_append]),
      ih hrest]
    rfl

/-- A list that is cut is put together from the parts and the marker. -/
theorem eq_of_cutAt {before after : List α} (h : cutAt marker s = some (before, after)) :
    s = before ++ marker ++ after := by
  induction s generalizing before with
  | nil =>
    unfold cutAt at h
    split at h
    · rename_i hnil
      cases h
      simp [hnil]
    · cases h
  | cons a s ih =>
    rw [cutAt] at h
    split at h
    · rename_i hfront
      obtain ⟨rest, hrest⟩ := List.isPrefixOf_iff_prefix.mp hfront
      cases h
      rw [← hrest, List.drop_left, List.nil_append]
    · obtain ⟨parts, hparts, heq⟩ := Option.map_eq_some_iff.mp h
      cases heq
      rw [ih hparts]
      rfl

/-- A list is not cut if the marker is no part of it. -/
theorem cutAt_eq_none_iff : cutAt marker s = none ↔ ¬marker <:+: s := by
  constructor
  · intro h hinfix
    induction s with
    | nil =>
      rw [List.infix_nil.mp hinfix] at h
      simp [cutAt] at h
    | cons a s ih =>
      rw [cutAt] at h
      split at h
      · cases h
      · rename_i hfront
        obtain hprefix | hinfix := List.infix_cons_iff.mp hinfix
        · exact hfront (List.isPrefixOf_iff_prefix.mpr hprefix)
        · exact ih (Option.map_eq_none_iff.mp h) hinfix
  · intro hnot
    cases h : cutAt marker s with
    | none => rfl
    | some parts =>
      rw [eq_of_cutAt h] at hnot
      exact absurd ⟨parts.1, parts.2, rfl⟩ hnot

end REnvTools.Lib
