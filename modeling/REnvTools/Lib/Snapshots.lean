import Mathlib.Data.List.Basic
import Mathlib.Data.Nat.Notation

/-!
# Versions whose stamps never come back

A thing that is there or not, and what it was at each instant so far: the list of these is
its past. Every version has a stamp. If a change always brings a stamp that the thing never
had (`Unrepeated`), then two sightings of one stamp show that the thing was the same all the
time between them (`NeverRecurs.between`).

`clamp` is the instant of an interval that is nearest to a given one. It lies between the given
one and any of the interval (`clamp_between`): sightings at different instants of the interval,
all with the stamps of one instant outside, are true together at one instant inside.
-/

set_option autoImplicit false

namespace REnvTools.Lib

variable {σ φ : Type}

/-- Two instants with the same stamp have the same version, and so has every instant between. -/
def NeverRecurs (stamp : σ → φ) (past : List (Option σ)) : Prop :=
  ∀ ⦃i j k : ℕ⦄ ⦃s s' : σ⦄, i ≤ j → j ≤ k → past[i]? = some (some s) →
    past[k]? = some (some s') → stamp s = stamp s' → past[j]? = some (some s)

/-- What is new is what was last, or has a stamp that was never there. -/
def Unrepeated (stamp : σ → φ) (past : List (Option σ)) (new : Option σ) : Prop :=
  past.getLast? = some new ∨ ∀ s, new = some s → ∀ s', some s' ∈ past → stamp s' ≠ stamp s

variable {stamp : σ → φ} {past : List (Option σ)}

/-- INTERNAL: one instant repeats nothing. -/
theorem neverRecurs_singleton (first : Option σ) : NeverRecurs stamp [first] := by
  intro i j k s s' hij hjk hi hk _
  obtain ⟨hk0, -⟩ := List.getElem?_eq_some_iff.mp hk
  have hj : j = i := by
    simp only [List.length_singleton] at hk0
    omega
  rwa [hj]

/-- INTERNAL: a stamp that was there before is that of the last version. -/
theorem Unrepeated.last {s s' : σ} (hnew : Unrepeated stamp past (some s')) {i : ℕ}
    (hi : past[i]? = some (some s)) (hstamp : stamp s = stamp s') :
    past[past.length - 1]? = some (some s') := by
  obtain hlast | hfresh := hnew
  · rwa [List.getLast?_eq_getElem?] at hlast
  · exact absurd hstamp (hfresh s' rfl s (List.mem_of_getElem? hi))

/-- A change that brings a stamp that was never there keeps the past free of recurrence. -/
theorem NeverRecurs.snoc (h : NeverRecurs stamp past) {new : Option σ}
    (hnew : Unrepeated stamp past new) : NeverRecurs stamp (past ++ [new]) := by
  intro i j k s s' hij hjk hi hk hstamp
  obtain hk' | rfl | hk' := Nat.lt_trichotomy k past.length
  · rw [List.getElem?_append_left (by omega)] at hi hk ⊢
    exact h hij hjk hi hk hstamp
  · -- The second sighting is that of the new version.
    rw [List.getElem?_concat_length, Option.some.injEq] at hk
    subst hk
    obtain hi' | rfl := Nat.lt_or_eq_of_le (Nat.le_trans hij hjk)
    · rw [List.getElem?_append_left hi'] at hi
      have hlast := hnew.last hi hstamp
      obtain hj | rfl := Nat.lt_or_eq_of_le hjk
      · rw [List.getElem?_append_left hj]
        exact h hij (by omega) hi hlast hstamp
      · rw [List.getElem?_concat_length, ← hlast]
        exact h (by omega) (Nat.le_refl _) hi hlast hstamp
    · obtain rfl : j = past.length := by omega
      exact hi
  · have hbound := (List.getElem?_eq_some_iff.mp hk).1
    rw [List.length_append, List.length_singleton] at hbound
    omega

/-- **Two sightings of one stamp**, whichever is first, and an instant between them. -/
theorem NeverRecurs.between (h : NeverRecurs stamp past) {m u t : ℕ} {s s' : σ}
    (hm : past[m]? = some (some s)) (hu : past[u]? = some (some s')) (hstamp : stamp s = stamp s')
    (ht : m ≤ t ∧ t ≤ u ∨ u ≤ t ∧ t ≤ m) : past[t]? = some (some s) := by
  obtain ⟨hmt, htu⟩ | ⟨hut, htm⟩ := ht
  · exact h hmt htu hm hu hstamp
  · have htm' := h hut htm hu hm hstamp.symm
    have hmm := h (Nat.le_trans hut htm) (Nat.le_refl _) hu hm hstamp.symm
    rw [htm', ← hmm, hm]

/-! ## The nearest instant of an interval -/

/-- The instant between `lo` and `hi` that is nearest to `m`. -/
def clamp (lo hi m : ℕ) : ℕ := if m ≤ lo then lo else if hi ≤ m then hi else m

/-- INTERNAL: a clamped number is not below the interval. -/
theorem le_clamp {lo hi : ℕ} (m : ℕ) (h : lo ≤ hi) : lo ≤ clamp lo hi m := by
  unfold clamp
  split_ifs <;> omega

/-- INTERNAL: a clamped number is not above the interval. -/
theorem clamp_le {lo hi : ℕ} (m : ℕ) (h : lo ≤ hi) : clamp lo hi m ≤ hi := by
  unfold clamp
  split_ifs <;> omega

/-- The nearest instant is between the given one and any of the interval. -/
theorem clamp_between {lo hi u : ℕ} (m : ℕ) (hlo : lo ≤ u) (hhi : u ≤ hi) :
    m ≤ clamp lo hi m ∧ clamp lo hi m ≤ u ∨ u ≤ clamp lo hi m ∧ clamp lo hi m ≤ m := by
  unfold clamp
  split_ifs <;> omega

end REnvTools.Lib
