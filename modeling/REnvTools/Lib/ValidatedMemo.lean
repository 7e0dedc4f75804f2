import Mathlib.Data.Nat.Notation
import Mathlib.Logic.Function.Basic

/-!
# Results that are validated by the clocks of what they were computed from

A store holds cells with a clock, and every write moves the clock of its cell forward. A
result computed from some cells is kept with clock readings of these cells, and is used
again as long as the clocks stand at the readings.

* `Certifies`: a reading certifies a value when the clock, while it stands at the reading,
  shows the value. A reading taken while the value is there certifies it
  (`certifies_now`), and goes on doing so whatever is written (`Certifies.advance`).
* `Sound.recompute`: a result whose reads are all certified is, as long as the readings
  are valid, what the computation gives on the store as it is now.
* `Remembers.or_eq`: on a store that stands still a memo needs no readings.
-/

set_option autoImplicit false

namespace REnvTools.Lib.ValidatedMemo

variable {ι φ ν β : Type}

section Clocks

variable (clock : φ → ℕ) (value : φ → ν)

/-- Every cell is as it was or has a later clock. -/
def Advances (s s' : ι → φ) : Prop := ∀ x, s' x = s x ∨ clock (s x) < clock (s' x)

/-- While the clock of the cell stands at `c`, the cell has the value `v`. -/
def Certifies (s : ι → φ) (x : ι) (c : ℕ) (v : ν) : Prop :=
  c ≤ clock (s x) ∧ (clock (s x) = c → value (s x) = v)

end Clocks

variable {clock : φ → ℕ} {value : φ → ν} {s s' : ι → φ} {x : ι} {c : ℕ} {v : ν}

/-- INTERNAL: a state that has not changed. -/
theorem Advances.refl (s : ι → φ) : Advances clock s s := by
  intro x
  exact .inl rfl

/-- A reading certifies what is there when it is taken. -/
theorem certifies_now (h : value (s x) = v) : Certifies clock value s x (clock (s x)) v :=
  ⟨Nat.le_refl _, fun _ => h⟩

/-- Writes do not disturb what a reading certifies. -/
theorem Certifies.advance (h : Certifies clock value s x c v) (hs : Advances clock s s') :
    Certifies clock value s' x c v := by
  rcases hs x with hsame | hlater
  · rw [Certifies, hsame]
    exact h
  · have hle := h.1
    refine ⟨by omega, ?_⟩
    intro heq
    omega

/-- The computation gives the same on stores that agree in what its result was read from. -/
def ReadsOnly (f : (ι → ν) → Option β) (reads : β → List ι) : Prop :=
  ∀ seen now b, f seen = some b → (∀ x ∈ reads b, now x = seen x) → f now = some b

/-- The result was computed, and readings certify what it was computed from. -/
def Sound (clock : φ → ℕ) (value : φ → ν) (f : (ι → ν) → Option β) (reads : β → List ι)
    (s : ι → φ) (stamped : ι → ℕ → Prop) (b : β) : Prop :=
  ∃ seen, f seen = some b ∧
    ∀ x ∈ reads b, ∃ c, stamped x c ∧ Certifies clock value s x c (seen x)

section Sound

variable {f : (ι → ν) → Option β} {reads : β → List ι} {stamped stamped' : ι → ℕ → Prop}
  {b : β}

/-- What is remembered remains sound when the state changes. -/
theorem Sound.advance (h : Sound clock value f reads s stamped b)
    (hs : Advances clock s s') : Sound clock value f reads s' stamped b := by
  obtain ⟨seen, hf, hreads⟩ := h
  refine ⟨seen, hf, ?_⟩
  intro x hx
  obtain ⟨c, hstamped, hcertified⟩ := hreads x hx
  exact ⟨c, hstamped, hcertified.advance hs⟩

/-- More readings do not hurt. -/
theorem Sound.mono (h : Sound clock value f reads s stamped b)
    (hmore : ∀ x c, stamped x c → stamped' x c) :
    Sound clock value f reads s stamped' b := by
  obtain ⟨seen, hf, hreads⟩ := h
  refine ⟨seen, hf, ?_⟩
  intro x hx
  obtain ⟨c, hstamped, hcertified⟩ := hreads x hx
  exact ⟨c, hmore x c hstamped, hcertified⟩

/-- **A validated result is the current result.** -/
theorem Sound.recompute (h : Sound clock value f reads s stamped b)
    (hreads : ReadsOnly f reads) (hvalid : ∀ x c, stamped x c → clock (s x) = c) :
    f (fun x => value (s x)) = some b := by
  obtain ⟨seen, hf, hcertified⟩ := h
  apply hreads seen _ b hf
  intro x hx
  obtain ⟨c, hstamped, -, hvalue⟩ := hcertified x hx
  exact hvalue (hvalid x c hstamped)

end Sound

/-! ## A store that stands still -/

/-- What the memo has are values of the function. -/
def Remembers (f : ι → Option β) (memo : ι → Option β) : Prop :=
  ∀ x b, memo x = some b → f x = some b

section Remembers

variable {f memo : ι → Option β}

/-- INTERNAL: who remembers nothing is right. -/
theorem remembers_empty (f : ι → Option β) : Remembers f fun _ => none := by
  intro x b h
  cases h

/-- One more value. -/
theorem Remembers.update [DecidableEq ι] (h : Remembers f memo) {b : β} (hf : f x = some b) :
    Remembers f (Function.update memo x (some b)) := by
  intro y b' hy
  by_cases heq : y = x
  · subst heq
    rw [Function.update_self] at hy
    cases hy
    exact hf
  · rw [Function.update_of_ne heq] at hy
    exact h y b' hy

/-- **A memo answers as the function does**, where it has no value by asking it. -/
theorem Remembers.or_eq (h : Remembers f memo) (x : ι) : (memo x).or (f x) = f x := by
  cases hx : memo x with
  | none => rfl
  | some b => exact (h x b hx).symm

end Remembers

end REnvTools.Lib.ValidatedMemo
