import Mathlib.Data.Finmap
import Mathlib.Tactic.Tauto

/-!
# A store that merges reports under a key

Reports come one after the other. A report without a key is dropped; the first report of
a key is stored and forwarded; each later one is merged into the stored record and not
forwarded. `file` is one such step.

* `lookup_run`: the record stored under `k` is the left merge (`mergeAll`) of the reports
  of `k`, in the order they came.
* `forwarded_run`: the reports of `k` that were forwarded are the first of them.
* `mergeAll_induction`, `mergeAll_iff`, `mergeAll_iff_of_perm`: what a merge keeps, a
  record of the store has; a property that the merge has exactly when one of its two
  inputs has it does not depend on the order of the reports.
* `mergeAll_eq_some_iff`, `eq_of_perm`: nor does a value the merge takes from one of its
  inputs, when the reports carry one such value only.
-/

set_option autoImplicit false

namespace REnvTools.Lib.KeyedStore

variable {ρ κ : Type}

/-! ## Merging a list from the left -/

/-- The left merge of a list of reports, if it has any. -/
def mergeAll (merge : ρ → ρ → ρ) : List ρ → Option ρ
  | [] => none
  | r :: rs => some (rs.foldl merge r)

section MergeAll

variable {merge : ρ → ρ → ρ} {P Q : ρ → Prop} {l l' : List ρ} {r r' : ρ}

/-- One more report is merged into what the earlier ones gave. -/
theorem mergeAll_concat (l : List ρ) (r : ρ) :
    mergeAll merge (l ++ [r]) =
      some (match mergeAll merge l with
        | none => r
        | some existing => merge existing r) := by
  cases l with
  | nil => rfl
  | cons x l => simp [mergeAll]

/-- What holds of every report and is kept by a merge holds of the merged record. -/
theorem mergeAll_induction (hP : ∀ a b, P a → P b → P (merge a b)) (hl : ∀ x ∈ l, P x)
    (h : mergeAll merge l = some r) : P r := by
  induction l using List.reverseRecOn generalizing r with
  | nil => cases h
  | append_singleton l x ih =>
    rw [mergeAll_concat] at h
    have hx : P x := hl x (by simp)
    cases hl' : mergeAll merge l with
    | none =>
      simp only [hl', Option.some.injEq] at h
      exact h ▸ hx
    | some e =>
      simp only [hl', Option.some.injEq] at h
      exact h ▸ hP _ _ (ih (fun y hy => hl y (by simp [hy])) hl') hx

/-- **The merge rule**: if a merge has `Q` exactly when one of its inputs has, the merged
record has `Q` exactly when one of the reports has. -/
theorem mergeAll_iff (hP : ∀ a b, P a → P b → P (merge a b))
    (hQ : ∀ a b, P a → P b → (Q (merge a b) ↔ Q a ∨ Q b)) (hl : ∀ x ∈ l, P x)
    (h : mergeAll merge l = some r) : Q r ↔ ∃ x ∈ l, Q x := by
  induction l using List.reverseRecOn generalizing r with
  | nil => cases h
  | append_singleton l x ih =>
    rw [mergeAll_concat] at h
    have hlP : ∀ y ∈ l, P y := fun y hy => hl y (by simp [hy])
    have hx : P x := hl x (by simp)
    simp only [List.mem_append, List.mem_singleton, or_and_right, exists_or,
      exists_eq_left]
    cases hl' : mergeAll merge l with
    | none =>
      have hnil : l = [] := by
        cases l with
        | nil => rfl
        | cons => cases hl'
      simp only [hl', Option.some.injEq] at h
      simp [h, hnil]
    | some e =>
      simp only [hl', Option.some.injEq] at h
      rw [← h, hQ _ _ (mergeAll_induction hP hlP hl') hx, ih hlP hl']

/-- Such a property does not depend on the order of the reports. -/
theorem mergeAll_iff_of_perm (hP : ∀ a b, P a → P b → P (merge a b))
    (hQ : ∀ a b, P a → P b → (Q (merge a b) ↔ Q a ∨ Q b)) (hl : ∀ x ∈ l, P x)
    (hperm : l.Perm l') (h : mergeAll merge l = some r)
    (h' : mergeAll merge l' = some r') : Q r ↔ Q r' := by
  rw [mergeAll_iff hP hQ hl h,
    mergeAll_iff hP hQ (fun x hx => hl x (hperm.mem_iff.mpr hx)) h']
  simp only [hperm.mem_iff]

/-- The merge takes the value of `f` from one of its two inputs, whichever it prefers. -/
def ChoosesAt {α : Type} (merge : ρ → ρ → ρ) (f : ρ → Option α) (a b : ρ) : Prop :=
  f (merge a b) = (f a).or (f b) ∨ f (merge a b) = (f b).or (f a)

/-- No two reports carry different values of `f`. -/
def SingleValued {α : Type} (f : ρ → Option α) (l : List ρ) : Prop :=
  ∀ a ∈ l, ∀ b ∈ l, ∀ x y, f a = some x → f b = some y → x = y

section Chosen

variable {α : Type} {f : ρ → Option α}

/-- Whether a chosen value is there does not depend on the order. -/
theorem isSome_of_perm (hP : ∀ a b, P a → P b → P (merge a b))
    (hf : ∀ a b, P a → P b → ChoosesAt merge f a b) (hl : ∀ x ∈ l, P x)
    (hperm : l.Perm l') (h : mergeAll merge l = some r)
    (h' : mergeAll merge l' = some r') : (f r).isSome = (f r').isSome := by
  rw [Bool.eq_iff_iff]
  refine mergeAll_iff_of_perm (Q := fun r => (f r).isSome = true) hP ?_ hl hperm h h'
  intro a b ha hb
  rcases hf a b ha hb with heq | heq <;> simp [heq, or_comm]

/-- INTERNAL: a chosen value comes from one of the reports. -/
theorem carried_merge (hf : ∀ a b, P a → P b → ChoosesAt merge f a b) {a b : ρ} {x : α}
    (ha : P a) (hb : P b) (h : f (merge a b) = some x) : f a = some x ∨ f b = some x := by
  rcases hf a b ha hb with heq | heq
  · rw [heq, Option.or_eq_some_iff] at h
    exact h.imp_right And.right
  · rw [heq, Option.or_eq_some_iff] at h
    exact (h.imp_right And.right).symm

/-- **The choice rule**: when the reports carry one value of `f` only, that is what the
merged record has. -/
theorem mergeAll_eq_some_iff (hP : ∀ a b, P a → P b → P (merge a b))
    (hf : ∀ a b, P a → P b → ChoosesAt merge f a b) (hl : ∀ x ∈ l, P x)
    (hsingle : SingleValued f l) (h : mergeAll merge l = some r) (x : α) :
    f r = some x ↔ ∃ i ∈ l, f i = some x := by
  let P' : ρ → Prop := fun r => P r ∧ ∀ y, f r = some y → ∃ i ∈ l, f i = some y
  have hP' : ∀ a b, P' a → P' b → P' (merge a b) := fun a b ha hb =>
    ⟨hP a b ha.1 hb.1, fun y hy =>
      (carried_merge hf ha.1 hb.1 hy).elim (ha.2 y) (hb.2 y)⟩
  refine mergeAll_iff (P := P') (Q := fun r => f r = some x) hP' ?_
    (fun i hi => ⟨hl i hi, fun y hy => ⟨i, hi, hy⟩⟩) h
  intro a b ha hb
  refine ⟨carried_merge hf ha.1 hb.1, ?_⟩
  have hagree : ∀ y z, f a = some y → f b = some z → y = z := by
    intro y z hy hz
    obtain ⟨i, hi, hiy⟩ := ha.2 y hy
    obtain ⟨j, hj, hjz⟩ := hb.2 z hz
    exact hsingle i hi j hj y z hiy hjz
  rintro (hx | hx)
  · rcases hf a b ha.1 hb.1 with heq | heq
    · rw [heq, hx, Option.some_or]
    · rw [heq]
      cases hz : f b with
      | none => exact hx
      | some z => rw [Option.some_or, hagree x z hx hz]
  · rcases hf a b ha.1 hb.1 with heq | heq
    · rw [heq]
      cases hy : f a with
      | none => exact hx
      | some y => rw [Option.some_or, hagree y x hy hx]
    · rw [heq, hx, Option.some_or]

/-- Then the value does not depend on the order either. -/
theorem eq_of_perm (hP : ∀ a b, P a → P b → P (merge a b))
    (hf : ∀ a b, P a → P b → ChoosesAt merge f a b) (hl : ∀ x ∈ l, P x)
    (hsingle : SingleValued f l) (hperm : l.Perm l') (h : mergeAll merge l = some r)
    (h' : mergeAll merge l' = some r') : f r = f r' := by
  have hsingle' : SingleValued f l' := fun a ha b hb =>
    hsingle a (hperm.mem_iff.mpr ha) b (hperm.mem_iff.mpr hb)
  apply Option.ext
  intro x
  rw [mergeAll_eq_some_iff hP hf hl hsingle h,
    mergeAll_eq_some_iff hP hf (fun i hi => hl i (hperm.mem_iff.mpr hi)) hsingle' h']
  simp only [hperm.mem_iff]

end Chosen

/-- Only no record has no merge. -/
theorem mergeAll_eq_none : mergeAll merge l = none ↔ l = [] := by
  cases l <;> simp [mergeAll]

end MergeAll

/-! ## The store -/

variable [DecidableEq κ]

/-- The stored records and the reports passed on, in order. -/
structure State (ρ κ : Type) where
  store : Finmap (fun _ : κ => ρ)
  forwarded : List ρ

/-- Nothing reported yet. -/
def empty : State ρ κ := ⟨∅, []⟩

variable (key : ρ → Option κ) (merge : ρ → ρ → ρ)

/-- File one report. -/
def file (s : State ρ κ) (r : ρ) : State ρ κ :=
  match key r with
  | none => s
  | some k =>
    match s.store.lookup k with
    | some existing => { s with store := s.store.insert k (merge existing r) }
    | none => ⟨s.store.insert k r, s.forwarded ++ [r]⟩

/-- File the reports one after the other, from an empty store. -/
def run (rs : List ρ) : State ρ κ := rs.foldl (file key merge) empty

/-- The reports of one key. -/
def reportsOf (k : κ) (rs : List ρ) : List ρ := rs.filter fun r => key r = some k

variable {key merge}

/-- INTERNAL: the last report is filed last. -/
theorem run_concat (rs : List ρ) (r : ρ) :
    run key merge (rs ++ [r]) = file key merge (run key merge rs) r := by
  simp [run]

/-- The reports of a key are those that have it. -/
theorem mem_reportsOf {k : κ} {rs : List ρ} {r : ρ} :
    r ∈ reportsOf key k rs ↔ r ∈ rs ∧ key r = some k := by
  simp [reportsOf]

/-- INTERNAL: the last report is of the key or not. -/
theorem reportsOf_concat (k : κ) (rs : List ρ) (r : ρ) :
    reportsOf key k (rs ++ [r]) =
      reportsOf key k rs ++ (if key r = some k then [r] else []) := by
  by_cases h : key r = some k <;> simp [reportsOf, h]

/-- INTERNAL: filing a report touches the record of its own key only. -/
theorem lookup_file (s : State ρ κ) (r : ρ) (k : κ) :
    (file key merge s r).store.lookup k =
      if key r = some k then
        some (match s.store.lookup k with
          | none => r
          | some existing => merge existing r)
      else s.store.lookup k := by
  unfold file
  cases hkey : key r with
  | none => simp
  | some k' =>
    by_cases hk : k' = k
    · subst hk
      cases hl : s.store.lookup k' <;> simp [hl]
    · have hne : k ≠ k' := fun h => hk h.symm
      cases hl : s.store.lookup k' <;>
        simp [hl, Finmap.lookup_insert_of_ne _ hne, hk]

/-- **The stored record** under `k` is the left merge of the reports of `k`. -/
theorem lookup_run (rs : List ρ) (k : κ) :
    (run key merge rs).store.lookup k = mergeAll merge (reportsOf key k rs) := by
  induction rs using List.reverseRecOn with
  | nil => rfl
  | append_singleton rs r ih =>
    rw [run_concat, lookup_file, ih, reportsOf_concat]
    split
    · rw [mergeAll_concat]
    · simp

/-- A key is stored exactly when it was reported. -/
theorem mem_run (rs : List ρ) (k : κ) :
    k ∈ (run key merge rs).store ↔ ∃ r ∈ rs, key r = some k := by
  rw [← Finmap.lookup_isSome, lookup_run, Option.isSome_iff_ne_none, Ne, mergeAll_eq_none,
    List.eq_nil_iff_forall_not_mem]
  simp [mem_reportsOf]

/-- INTERNAL: a report is forwarded when its key is new. -/
theorem forwarded_file (s : State ρ κ) (r : ρ) (k : κ) :
    reportsOf key k (file key merge s r).forwarded =
      reportsOf key k s.forwarded ++
        (if key r = some k ∧ s.store.lookup k = none then [r] else []) := by
  unfold file
  cases hkey : key r with
  | none => simp
  | some k' =>
    by_cases hk : k' = k
    · subst hk
      cases hl : s.store.lookup k' with
      | none => simp [hl, reportsOf, hkey]
      | some e => simp [hl]
    · cases hl : s.store.lookup k' with
      | none => simp [hl, reportsOf, hkey, hk]
      | some e => simp [hl, hk]

/-- **What was forwarded** of `k` is its first report. -/
theorem forwarded_run (rs : List ρ) (k : κ) :
    reportsOf key k (run key merge rs).forwarded = (reportsOf key k rs).take 1 := by
  induction rs using List.reverseRecOn with
  | nil => rfl
  | append_singleton rs r ih =>
    rw [run_concat, forwarded_file, ih, reportsOf_concat]
    by_cases hkey : key r = some k
    · cases hrs : reportsOf key k rs <;> simp [hkey, lookup_run, hrs, mergeAll]
    · simp [hkey]

/-- Only reports with a key are forwarded. -/
theorem key_of_mem_forwarded {rs : List ρ} {r : ρ}
    (h : r ∈ (run key merge rs).forwarded) : ∃ k, key r = some k := by
  induction rs using List.reverseRecOn with
  | nil => cases h
  | append_singleton rs x ih =>
    rw [run_concat] at h
    unfold file at h
    split at h
    · exact ih h
    · rename_i k hk
      split at h
      · exact ih h
      · rcases List.mem_append.mp h with h | h
        · exact ih h
        · obtain rfl := List.mem_singleton.mp h
          exact ⟨k, hk⟩

end REnvTools.Lib.KeyedStore
