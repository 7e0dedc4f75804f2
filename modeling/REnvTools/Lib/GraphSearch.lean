import Mathlib.Data.Finset.Card
import Mathlib.Data.Prod.Lex
import Mathlib.Logic.Relation
import Mathlib.Order.Bounds.Defs

/-!
# Walking a finite graph

A walk with a stack of pending items. Each item stands for a node of a finite graph, or for
nothing, and the first item of a node stands for it: later ones are skipped. The walk ends
(`Walk.run` is total), finds each node once (`Walk.nodup_run`), and finds exactly the nodes
that can be reached (`Walk.mem_run_iff`, `Walk.isLeast_run`), provided that the items of one
node have the same nodes for successors.
-/

set_option autoImplicit false

namespace REnvTools.Lib

/-- A graph as a walk sees it: the node an item stands for, and the items that follow it. -/
structure Walk (α κ : Type) where
  key : α → Option κ
  next : α → List α
  keys : Finset κ
  key_mem : ∀ a k, key a = some k → k ∈ keys

namespace Walk

variable {α κ : Type}

/-! ## Reachability -/

section Reachability

variable (w : Walk α κ)

/-- The second node follows the first. -/
def Next (k k' : κ) : Prop := ∃ a, w.key a = some k ∧ ∃ b ∈ w.next a, w.key b = some k'

/-- The node can be reached from one of the items. -/
def Reached (roots : List α) (k : κ) : Prop :=
  ∃ root ∈ roots, ∃ k₀, w.key root = some k₀ ∧ Relation.ReflTransGen w.Next k₀ k

/-- The items of one node have the same nodes for successors. -/
def Uniform : Prop :=
  ∀ a a' k, w.key a = some k → w.key a' = some k →
    ∀ b ∈ w.next a, ∀ k', w.key b = some k' → ∃ b' ∈ w.next a', w.key b' = some k'

end Reachability

/-! ## The invariant of the walk -/

section Invariant

variable {w : Walk α κ}

/-- What holds of the walk between two items: the visited nodes are those of the found items,
each found once, and what follows a visited node is visited or pending. -/
structure Invariant (w : Walk α κ) (pending : List α) (visited : List κ) (found : List α) :
    Prop where
  keys_found : found.map w.key = (visited.reverse).map some
  nodup : visited.Nodup
  closed : ∀ k ∈ visited, ∀ k', w.Next k k' →
    k' ∈ visited ∨ ∃ b ∈ pending, w.key b = some k'

/-- INTERNAL: nothing is found yet. -/
theorem Invariant.initial (pending : List α) : w.Invariant pending [] [] :=
  ⟨rfl, List.nodup_nil, by simp⟩

/-- INTERNAL: skipping an item that stands for nothing, or for a node that was found. -/
theorem Invariant.skip {a : α} {pending : List α} {visited : List κ} {found : List α}
    (h : w.Invariant (a :: pending) visited found)
    (hskip : ∀ k, w.key a = some k → k ∈ visited) : w.Invariant pending visited found := by
  refine ⟨h.keys_found, h.nodup, fun k hk k' hnext => ?_⟩
  obtain hvisited | ⟨b, hb, hkey⟩ := h.closed k hk k' hnext
  · exact .inl hvisited
  · obtain rfl | hb := List.mem_cons.mp hb
    · exact .inl (hskip k' hkey)
    · exact .inr ⟨b, hb, hkey⟩

/-- INTERNAL: finding an item. -/
theorem Invariant.find {a : α} {k : κ} {pending : List α} {visited : List κ} {found : List α}
    (h : w.Invariant (a :: pending) visited found) (huniform : w.Uniform)
    (hkey : w.key a = some k) (hnew : k ∉ visited) :
    w.Invariant (w.next a ++ pending) (k :: visited) (found ++ [a]) := by
  refine ⟨by simp [h.keys_found, hkey], List.nodup_cons.mpr ⟨hnew, h.nodup⟩, ?_⟩
  intro k₁ hk₁ k₂ hnext
  obtain rfl | hk₁ := List.mem_cons.mp hk₁
  · obtain ⟨a', ha', b, hb, hkey'⟩ := hnext
    obtain ⟨b', hb', hkey''⟩ := huniform a' a k₁ ha' hkey b hb k₂ hkey'
    exact .inr ⟨b', List.mem_append_left _ hb', hkey''⟩
  · obtain hvisited | ⟨b, hb, hkey'⟩ := h.closed k₁ hk₁ k₂ hnext
    · exact .inl (List.mem_cons_of_mem _ hvisited)
    · obtain rfl | hb := List.mem_cons.mp hb
      · rw [hkey] at hkey'
        cases hkey'
        exact .inl List.mem_cons_self
      · exact .inr ⟨b, List.mem_append_right _ hb, hkey'⟩

end Invariant

/-! ## The walk -/

section Run

variable [DecidableEq κ] (w : Walk α κ)

/-- INTERNAL: a node that is found leaves one less to find. -/
theorem card_sdiff_cons_lt {visited : List κ} {k : κ} (hkey : k ∈ w.keys) (hnew : k ∉ visited) :
    (w.keys \ (k :: visited).toFinset).card < (w.keys \ visited.toFinset).card := by
  apply Finset.card_lt_card
  rw [Finset.ssubset_iff_of_subset]
  · exact ⟨k, by simp [hkey, hnew], by simp⟩
  · intro k' hk'
    simp only [List.toFinset_cons, Finset.mem_sdiff, Finset.mem_insert, not_or] at hk' ⊢
    exact ⟨hk'.1, hk'.2.2⟩

/-- The walk: the items found, with those that were found before. -/
def run (pending : List α) (visited : List κ) (found : List α) : List α :=
  match pending with
  | [] => found
  | a :: pending =>
    match _h : w.key a with
    | none => run pending visited found
    | some k =>
      if k ∈ visited then run pending visited found
      else run (w.next a ++ pending) (k :: visited) (found ++ [a])
termination_by ((w.keys \ visited.toFinset).card, pending.length)
decreasing_by
  · exact Prod.Lex.right _ (by simp)
  · exact Prod.Lex.right _ (by simp)
  · exact Prod.Lex.left _ _ (w.card_sdiff_cons_lt (w.key_mem _ _ _h) ‹_›)

/-- INTERNAL: an item that stands for nothing, or for a node that was found, is skipped. -/
theorem run_skip {a : α} {pending : List α} {visited : List κ} {found : List α}
    (h : ∀ k, w.key a = some k → k ∈ visited) :
    w.run (a :: pending) visited found = w.run pending visited found := by
  rw [run]
  split
  · rfl
  · rename_i k hkey
    rw [if_pos (h k hkey)]

/-- INTERNAL: an item of a new node is found. -/
theorem run_find {a : α} {k : κ} {pending : List α} {visited : List κ} {found : List α}
    (hkey : w.key a = some k) (hnew : k ∉ visited) :
    w.run (a :: pending) visited found =
      w.run (w.next a ++ pending) (k :: visited) (found ++ [a]) := by
  rw [run]
  split
  · rename_i hnone
    rw [hkey] at hnone
    cases hnone
  · rename_i k' hk'
    rw [hkey] at hk'
    cases hk'
    rw [if_neg hnew]

variable {w}

/-- What holds of the pending items, and is handed on to the next ones, holds of the found
items. -/
theorem run_forall (P : α → Prop)
    (hnext : ∀ a k, w.key a = some k → P a → ∀ b ∈ w.next a, P b) {pending : List α}
    {visited : List κ} {found : List α} (hpending : ∀ a ∈ pending, P a)
    (hfound : ∀ a ∈ found, P a) : ∀ a ∈ w.run pending visited found, P a := by
  induction pending, visited, found using run.induct w with
  | case1 visited found =>
    rw [run]
    exact hfound
  | case2 visited found a pending hkey ih =>
    rw [w.run_skip (by simp [hkey])]
    exact ih (fun b hb => hpending b (List.mem_cons_of_mem a hb)) hfound
  | case3 visited found a pending k hkey hvisited ih =>
    rw [w.run_skip (by simpa [hkey] using hvisited)]
    exact ih (fun b hb => hpending b (List.mem_cons_of_mem a hb)) hfound
  | case4 visited found a pending k hkey hnew ih =>
    rw [w.run_find hkey hnew]
    have ha : P a := hpending a List.mem_cons_self
    apply ih
    · intro b hb
      obtain hb | hb := List.mem_append.mp hb
      · exact hnext a k hkey ha b hb
      · exact hpending b (List.mem_cons_of_mem a hb)
    · intro b hb
      obtain hb | hb := List.mem_append.mp hb
      · exact hfound b hb
      · rw [List.mem_singleton.mp hb]
        exact ha

/-- INTERNAL: at the end no item is pending, and all that were are accounted for. -/
theorem run_spec (huniform : w.Uniform) {pending : List α} {visited : List κ} {found : List α}
    (h : w.Invariant pending visited found) :
    ∃ visited', w.Invariant [] visited' (w.run pending visited found) ∧ visited ⊆ visited' ∧
      ∀ a ∈ pending, ∀ k, w.key a = some k → k ∈ visited' := by
  induction pending, visited, found using run.induct w with
  | case1 visited found =>
    rw [run]
    exact ⟨visited, h, List.Subset.refl _, by simp⟩
  | case2 visited found a pending hkey ih =>
    have hskip : ∀ k, w.key a = some k → k ∈ visited := by simp [hkey]
    obtain ⟨visited', hend, hsubset, hpending⟩ := ih (h.skip hskip)
    rw [w.run_skip hskip]
    refine ⟨visited', hend, hsubset, List.forall_mem_cons.mpr ⟨?_, hpending⟩⟩
    exact fun k hk => hsubset (hskip k hk)
  | case3 visited found a pending k hkey hvisited ih =>
    have hskip : ∀ k', w.key a = some k' → k' ∈ visited := by simpa [hkey] using hvisited
    obtain ⟨visited', hend, hsubset, hpending⟩ := ih (h.skip hskip)
    rw [w.run_skip hskip]
    refine ⟨visited', hend, hsubset, List.forall_mem_cons.mpr ⟨?_, hpending⟩⟩
    exact fun k' hk' => hsubset (hskip k' hk')
  | case4 visited found a pending k hkey hnew ih =>
    obtain ⟨visited', hend, hsubset, hpending⟩ := ih (h.find huniform hkey hnew)
    rw [w.run_find hkey hnew]
    refine ⟨visited', hend, ?_, List.forall_mem_cons.mpr ⟨?_, ?_⟩⟩
    · exact fun k' hk' => hsubset (List.mem_cons_of_mem k hk')
    · intro k' hk'
      rw [hkey] at hk'
      cases hk'
      exact hsubset List.mem_cons_self
    · exact fun b hb => hpending b (List.mem_append_right _ hb)

/-- **Each node is found once.** -/
theorem nodup_run (huniform : w.Uniform) (roots : List α) :
    ((w.run roots [] []).map w.key).Nodup := by
  obtain ⟨visited, hend, -, -⟩ := run_spec huniform (Invariant.initial roots)
  rw [hend.keys_found]
  exact (List.nodup_reverse.mpr hend.nodup).map (Option.some_injective κ)

/-- **Exactly the nodes that can be reached are found.** -/
theorem mem_run_iff (huniform : w.Uniform) (roots : List α) (k : κ) :
    (∃ a ∈ w.run roots [] [], w.key a = some k) ↔ w.Reached roots k := by
  constructor
  · rintro ⟨a, ha, hkey⟩
    have hroots : ∀ root ∈ roots, ∀ k, w.key root = some k → w.Reached roots k :=
      fun root hroot k hk => ⟨root, hroot, k, hk, .refl⟩
    have hnext : ∀ a k, w.key a = some k → (∀ k, w.key a = some k → w.Reached roots k) →
        ∀ b ∈ w.next a, ∀ k', w.key b = some k' → w.Reached roots k' := by
      intro a k hk hreached b hb k' hk'
      obtain ⟨root, hroot, k₀, hroot_key, hpath⟩ := hreached k hk
      exact ⟨root, hroot, k₀, hroot_key, hpath.tail ⟨a, hk, b, hb, hk'⟩⟩
    exact run_forall (fun a => ∀ k, w.key a = some k → w.Reached roots k) hnext hroots (by simp)
      a ha k hkey
  · rintro ⟨root, hroot, k₀, hkey, hpath⟩
    obtain ⟨visited, hend, -, hroots⟩ := run_spec huniform (Invariant.initial roots)
    have hvisited : k ∈ visited := by
      induction hpath with
      | refl => exact hroots root hroot k₀ hkey
      | tail _ hnext ih =>
        obtain hmem | ⟨b, hb, -⟩ := hend.closed _ ih _ hnext
        · exact hmem
        · cases hb
    have hmem : some k ∈ (w.run roots [] []).map w.key := by
      rw [hend.keys_found]
      simpa using hvisited
    exact List.mem_map.mp hmem

/-- What is found stands for a node. -/
theorem exists_key_of_mem_run (huniform : w.Uniform) {roots : List α} {a : α}
    (ha : a ∈ w.run roots [] []) : ∃ k, w.key a = some k := by
  obtain ⟨visited, hend, -, -⟩ := run_spec huniform (Invariant.initial roots)
  have hmem : w.key a ∈ (w.run roots [] []).map w.key := List.mem_map_of_mem ha
  rw [hend.keys_found] at hmem
  obtain ⟨k, -, hkey⟩ := List.mem_map.mp hmem
  exact ⟨k, hkey.symm⟩

/-- The nodes that hold the roots, and with a node those that follow it. -/
def ClosedUnderNext (w : Walk α κ) (roots : List α) (nodes : Set κ) : Prop :=
  (∀ root ∈ roots, ∀ k, w.key root = some k → k ∈ nodes) ∧
    ∀ k ∈ nodes, ∀ k', w.Next k k' → k' ∈ nodes

/-- **The nodes found are the least closed set.** -/
theorem isLeast_run (huniform : w.Uniform) (roots : List α) :
    IsLeast {nodes | w.ClosedUnderNext roots nodes}
      {k | ∃ a ∈ w.run roots [] [], w.key a = some k} := by
  constructor
  · constructor
    · intro root hroot k hkey
      exact (mem_run_iff huniform roots k).mpr ⟨root, hroot, k, hkey, .refl⟩
    · intro k hk k' hnext
      obtain ⟨root, hroot, k₀, hkey, hpath⟩ := (mem_run_iff huniform roots k).mp hk
      exact (mem_run_iff huniform roots k').mpr ⟨root, hroot, k₀, hkey, hpath.tail hnext⟩
  · rintro nodes ⟨hroots, hnodes⟩ k hk
    obtain ⟨root, hroot, k₀, hkey, hpath⟩ := (mem_run_iff huniform roots k).mp hk
    induction hpath with
    | refl => exact hroots root hroot k₀ hkey
    | tail hpath hnext ih =>
      exact hnodes _ (ih ((mem_run_iff huniform roots _).mpr ⟨root, hroot, k₀, hkey, hpath⟩)) _
        hnext

/-- The walk depends on the nodes of the items and on what follows them. -/
theorem run_congr {w' : Walk α κ} (hkey : w.key = w'.key) (hnext : w.next = w'.next)
    (pending : List α) (visited : List κ) (found : List α) :
    w.run pending visited found = w'.run pending visited found := by
  induction pending, visited, found using run.induct w with
  | case1 visited found => rw [run, run]
  | case2 visited found a pending ha ih =>
    rw [w.run_skip (by simp [ha]), w'.run_skip (by simp [← hkey, ha])]
    exact ih
  | case3 visited found a pending k ha hvisited ih =>
    rw [w.run_skip (by simpa [ha] using hvisited),
      w'.run_skip (by simpa [← hkey, ha] using hvisited)]
    exact ih
  | case4 visited found a pending k ha hnew ih =>
    rw [w.run_find ha hnew, w'.run_find (hkey ▸ ha) hnew, ← hnext]
    exact ih

end Run

end Walk

end REnvTools.Lib
