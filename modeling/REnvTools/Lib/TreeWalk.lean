import Mathlib.Algebra.BigOperators.Group.List.Basic
import Mathlib.Algebra.Order.Ring.Nat
import Mathlib.Data.List.Infix

/-!
# Walking a tree down to a depth

A walk with a stack of pending nodes and their depths. A node that is a hit is found, and nothing
below it is looked at; below the limit nothing is looked at either. Each node has an address that
its children extend by one, so there is one way to a node.

The walk ends (`TreeWalk.round_wellFounded`), and what it finds are the hits within the limit
that have no hit above them (`TreeWalk.mem_run_iff`).
-/

set_option autoImplicit false

namespace REnvTools.Lib

/-- A tree as a walk sees it: the children of a node, the nodes to find, and how deep to look. -/
structure TreeWalk (α β : Type) where
  next : α → List α
  hit : α → Bool
  limit : ℕ
  address : α → List β
  address_injective : Function.Injective address
  address_next : ∀ a, ∀ b ∈ next a, ∃ x, address b = address a ++ [x]

namespace TreeWalk

variable {α β : Type} (w : TreeWalk α β)

/-! ## The tree -/

/-- The second node is the given number of levels below the first. -/
inductive Below : α → ℕ → α → Prop
  | here {a : α} : Below a 0 a
  | step {a b c : α} {levels : ℕ} (hnext : b ∈ w.next a) (hbelow : Below b levels c) :
      Below a (levels + 1) c

variable {w}

/-- One level more. -/
theorem Below.snoc {a b c : α} {levels : ℕ} (h : w.Below a levels b) (hnext : c ∈ w.next b) :
    w.Below a (levels + 1) c := by
  induction h with
  | here => exact .step hnext .here
  | step hfirst _ ih => exact .step hfirst (ih hnext)

/-- The address of a node starts with that of each node above it. -/
theorem Below.prefix_address {a b : α} {levels : ℕ} (h : w.Below a levels b) :
    w.address a <+: w.address b := by
  induction h with
  | here => exact List.prefix_rfl
  | @step a b c _ hnext _ ih =>
    obtain ⟨x, hx⟩ := w.address_next a b hnext
    rw [hx] at ih
    exact (List.prefix_append _ _).trans ih

/-- Each level is one more in the address. -/
theorem Below.length_address {a b : α} {levels : ℕ} (h : w.Below a levels b) :
    (w.address b).length = (w.address a).length + levels := by
  induction h with
  | here => rfl
  | @step a b c levels hnext _ ih =>
    obtain ⟨x, hx⟩ := w.address_next a b hnext
    rw [ih, hx, List.length_append, List.length_singleton]
    omega

/-- INTERNAL: of the children of a node, one is above a given node. -/
theorem next_eq_of_prefix {a b b' : α} {address : List β} (hb : b ∈ w.next a)
    (hb' : b' ∈ w.next a) (h : w.address b <+: address) (h' : w.address b' <+: address) :
    b = b' := by
  obtain ⟨x, hx⟩ := w.address_next a b hb
  obtain ⟨x', hx'⟩ := w.address_next a b' hb'
  have hlength : (w.address b).length = (w.address b').length := by
    rw [hx, hx', List.length_append, List.length_append, List.length_singleton,
      List.length_singleton]
  exact w.address_injective
    ((List.prefix_of_prefix_length_le h h' hlength.le).eq_of_length hlength)

/-! ## The walk -/

variable (w)

/-- A node and its depth, which the walk has not looked at. -/
structure Pending where
  node : α
  depth : ℕ
  depth_le : depth ≤ w.limit

variable {w}

/-- INTERNAL: above the limit there is one level more. -/
theorem Pending.depth_lt (item : w.Pending) (h : item.depth ≠ w.limit) :
    item.depth + 1 ≤ w.limit :=
  Nat.lt_of_le_of_ne item.depth_le h

variable (w)

/-- What is pending after a node that is no hit: its children, the last one on top. -/
def after (item : w.Pending) : List w.Pending :=
  if h : item.depth = w.limit then []
  else (w.next item.node).reverse.map fun child => ⟨child, item.depth + 1, item.depth_lt h⟩

/-- One round of the walk: what is pending, and what was found. -/
def round : List w.Pending × List α → Option (List w.Pending × List α)
  | ([], _) => none
  | (item :: pending, found) =>
    if w.hit item.node then some (pending, found ++ [item.node])
    else some (w.after item ++ pending, found)

/-! ## Termination -/

/-- How many rounds a node takes at most, with so many levels below it. -/
def weight : ℕ → α → ℕ
  | 0, _ => 1
  | levels + 1, a => ((w.next a).map (weight levels)).sum + 1

variable {w}

/-- How many rounds a pending node takes at most. -/
def Pending.weight (item : w.Pending) : ℕ := w.weight (w.limit - item.depth) item.node

variable (w)

/-- How many rounds the pending nodes take at most. -/
def rounds (pending : List w.Pending) : ℕ := (pending.map Pending.weight).sum

variable {w}

/-- INTERNAL: a node takes a round. -/
theorem Pending.weight_pos (item : w.Pending) : 0 < item.weight := by
  unfold Pending.weight
  cases w.limit - item.depth with
  | zero => exact Nat.one_pos
  | succ levels => exact Nat.succ_pos _

/-- INTERNAL: the children of a node take a round less. -/
theorem rounds_after_lt (item : w.Pending) : w.rounds (w.after item) < item.weight := by
  unfold after
  split
  · exact item.weight_pos
  · rename_i h
    have hlevels : w.limit - item.depth = w.limit - (item.depth + 1) + 1 := by
      have := item.depth_lt h
      omega
    rw [rounds, List.map_map, List.map_reverse, List.sum_reverse, Pending.weight, hlevels]
    exact Nat.lt_succ_self _

/-- A round leaves fewer. -/
theorem rounds_lt {s s' : List w.Pending × List α} (h : w.round s = some s') :
    w.rounds s'.1 < w.rounds s.1 := by
  obtain ⟨pending, found⟩ := s
  cases pending with
  | nil => cases h
  | cons item pending =>
    simp only [round] at h
    split at h
    · cases h
      have := item.weight_pos
      simp only [rounds, List.map_cons, List.sum_cons]
      omega
    · cases h
      have := rounds_after_lt item
      simp only [rounds, List.map_append, List.sum_append, List.map_cons, List.sum_cons] at this ⊢
      omega

variable (w)

/-- **The walk ends**: there is no endless sequence of rounds, from any state. -/
theorem round_wellFounded : WellFounded fun s' s => w.round s = some s' :=
  Subrelation.wf (fun h => rounds_lt h) (measure fun s : List w.Pending × List α => w.rounds s.1).wf

/-- What is found in the end. -/
def run (s : List w.Pending × List α) : List α :=
  match _h : w.round s with
  | none => s.2
  | some s' => run s'
termination_by w.rounds s.1
decreasing_by exact rounds_lt _h

variable {w}

/-- Nothing is pending. -/
theorem run_of_done {s : List w.Pending × List α} (h : w.round s = none) : w.run s = s.2 := by
  rw [run]
  split
  · rfl
  · rename_i s' hround
    rw [h] at hround
    cases hround

/-- A round. -/
theorem run_of_round {s s' : List w.Pending × List α} (h : w.round s = some s') :
    w.run s = w.run s' := by
  rw [run]
  split
  · rename_i hround
    rw [h] at hround
    cases hround
  · rename_i s'' hround
    rw [h] at hround
    cases hround
    rfl

/-! ## What is found -/

/-- The walk below a pending node finds another. -/
inductive Finds : w.Pending → α → Prop
  | hit {item : w.Pending} (h : w.hit item.node = true) : Finds item item.node
  | child {item child : w.Pending} {c : α} (h : w.hit item.node = false)
      (hchild : child ∈ w.after item) (hfinds : Finds child c) : Finds item c

/-- INTERNAL: a hit finds itself. -/
theorem finds_iff_of_hit {item : w.Pending} {c : α} (h : w.hit item.node = true) :
    Finds item c ↔ c = item.node := by
  constructor
  · intro hfinds
    cases hfinds with
    | hit => rfl
    | child hnot =>
      rw [h] at hnot
      cases hnot
  · rintro rfl
    exact .hit h

/-- INTERNAL: a node that is no hit finds what its children find. -/
theorem finds_iff_of_not_hit {item : w.Pending} {c : α} (h : w.hit item.node = false) :
    Finds item c ↔ ∃ child ∈ w.after item, Finds child c := by
  constructor
  · intro hfinds
    cases hfinds with
    | hit hhit =>
      rw [h] at hhit
      cases hhit
    | child _ hchild hfinds => exact ⟨_, hchild, hfinds⟩
  · rintro ⟨child, hchild, hfinds⟩
    exact .child h hchild hfinds

/-- A round keeps what is found and what will be. -/
theorem finds_round {s s' : List w.Pending × List α} (h : w.round s = some s') (c : α) :
    (c ∈ s.2 ∨ ∃ item ∈ s.1, Finds item c) ↔ c ∈ s'.2 ∨ ∃ item ∈ s'.1, Finds item c := by
  obtain ⟨pending, found⟩ := s
  cases pending with
  | nil => cases h
  | cons item pending =>
    simp only [round] at h
    cases hhit : w.hit item.node with
    | true =>
      rw [hhit, if_pos rfl] at h
      cases h
      simp only [List.mem_cons, exists_eq_or_imp, finds_iff_of_hit hhit, List.mem_append,
        List.not_mem_nil, or_false, or_assoc]
    | false =>
      rw [hhit, if_neg Bool.false_ne_true] at h
      cases h
      simp only [List.mem_cons, exists_eq_or_imp, finds_iff_of_not_hit hhit]
      simp only [List.mem_append, or_and_right, exists_or]

/-- The walk finds what the pending nodes find. -/
theorem mem_run {s : List w.Pending × List α} {c : α} :
    c ∈ w.run s ↔ c ∈ s.2 ∨ ∃ item ∈ s.1, Finds item c := by
  induction s using run.induct w with
  | case1 s hdone =>
    rw [run_of_done hdone]
    obtain ⟨pending, found⟩ := s
    cases pending with
    | nil => simp
    | cons item pending =>
      simp only [round] at hdone
      split at hdone <;> cases hdone
  | case2 s s' hround ih => rw [run_of_round hround, ih, finds_round hround]

/-! ## Which nodes these are -/

/-- No node from `a` down to `c`, other than `c`, is a hit. -/
def NoHitAbove (w : TreeWalk α β) (a c : α) : Prop :=
  ∀ b levels, w.Below a levels b → w.address b <+: w.address c → b ≠ c → w.hit b = false

/-- INTERNAL: the children that are pending. -/
theorem mem_after {item child : w.Pending} :
    child ∈ w.after item ↔
      item.depth ≠ w.limit ∧ child.node ∈ w.next item.node ∧ child.depth = item.depth + 1 := by
  unfold after
  split
  · rename_i h
    simp [h]
  · rename_i h
    obtain ⟨node, depth, hle⟩ := child
    simp only [List.mem_map, List.mem_reverse, Pending.mk.injEq, ne_eq, h, not_false_eq_true,
      true_and]
    constructor
    · rintro ⟨_, hnext, rfl, rfl⟩
      exact ⟨hnext, rfl⟩
    · rintro ⟨hnext, rfl⟩
      exact ⟨node, hnext, rfl, rfl⟩

/-- What is found is a hit within the limit, and none of the nodes above it is one. -/
theorem Finds.spec {item : w.Pending} {c : α} (h : Finds item c) :
    w.hit c = true ∧ (∃ levels, w.Below item.node levels c ∧ item.depth + levels ≤ w.limit) ∧
      w.NoHitAbove item.node c := by
  induction h with
  | @hit item hhit =>
    refine ⟨hhit, ⟨0, .here, item.depth_le⟩, fun b levels hbelow hstarts hne => ?_⟩
    have heq := hbelow.prefix_address.eq_of_length_le hstarts.length_le
    exact absurd (w.address_injective heq).symm hne
  | @child item child c hnot hchild _ ih =>
    obtain ⟨hhit, ⟨levels, hbelow, hle⟩, hnone⟩ := ih
    obtain ⟨-, hnext, hdepth⟩ := mem_after.mp hchild
    refine ⟨hhit, ⟨levels + 1, .step hnext hbelow, by omega⟩, fun b k hb hstarts hne => ?_⟩
    cases hb with
    | here => exact hnot
    | @step _ b' _ k hnext' hb =>
      -- the node is above `c`, so the way to it goes through the same child
      obtain rfl := next_eq_of_prefix hnext' hnext (hb.prefix_address.trans hstarts)
        hbelow.prefix_address
      exact hnone b k hb hstarts hne

/-- A hit within the limit that has no hit above it is found. -/
theorem finds_of_spec {item : w.Pending} {c : α} {levels : ℕ}
    (hbelow : w.Below item.node levels c) (hle : item.depth + levels ≤ w.limit)
    (hhit : w.hit c = true) (hnone : w.NoHitAbove item.node c) : Finds item c := by
  obtain ⟨node, depth, hdepth⟩ := item
  dsimp only at hbelow hle hnone
  induction hbelow generalizing depth with
  | here => exact .hit hhit
  | @step a b c levels hnext hbelow ih =>
    have hbelow' : w.Below a (levels + 1) c := .step hnext hbelow
    have hne : a ≠ c := by
      rintro rfl
      have := hbelow'.length_address
      omega
    refine .child (hnone a 0 .here hbelow'.prefix_address hne)
      (mem_after.mpr ⟨by dsimp only; omega, hnext, rfl⟩)
      (ih hhit (depth + 1) (by omega) (by omega) fun d k hd => hnone d (k + 1) (.step hnext hd))

variable (w)

/-- The walk from a root: nothing is found yet. -/
def start (root : α) : List w.Pending × List α := ([⟨root, 0, Nat.zero_le _⟩], [])

variable {w}

/-- **What the walk finds**: the hits within the limit that have no hit above them. -/
theorem mem_run_iff {root c : α} :
    c ∈ w.run (w.start root) ↔
      (∃ levels ≤ w.limit, w.Below root levels c) ∧ w.hit c = true ∧ w.NoHitAbove root c := by
  simp only [mem_run, start, List.not_mem_nil, false_or, List.mem_singleton, exists_eq_left]
  constructor
  · intro hfinds
    obtain ⟨hhit, ⟨levels, hbelow, hle⟩, hnone⟩ := hfinds.spec
    exact ⟨⟨levels, by omega, hbelow⟩, hhit, hnone⟩
  · rintro ⟨⟨levels, hle, hbelow⟩, hhit, hnone⟩
    exact finds_of_spec hbelow (by dsimp only; omega) hhit hnone

/-- **No found node is below another**. -/
theorem eq_of_mem_run {root b c : α} (hb : b ∈ w.run (w.start root))
    (hc : c ∈ w.run (w.start root)) (hstarts : w.address b <+: w.address c) : b = c := by
  obtain ⟨⟨levels, -, hbelow⟩, hhit, -⟩ := mem_run_iff.mp hb
  obtain ⟨-, -, hnone⟩ := mem_run_iff.mp hc
  by_contra hne
  rw [hnone b levels hbelow hstarts hne] at hhit
  cases hhit

end TreeWalk

end REnvTools.Lib
