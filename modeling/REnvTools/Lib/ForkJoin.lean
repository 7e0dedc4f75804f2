import Mathlib.Algebra.GroupWithZero.Nat
import Mathlib.Data.List.Perm.Basic
import Mathlib.Data.Nat.Notation
import Mathlib.Order.MinMax

/-!
# Programs that fork threads and join them

A `ForkJoin` is a program of actions: one after the other, or in threads that are all joined
before the program goes on. Its runs are the interleavings of the threads' actions.

* `Runs.perm`, `Runs.extend`: a run does actions of the program only, each as often as the
  program has it, and can be completed.
* `runs_seq`, `runs_par`: the runs of a composed program, from those of its parts.
* `Runs.filter_all`: what one thread of a scope does in a run of the scope is a run of the
  thread.
* `Projects`: what a filter leaves of the runs of a program are runs of a smaller one.
* `Runs.ready_le`: a bound on how many threads may be at an action at the same time.
-/

set_option autoImplicit false

namespace REnvTools.Lib

/-- A program of actions. -/
inductive ForkJoin (α : Type)
  | done
  | act (a : α)
  /-- The second part starts when the first is finished. -/
  | seq (first second : ForkJoin α)
  /-- Two threads, both joined at the end. -/
  | par (left right : ForkJoin α)

namespace ForkJoin

variable {α : Type}

/-- One program after the other. -/
def inOrder (programs : List (ForkJoin α)) : ForkJoin α := programs.foldr seq done

/-- A scope with a thread for each program. -/
def all (programs : List (ForkJoin α)) : ForkJoin α := programs.foldr par done

/-- The actions, one after the other. -/
def acts (actions : List α) : ForkJoin α := inOrder (actions.map act)

/-- The program between two actions. -/
def bracket (first last : α) (body : ForkJoin α) : ForkJoin α :=
  seq (act first) (seq body (act last))

/-- The program with other names for its actions. -/
def map {β : Type} (f : α → β) : ForkJoin α → ForkJoin β
  | done => done
  | act a => act (f a)
  | seq p q => seq (p.map f) (q.map f)
  | par p q => par (p.map f) (q.map f)

/-- INTERNAL: no program, one after the other. -/
@[simp] theorem inOrder_nil : inOrder ([] : List (ForkJoin α)) = done := rfl
/-- INTERNAL: the first program and the others after it. -/
@[simp] theorem inOrder_cons (p : ForkJoin α) (ps : List (ForkJoin α)) :
    inOrder (p :: ps) = seq p (inOrder ps) := rfl
/-- INTERNAL: no program, side by side. -/
@[simp] theorem all_nil : all ([] : List (ForkJoin α)) = done := rfl
/-- INTERNAL: the first program beside the others. -/
@[simp] theorem all_cons (p : ForkJoin α) (ps : List (ForkJoin α)) :
    all (p :: ps) = par p (all ps) := rfl

/-! ## Runs -/

/-- Nothing is left to do. -/
def finished : ForkJoin α → Bool
  | done => true
  | act _ => false
  | seq p q | par p q => p.finished && q.finished

/-- The actions of the program, thread by thread. -/
def actions : ForkJoin α → List α
  | done => []
  | act a => [a]
  | seq p q | par p q => p.actions ++ q.actions

/-- One action of one thread. -/
inductive Step : ForkJoin α → α → ForkJoin α → Prop
  | act (a : α) : Step (act a) a done
  | first {p p' q : ForkJoin α} {a : α} (h : Step p a p') : Step (seq p q) a (seq p' q)
  | second {p q q' : ForkJoin α} {a : α} (hp : p.finished = true) (h : Step q a q') :
      Step (seq p q) a (seq p q')
  | left {p p' q : ForkJoin α} {a : α} (h : Step p a p') : Step (par p q) a (par p' q)
  | right {p q q' : ForkJoin α} {a : α} (h : Step q a q') : Step (par p q) a (par p q')

/-- After these actions this is left of the program. -/
inductive Runs : ForkJoin α → List α → ForkJoin α → Prop
  | nil (p : ForkJoin α) : Runs p [] p
  | cons {p p' r : ForkJoin α} {a : α} {trace : List α} (h : Step p a p')
      (hrest : Runs p' trace r) : Runs p (a :: trace) r

/-- A run that leaves nothing to do. -/
def Completes (p : ForkJoin α) (trace : List α) : Prop :=
  ∃ r, Runs p trace r ∧ r.finished = true

variable {p p' q q' r : ForkJoin α} {a : α} {trace trace' : List α}

/-- A run may be continued by another. -/
theorem Runs.trans (h : Runs p trace q) (h' : Runs q trace' r) : Runs p (trace ++ trace') r := by
  induction h with
  | nil => exact h'
  | cons hstep _ ih => exact .cons hstep (ih h')

/-! ### What a run does -/

/-- A program is finished exactly if it has no action left. -/
theorem finished_iff : p.finished = true ↔ p.actions = [] := by
  induction p with
  | done => simp [finished, actions]
  | act => simp [finished, actions]
  | seq p q ihp ihq => simp [finished, actions, ihp, ihq]
  | par p q ihp ihq => simp [finished, actions, ihp, ihq]

/-- The actions of programs that run one after the other. -/
@[simp] theorem actions_inOrder (programs : List (ForkJoin α)) :
    (inOrder programs).actions = programs.flatMap actions := by
  induction programs with
  | nil => rfl
  | cons p programs ih => rw [inOrder_cons, actions, ih, List.flatMap_cons]

/-- The actions of programs that run side by side. -/
@[simp] theorem actions_all (programs : List (ForkJoin α)) :
    (all programs).actions = programs.flatMap actions := by
  induction programs with
  | nil => rfl
  | cons p programs ih => rw [all_cons, actions, ih, List.flatMap_cons]

/-- The actions of a list of actions. -/
@[simp] theorem actions_acts (l : List α) : (acts l).actions = l := by
  unfold acts
  rw [actions_inOrder, List.flatMap_map]
  exact List.flatMap_singleton' l

/-- The actions of a bracketed program. -/
@[simp] theorem actions_bracket (first last : α) (body : ForkJoin α) :
    (bracket first last body).actions = first :: (body.actions ++ [last]) := rfl

/-- Renaming the actions renames them in the list of actions. -/
@[simp] theorem actions_map {β : Type} (f : α → β) (p : ForkJoin α) :
    (p.map f).actions = p.actions.map f := by
  induction p with
  | done => rfl
  | act => rfl
  | seq p q ihp ihq => rw [map, actions, actions, ihp, ihq, List.map_append]
  | par p q ihp ihq => rw [map, actions, actions, ihp, ihq, List.map_append]

/-- A step takes its action off the program. -/
theorem Step.perm (h : Step p a p') : p.actions.Perm (a :: p'.actions) := by
  induction h with
  | act a => exact List.Perm.refl [a]
  | first _ ih => exact ih.append_right _
  | @second p q q' a hp _ ih =>
    rw [actions, actions, finished_iff.mp hp]
    exact ih
  | left _ ih => exact ih.append_right _
  | @right p q q' a _ ih => exact (ih.append_left _).trans List.perm_middle

/-- **What is done and what is left** are together the actions of the program. -/
theorem Runs.perm (h : Runs p trace r) : p.actions.Perm (trace ++ r.actions) := by
  induction h with
  | nil => exact List.Perm.refl _
  | cons hstep _ ih => exact hstep.perm.trans (ih.cons _)

/-- A complete trace has the actions of the program, in some order. -/
theorem Completes.perm (h : Completes p trace) : trace.Perm p.actions := by
  obtain ⟨r, hruns, hfinished⟩ := h
  have hperm := hruns.perm
  rw [finished_iff.mp hfinished, List.append_nil] at hperm
  exact hperm.symm

/-- An action of a run is one of the program. -/
theorem Runs.mem_actions (h : Runs p trace r) (ha : a ∈ trace) : a ∈ p.actions :=
  h.perm.mem_iff.mpr (List.mem_append_left _ ha)

/-- INTERNAL: a run of the first part. -/
theorem Runs.first (h : Runs p trace p') : Runs (seq p q) trace (seq p' q) := by
  induction h with
  | nil => exact .nil _
  | cons hstep _ ih => exact .cons (.first hstep) ih

/-- INTERNAL: a run of the second part. -/
theorem Runs.second (hp : p.finished = true) (h : Runs q trace q') :
    Runs (seq p q) trace (seq p q') := by
  induction h with
  | nil => exact .nil _
  | cons hstep _ ih => exact .cons (.second hp hstep) ih

/-- INTERNAL: a run of the one thread. -/
theorem Runs.left (h : Runs p trace p') : Runs (par p q) trace (par p' q) := by
  induction h with
  | nil => exact .nil _
  | cons hstep _ ih => exact .cons (.left hstep) ih

/-- INTERNAL: a run of the other thread. -/
theorem Runs.right (h : Runs q trace q') : Runs (par p q) trace (par p q') := by
  induction h with
  | nil => exact .nil _
  | cons hstep _ ih => exact .cons (.right hstep) ih

/-- **Every program can be run to its end**, thread by thread for instance. -/
theorem completes_actions (p : ForkJoin α) : Completes p p.actions := by
  induction p with
  | done => exact ⟨done, .nil done, rfl⟩
  | act a => exact ⟨done, .cons (.act a) (.nil done), rfl⟩
  | seq p q ihp ihq =>
    obtain ⟨p', hp, hp'⟩ := ihp
    obtain ⟨q', hq, hq'⟩ := ihq
    exact ⟨seq p' q', hp.first.trans (hq.second hp'), Bool.and_eq_true_iff.mpr ⟨hp', hq'⟩⟩
  | par p q ihp ihq =>
    obtain ⟨p', hp, hp'⟩ := ihp
    obtain ⟨q', hq, hq'⟩ := ihq
    exact ⟨par p' q', hp.left.trans hq.right, Bool.and_eq_true_iff.mpr ⟨hp', hq'⟩⟩

/-- **Every run can be completed**, so a run that cannot go on is complete. -/
theorem Runs.extend (h : Runs p trace r) : ∃ rest, Completes p (trace ++ rest) := by
  obtain ⟨r', hruns, hr'⟩ := completes_actions r
  exact ⟨r.actions, r', h.trans hruns, hr'⟩

/-! ## Runs of composed programs -/

/-- The list is an interleaving of two others. -/
inductive Shuffles : List α → List α → List α → Prop
  | nil : Shuffles [] [] []
  | left {a : α} {l l' m : List α} (h : Shuffles l l' m) : Shuffles (a :: l) l' (a :: m)
  | right {a : α} {l l' m : List α} (h : Shuffles l l' m) : Shuffles l (a :: l') (a :: m)

/-- INTERNAL: an interleaving that is filtered is one of the filtered lists. -/
theorem Shuffles.filter (P : α → Bool) {l l' m : List α} (h : Shuffles l l' m) :
    Shuffles (l.filter P) (l'.filter P) (m.filter P) := by
  induction h with
  | nil => exact .nil
  | @left a _ _ _ _ ih =>
    cases hP : P a with
    | true =>
      rw [List.filter_cons_of_pos hP, List.filter_cons_of_pos hP]
      exact .left ih
    | false =>
      rw [List.filter_cons_of_neg (by simp [hP]), List.filter_cons_of_neg (by simp [hP])]
      exact ih
  | @right a _ _ _ _ ih =>
    cases hP : P a with
    | true =>
      rw [List.filter_cons_of_pos hP, List.filter_cons_of_pos hP]
      exact .right ih
    | false =>
      rw [List.filter_cons_of_neg (by simp [hP]), List.filter_cons_of_neg (by simp [hP])]
      exact ih

/-- INTERNAL: an interleaving with nothing is the list. -/
theorem Shuffles.eq_left {l m : List α} (h : Shuffles l [] m) : m = l := by
  generalize hnil : ([] : List α) = l' at h
  induction h with
  | nil => rfl
  | left _ ih => rw [ih hnil]
  | right => cases hnil

/-- INTERNAL: an interleaving with nothing is the list. -/
theorem Shuffles.eq_right {l m : List α} (h : Shuffles [] l m) : m = l := by
  generalize hnil : ([] : List α) = l' at h
  induction h with
  | nil => rfl
  | left => cases hnil
  | right _ ih => rw [ih hnil]

/-- INTERNAL: a finished program does nothing. -/
theorem runs_done (h : Runs done trace r) : trace = [] ∧ r = done := by
  cases h with
  | nil => exact ⟨rfl, rfl⟩
  | cons hstep _ => cases hstep

/-- A run of a single action. -/
theorem runs_act (h : Runs (act a) trace r) :
    trace = [] ∧ r = act a ∨ trace = [a] ∧ r = done := by
  cases h with
  | nil => exact .inl ⟨rfl, rfl⟩
  | cons hstep hrest =>
    cases hstep
    obtain ⟨rfl, rfl⟩ := runs_done hrest
    exact .inr ⟨rfl, rfl⟩

/-- **A run of two programs one after the other** is a run of the first, and one of the second
once the first is finished. -/
theorem runs_seq (h : Runs (seq p q) trace r) :
    ∃ first second p' q', trace = first ++ second ∧ r = seq p' q' ∧ Runs p first p' ∧
      Runs q second q' ∧ (second = [] ∨ p'.finished = true) := by
  generalize hprogram : seq p q = program at h
  induction h generalizing p q with
  | nil =>
    subst hprogram
    exact ⟨[], [], p, q, rfl, rfl, .nil p, .nil q, .inl rfl⟩
  | cons hstep _ ih =>
    subst hprogram
    cases hstep with
    | first hstep =>
      obtain ⟨first, second, p', q', rfl, rfl, hp, hq, hlate⟩ := ih rfl
      exact ⟨_ :: first, second, p', q', rfl, rfl, .cons hstep hp, hq, hlate⟩
    | second hfinished hstep =>
      obtain ⟨first, second, p', q', rfl, rfl, hp, hq, hlate⟩ := ih rfl
      -- nothing was left of the first program
      have hnone : first = [] := by
        have hperm := hp.perm
        rw [finished_iff.mp hfinished] at hperm
        exact (List.append_eq_nil_iff.mp hperm.symm.eq_nil).1
      subst hnone
      cases hp with
      | nil => exact ⟨[], _ :: second, p, q', rfl, rfl, .nil p, .cons hstep hq, .inr hfinished⟩

/-- **A run of two threads** is an interleaving of a run of each. -/
theorem runs_par (h : Runs (par p q) trace r) :
    ∃ left right p' q', Shuffles left right trace ∧ r = par p' q' ∧ Runs p left p' ∧
      Runs q right q' := by
  generalize hprogram : par p q = program at h
  induction h generalizing p q with
  | nil =>
    subst hprogram
    exact ⟨[], [], p, q, .nil, rfl, .nil p, .nil q⟩
  | cons hstep _ ih =>
    subst hprogram
    cases hstep with
    | left hstep =>
      obtain ⟨left, right, p', q', hshuffle, rfl, hp, hq⟩ := ih rfl
      exact ⟨_ :: left, right, p', q', .left hshuffle, rfl, .cons hstep hp, hq⟩
    | right hstep =>
      obtain ⟨left, right, p', q', hshuffle, rfl, hp, hq⟩ := ih rfl
      exact ⟨left, _ :: right, p', q', .right hshuffle, rfl, hp, .cons hstep hq⟩

/-- INTERNAL: a filter that no action of the program passes leaves nothing of its runs. -/
theorem Runs.filter_eq_nil {P : α → Bool} (h : Runs p trace r) (hP : ∀ a ∈ p.actions, P a = false) :
    trace.filter P = [] := by
  rw [List.filter_eq_nil_iff]
  intro a ha
  rw [hP a (h.mem_actions ha)]
  exact Bool.false_ne_true

/-- INTERNAL: a filter that every action of the program passes leaves its runs as they are. -/
theorem Runs.filter_eq_self {P : α → Bool} (h : Runs p trace r)
    (hP : ∀ a ∈ p.actions, P a = true) : trace.filter P = trace := by
  rw [List.filter_eq_self]
  exact fun a ha => hP a (h.mem_actions ha)

/-- A filter that passes nothing of the second program sees a run of the first. -/
theorem Runs.filter_first {P : α → Bool} (h : Runs (seq p q) trace r)
    (hq : ∀ a ∈ q.actions, P a = false) :
    ∃ first p', trace.filter P = first.filter P ∧ Runs p first p' := by
  obtain ⟨first, second, p', q', rfl, -, hp, hsecond, -⟩ := runs_seq h
  rw [List.filter_append, hsecond.filter_eq_nil hq, List.append_nil]
  exact ⟨first, p', rfl, hp⟩

/-- A filter that passes nothing of the first program sees a run of the second. -/
theorem Runs.filter_second {P : α → Bool} (h : Runs (seq p q) trace r)
    (hp : ∀ a ∈ p.actions, P a = false) :
    ∃ second q', trace.filter P = second.filter P ∧ Runs q second q' := by
  obtain ⟨first, second, p', q', rfl, -, hfirst, hq, -⟩ := runs_seq h
  rw [List.filter_append, hfirst.filter_eq_nil hp, List.nil_append]
  exact ⟨second, q', rfl, hq⟩

/-- A filter that passes neither bracket sees a run of the body. -/
theorem Runs.filter_bracket {P : α → Bool} {first last : α}
    (h : Runs (bracket first last p) trace r) (hfirst : P first = false) (hlast : P last = false) :
    ∃ middle p', trace.filter P = middle.filter P ∧ Runs p middle p' := by
  have hact : ∀ {b : α}, P b = false → ∀ a ∈ (act b).actions, P a = false := by
    intro b hb a ha
    rwa [List.mem_singleton.mp ha]
  obtain ⟨rest, q', hrest, hruns⟩ := h.filter_second (hact hfirst)
  obtain ⟨middle, p', hmiddle, hbody⟩ := hruns.filter_first (hact hlast)
  exact ⟨middle, p', hrest.trans hmiddle, hbody⟩

/-- **One thread of a scope**: if a filter passes exactly the actions of one thread, what it
leaves of a run of the scope is a run of the thread. -/
theorem Runs.filter_all {P : α → Bool} {before after : List (ForkJoin α)}
    (h : Runs (all (before ++ p :: after)) trace r) (hp : ∀ a ∈ p.actions, P a = true)
    (hothers : ∀ q ∈ before ++ after, ∀ a ∈ q.actions, P a = false) :
    ∃ r', Runs p (trace.filter P) r' ∧ (r.finished = true → r'.finished = true) := by
  induction before generalizing trace r with
  | nil =>
    obtain ⟨left, right, p', q', hshuffle, rfl, hleft, hright⟩ := runs_par h
    have hnone : right.filter P = [] := by
      refine hright.filter_eq_nil fun a ha => ?_
      obtain ⟨q, hq, ha⟩ := List.mem_flatMap.mp (actions_all after ▸ ha)
      exact hothers q hq a ha
    have hfiltered := hshuffle.filter P
    rw [hnone, hleft.filter_eq_self hp] at hfiltered
    rw [hfiltered.eq_left]
    exact ⟨p', hleft, fun hr => (Bool.and_eq_true_iff.mp hr).1⟩
  | cons q before ih =>
    obtain ⟨left, right, p', q', hshuffle, rfl, hleft, hright⟩ := runs_par h
    have hnone : left.filter P = [] := hleft.filter_eq_nil (hothers q List.mem_cons_self)
    have hfiltered := hshuffle.filter P
    rw [hnone] at hfiltered
    rw [hfiltered.eq_right]
    obtain ⟨r', hruns, hr'⟩ := ih hright fun q' hq' => hothers q' (List.mem_cons_of_mem q hq')
    exact ⟨r', hruns, fun hr => hr' (Bool.and_eq_true_iff.mp hr).2⟩

/-! ### Leaving threads out -/

/-- INTERNAL: an interleaving of a run of each thread is a run of both. -/
theorem runs_of_shuffles {left right : List α} (h : Shuffles left right trace)
    (hp : Runs p left p') (hq : Runs q right q') : Runs (par p q) trace (par p' q') := by
  induction h generalizing p q with
  | nil =>
    cases hp
    cases hq
    exact .nil _
  | left _ ih =>
    cases hp with
    | cons hstep hrest => exact .cons (.left hstep) (ih hrest hq)
  | right _ ih =>
    cases hq with
    | cons hstep hrest => exact .cons (.right hstep) (ih hp hrest)

/-- What the filter leaves of a run of the first program is a run of the second, which is complete
if that of the first is. -/
def Projects (P : α → Bool) (p q : ForkJoin α) : Prop :=
  ∀ (trace : List α) (r : ForkJoin α), Runs p trace r →
    ∃ r', Runs q (trace.filter P) r' ∧ (r.finished = true → r'.finished = true)

/-- A program all of whose actions pass is left as it is. -/
theorem Projects.self {P : α → Bool} (hp : ∀ a ∈ p.actions, P a = true) : Projects P p p := by
  intro trace r hruns
  rw [hruns.filter_eq_self hp]
  exact ⟨r, hruns, id⟩

/-- One program after the other. -/
theorem Projects.seq {P : α → Bool} (hp : Projects P p p') (hq : Projects P q q') :
    Projects P (seq p q) (seq p' q') := by
  intro trace r hruns
  obtain ⟨first, second, p₁, q₁, rfl, rfl, hfirst, hsecond, hlate⟩ := runs_seq hruns
  obtain ⟨p₂, hp₂, hfinished⟩ := hp _ _ hfirst
  obtain ⟨q₂, hq₂, hfinished'⟩ := hq _ _ hsecond
  have hboth : (ForkJoin.seq p₁ q₁).finished = true → (ForkJoin.seq p₂ q₂).finished = true := by
    intro hr
    obtain ⟨hleft, hright⟩ := Bool.and_eq_true_iff.mp hr
    exact Bool.and_eq_true_iff.mpr ⟨hfinished hleft, hfinished' hright⟩
  rw [List.filter_append]
  obtain rfl | hdone := hlate
  · -- the second program has not started
    cases hsecond
    rw [List.filter_nil, List.append_nil]
    refine ⟨_, hp₂.first, fun hr => ?_⟩
    obtain ⟨hleft, hright⟩ := Bool.and_eq_true_iff.mp hr
    obtain ⟨q₃, hq₃, hfinished''⟩ := hq _ _ (.nil q)
    cases hq₃
    exact Bool.and_eq_true_iff.mpr ⟨hfinished hleft, hfinished'' hright⟩
  · exact ⟨_, hp₂.first.trans (hq₂.second (hfinished hdone)), hboth⟩

/-- Two threads. -/
theorem Projects.par {P : α → Bool} (hp : Projects P p p') (hq : Projects P q q') :
    Projects P (par p q) (par p' q') := by
  intro trace r hruns
  obtain ⟨left, right, p₁, q₁, hshuffle, rfl, hleft, hright⟩ := runs_par hruns
  obtain ⟨p₂, hp₂, hfinished⟩ := hp _ _ hleft
  obtain ⟨q₂, hq₂, hfinished'⟩ := hq _ _ hright
  refine ⟨_, runs_of_shuffles (hshuffle.filter P) hp₂ hq₂, fun hr => ?_⟩
  obtain ⟨hr₁, hr₂⟩ := Bool.and_eq_true_iff.mp hr
  exact Bool.and_eq_true_iff.mpr ⟨hfinished hr₁, hfinished' hr₂⟩

/-- A thread of which nothing passes is left out. -/
theorem Projects.skip {P : α → Bool} (hp : ∀ a ∈ p.actions, P a = false) (hq : Projects P q q') :
    Projects P (ForkJoin.par p q) q' := by
  intro trace r hruns
  obtain ⟨left, right, p₁, q₁, hshuffle, rfl, hleft, hright⟩ := runs_par hruns
  obtain ⟨q₂, hq₂, hfinished⟩ := hq _ _ hright
  have hfiltered := hshuffle.filter P
  rw [hleft.filter_eq_nil hp] at hfiltered
  rw [hfiltered.eq_right]
  exact ⟨q₂, hq₂, fun hr => hfinished (Bool.and_eq_true_iff.mp hr).2⟩

/-- Between two actions that pass. -/
theorem Projects.bracket {P : α → Bool} {first last : α} (hfirst : P first = true)
    (hlast : P last = true) (h : Projects P p q) :
    Projects P (bracket first last p) (bracket first last q) := by
  have hact : ∀ {b : α}, P b = true → Projects P (act b) (act b) := by
    intro b hb
    exact .self fun a ha => by rwa [List.mem_singleton.mp ha]
  exact (hact hfirst).seq (h.seq (hact hlast))

/-- **Some of the threads of a scope**: what passes of a run of the scope, if everything of some
threads passes and nothing of the others, is a run of the scope with those threads alone. -/
theorem Projects.all_filter {β : Type} {P : α → Bool} {f : β → ForkJoin α} {keep : β → Bool}
    {l : List β} (hkeep : ∀ b ∈ l, keep b = true → ∀ a ∈ (f b).actions, P a = true)
    (hleave : ∀ b ∈ l, keep b = false → ∀ a ∈ (f b).actions, P a = false) :
    Projects P (all (l.map f)) (all ((l.filter keep).map f)) := by
  induction l with
  | nil => exact .self fun a ha => absurd ha List.not_mem_nil
  | cons b l ih =>
    rw [List.forall_mem_cons] at hkeep hleave
    have hrest := ih hkeep.2 hleave.2
    cases hb : keep b with
    | true =>
      rw [List.filter_cons_of_pos hb]
      exact (Projects.self (hkeep.1 hb)).par hrest
    | false =>
      rw [List.filter_cons_of_neg (by simp [hb])]
      exact hrest.skip (hleave.1 hb)

/-! ### Brackets -/

/-- What a run of a bracketed program has done: nothing yet, the first action and part of the
body, or everything, the last action at the end. -/
inductive Bracketed (first last : α) (body : List α) : List α → Prop
  | ahead : Bracketed first last body []
  | within {trace rest : List α} (h : body.Perm (trace ++ rest)) :
      Bracketed first last body (first :: trace)
  | closed {trace : List α} (h : trace.Perm body) :
      Bracketed first last body (first :: (trace ++ [last]))

/-- **Runs of a bracketed program.** -/
theorem Runs.bracketed {first last : α} (h : Runs (bracket first last p) trace r) :
    Bracketed first last p.actions trace ∧
      (r.finished = true → ∃ middle, trace = first :: (middle ++ [last]) ∧ Completes p middle) := by
  obtain ⟨opening, rest, p₁, p₂, rfl, rfl, hopening, hrest, hlate⟩ := runs_seq h
  obtain ⟨rfl, rfl⟩ | ⟨rfl, rfl⟩ := runs_act hopening
  · have hnone : rest = [] := hlate.resolve_right Bool.false_ne_true
    subst hnone
    exact ⟨.ahead, fun hr => absurd hr Bool.false_ne_true⟩
  · obtain ⟨middle, closing, body, p₃, rfl, rfl, hmiddle, hclosing, hlate'⟩ := runs_seq hrest
    obtain ⟨rfl, rfl⟩ | ⟨rfl, rfl⟩ := runs_act hclosing
    · rw [List.append_nil]
      refine ⟨.within hmiddle.perm, fun hr => ?_⟩
      simp [finished] at hr
    · have hbody : body.finished = true := hlate'.resolve_left (List.cons_ne_nil last [])
      have hcompletes : Completes p middle := ⟨body, hmiddle, hbody⟩
      exact ⟨.closed hcompletes.perm, fun _ => ⟨middle, rfl, hcompletes⟩⟩

/-! ## How many threads are at work -/

section Ready

variable (P : α → Bool)

/-- The number of threads whose next action passes the test. -/
def ready : ForkJoin α → ℕ
  | done => 0
  | act a => if P a then 1 else 0
  | seq p q => if p.finished then q.ready else p.ready
  | par p q => p.ready + q.ready

/-- The most threads that may be at such an action at the same time. -/
def peak : ForkJoin α → ℕ
  | done => 0
  | act a => if P a then 1 else 0
  | seq p q => max p.peak q.peak
  | par p q => p.peak + q.peak

variable {P}

/-- The ready threads are never more than the peak. -/
theorem ready_le_peak (p : ForkJoin α) : p.ready P ≤ p.peak P := by
  induction p with
  | done => exact Nat.le_refl 0
  | act => exact Nat.le_refl _
  | seq p q ihp ihq =>
    rw [ready, peak]
    split
    · exact ihq.trans (Nat.le_max_right _ _)
    · exact ihp.trans (Nat.le_max_left _ _)
  | par p q ihp ihq => exact Nat.add_le_add ihp ihq

/-- INTERNAL: a step opens no new threads. -/
theorem Step.peak_le (h : Step p a p') : p'.peak P ≤ p.peak P := by
  induction h with
  | act => exact Nat.zero_le _
  | first _ ih => exact max_le_max ih (Nat.le_refl _)
  | second _ _ ih => exact max_le_max (Nat.le_refl _) ih
  | left _ ih => exact Nat.add_le_add_right ih _
  | right _ ih => exact Nat.add_le_add_left ih _

/-- **At every moment of a run** at most `peak` threads are at such an action. -/
theorem Runs.ready_le (h : Runs p trace r) : r.ready P ≤ p.peak P := by
  induction h with
  | nil p => exact ready_le_peak p
  | cons hstep _ ih => exact ih.trans hstep.peak_le

/-- Programs one after the other have the peak of one of them. -/
theorem peak_inOrder_le {programs : List (ForkJoin α)} {bound : ℕ}
    (h : ∀ p ∈ programs, p.peak P ≤ bound) : (inOrder programs).peak P ≤ bound := by
  induction programs with
  | nil => exact Nat.zero_le _
  | cons p programs ih =>
    rw [List.forall_mem_cons] at h
    exact max_le h.1 (ih h.2)

/-- The threads of a scope are at work beside each other. -/
theorem peak_all (programs : List (ForkJoin α)) :
    (all programs).peak P = (programs.map fun p => p.peak P).sum := by
  induction programs with
  | nil => rfl
  | cons p programs ih => rw [all_cons, peak, ih, List.map_cons, List.sum_cons]

/-- A scope whose threads are each bounded is bounded by as many times the bound. -/
theorem peak_all_le {programs : List (ForkJoin α)} (bound : ℕ)
    (h : ∀ p ∈ programs, p.peak P ≤ bound) :
    (all programs).peak P ≤ programs.length * bound := by
  induction programs with
  | nil => exact Nat.zero_le _
  | cons p programs ih =>
    rw [List.forall_mem_cons] at h
    rw [all_cons, peak, List.length_cons, Nat.succ_mul, Nat.add_comm]
    exact Nat.add_le_add (ih h.2) h.1

/-- If only one thread of a scope has such actions, the scope has its peak. -/
theorem peak_all_of_split {before after : List (ForkJoin α)} {p : ForkJoin α}
    (hothers : ∀ q ∈ before ++ after, q.peak P = 0) :
    (all (before ++ p :: after)).peak P = p.peak P := by
  have hnone : ∀ {programs : List (ForkJoin α)}, (∀ q ∈ programs, q.peak P = 0) →
      (all programs).peak P = 0 := by
    intro programs h
    have hle := peak_all_le 0 fun q hq => (h q hq).le
    omega
  rw [List.forall_mem_append] at hothers
  obtain ⟨hbefore, hafter⟩ := hothers
  induction before with
  | nil =>
    rw [List.nil_append, all_cons, peak, hnone hafter]
    omega
  | cons q before ih =>
    rw [List.forall_mem_cons] at hbefore
    rw [List.cons_append, all_cons, peak, hbefore.1, ih hbefore.2]
    omega

/-- A test that passes less counts fewer threads. -/
theorem peak_le_peak_true (p : ForkJoin α) : p.peak P ≤ p.peak fun _ => true := by
  induction p with
  | done => exact Nat.le_refl 0
  | act a =>
    rw [peak, peak, if_pos rfl]
    split
    · exact Nat.le_refl 1
    · exact Nat.zero_le 1
  | seq p q ihp ihq => exact max_le_max ihp ihq
  | par p q ihp ihq => exact Nat.add_le_add ihp ihq

/-- Other names for the actions do not change how many threads there are. -/
theorem peak_map {β : Type} {P : β → Bool} (f : α → β) (p : ForkJoin α) :
    (p.map f).peak P = p.peak fun a => P (f a) := by
  induction p with
  | done => rfl
  | act => rfl
  | seq p q ihp ihq => rw [map, peak, peak, ihp, ihq]
  | par p q ihp ihq => rw [map, peak, peak, ihp, ihq]

/-- Actions one after the other are one thread. -/
theorem peak_acts_le (l : List α) : (acts l).peak P ≤ 1 := by
  refine peak_inOrder_le fun p hp => ?_
  obtain ⟨a, _, rfl⟩ := List.mem_map.mp hp
  unfold peak
  split
  · exact Nat.le_refl 1
  · exact Nat.zero_le 1

/-- A program without such an action has no thread at one. -/
theorem peak_eq_zero (h : ∀ a ∈ p.actions, P a = false) : p.peak P = 0 := by
  induction p with
  | done => rfl
  | act a =>
    rw [peak, h a (List.mem_singleton_self a)]
    rfl
  | seq p q ihp ihq =>
    rw [actions, List.forall_mem_append] at h
    rw [peak, ihp h.1, ihq h.2]
    rfl
  | par p q ihp ihq =>
    rw [actions, List.forall_mem_append] at h
    rw [peak, ihp h.1, ihq h.2]

end Ready

end ForkJoin

end REnvTools.Lib
