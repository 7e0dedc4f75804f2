import Mathlib.Data.List.Pairwise
import REnvTools.Lib.TaskPool

/-!
# Workers that look for records beside each other

Each worker goes through a list of items. An item under which the shared map has a record is
skipped, others are ignored, and the rest are probed; a record that a probe has found is put into
the map under all its keys and then reported. Two workers may probe one item at the same time, so
that it is found twice, and the map may be emptied while they work. Nothing is lost by that:

* `covered`: what a worker was given is ignored, found by no probe, or listed by a record that
  some worker has put into the map;
* `insertions_fresh`: one worker never reports an item that a record of its own lists, as long as
  the map is not emptied in between;
* `entry_inserted`, `answered_inserted`, `keys_kept`: what is in the map.

`explore` is what a worker does that runs alone, `exploreEach` what workers do that run one after
the other.
-/

set_option autoImplicit false

namespace REnvTools.Lib

/-- What workers look for. -/
structure Discovery (κ ρ : Type) where
  /-- The items that a worker may be given. -/
  starts : List κ → Prop
  /-- The items that are not probed. -/
  ignores : κ → Bool
  /-- What a probe of an item may find. -/
  probe : κ → Option ρ → Prop
  /-- The keys under which a record is put into the map. -/
  keys : ρ → List κ

namespace Discovery

/-- A record that was put into the map: the item for which it was found, and how often the map
had been emptied. -/
structure Insertion (κ ρ : Type) where
  item : κ
  record : ρ
  clears : ℕ

/-- What has become of an item. -/
inductive Event (κ ρ : Type)
  /-- The map had a record under it, when it had been emptied so often. -/
  | skipped (item : κ) (clears : ℕ)
  | ignored (item : κ)
  | declined (item : κ)
  | reported (insertion : Insertion κ ρ)

/-- What a worker is doing with an item. -/
inductive Stage (κ ρ : Type)
  | idle
  | probing (item : κ)
  | inserting (item : κ) (record : ρ)
  | reporting (insertion : Insertion κ ρ)

/-- A worker, which may empty the map first, or somebody who asks what is in the map. -/
inductive Thread (κ ρ : Type)
  | clearing (items : List κ)
  | working (todo : List κ) (stage : Stage κ ρ) (log : List (Event κ ρ))
  | asking (key : κ)
  | answered (key : κ) (answer : Option ρ) (clears : ℕ)

/-- The map, and how often it was emptied. -/
structure Shared (κ ρ : Type) where
  entries : κ → Option ρ
  clears : ℕ

variable {κ ρ : Type}

/-- The item. -/
def Event.item : Event κ ρ → κ
  | skipped item _ | ignored item | declined item => item
  | reported insertion => insertion.item

/-- What was reported. -/
def Event.report : Event κ ρ → Option (Insertion κ ρ)
  | reported insertion => some insertion
  | _ => none

/-- The item, if there is one. -/
def Stage.items : Stage κ ρ → List κ
  | idle => []
  | probing item | inserting item _ => [item]
  | reporting insertion => [insertion.item]

/-- What is about to be reported. -/
def Stage.insertions : Stage κ ρ → List (Insertion κ ρ)
  | reporting insertion => [insertion]
  | _ => []

namespace Thread

/-- All items that the thread was given. -/
def items : Thread κ ρ → List κ
  | clearing items => items
  | working todo stage log => log.map Event.item ++ (stage.items ++ todo)
  | _ => []

/-- What the thread has put into the map, in this order. -/
def insertions : Thread κ ρ → List (Insertion κ ρ)
  | working _ stage log => log.filterMap Event.report ++ stage.insertions
  | _ => []

/-- What the thread has reported, in this order. -/
def reports : Thread κ ρ → List (Insertion κ ρ)
  | working _ _ log => log.filterMap Event.report
  | _ => []

/-- A thread that has ended. -/
inductive Ended : Thread κ ρ → Prop
  | worked {log : List (Event κ ρ)} : Ended (.working [] .idle log)
  | answered {key : κ} {answer : Option ρ} {clears : ℕ} : Ended (.answered key answer clears)

/-- A thread that has ended has reported what it has found. -/
theorem Ended.reports_eq {t : Thread κ ρ} (h : t.Ended) : t.reports = t.insertions := by
  cases h with
  | worked => exact (List.append_nil _).symm
  | answered => rfl

/-- What was reported was put into the map. -/
theorem mem_insertions_of_mem_reports {t : Thread κ ρ} {insertion : Insertion κ ρ}
    (h : insertion ∈ t.reports) : insertion ∈ t.insertions := by
  cases t with
  | working => exact List.mem_append_left _ h
  | clearing | asking | answered => exact h

end Thread

/-- The empty map. -/
def Shared.clear (sh : Shared κ ρ) : Shared κ ρ := ⟨fun _ => none, sh.clears + 1⟩

variable [DecidableEq κ] (D : Discovery κ ρ)

/-- The map with this record under all its keys. -/
def insert (sh : Shared κ ρ) (record : ρ) : Shared κ ρ :=
  { sh with entries := fun key => if key ∈ D.keys record then some record else sh.entries key }

/-- The steps of a thread. -/
inductive Step : Shared κ ρ → Thread κ ρ → Shared κ ρ → Thread κ ρ → Prop
  | clear {sh : Shared κ ρ} {items : List κ} :
      Step sh (.clearing items) sh.clear (.working items .idle [])
  | skip {sh : Shared κ ρ} {item : κ} {todo : List κ} {log : List (Event κ ρ)} {record : ρ}
      (h : sh.entries item = some record) :
      Step sh (.working (item :: todo) .idle log) sh
        (.working todo .idle (log ++ [.skipped item sh.clears]))
  | ignore {sh : Shared κ ρ} {item : κ} {todo : List κ} {log : List (Event κ ρ)}
      (h : sh.entries item = none) (hignores : D.ignores item = true) :
      Step sh (.working (item :: todo) .idle log) sh
        (.working todo .idle (log ++ [.ignored item]))
  | look {sh : Shared κ ρ} {item : κ} {todo : List κ} {log : List (Event κ ρ)}
      (h : sh.entries item = none) (hignores : D.ignores item = false) :
      Step sh (.working (item :: todo) .idle log) sh (.working todo (.probing item) log)
  | decline {sh : Shared κ ρ} {item : κ} {todo : List κ} {log : List (Event κ ρ)}
      (h : D.probe item none) :
      Step sh (.working todo (.probing item) log) sh
        (.working todo .idle (log ++ [.declined item]))
  | find {sh : Shared κ ρ} {item : κ} {todo : List κ} {log : List (Event κ ρ)} {record : ρ}
      (h : D.probe item (some record)) :
      Step sh (.working todo (.probing item) log) sh
        (.working todo (.inserting item record) log)
  | insert {sh : Shared κ ρ} {item : κ} {todo : List κ} {log : List (Event κ ρ)} {record : ρ} :
      Step sh (.working todo (.inserting item record) log) (D.insert sh record)
        (.working todo (.reporting ⟨item, record, sh.clears⟩) log)
  | report {sh : Shared κ ρ} {insertion : Insertion κ ρ} {todo : List κ}
      {log : List (Event κ ρ)} :
      Step sh (.working todo (.reporting insertion) log) sh
        (.working todo .idle (log ++ [.reported insertion]))
  | ask {sh : Shared κ ρ} {key : κ} :
      Step sh (.asking key) sh (.answered key (sh.entries key) sh.clears)

/-- A thread where it begins. -/
inductive Begins : Thread κ ρ → Prop
  | clearing {items : List κ} (h : D.starts items) : Begins (.clearing items)
  | working {items : List κ} (h : D.starts items) : Begins (.working items .idle [])
  | asking (key : κ) : Begins (.asking key)

/-- Any number of threads over a map that is empty at first. -/
def system : TaskSystem (Shared κ ρ) (Thread κ ρ) Unit where
  init sh := sh = ⟨fun _ => none, 0⟩
  spawn _ := D.Begins
  step _ sh thread _ sh' thread' := D.Step sh thread sh' thread'

/-- The states that the threads reach together. -/
abbrev State (κ ρ : Type) := TaskSystem.State (Shared κ ρ) (Thread κ ρ)

variable {D}

/-! ## One step -/

/-- What a step puts into the map: nothing, or the record that the worker has found. -/
theorem insertions_step {sh sh' : Shared κ ρ} {t t' : Thread κ ρ} (h : D.Step sh t sh' t') :
    t'.insertions = t.insertions ∧ (sh' = sh ∨ sh' = sh.clear) ∨
      ∃ item record todo log, t = .working todo (.inserting item record) log ∧
        t'.insertions = t.insertions ++ [⟨item, record, sh.clears⟩] ∧
        sh' = D.insert sh record := by
  cases h with
  | clear => exact .inl ⟨rfl, .inr rfl⟩
  | @insert item todo log record =>
    refine .inr ⟨item, record, todo, log, rfl, ?_, rfl⟩
    simp [Thread.insertions, Stage.insertions]
  | skip | ignore | look | decline | find | report | ask =>
    exact .inl ⟨by simp [Thread.insertions, Stage.insertions, Event.report], .inl rfl⟩

/-- INTERNAL: nothing that was put into the map is forgotten. -/
theorem mem_insertions_step {sh sh' : Shared κ ρ} {t t' : Thread κ ρ}
    (h : D.Step sh t sh' t') {insertion : Insertion κ ρ} (hmem : insertion ∈ t.insertions) :
    insertion ∈ t'.insertions := by
  obtain ⟨heq, -⟩ | ⟨_, _, _, _, -, heq, -⟩ := insertions_step h
  · exact heq ▸ hmem
  · exact heq ▸ List.mem_append_left _ hmem

/-- No item is lost. -/
theorem items_step {sh sh' : Shared κ ρ} {t t' : Thread κ ρ} (h : D.Step sh t sh' t') :
    t'.items = t.items := by
  cases h <;> simp [Thread.items, Stage.items, Event.item]

/-- The map is emptied more often or as often. -/
theorem clears_step {sh sh' : Shared κ ρ} {t t' : Thread κ ρ} (h : D.Step sh t sh' t') :
    sh.clears ≤ sh'.clears := by
  obtain ⟨-, rfl | rfl⟩ | ⟨-, -, -, -, -, -, rfl⟩ := insertions_step h
  · exact le_rfl
  · exact Nat.le_succ _
  · exact le_rfl

/-- As long as the map is not emptied, what has a record keeps one. -/
theorem isSome_step {sh sh' : Shared κ ρ} {t t' : Thread κ ρ} (h : D.Step sh t sh' t')
    (hclears : sh'.clears = sh.clears) {key : κ} (hkey : (sh.entries key).isSome = true) :
    (sh'.entries key).isSome = true := by
  obtain ⟨-, rfl | rfl⟩ | ⟨-, -, -, -, -, -, rfl⟩ := insertions_step h
  · exact hkey
  · exact absurd hclears (Nat.succ_ne_self _)
  · show (if _ then _ else _ : Option ρ).isSome = true
    split
    · rfl
    · exact hkey

/-! ## Workers -/

/-- What happened to the item is as it should be. -/
def Event.Honest (D : Discovery κ ρ) : Event κ ρ → Prop
  | skipped _ _ => True
  | ignored item => D.ignores item = true
  | declined item => D.ignores item = false ∧ D.probe item none
  | reported insertion =>
    D.ignores insertion.item = false ∧ D.probe insertion.item (some insertion.record)

/-- What is being done with an item is as it should be. -/
def Stage.Honest (D : Discovery κ ρ) : Stage κ ρ → Prop
  | idle => True
  | probing item => D.ignores item = false
  | inserting item record => D.ignores item = false ∧ D.probe item (some record)
  | reporting insertion =>
    D.ignores insertion.item = false ∧ D.probe insertion.item (some insertion.record)

/-- What the thread was given and what it has done. -/
inductive Thread.Honest (D : Discovery κ ρ) : Thread κ ρ → Prop
  | clearing {items : List κ} (h : D.starts items) : Honest D (.clearing items)
  | working {todo : List κ} {stage : Stage κ ρ} {log : List (Event κ ρ)}
      (hitems : D.starts (Thread.working todo stage log).items)
      (hstage : stage.Honest D) (hlog : ∀ event ∈ log, event.Honest D) :
      Honest D (.working todo stage log)
  | asking {key : κ} : Honest D (.asking key)
  | answered {key : κ} {answer : Option ρ} {clears : ℕ} : Honest D (.answered key answer clears)

omit [DecidableEq κ] in
/-- INTERNAL: the events before this one, and this one. -/
theorem forall_honest_append {log : List (Event κ ρ)} (last : Event κ ρ)
    (hlog : ∀ event ∈ log, event.Honest D) (hlast : last.Honest D) :
    ∀ event ∈ log ++ [last], event.Honest D := by
  intro event hevent
  obtain h | h := List.mem_append.mp hevent
  · exact hlog event h
  · rw [List.mem_singleton.mp h]
    exact hlast

/-- Each step keeps the thread honest. -/
theorem honest_step {sh sh' : Shared κ ρ} {t t' : Thread κ ρ} (h : D.Step sh t sh' t')
    (ht : t.Honest D) : t'.Honest D := by
  have hitems := items_step h
  cases ht with
  | clearing hstarts =>
    cases h with
    | clear => exact .working hstarts trivial (by simp)
  | working hstarts hstage hlog =>
    rw [← hitems] at hstarts
    cases h with
    | skip => exact .working hstarts trivial (forall_honest_append (.skipped _ _) hlog trivial)
    | ignore _ hignores =>
      exact .working hstarts trivial (forall_honest_append (.ignored _) hlog hignores)
    | look _ hignores => exact .working hstarts hignores hlog
    | decline hprobe =>
      exact .working hstarts trivial (forall_honest_append (.declined _) hlog ⟨hstage, hprobe⟩)
    | find hprobe => exact .working hstarts ⟨hstage, hprobe⟩ hlog
    | insert => exact .working hstarts hstage hlog
    | report => exact .working hstarts trivial (forall_honest_append (.reported _) hlog hstage)
  | asking =>
    cases h with
    | ask => exact .answered
  | answered => cases h

/-- The thread knows that the map had a record under the key, perhaps which one, when it had been
emptied so often. -/
inductive Thread.Saw : Thread κ ρ → κ × ℕ × Option ρ → Prop
  | skipped {todo : List κ} {stage : Stage κ ρ} {log : List (Event κ ρ)} {item : κ} {clears : ℕ}
      (h : Event.skipped item clears ∈ log) : Saw (.working todo stage log) (item, clears, none)
  | answered {key : κ} {record : ρ} {clears : ℕ} :
      Saw (.answered key (some record) clears) (key, clears, some record)

/-- INTERNAL: what a thread comes to see at a step is in the map. -/
theorem saw_step {sh sh' : Shared κ ρ} {t t' : Thread κ ρ} (h : D.Step sh t sh' t') {key : κ}
    {clears : ℕ} {seen : Option ρ} (hsaw : t'.Saw (key, clears, seen)) :
    t.Saw (key, clears, seen) ∨
      sh.clears = clears ∧ ∃ record, sh.entries key = some record ∧ ∀ r ∈ seen, r = record := by
  cases h with
  | @ask key =>
    generalize hanswer : sh.entries key = answer at hsaw
    cases hsaw with
    | answered => exact .inr ⟨rfl, _, hanswer, by simp⟩
  | @skip item todo log record hentry =>
    cases hsaw with
    | skipped hmem =>
      obtain hmem | hmem := List.mem_append.mp hmem
      · exact .inl (.skipped hmem)
      · cases List.mem_singleton.mp hmem
        exact .inr ⟨rfl, _, hentry, by simp⟩
  | clear =>
    cases hsaw with
    | skipped hmem => cases hmem
  | look | find | insert =>
    cases hsaw with
    | skipped hmem => exact .inl (.skipped hmem)
  | ignore | decline | report =>
    cases hsaw with
    | skipped hmem =>
      obtain hmem | hmem := List.mem_append.mp hmem
      · exact .inl (.skipped hmem)
      · cases List.mem_singleton.mp hmem

section Runs

variable {s : State κ ρ} (h : D.system.Reachable s)

include h

/-- **Every thread is honest** in every reachable state. -/
theorem honest {i : ℕ} {t : Thread κ ρ} (ht : s.tasks[i]? = some t) : t.Honest D := by
  refine (TaskSystem.invariant (G := fun _ => True) (L := fun _ _ t => Thread.Honest D t)
    (fun _ _ => trivial) ?_ ?_ ?_ h).2 i t ht
  · intro s t _ _ hbegins
    cases hbegins with
    | clearing hstarts => exact .clearing hstarts
    | working hstarts => exact .working hstarts trivial (by simp)
    | asking => exact .asking
  · exact fun s i t _ sh' t' _ _ hstep _ hL => ⟨trivial, honest_step hstep hL⟩
  · exact fun s i t _ sh' t' j u _ _ _ _ _ _ _ hL => hL

/-- What is put into the map was found by a probe. -/
theorem insertion_probed {i : ℕ} {t : Thread κ ρ} (ht : s.tasks[i]? = some t)
    {insertion : Insertion κ ρ} (hmem : insertion ∈ t.insertions) :
    D.ignores insertion.item = false ∧ D.probe insertion.item (some insertion.record) ∧
      insertion.item ∈ t.items := by
  cases honest h ht with
  | @working todo stage log hstarts hstage hlog =>
    obtain hmem | hmem := List.mem_append.mp hmem
    · obtain ⟨event, hevent, hreport⟩ := List.mem_filterMap.mp hmem
      cases event with
      | reported other =>
        cases hreport
        exact ⟨(hlog _ hevent).1, (hlog _ hevent).2,
          List.mem_append_left _ (List.mem_map_of_mem (f := Event.item) hevent)⟩
      | skipped | ignored | declined => cases hreport
    · cases stage with
      | reporting other =>
        cases List.mem_singleton.mp hmem
        exact ⟨hstage.1, hstage.2, by simp [Thread.items, Stage.items]⟩
      | idle | probing | inserting => cases hmem
  | clearing | asking | answered => cases hmem

/-! ## The map -/

/-- What there is in the map was put there by a thread since the map was last emptied. -/
theorem entry_inserted {key : κ} {record : ρ} (hentry : s.shared.entries key = some record) :
    ∃ (i : ℕ) (t : Thread κ ρ) (insertion : Insertion κ ρ), s.tasks[i]? = some t ∧
      insertion ∈ t.insertions ∧ insertion.clears = s.shared.clears ∧
      insertion.record = record ∧ key ∈ D.keys record := by
  have hprovenance := TaskSystem.provenance (P := D.system) (β := ℕ)
    (F := fun sh clears => sh.entries key = some record ∧ sh.clears = clears)
    (W := fun t clears => ∃ insertion ∈ t.insertions, insertion.clears = clears ∧
      insertion.record = record ∧ key ∈ D.keys record) ?_ ?_ ?_ h ⟨hentry, rfl⟩
  · obtain ⟨i, t, ht, insertion, hmem, hclears, hrecord, hkey⟩ := hprovenance
    exact ⟨i, t, insertion, ht, hmem, hclears, hrecord, hkey⟩
  · rintro sh clears rfl ⟨hentry, -⟩
    cases hentry
  · rintro i sh t _ sh' t' clears hstep ⟨hentry, rfl⟩
    obtain ⟨-, rfl | rfl⟩ | ⟨item, found, -, -, -, heq, rfl⟩ := insertions_step hstep
    · exact .inl ⟨hentry, rfl⟩
    · cases hentry
    · replace hentry : (if key ∈ D.keys found then some found else sh.entries key) =
        some record := hentry
      split at hentry
      · rename_i hkey
        cases hentry
        refine .inr ⟨_, heq ▸ List.mem_append_right _ (List.mem_singleton_self _), rfl, rfl, hkey⟩
      · exact .inl ⟨hentry, rfl⟩
  · rintro i sh t _ sh' t' clears hstep ⟨insertion, hmem, hinsertion⟩
    exact ⟨insertion, mem_insertions_step hstep hmem, hinsertion⟩

/-- What a thread has seen was put there by a thread while the map was not emptied. -/
theorem saw_inserted {i : ℕ} {t : Thread κ ρ} (ht : s.tasks[i]? = some t) {key : κ} {clears : ℕ}
    {seen : Option ρ} (hsaw : t.Saw (key, clears, seen)) :
    ∃ (j : ℕ) (u : Thread κ ρ) (insertion : Insertion κ ρ), s.tasks[j]? = some u ∧
      insertion ∈ u.insertions ∧ insertion.clears = clears ∧
      (∀ record ∈ seen, record = insertion.record) ∧ key ∈ D.keys insertion.record := by
  have hprovenance := TaskSystem.provenance_thread (P := D.system)
    (V := Thread.Saw) (W := fun t seen => ∃ insertion ∈ t.insertions,
      insertion.clears = seen.2.1 ∧ (∀ record ∈ seen.2.2, record = insertion.record) ∧
        seen.1 ∈ D.keys insertion.record) ?_ ?_ ?_ h i t ht hsaw
  · obtain ⟨j, u, hu, insertion, hmem, hinsertion⟩ := hprovenance
    exact ⟨j, u, insertion, hu, hmem, hinsertion⟩
  · rintro sh t seen hbegins hsaw
    cases hbegins with
    | working =>
      cases hsaw with
      | skipped hmem => cases hmem
    | clearing | asking => cases hsaw
  · rintro s i t _ sh' t' ⟨key, clears, seen⟩ hs - hstep hsaw
    obtain hsaw | ⟨rfl, record, hentry, hseen⟩ := saw_step hstep hsaw
    · exact .inl hsaw
    · obtain ⟨j, u, insertion, hu, hmem, hclears, rfl, hkey⟩ := entry_inserted hs hentry
      exact .inr (.inr ⟨j, u, hu, insertion, hmem, hclears, hseen, hkey⟩)
  · rintro i sh t _ sh' t' seen hstep ⟨insertion, hmem, hinsertion⟩
    exact ⟨insertion, mem_insertions_step hstep hmem, hinsertion⟩

/-- **Nothing is lost.** An item of a worker that has ended is ignored, or was found by no probe,
or is the item of a record or one of its keys that was put into the map. -/
theorem covered {i : ℕ} {t : Thread κ ρ} (ht : s.tasks[i]? = some t) (hended : t.Ended) {item : κ}
    (hitem : item ∈ t.items) :
    D.ignores item = true ∨ D.probe item none ∨
      ∃ (j : ℕ) (u : Thread κ ρ) (insertion : Insertion κ ρ), s.tasks[j]? = some u ∧
        insertion ∈ u.insertions ∧
        (item = insertion.item ∨ item ∈ D.keys insertion.record) := by
  cases hended with
  | answered => cases hitem
  | @worked log =>
    replace hitem : item ∈ log.map Event.item := by simpa [Thread.items, Stage.items] using hitem
    obtain ⟨event, hevent, rfl⟩ := List.mem_map.mp hitem
    cases honest h ht with
    | working _ _ hlog =>
      cases event with
      | skipped item clears =>
        obtain ⟨j, u, insertion, hu, hmem, -, -, hkey⟩ := saw_inserted h ht (.skipped hevent)
        exact .inr (.inr ⟨j, u, insertion, hu, hmem, .inr hkey⟩)
      | ignored item => exact .inl (hlog _ hevent)
      | declined item => exact .inr (.inl (hlog _ hevent).2)
      | reported insertion =>
        refine .inr (.inr ⟨i, _, insertion, ht, ?_, .inl rfl⟩)
        exact List.mem_append_left _ (List.mem_filterMap.mpr ⟨_, hevent, rfl⟩)

/-- What was put into the map since it was last emptied has a record under each of its keys. -/
theorem keys_kept {i : ℕ} {t : Thread κ ρ} (ht : s.tasks[i]? = some t) :
    ∀ insertion ∈ t.insertions, insertion.clears ≤ s.shared.clears ∧
      (insertion.clears = s.shared.clears →
        ∀ key ∈ D.keys insertion.record, (s.shared.entries key).isSome = true) := by
  have hkept : ∀ {sh t sh' t'}, D.Step sh t sh' t' → ∀ insertion : Insertion κ ρ,
      (insertion.clears ≤ sh.clears ∧ (insertion.clears = sh.clears →
        ∀ key ∈ D.keys insertion.record, (sh.entries key).isSome = true)) →
      insertion.clears ≤ sh'.clears ∧ (insertion.clears = sh'.clears →
        ∀ key ∈ D.keys insertion.record, (sh'.entries key).isSome = true) := by
    rintro sh t sh' t' hstep insertion ⟨hle, hkeys⟩
    have hclears := clears_step hstep
    refine ⟨hle.trans hclears, fun heq key hkey => ?_⟩
    exact isSome_step hstep (by omega) (hkeys (by omega) key hkey)
  refine (TaskSystem.invariant (P := D.system) (G := fun _ => True)
    (L := fun sh _ t => ∀ insertion ∈ Thread.insertions t, insertion.clears ≤ sh.clears ∧
      (insertion.clears = sh.clears →
        ∀ key ∈ D.keys insertion.record, (sh.entries key).isSome = true))
    (fun _ _ => trivial) ?_ ?_ ?_ h).2 i t ht
  · intro s t _ _ hbegins insertion hmem
    cases hbegins <;> cases hmem
  · refine fun s i t _ sh' t' _ _ hstep _ hL => ⟨trivial, fun insertion hmem => ?_⟩
    obtain ⟨heq, -⟩ | ⟨item, record, _, _, -, heq, rfl⟩ := insertions_step hstep
    · exact hkept hstep insertion (hL insertion (heq ▸ hmem))
    · obtain hmem | hmem := List.mem_append.mp (heq ▸ hmem)
      · exact hkept hstep insertion (hL insertion hmem)
      · cases List.mem_singleton.mp hmem
        refine ⟨le_rfl, fun _ key hkey => ?_⟩
        show (if key ∈ D.keys record then some record else _).isSome = true
        rw [if_pos hkey]
        rfl
  · exact fun s i t _ sh' t' j u _ _ hstep _ _ _ _ hL insertion hmem =>
      hkept hstep insertion (hL insertion hmem)

/-! ## One worker -/

/-- The items that will be put into the map or not without a look at it. -/
def Thread.pending : Thread κ ρ → List κ
  | .working _ (.probing item) _ | .working _ (.inserting item _) _ => [item]
  | _ => []

/-- No item is listed by what the thread had put into the map before. -/
structure Thread.Fresh (D : Discovery κ ρ) (sh : Shared κ ρ) (t : Thread κ ρ) : Prop where
  pairwise : t.insertions.Pairwise fun earlier later =>
    earlier.clears = later.clears → later.item ∉ D.keys earlier.record
  pending : ∀ item ∈ t.pending, ∀ earlier ∈ t.insertions,
    earlier.clears = sh.clears → item ∉ D.keys earlier.record

/-- **A worker never reports what it has listed**: in every reachable state, whatever the other
threads do. -/
theorem insertions_fresh {i : ℕ} {t : Thread κ ρ} (ht : s.tasks[i]? = some t) :
    t.Fresh D s.shared := by
  refine (TaskSystem.invariant (P := D.system) (G := fun _ => True)
    (L := fun sh _ t => Thread.Fresh D sh t) (fun _ _ => trivial) ?_ ?_ ?_ h).2 i t ht
  · intro s t _ _ hbegins
    cases hbegins <;> exact ⟨.nil, by simp [Thread.pending]⟩
  · intro s i t _ sh' t' hs ht hstep _ hL
    refine ⟨trivial, ?_⟩
    have hkept := keys_kept hs ht
    obtain ⟨heq, -⟩ | ⟨item, record, todo, log, rfl, heq, -⟩ := insertions_step hstep
    · refine ⟨heq ▸ hL.pairwise, fun item hitem earlier hmem hclears => ?_⟩
      rw [heq] at hmem
      cases hstep with
      | look hentry =>
        cases List.mem_singleton.mp hitem
        intro hkey
        have hsome := (hkept earlier hmem).2 hclears _ hkey
        rw [hentry] at hsome
        cases hsome
      | find => exact hL.pending item hitem earlier hmem hclears
      | clear | skip | ignore | decline | insert | report | ask => cases hitem
    · constructor
      · rw [heq]
        refine List.pairwise_append.mpr ⟨hL.pairwise, List.pairwise_singleton _ _, ?_⟩
        intro earlier hmem later hlater
        cases List.mem_singleton.mp hlater
        exact hL.pending item (List.mem_singleton_self _) earlier hmem
      · cases hstep with
        | insert => exact fun _ hitem => by cases hitem
  · intro s i t _ sh' t' j u hs _ hstep _ hu _ _ hL
    refine ⟨hL.pairwise, fun item hitem earlier hmem hclears => ?_⟩
    have hle := (keys_kept hs hu earlier hmem).1
    have hmono := clears_step hstep
    exact hL.pending item hitem earlier hmem (by omega)

end Runs

/-! ## A worker that runs alone -/

section Alone

variable (D) (probe : κ → Option ρ)

/-- What a worker does with its items, one after the other, if nobody else uses the map. -/
def explore : Shared κ ρ → List κ → List (Event κ ρ) × Shared κ ρ
  | sh, [] => ([], sh)
  | sh, item :: todo =>
    let step (event : Event κ ρ) (sh : Shared κ ρ) :=
      (event :: (explore sh todo).1, (explore sh todo).2)
    if (sh.entries item).isSome then step (.skipped item sh.clears) sh
    else if D.ignores item then step (.ignored item) sh
    else
      match probe item with
      | none => step (.declined item) sh
      | some record => step (.reported ⟨item, record, sh.clears⟩) (D.insert sh record)

/-- What workers do that run one after the other. -/
def exploreEach : Shared κ ρ → List (List κ) → List (List (Event κ ρ)) × Shared κ ρ
  | sh, [] => ([], sh)
  | sh, items :: rest =>
    let (log, sh') := D.explore probe sh items
    (log :: (exploreEach sh' rest).1, (exploreEach sh' rest).2)

variable {D probe}

/-- Each item has its event. -/
theorem map_item_explore (sh : Shared κ ρ) (items : List κ) :
    (D.explore probe sh items).1.map Event.item = items := by
  induction items generalizing sh with
  | nil => rfl
  | cons item todo ih =>
    rw [explore]
    split
    · exact congrArg (item :: ·) (ih _)
    · split
      · exact congrArg (item :: ·) (ih _)
      · split <;> exact congrArg (item :: ·) (ih _)

/-- The map is not emptied meanwhile. -/
theorem clears_explore (sh : Shared κ ρ) (items : List κ) :
    (D.explore probe sh items).2.clears = sh.clears ∧
      ∀ insertion ∈ (D.explore probe sh items).1.filterMap Event.report,
        insertion.clears = sh.clears := by
  induction items generalizing sh with
  | nil => exact ⟨rfl, by simp [explore]⟩
  | cons item todo ih =>
    rw [explore]
    split
    · exact ih _
    · split
      · exact ih _
      · split
        · exact ih _
        · rename_i record _
          obtain ⟨hclears, hreports⟩ := ih (D.insert sh record)
          refine ⟨hclears, fun insertion hmem => ?_⟩
          obtain rfl | hmem := List.mem_cons.mp hmem
          · rfl
          · exact hreports insertion hmem

/-- INTERNAL: one thread takes a step. -/
theorem reachable_step {s : State κ ρ} (hs : D.system.Reachable s) {i : ℕ}
    {t t' : Thread κ ρ} {sh' : Shared κ ρ} (ht : s.tasks[i]? = some t)
    (h : D.Step s.shared t sh' t') : D.system.Reachable ⟨sh', s.tasks.set i t'⟩ := by
  have hstep : D.system.machine.step s (.step i ()) ⟨sh', s.tasks.set i t'⟩ := .step ht h
  exact .step hs hstep

omit [DecidableEq κ] in
/-- INTERNAL: the worker has its number still. -/
theorem getElem?_set_of {pool : List (Thread κ ρ)} {i : ℕ} {t t' : Thread κ ρ}
    (ht : pool[i]? = some t) : (pool.set i t')[i]? = some t' :=
  List.getElem?_set_self (List.getElem?_eq_some_iff.mp ht).1

/-- A worker whose steps follow each other does what `explore` says. -/
theorem reachable_explore (hprobe : ∀ item, D.probe item (probe item)) {s : State κ ρ}
    (hs : D.system.Reachable s) {i : ℕ} {todo : List κ} {log : List (Event κ ρ)}
    (ht : s.tasks[i]? = some (.working todo .idle log)) :
    D.system.Reachable ⟨(D.explore probe s.shared todo).2,
      s.tasks.set i (.working [] .idle (log ++ (D.explore probe s.shared todo).1))⟩ := by
  induction todo generalizing s log with
  | nil =>
    obtain ⟨hlt, heq⟩ := List.getElem?_eq_some_iff.mp ht
    rw [explore, List.append_nil, ← heq, List.set_getElem_self]
    exact hs
  | cons item todo ih =>
    -- One event, and then the rest of the items.
    have hnext : ∀ {event : Event κ ρ} {sh : Shared κ ρ},
        D.system.Reachable ⟨sh, s.tasks.set i (.working todo .idle (log ++ [event]))⟩ →
        D.system.Reachable ⟨(D.explore probe sh todo).2, s.tasks.set i
          (.working [] .idle (log ++ (event :: (D.explore probe sh todo).1)))⟩ := by
      intro event sh hreached
      have hrest := ih hreached (getElem?_set_of ht)
      rwa [List.set_set, List.append_assoc, List.singleton_append] at hrest
    cases hentry : s.shared.entries item with
    | some record =>
      rw [explore, hentry, if_pos (show (some record).isSome = true from rfl)]
      exact hnext (reachable_step hs ht (.skip hentry))
    | none =>
      rw [explore, hentry, if_neg (by simp)]
      cases hignores : D.ignores item with
      | true =>
        rw [if_pos rfl]
        exact hnext (reachable_step hs ht (.ignore hentry hignores))
      | false =>
        rw [if_neg Bool.false_ne_true]
        have hlook := reachable_step hs ht (.look hentry hignores)
        have hanswer := hprobe item
        cases hfound : probe item with
        | none =>
          rw [hfound] at hanswer
          have hdecline := reachable_step hlook (getElem?_set_of ht) (.decline hanswer)
          rw [List.set_set] at hdecline
          exact hnext hdecline
        | some record =>
          rw [hfound] at hanswer
          have hfind := reachable_step hlook (getElem?_set_of ht) (.find hanswer)
          rw [List.set_set] at hfind
          have hinsert := reachable_step hfind (getElem?_set_of ht) .insert
          rw [List.set_set] at hinsert
          have hreport := reachable_step hinsert (getElem?_set_of ht) .report
          rw [List.set_set] at hreport
          exact hnext hreport

/-- Each worker goes through its items. -/
theorem map_items_exploreEach (sh : Shared κ ρ) (workers : List (List κ)) :
    (D.exploreEach probe sh workers).1.map (fun log => log.map Event.item) = workers := by
  induction workers generalizing sh with
  | nil => rfl
  | cons items rest ih =>
    show (D.explore probe sh items).1.map Event.item :: _ = _
    rw [ih, map_item_explore]

/-- The map is not emptied by any of them. -/
theorem clears_exploreEach (sh : Shared κ ρ) (workers : List (List κ)) :
    (D.exploreEach probe sh workers).2.clears = sh.clears ∧
      ∀ log ∈ (D.exploreEach probe sh workers).1, ∀ insertion ∈ log.filterMap Event.report,
        insertion.clears = sh.clears := by
  induction workers generalizing sh with
  | nil => exact ⟨rfl, by simp [exploreEach]⟩
  | cons items rest ih =>
    have hfirst : (D.explore probe sh items).2.clears = sh.clears ∧
        ∀ insertion ∈ (D.explore probe sh items).1.filterMap Event.report,
          insertion.clears = sh.clears := clears_explore sh items
    obtain ⟨hclears, hreports⟩ := hfirst
    obtain ⟨hclears', hreports'⟩ := ih (D.explore probe sh items).2
    refine ⟨hclears'.trans hclears, fun log hlog => ?_⟩
    obtain rfl | hlog := List.mem_cons.mp hlog
    · exact hreports
    · exact fun insertion hmem => (hreports' log hlog insertion hmem).trans hclears

/-- Workers that run one after the other do what `exploreEach` says. -/
theorem reachable_exploreEach (hprobe : ∀ item, D.probe item (probe item)) {s : State κ ρ}
    (hs : D.system.Reachable s) {workers : List (List κ)}
    (hworkers : ∀ items ∈ workers, D.starts items) :
    D.system.Reachable ⟨(D.exploreEach probe s.shared workers).2,
      s.tasks ++ (D.exploreEach probe s.shared workers).1.map (Thread.working [] .idle)⟩ := by
  induction workers generalizing s with
  | nil =>
    rw [exploreEach, List.map_nil, List.append_nil]
    exact hs
  | cons items rest ih =>
    rw [List.forall_mem_cons] at hworkers
    have hspawn : D.system.machine.step s .spawn ⟨s.shared, s.tasks ++ [.working items .idle []]⟩ :=
      .spawn (.working hworkers.1)
    have hworker : (s.tasks ++ [.working items .idle []])[s.tasks.length]? =
        some (Thread.working items .idle ([] : List (Event κ ρ))) := by
      rw [List.getElem?_append_right (Nat.le_refl _), Nat.sub_self]
      rfl
    have hexplored := reachable_explore hprobe (.step hs hspawn) hworker
    rw [List.nil_append, List.set_append_right _ _ (Nat.le_refl _), Nat.sub_self,
      List.set_cons_zero] at hexplored
    have hrest := ih hexplored hworkers.2
    rwa [List.append_assoc] at hrest

/-- Somebody who empties the map, and then these workers. -/
theorem reachable_cleared (hprobe : ∀ item, D.probe item (probe item)) (hnone : D.starts [])
    {workers : List (List κ)} (hworkers : ∀ items ∈ workers, D.starts items) :
    D.system.Reachable ⟨(D.exploreEach probe ⟨fun _ => none, 1⟩ workers).2,
      .working [] .idle [] ::
        (D.exploreEach probe ⟨fun _ => none, 1⟩ workers).1.map (Thread.working [] .idle)⟩ := by
  have hinit : D.system.Reachable ⟨⟨fun _ => none, 0⟩, []⟩ := .init ⟨rfl, rfl⟩
  have hspawn : D.system.machine.step ⟨⟨fun _ => none, 0⟩, []⟩ .spawn
      ⟨⟨fun _ => none, 0⟩, [.clearing []]⟩ := .spawn (.clearing hnone)
  have hclear := reachable_step (.step hinit hspawn) (i := 0) rfl .clear
  exact reachable_exploreEach hprobe hclear hworkers

end Alone

end Discovery

end REnvTools.Lib
