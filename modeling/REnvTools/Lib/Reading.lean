import Mathlib.Data.Nat.Notation

/-!
# Programs that read a store step by step

A `Reading` asks the store one question after the other; which question comes next may depend
on the answers so far. The store may change between two questions, so what a reading ends with
is a matter of the answers it was given: `Follows` relates a reading, the exchanges it has
had, and what is left of it. `Yields` is the special case of a store that stands still, and
`ReadsDuring` says when each exchange was.

The rules of this file are about any reading: `Follows.snoc` adds the next exchange,
`follows_bind_done` takes the exchanges of a composed reading apart, and `Asks.of_follows`
bounds the questions of a run by those of the program text.
-/

set_option autoImplicit false

namespace REnvTools.Lib

/-- A program that asks questions of type `ι` and ends with a result. -/
inductive Reading (ι : Type) (α : ι → Type) (ρ : Type)
  | done (result : ρ)
  | ask (query : ι) (next : α query → Reading ι α ρ)

/-- A question and its answer. -/
structure Exchange (ι : Type) (α : ι → Type) where
  query : ι
  answer : α query

namespace Reading

variable {ι : Type} {α : ι → Type} {ρ ρ' : Type}

/-- The reading, then the one that its result chooses. -/
def bind (program : Reading ι α ρ) (next : ρ → Reading ι α ρ') : Reading ι α ρ' :=
  match program with
  | done result => next result
  | ask query rest => ask query fun answer => (rest answer).bind next

/-- The reading with another result. -/
def map (f : ρ → ρ') (program : Reading ι α ρ) : Reading ι α ρ' :=
  program.bind fun result => done (f result)

/-! ## Runs -/

/-- After these exchanges this is left of the reading. -/
inductive Follows : Reading ι α ρ → List (Exchange ι α) → Reading ι α ρ → Prop
  | nil (program : Reading ι α ρ) : Follows program [] program
  | cons {query : ι} {next : α query → Reading ι α ρ} {answer : α query}
      {exchanges : List (Exchange ι α)} {left : Reading ι α ρ}
      (h : Follows (next answer) exchanges left) :
      Follows (ask query next) (⟨query, answer⟩ :: exchanges) left

/-- The reading may end with this result while the store gives these answers. -/
def Yields (answers : (query : ι) → α query → Prop) (program : Reading ι α ρ) (result : ρ) :
    Prop :=
  ∃ exchanges, Follows program exchanges (done result) ∧
    ∀ exchange ∈ exchanges, answers exchange.query exchange.answer

/-- The reading asks only these questions. -/
def Asks (P : ι → Prop) : Reading ι α ρ → Prop
  | done _ => True
  | ask query next => P query ∧ ∀ answer, (next answer).Asks P

variable {program : Reading ι α ρ} {next : ρ → Reading ι α ρ'} {exchanges : List (Exchange ι α)}
  {P : ι → Prop} {answers answers' : (query : ι) → α query → Prop}

/-- The next exchange. -/
theorem Follows.snoc {query : ι} {rest : α query → Reading ι α ρ}
    (h : Follows program exchanges (ask query rest)) (answer : α query) :
    Follows program (exchanges ++ [⟨query, answer⟩]) (rest answer) := by
  generalize hleft : ask query rest = left at h
  induction h with
  | nil program =>
    subst hleft
    exact .cons (.nil _)
  | cons _ ih => exact .cons (ih hleft)

/-- A reading that is done asks nothing more. -/
theorem follows_done {result result' : ρ} (h : Follows (done result) exchanges (done result')) :
    exchanges = [] ∧ result' = result := by
  cases h
  exact ⟨rfl, rfl⟩

/-- The first exchange of a reading that comes to an end. -/
theorem follows_ask_done {query : ι} {rest : α query → Reading ι α ρ} {result : ρ}
    (h : Follows (ask query rest) exchanges (done result)) :
    ∃ answer exchanges', exchanges = ⟨query, answer⟩ :: exchanges' ∧
      Follows (rest answer) exchanges' (done result) := by
  cases h with
  | cons h => exact ⟨_, _, rfl, h⟩

/-- **The exchanges of a composed reading** are those of the first part, then those of the
part that its result chooses. -/
theorem follows_bind_done {result : ρ'}
    (h : Follows (program.bind next) exchanges (done result)) :
    ∃ first second middle, exchanges = first ++ second ∧ Follows program first (done middle) ∧
      Follows (next middle) second (done result) := by
  induction program generalizing exchanges with
  | done middle => exact ⟨[], exchanges, middle, rfl, .nil _, h⟩
  | ask query rest ih =>
    obtain ⟨answer, exchanges', rfl, hrest⟩ := follows_ask_done h
    obtain ⟨first, second, middle, rfl, hfirst, hsecond⟩ := ih answer hrest
    exact ⟨_ :: first, second, middle, rfl, .cons hfirst, hsecond⟩

/-- The exchanges of a reading whose result is changed are its own. -/
theorem follows_map_done {f : ρ → ρ'} {result : ρ'}
    (h : Follows (program.map f) exchanges (done result)) :
    ∃ middle, Follows program exchanges (done middle) ∧ result = f middle := by
  obtain ⟨first, second, middle, rfl, hfirst, hsecond⟩ := follows_bind_done h
  obtain ⟨rfl, rfl⟩ := follows_done hsecond
  rw [List.append_nil]
  exact ⟨middle, hfirst, rfl⟩

/-! ## Questions -/

/-- A program asks what its parts ask. -/
theorem Asks.bind (hprogram : program.Asks P) (hnext : ∀ middle, (next middle).Asks P) :
    (program.bind next).Asks P := by
  induction program with
  | done middle => exact hnext middle
  | ask query rest ih => exact ⟨hprogram.1, fun answer => ih answer (hprogram.2 answer)⟩

/-- A program asks the same when its result is mapped. -/
theorem Asks.map {f : ρ → ρ'} (hprogram : program.Asks P) : (program.map f).Asks P :=
  hprogram.bind fun _ => trivial

/-- A run asks only the questions of its reading. -/
theorem Asks.of_follows {left : Reading ι α ρ} (hasks : program.Asks P)
    (h : Follows program exchanges left) : ∀ exchange ∈ exchanges, P exchange.query := by
  induction h with
  | nil => simp
  | cons _ ih =>
    intro exchange hmem
    obtain rfl | hmem := List.mem_cons.mp hmem
    · exact hasks.1
    · exact ih (hasks.2 _) exchange hmem

/-- **Stores that agree on what a reading asks give it the same results.** -/
theorem Yields.congr {result : ρ} (h : program.Yields answers result) (hasks : program.Asks P)
    (hagree : ∀ query, P query → ∀ answer, answers query answer → answers' query answer) :
    program.Yields answers' result := by
  obtain ⟨exchanges, hfollows, hanswers⟩ := h
  exact ⟨exchanges, hfollows, fun exchange hmem =>
    hagree _ (hasks.of_follows hfollows exchange hmem) _ (hanswers exchange hmem)⟩

/-- A reading that is done has its result. -/
theorem yields_done {result result' : ρ} :
    (done result : Reading ι α ρ).Yields answers result' ↔ result' = result := by
  constructor
  · rintro ⟨exchanges, h, _⟩
    exact (follows_done h).2
  · rintro rfl
    exact ⟨[], .nil _, by simp⟩

/-- A reading that asks yields what is left of it yields. -/
theorem yields_ask {query : ι} {rest : α query → Reading ι α ρ} {result : ρ} :
    (ask query rest).Yields answers result ↔
      ∃ answer, answers query answer ∧ (rest answer).Yields answers result := by
  constructor
  · rintro ⟨exchanges, h, hanswers⟩
    obtain ⟨answer, exchanges', rfl, hrest⟩ := follows_ask_done h
    rw [List.forall_mem_cons] at hanswers
    exact ⟨answer, hanswers.1, exchanges', hrest, hanswers.2⟩
  · rintro ⟨answer, hanswer, exchanges, h, hanswers⟩
    exact ⟨_ :: exchanges, .cons h, List.forall_mem_cons.mpr ⟨hanswer, hanswers⟩⟩

/-- A question whose answers leave the same reading yields what this one yields. -/
theorem yields_ask_of_alike {query : ι} {rest : α query → Reading ι α ρ} {result : ρ}
    (hanswered : ∃ answer, answers query answer)
    (halike : ∀ answer, answers query answer → rest answer = program) :
    (ask query rest).Yields answers result ↔ program.Yields answers result := by
  rw [yields_ask]
  constructor
  · rintro ⟨answer, hanswer, hrest⟩
    rwa [halike answer hanswer] at hrest
  · intro hprogram
    obtain ⟨answer, hanswer⟩ := hanswered
    exact ⟨answer, hanswer, by rwa [halike answer hanswer]⟩

/-- A question that has one answer is answered with it. -/
theorem yields_ask_of_forall {query : ι} {rest : α query → Reading ι α ρ} {result : ρ}
    {answer : α query} (h : ∀ answer', answers query answer' ↔ answer' = answer) :
    (ask query rest).Yields answers result ↔ (rest answer).Yields answers result :=
  yields_ask_of_alike ⟨answer, (h answer).mpr rfl⟩
    fun answer' hanswer => congrArg rest ((h answer').mp hanswer)

/-- A composed reading yields what its second part yields. -/
theorem yields_bind {result : ρ'} :
    (program.bind next).Yields answers result ↔
      ∃ middle, program.Yields answers middle ∧ (next middle).Yields answers result := by
  constructor
  · rintro ⟨exchanges, h, hanswers⟩
    obtain ⟨first, second, middle, rfl, hfirst, hsecond⟩ := follows_bind_done h
    rw [List.forall_mem_append] at hanswers
    exact ⟨middle, ⟨first, hfirst, hanswers.1⟩, second, hsecond, hanswers.2⟩
  · rintro ⟨middle, hmiddle, hresult⟩
    induction program with
    | done result' =>
      obtain rfl := yields_done.mp hmiddle
      exact hresult
    | ask query rest ih =>
      obtain ⟨answer, hanswer, hrest⟩ := yields_ask.mp hmiddle
      exact yields_ask.mpr ⟨answer, hanswer, ih answer hrest⟩

/-- A reading whose result is changed yields the changed results. -/
theorem yields_map {f : ρ → ρ'} {result : ρ'} :
    (program.map f).Yields answers result ↔
      ∃ middle, program.Yields answers middle ∧ result = f middle := by
  unfold map
  rw [yields_bind]
  exact exists_congr fun middle => and_congr_right fun _ => yields_done

/-- **A reading has one result** if each of its questions has one answer. -/
theorem Yields.unique {result result' : ρ} (h : program.Yields answers result)
    (h' : program.Yields answers result') (hasks : program.Asks P)
    (hone : ∀ query, P query → ∀ answer answer', answers query answer → answers query answer' →
      answer = answer') : result = result' := by
  induction program with
  | done middle => rw [yields_done.mp h, yields_done.mp h']
  | ask query rest ih =>
    obtain ⟨answer, hanswer, hrest⟩ := yields_ask.mp h
    obtain ⟨answer', hanswer', hrest'⟩ := yields_ask.mp h'
    obtain rfl := hone query hasks.1 answer answer' hanswer hanswer'
    exact ih answer hrest hrest' (hasks.2 answer)

/-! ## Runs over time -/

/-- A run of the reading up to what is left: the exchanges follow each other, none is before
`start` or after `stop`, and each answer is one the store gave at the instant of the
exchange. -/
def ReadsDuring (answersAt : ℕ → (query : ι) → α query → Prop) (start stop : ℕ)
    (program left : Reading ι α ρ) : Prop :=
  start ≤ stop ∧ ∃ events : List (Exchange ι α × ℕ), Follows program (events.map Prod.fst) left ∧
    events.Pairwise (fun first second => first.2 ≤ second.2) ∧
    ∀ event ∈ events, start ≤ event.2 ∧ event.2 ≤ stop ∧
      answersAt event.2 event.1.query event.1.answer

variable {answersAt answersAt' : ℕ → (query : ι) → α query → Prop} {start stop : ℕ}
  {left : Reading ι α ρ}

/-- INTERNAL: a program that has not gone on has read nothing. -/
theorem ReadsDuring.refl (program : Reading ι α ρ) (now : ℕ) :
    ReadsDuring answersAt now now program program :=
  ⟨Nat.le_refl _, [], .nil _, List.Pairwise.nil, by simp⟩

/-- The next exchange. -/
theorem ReadsDuring.snoc {query : ι} {rest : α query → Reading ι α ρ} {answer : α query} {now : ℕ}
    (h : ReadsDuring answersAt start stop program (ask query rest)) (hstop : stop ≤ now)
    (hanswer : answersAt now query answer) :
    ReadsDuring answersAt start now program (rest answer) := by
  obtain ⟨hle, events, hfollows, hsorted, hevents⟩ := h
  refine ⟨Nat.le_trans hle hstop, events ++ [(⟨query, answer⟩, now)], ?_, ?_, ?_⟩
  · rw [List.map_append]
    exact hfollows.snoc answer
  · refine List.pairwise_append.mpr ⟨hsorted, List.pairwise_singleton _ _, ?_⟩
    intro event hevent last hlast
    obtain rfl := List.mem_singleton.mp hlast
    exact Nat.le_trans (hevents event hevent).2.1 hstop
  · intro event hevent
    obtain hevent | hevent := List.mem_append.mp hevent
    · obtain ⟨hlo, hhi, hheld⟩ := hevents event hevent
      exact ⟨hlo, Nat.le_trans hhi hstop, hheld⟩
    · obtain rfl := List.mem_singleton.mp hevent
      exact ⟨Nat.le_trans hle hstop, Nat.le_refl _, hanswer⟩

/-- The store may have answered more, and the run may be said to end later. -/
theorem ReadsDuring.mono {stop' : ℕ} (h : ReadsDuring answersAt start stop program left)
    (hstop : stop ≤ stop')
    (hanswers : ∀ instant query answer, answersAt instant query answer →
      answersAt' instant query answer) :
    ReadsDuring answersAt' start stop' program left := by
  obtain ⟨hle, events, hfollows, hsorted, hevents⟩ := h
  refine ⟨Nat.le_trans hle hstop, events, hfollows, hsorted, fun event hevent => ?_⟩
  obtain ⟨hlo, hhi, hheld⟩ := hevents event hevent
  exact ⟨hlo, Nat.le_trans hhi hstop, hanswers _ _ _ hheld⟩

end Reading

end REnvTools.Lib
