import REnvTools.Model.LocatorCache

/-!
# Agreement on what is cached

The map of a `LocatorCache` only grows while nobody inserts or clears (`keeps_step`): the one
step that writes a key does so under the write lock, where it has found the key free. So a call
that returns a value returns what is stored under its key, and is still there when any other
call returns (`returned_stored`). A call that runs alone does what `getOrInsertWith` says
(`getOrInsertWith_alone`).
-/

set_option autoImplicit false

namespace REnvTools.Analysis

open Lib Model

variable {κ ν : Type} [DecidableEq κ]

/-- The calls on one cache and what it holds. -/
abbrev LocatorState (κ ν : Type) := TaskSystem.State (κ → Option ν) (LocatorCall κ ν)

/-- The runs from one state to another. -/
abbrev LocatorRun (start : κ → Option ν) : LocatorState κ ν → LocatorState κ ν → Prop :=
  Relation.ReflTransGen fun s s' => ∃ label, (locatorCache start).machine.step s label s'

/-! ## One step -/

/-- What is stored stays stored. -/
def Keeps (cache cache' : κ → Option ν) : Prop :=
  ∀ key value, cache key = some value → cache' key = some value

/-- A step keeps what is stored. -/
theorem keeps_step {cache cache' : κ → Option ν} {call call' : LocatorCall κ ν}
    {action : LocatorAction ν} (hstep : LocatorStep cache call action cache' call') :
    Keeps cache cache' := by
  cases hstep with
  | get | hit | miss | compute | unwind | existing => exact fun _ _ h => h
  | @insert key value hfree =>
    intro key' value' hstored
    -- the write lock is held since the key was found free
    have hne : key' ≠ key := by
      rintro rfl
      exact absurd (hfree.symm.trans hstored) (Option.some_ne_none _).symm
    rw [Function.update_of_ne hne, hstored]

/-- What a call has returned is stored. -/
def ReturnsStored (cache : κ → Option ν) : LocatorCall κ ν → Prop
  | .returned key result => ∀ value, result = some value → cache key = some value
  | .getting _ | .checking _ | .computing _ | .inserting _ _ | .unwound _ => True

/-- A call returns what is stored after its step. -/
theorem returnsStored_step {cache cache' : κ → Option ν} {call call' : LocatorCall κ ν}
    {action : LocatorAction ν} (hstep : LocatorStep cache call action cache' call')
    (h : ReturnsStored cache call) : ReturnsStored cache' call' := by
  cases hstep with
  | get => exact fun _ hvalue => hvalue
  | hit hstored | existing hstored =>
    rintro _ ⟨⟩
    exact hstored
  | miss | unwind => trivial
  | compute result =>
    cases result with
    | none => exact nofun
    | some value => trivial
  | insert =>
    rintro _ ⟨⟩
    exact Function.update_self ..

omit [DecidableEq κ] in
/-- What is kept is still stored when another call has stepped. -/
theorem ReturnsStored.keep {cache cache' : κ → Option ν} {call : LocatorCall κ ν}
    (h : ReturnsStored cache call) (hkeeps : Keeps cache cache') : ReturnsStored cache' call := by
  cases call with
  | returned key result => exact fun value hvalue => hkeeps key value (h value hvalue)
  | getting | checking | computing | inserting | unwound => trivial

/-! ## Runs -/

variable {start : κ → Option ν}

/-- **What is returned is stored**: in every reachable state, a call that has returned a value
has returned the one under its key. -/
theorem returned_stored {s : LocatorState κ ν} (h : (locatorCache start).Reachable s) {i : ℕ}
    {key : κ} {value : ν} (hreturned : s.tasks[i]? = some (.returned key (some value))) :
    s.shared key = some value := by
  have hinv := TaskSystem.invariant (G := fun _ => True)
    (L := fun cache _ call => ReturnsStored cache call) (fun _ _ => trivial)
    (fun s call _ _ hspawn => by
      obtain ⟨key, rfl | rfl⟩ := hspawn <;> trivial)
    (fun s i call action cache' call' _ _ hstep _ hL => ⟨trivial, returnsStored_step hstep hL⟩)
    (fun s i call action cache' call' j other _ _ hstep _ _ _ _ hother =>
      hother.keep (keeps_step hstep)) h
  exact hinv.2 i _ hreturned value rfl

/-- A run keeps what is stored. -/
theorem keeps_run {s s' : LocatorState κ ν} (hrun : LocatorRun start s s') :
    Keeps s.shared s'.shared := by
  induction hrun with
  | refl => exact fun _ _ h => h
  | tail _ hstep ih =>
    obtain ⟨label, hstep⟩ := hstep
    cases hstep with
    | spawn => exact ih
    | step _ hown => exact fun key value h => keeps_step hown key value (ih key value h)

/-! ## Closures that return nothing -/

/-- Every closure that computes the value of `key` returns `None` or panics. -/
def ComputesNone (key : κ) (s : LocatorState κ ν) :
    TaskSystem.Label (LocatorAction ν) → Prop
  | .step i (.closure result) => s.tasks[i]? = some (.computing key) → result = none
  | .step _ .locked | .step _ .panic | .spawn => True

/-- A call has no value for `key` at hand. -/
def InsertsNone (key : κ) : LocatorCall κ ν → Prop
  | .inserting key' _ => key' ≠ key
  | .getting _ | .checking _ | .computing _ | .returned _ _ | .unwound _ => True

/-- Where the closures for a key return nothing, what is stored under it does not change. -/
theorem unchanged_of_computesNone {key : κ} {s : LocatorState κ ν}
    (h : ((locatorCache start).machine.when (ComputesNone key)).Reachable s) :
    s.shared key = start key := by
  refine (TaskSystem.invariant_when (G := fun cache => cache key = start key)
    (L := fun _ _ call => InsertsNone key call) ?_ ?_ ?_ ?_ h).1
  · rintro cache rfl
    rfl
  · rintro s call - - - ⟨key', rfl | rfl⟩ <;> trivial
  · intro s i call action cache' call' _ hnone hcall hstep hG hL
    cases hstep with
    | get | hit | miss | unwind | existing => exact ⟨hG, trivial⟩
    | @compute key' result =>
      refine ⟨hG, ?_⟩
      cases result with
      | none => trivial
      | some value =>
        rintro rfl
        exact Option.some_ne_none value (hnone hcall)
    | insert => exact ⟨(Function.update_of_ne (Ne.symm hL) ..).trans hG, trivial⟩
  · exact fun s i call action cache' call' j other _ _ _ _ _ _ _ _ hother => hother

/-! ## A call that runs alone -/

/-- One call steps, as part of a run. -/
theorem LocatorRun.step {s s' : LocatorState κ ν} {i : ℕ} {call call' : LocatorCall κ ν}
    {action : LocatorAction ν} {cache' : κ → Option ν} (hrun : LocatorRun start s s')
    (hi : s'.tasks[i]? = some call) (hstep : LocatorStep s'.shared call action cache' call') :
    LocatorRun start s ⟨cache', s'.tasks.set i call'⟩ :=
  hrun.tail ⟨.step i action, .step hi hstep⟩

/-- A call of `get_or_insert_with` during which no other call steps returns and inserts what
`getOrInsertWith` says. -/
theorem getOrInsertWith_alone {s : LocatorState κ ν} {i : ℕ} {key : κ}
    (hi : s.tasks[i]? = some (.checking key)) (f : κ → Option ν) :
    LocatorRun start s
      ⟨(getOrInsertWith s.shared key f).2,
        s.tasks.set i (.returned key (getOrInsertWith s.shared key f).1)⟩ := by
  have hset : ∀ call, (s.tasks.set i call)[i]? = some call :=
    fun call => List.getElem?_set_self (List.getElem?_eq_some_iff.mp hi).1
  unfold getOrInsertWith
  cases hcached : s.shared key with
  | some value => exact LocatorRun.step .refl hi (.hit hcached)
  | none =>
    have hmiss : LocatorRun start s _ := LocatorRun.step .refl hi (.miss hcached)
    have hcomputed := LocatorRun.step hmiss (hset _) (.compute (f key))
    rw [List.set_set] at hcomputed
    cases hf : f key with
    | none =>
      rw [hf] at hcomputed
      exact hcomputed
    | some value =>
      rw [hf] at hcomputed
      have hinserted := LocatorRun.step hcomputed (hset _) (.insert hcached)
      rwa [List.set_set] at hinserted

/-! ## The guarantee -/

/-- **Agreement**: in every reachable state, any two calls on one key that have returned a value
have returned the same, and it is stored; what is stored is never replaced, in any run; and if
every closure for a key returns `None`, nothing gets stored under it. -/
theorem locatorCache_agrees (start : κ → Option ν) (key : κ) :
    (∀ s, (locatorCache start).Reachable s → ∀ (i j : ℕ) (value value' : ν),
      s.tasks[i]? = some (.returned key (some value)) →
      s.tasks[j]? = some (.returned key (some value')) →
        value = value' ∧ s.shared key = some value) ∧
    (∀ s s', LocatorRun start s s' → ∀ value, s.shared key = some value →
      s'.shared key = some value) ∧
    ∀ s, ((locatorCache start).machine.when (ComputesNone key)).Reachable s →
      s.shared key = start key := by
  refine ⟨fun s hs i j value value' hi hj => ?_, fun s s' hrun => keeps_run hrun key,
    fun s hs => unchanged_of_computesNone hs⟩
  have hstored := returned_stored hs hi
  have hstored' := returned_stored hs hj
  exact ⟨Option.some.inj (hstored.symm.trans hstored'), hstored⟩

/-- Two calls find a key free and compute different values; the second to take the write lock
returns what the first has inserted. -/
theorem computedTwice_reachable :
    ∃ s, (locatorCache fun _ : String => (none : Option ℕ)).Reachable s ∧
      s.tasks = [.returned "key1" (some 100), .returned "key1" (some 100)] := by
  have h0 : (locatorCache fun _ : String => (none : Option ℕ)).Reachable ⟨fun _ => none, []⟩ :=
    .init ⟨rfl, rfl⟩
  have h1 := Machine.Reachable.step h0 (TaskSystem.Step.spawn ⟨"key1", .inr rfl⟩)
  have h2 := Machine.Reachable.step h1 (TaskSystem.Step.spawn ⟨"key1", .inr rfl⟩)
  have h3 := Machine.Reachable.step h2 (TaskSystem.Step.step (i := 0) rfl (.miss rfl))
  have h4 := Machine.Reachable.step h3 (TaskSystem.Step.step (i := 1) rfl (.miss rfl))
  have h5 := Machine.Reachable.step h4
    (TaskSystem.Step.step (i := 0) rfl (.compute (some 42)))
  have h6 := Machine.Reachable.step h5
    (TaskSystem.Step.step (i := 1) rfl (.compute (some 100)))
  have h7 := Machine.Reachable.step h6 (TaskSystem.Step.step (i := 1) rfl (.insert rfl))
  have h8 := Machine.Reachable.step h7
    (TaskSystem.Step.step (i := 0) rfl (.existing rfl))
  exact ⟨_, h8, rfl⟩

/-- The theorem for this run: the call that computed 42 and the one that computed 100 agree. -/
theorem locatorCache_agrees_computedTwice :
    ∃ s : LocatorState String ℕ, s.tasks[0]? = some (.returned "key1" (some 100)) ∧
      s.tasks[1]? = some (.returned "key1" (some 100)) ∧ s.shared "key1" = some 100 := by
  obtain ⟨s, hs, htasks⟩ := computedTwice_reachable
  have hfirst : s.tasks[0]? = some (.returned "key1" (some 100)) := by rw [htasks]; rfl
  have hsecond : s.tasks[1]? = some (.returned "key1" (some 100)) := by rw [htasks]; rfl
  exact ⟨s, hfirst, hsecond,
    ((locatorCache_agrees _ "key1").1 s hs 0 1 100 100 hfirst hsecond).2⟩

end REnvTools.Analysis
