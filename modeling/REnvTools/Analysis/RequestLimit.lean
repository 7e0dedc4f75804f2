import REnvTools.Model.RequestLimit

/-!
# The request limit is exact

The counter is a ledger of the permits: an exchange succeeds only at the value it was computed
from, and a drop gives back one permit that is counted. A refused call has itself seen the
counter at the limit (`seen_step`). After a permit is acquired, every step brings the request
closer to its end (`stepsLeft_step`).
-/

set_option autoImplicit false

namespace REnvTools.Analysis

open Lib Model

/-! ## The ledger -/

/-- The request is answered, or its task has run. -/
def RequestServed (w : LimitWorld) (i : ℕ) : Prop :=
  (∃ error ∈ w.sent, error.request = i) ∨ i ∈ w.ran

/-- INTERNAL: what is known of a call: at its end, its request is served. -/
def ServedAtEnd (w : LimitWorld) (i : ℕ) (call : LimitCall) : Prop :=
  call = .leaving ∨ call = .finished → RequestServed w i

/-- INTERNAL: answers are kept. -/
theorem RequestServed.mono {w w' : LimitWorld} {i : ℕ} (h : RequestServed w i)
    (hsent : w.sent ⊆ w'.sent) (hran : w.ran ⊆ w'.ran) : RequestServed w' i :=
  h.imp (fun ⟨error, herror, hrequest⟩ => ⟨error, hsent herror, hrequest⟩) fun hi => hran hi

/-- INTERNAL: a request with an answer is served. -/
theorem served_self (w : LimitWorld) (i : ℕ) (code : ℤ) (message : String) :
    RequestServed { w with sent := w.sent ++ [⟨i, code, message⟩] } i :=
  .inl ⟨_, List.mem_append_right _ (List.mem_singleton_self _), rfl⟩

/-- INTERNAL: no step takes back an answer. -/
theorem served_step {i j : ℕ} {w w' : LimitWorld} {call call' : LimitCall}
    (hstep : LimitStep i w call w' call') (h : RequestServed w j) :
    RequestServed w' j := by
  cases hstep with
  | tooMany | couldNotStart | failed =>
    exact h.mono (List.subset_append_left _ _) (List.Subset.refl _)
  | taskReturns => exact h.mono (List.Subset.refl _) (List.subset_append_left _ _)
  | load | exchange | exchangeFails | full | drop | spawn | spawnFails | dropClosure | taskPanics
  | leave => exact h.mono (List.Subset.refl _) (List.Subset.refl _)

/-- INTERNAL: a counted permit is given back without a wrap. -/
theorem fetchSub_eq {active : ℕ} (hpos : 1 ≤ active) (hle : active ≤ maxActiveRequests) :
    fetchSub active = active - 1 := by
  unfold maxActiveRequests at hle
  unfold fetchSub
  omega

/-- What a step of a call does to the counter, its permits and its answer. -/
theorem ledger_step {i : ℕ} {w w' : LimitWorld} {call call' : LimitCall}
    (hstep : LimitStep i w call w' call') (hcounted : call.permits ≤ w.active)
    (hle : w.active ≤ maxActiveRequests) (hserved : ServedAtEnd w i call) :
    w'.active + call.permits = w.active + call'.permits ∧ w'.active ≤ maxActiveRequests ∧
      ServedAtEnd w' i call' := by
  cases hstep with
  | load | exchangeFails | full | spawnFails | taskPanics =>
    exact ⟨rfl, hle, fun h => h.elim nofun nofun⟩
  | spawn => exact ⟨rfl, hle, fun h => h.elim nofun nofun⟩
  | @exchange user active hlt hsame =>
    subst hsame
    refine ⟨?_, hlt, ?_⟩
    · cases user <;> rfl
    · cases user <;> exact fun h => h.elim nofun nofun
  | tooMany | couldNotStart | failed => exact ⟨rfl, hle, fun _ => served_self w i _ _⟩
  | taskReturns =>
    exact ⟨rfl, hle, fun _ => .inr (List.mem_append_right _ (List.mem_singleton_self i))⟩
  | drop | dropClosure =>
    have hpos : 1 ≤ w.active := hcounted
    have hsub := fetchSub_eq hpos hle
    simp only [hsub, LimitCall.permits]
    exact ⟨by omega, by omega, fun h => h.elim nofun nofun⟩
  | leave =>
    have hpos : 1 ≤ w.active := hcounted
    have hsub := fetchSub_eq hpos hle
    have hkept := served_step (i := i) .leave (hserved (.inl rfl))
    simp only [hsub, LimitCall.permits] at hkept ⊢
    exact ⟨by omega, by omega, fun _ => hkept⟩

/-- The counter is the number of live permits and within the limit, and finished requests are
served. -/
theorem ledger_of_reachable {s : TaskSystem.State LimitWorld LimitCall}
    (h : requestLimit.Reachable s) :
    s.shared.active = (s.tasks.map LimitCall.permits).sum ∧
      s.shared.active ≤ maxActiveRequests ∧
      ∀ i call, s.tasks[i]? = some call → ServedAtEnd s.shared i call := by
  refine TaskSystem.invariant_ledger (f := LimitWorld.active)
    (G := fun w => w.active ≤ maxActiveRequests) (L := ServedAtEnd) ?_ ?_ ?_ ?_ h
  · rintro w rfl
    exact ⟨rfl, Nat.zero_le _⟩
  · rintro s call - - ⟨user, rfl⟩
    exact ⟨rfl, fun h => h.elim nofun nofun⟩
  · intro s i call a w' call' _ _ hstep hcounted hle hserved
    exact ledger_step hstep hcounted hle hserved
  · intro s i call a w' call' j other _ _ hstep _ _ _ _ _ hother
    exact fun hend => served_step hstep (hother hend)

/-! ## Refusals -/

/-- The runs from one state to another. -/
abbrev LimitRun : TaskSystem.State LimitWorld LimitCall → TaskSystem.State LimitWorld LimitCall →
    Prop :=
  Relation.ReflTransGen fun s s' => ∃ label, requestLimit.machine.step s label s'

/-- INTERNAL: where a call is that has not seen the counter at the limit. -/
def NotSeenFull : LimitCall → Prop
  | .looping _ active => active < maxActiveRequests
  | .refused _ => False
  | .trying _ | .holding | .released | .spawning | .notSpawned _ | .notStarted _ | .running
  | .panicked | .leaving | .finished => True

/-- A step refuses a call only if the call has seen the counter at the limit. -/
theorem seen_step {i : ℕ} {w w' : LimitWorld} {call call' : LimitCall}
    (hstep : LimitStep i w call w' call') (h : NotSeenFull call) :
    NotSeenFull call' ∨ maxActiveRequests ≤ w.active := by
  cases hstep with
  | load | exchangeFails => exact lt_or_ge _ _
  | @exchange user => cases user <;> exact .inl trivial
  | full hle => exact absurd h (Nat.not_lt.mpr hle)
  | tooMany => exact h.elim
  | drop | spawn | spawnFails | dropClosure | couldNotStart | taskReturns | taskPanics | failed
  | leave => exact .inl trivial

/-- A call that is refused has run while the counter was at the limit. -/
theorem full_of_refused {s s' : TaskSystem.State LimitWorld LimitCall} {i : ℕ} {user : PermitUser}
    (hcall : s.tasks[i]? = some (.trying user)) (hrun : LimitRun s s')
    (hrefused : s'.tasks[i]? = some (.refused user)) :
    ∃ m, LimitRun s m ∧ LimitRun m s' ∧ maxActiveRequests ≤ m.shared.active := by
  have hseen : (∃ m, LimitRun s m ∧ LimitRun m s' ∧ maxActiveRequests ≤ m.shared.active) ∨
      ∃ call, s'.tasks[i]? = some call ∧ NotSeenFull call := by
    clear hrefused
    induction hrun with
    | refl => exact .inr ⟨_, hcall, trivial⟩
    | @tail mid last hmid hstep ih =>
      rcases ih with ⟨m, hbefore, hafter, hfull⟩ | ⟨call, hcall, hnot⟩
      · exact .inl ⟨m, hbefore, hafter.tail hstep, hfull⟩
      · obtain ⟨label, hlabel⟩ := hstep
        obtain ⟨call', hcall', ⟨rfl, -⟩ | ⟨_, hown⟩ | ⟨rfl, -⟩⟩ :=
          TaskSystem.thread_step hlabel hcall
        · exact .inr ⟨_, hcall', hnot⟩
        · rcases seen_step hown hnot with hnot' | hfull
          · exact .inr ⟨call', hcall', hnot'⟩
          · exact .inl ⟨mid, hmid, .single ⟨label, hlabel⟩, hfull⟩
        · exact .inr ⟨_, hcall', hnot⟩
  rcases hseen with hfull | ⟨call, hcall, hnot⟩
  · exact hfull
  · rw [hrefused] at hcall
    cases hcall
    exact hnot.elim

/-! ## Releases -/

/-- The steps that a call with a permit, or a refused one, has left at most. -/
def stepsLeft : LimitCall → ℕ
  | .spawning => 4
  | .running => 3
  | .panicked | .notSpawned _ => 2
  | .leaving | .notStarted _ | .holding => 1
  | .refused .request => 1
  | .released | .finished | .refused .holder | .trying _ | .looping _ _ => 0

/-- Every step brings a call closer to its end: a request finishes, and a holder is released. -/
theorem stepsLeft_step {i : ℕ} {w w' : LimitWorld} {call call' : LimitCall}
    (hstep : LimitStep i w call w' call') (h : 0 < stepsLeft call) :
    stepsLeft call' < stepsLeft call ∧
      (stepsLeft call' = 0 → call' = if call = .holding then .released else .finished) := by
  cases hstep with
  | load | exchange | exchangeFails | full => exact absurd h (Nat.lt_irrefl 0)
  | tooMany | drop | spawn | spawnFails | dropClosure | couldNotStart | taskReturns | taskPanics
  | failed | leave => simp [stepsLeft]

/-- A call that is not at its end can take a step. -/
theorem exists_step {call : LimitCall} (h : 0 < stepsLeft call) (i : ℕ) (w : LimitWorld) :
    ∃ w' call', LimitStep i w call w' call' := by
  cases call with
  | trying | looping | released | finished => exact absurd h (Nat.lt_irrefl 0)
  | refused user =>
    cases user with
    | request => exact ⟨_, _, .tooMany⟩
    | holder => exact absurd h (Nat.lt_irrefl 0)
  | holding => exact ⟨_, _, .drop⟩
  | spawning => exact ⟨_, _, .spawn⟩
  | notSpawned => exact ⟨_, _, .dropClosure⟩
  | notStarted => exact ⟨_, _, .couldNotStart⟩
  | running => exact ⟨_, _, .taskReturns⟩
  | panicked => exact ⟨_, _, .failed⟩
  | leaving => exact ⟨_, _, .leave⟩

/-- INTERNAL: a call at its end, and one that has no permit yet, holds none. -/
theorem stepsLeft_pos_of_permits {call : LimitCall} (h : 0 < call.permits) :
    0 < stepsLeft call := by
  cases call with
  | holding | spawning | notSpawned | running | panicked | leaving => simp [stepsLeft]
  | trying | looping | refused | released | notStarted | finished =>
    exact absurd h (Nat.lt_irrefl 0)

/-- **Request limiting is exact**: the counter is the number of live permits, at most the limit,
and no drop wraps; a refused call has run while the counter was at the limit; a permit that is
held is let go after finitely many steps of its holder; and a finished request is answered or
its task has run. -/
theorem request_limit_exact :
    (∀ s : TaskSystem.State LimitWorld LimitCall, requestLimit.Reachable s →
      s.shared.active = (s.tasks.map LimitCall.permits).sum ∧
      s.shared.active ≤ maxActiveRequests ∧
      (∀ (i : ℕ) (call : LimitCall), s.tasks[i]? = some call →
        call.permits ≤ s.shared.active) ∧
      ∀ i : ℕ, s.tasks[i]? = some .finished → RequestServed s.shared i) ∧
    (∀ (s s' : TaskSystem.State LimitWorld LimitCall) (i : ℕ) (user : PermitUser),
      s.tasks[i]? = some (.trying user) → LimitRun s s' → s'.tasks[i]? = some (.refused user) →
      ∃ m, LimitRun s m ∧ LimitRun m s' ∧ maxActiveRequests ≤ m.shared.active) ∧
    ∀ (i : ℕ) (w : LimitWorld) (call : LimitCall),
      (0 < call.permits → 0 < stepsLeft call) ∧
      (0 < stepsLeft call → ∃ w' call', LimitStep i w call w' call') ∧
      ∀ w' call', LimitStep i w call w' call' → 0 < stepsLeft call →
        stepsLeft call' < stepsLeft call ∧
          (stepsLeft call' = 0 → call' = if call = .holding then .released else .finished) := by
  refine ⟨fun s hs => ?_, fun s s' i user hcall hrun hrefused =>
    full_of_refused hcall hrun hrefused, fun i w call =>
    ⟨stepsLeft_pos_of_permits, fun h => exists_step h i w, fun _ _ => stepsLeft_step⟩⟩
  obtain ⟨hsum, hle, hserved⟩ := ledger_of_reachable hs
  refine ⟨hsum, hle, fun i call hcall => ?_, fun i hcall => hserved i _ hcall (.inr rfl)⟩
  rw [hsum]
  exact Pool.le_sum_map LimitCall.permits hcall

end REnvTools.Analysis
