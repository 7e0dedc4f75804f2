import REnvTools.Program.Configuration

/-!
# The refresh coordinator

`RefreshCoordinator` with its mutex-protected state and the threads parked on its
condition variable, and `RefreshGuard`. Each definition is one critical section. The
coordinator never looks at the ids it holds, so it is stated for any type of them.

`waiters` are the threads that sleep in `wait_until_idle` and were not notified since;
`notify_all` empties it.

SRC: crates/ret/src/jsonrpc.rs:47-48, 125-302
-/

set_option autoImplicit false

namespace REnvTools.Program

/-- `MAX_JOINED_REFRESH_REQUESTS`. -/
def maxJoinedRefreshRequests : ℕ := 256

/-! ## The state -/

/-- `ActiveRefresh`. -/
structure ActiveRefresh (ι : Type) where
  key : RefreshKey
  requestIds : List ι

/-- `RefreshCoordinatorState`. -/
inductive RefreshCoordinatorState (ι : Type)
  | idle
  | running (active : ActiveRefresh ι)
  | completing (active : ActiveRefresh ι)

/-- `RefreshCoordinator`. -/
structure RefreshCoordinator (ι : Type) where
  state : RefreshCoordinatorState ι
  waiters : List ℕ

/-- `RefreshRegistration`. -/
inductive RefreshRegistration
  | start | joined | wait | busy
  deriving DecidableEq, Repr

variable {ι : Type}

namespace RefreshCoordinatorState

/-- The refresh the state is about. -/
def active? : RefreshCoordinatorState ι → Option (ActiveRefresh ι)
  | idle => none
  | running active => some active
  | completing active => some active

/-- The ids the coordinator holds. -/
def requestIds (state : RefreshCoordinatorState ι) : List ι :=
  (state.active?.map (·.requestIds)).getD []

/-- The key of the active refresh. -/
def activeKey? (state : RefreshCoordinatorState ι) : Option RefreshKey :=
  state.active?.map (·.key)

/-- `1` unless idle. -/
def occupied : RefreshCoordinatorState ι → ℕ
  | idle => 0
  | running _ => 1
  | completing _ => 1

/-- INTERNAL: an idle coordinator has no refresh. -/
@[simp] theorem active?_idle : (idle : RefreshCoordinatorState ι).active? = none := rfl
/-- INTERNAL: the refresh of a running coordinator. -/
@[simp] theorem active?_running (a : ActiveRefresh ι) : (running a).active? = some a := rfl
/-- INTERNAL: the refresh of a completing coordinator. -/
@[simp] theorem active?_completing (a : ActiveRefresh ι) :
    (completing a).active? = some a := rfl
/-- INTERNAL: an idle coordinator has no request to answer. -/
@[simp] theorem requestIds_idle : (idle : RefreshCoordinatorState ι).requestIds = [] := rfl
/-- INTERNAL: the requests of a running coordinator. -/
@[simp] theorem requestIds_running (a : ActiveRefresh ι) :
    (running a).requestIds = a.requestIds := rfl
/-- INTERNAL: the requests of a completing coordinator. -/
@[simp] theorem requestIds_completing (a : ActiveRefresh ι) :
    (completing a).requestIds = a.requestIds := rfl
/-- INTERNAL: an idle coordinator has no key. -/
@[simp] theorem activeKey?_idle : (idle : RefreshCoordinatorState ι).activeKey? = none :=
  rfl
/-- INTERNAL: the key of a running coordinator. -/
@[simp] theorem activeKey?_running (a : ActiveRefresh ι) :
    (running a).activeKey? = some a.key := rfl
/-- INTERNAL: the key of a completing coordinator. -/
@[simp] theorem activeKey?_completing (a : ActiveRefresh ι) :
    (completing a).activeKey? = some a.key := rfl
/-- INTERNAL: an idle coordinator is not occupied. -/
@[simp] theorem occupied_idle : (idle : RefreshCoordinatorState ι).occupied = 0 := rfl
/-- INTERNAL: a running coordinator is occupied. -/
@[simp] theorem occupied_running (a : ActiveRefresh ι) : (running a).occupied = 1 := rfl
/-- INTERNAL: a completing coordinator is occupied. -/
@[simp] theorem occupied_completing (a : ActiveRefresh ι) :
    (completing a).occupied = 1 := rfl

/-- INTERNAL: there is one place. -/
theorem occupied_le_one (state : RefreshCoordinatorState ι) : state.occupied ≤ 1 := by
  cases state <;> simp

/-- INTERNAL: only the idle coordinator is not occupied. -/
theorem occupied_eq_zero {state : RefreshCoordinatorState ι} :
    state.occupied = 0 ↔ state = idle := by
  cases state <;> simp

end RefreshCoordinatorState

open RefreshCoordinatorState

namespace RefreshCoordinator

/-- `RefreshCoordinator::default`. -/
def default : RefreshCoordinator ι := ⟨.idle, []⟩

/-! ## Critical sections -/

/-- The second arm of `register`: the same key joins, up to the bound, and another key
waits. -/
def join (c : RefreshCoordinator ι) (requestId : ι) (key : RefreshKey)
    (active : ActiveRefresh ι)
    (state : ActiveRefresh ι → RefreshCoordinatorState ι) :
    RefreshRegistration × RefreshCoordinator ι :=
  if active.key = key then
    if active.requestIds.length ≥ maxJoinedRefreshRequests then (.busy, c)
    else
      (.joined,
        { c with state := state { active with requestIds := active.requestIds ++ [requestId] } })
  else (.wait, c)

/-- `register`. -/
def register (c : RefreshCoordinator ι) (requestId : ι) (key : RefreshKey) :
    RefreshRegistration × RefreshCoordinator ι :=
  match c.state with
  | .idle => (.start, { c with state := .running ⟨key, [requestId]⟩ })
  | .running active => c.join requestId key active .running
  | .completing active => c.join requestId key active .completing

/-- One evaluation of the condition of `wait_until_idle` by a thread that is not parked:
it returns (`true`) or parks. -/
def waitUntilIdle (c : RefreshCoordinator ι) (thread : ℕ) : Bool × RefreshCoordinator ι :=
  match c.state with
  | .idle => (true, c)
  | _ => (false, { c with waiters := c.waiters ++ [thread] })

/-- A parked thread wakes, notified or not. -/
def unpark (c : RefreshCoordinator ι) (thread : ℕ) : RefreshCoordinator ι :=
  { c with waiters := c.waiters.filter (· ≠ thread) }

/-- `begin_completion`; the error is the message of its panic, which leaves the state as
it was. -/
def beginCompletion (c : RefreshCoordinator ι) (key : RefreshKey) :
    Except String (RefreshCoordinator ι) :=
  match c.state with
  | .running active =>
    if active.key = key then .ok { c with state := .completing active }
    else .error "refresh coordinator completion key/state mismatch"
  | _ => .error "refresh coordinator completion key/state mismatch"

/-- `drain_request_ids`. -/
def drainRequestIds (c : RefreshCoordinator ι) (key : RefreshKey) :
    Except String (List ι × RefreshCoordinator ι) :=
  match c.state with
  | .completing active =>
    if active.key = key then
      .ok (active.requestIds, { c with state := .completing { active with requestIds := [] } })
    else .error "refresh coordinator drain key/state mismatch"
  | .idle => .ok ([], c)
  | .running _ => .error "refresh coordinator drain key/state mismatch"

/-- `complete_if_empty`. -/
def completeIfEmpty (c : RefreshCoordinator ι) (key : RefreshKey) :
    Except String (Bool × RefreshCoordinator ι) :=
  match c.state with
  | .completing active =>
    if active.key = key then
      if active.requestIds = [] then .ok (true, ⟨.idle, []⟩) else .ok (false, c)
    else .error "refresh coordinator completion key/state mismatch"
  | _ => .error "refresh coordinator completion key/state mismatch"

/-- `force_idle`. -/
def forceIdle (c : RefreshCoordinator ι) (key : RefreshKey) : RefreshCoordinator ι :=
  match c.state.active? with
  | some active => if active.key = key then ⟨.idle, []⟩ else c
  | none => c

end RefreshCoordinator

/-! ## What each section does -/

namespace RefreshCoordinatorState

/-- Whether a scan is still to end. -/
def isRunning : RefreshCoordinatorState ι → Bool
  | running _ => true
  | _ => false

/-- INTERNAL: an idle coordinator does not run. -/
@[simp] theorem isRunning_idle : (idle : RefreshCoordinatorState ι).isRunning = false := rfl
/-- INTERNAL: a running coordinator runs. -/
@[simp] theorem isRunning_running (a : ActiveRefresh ι) :
    (running a).isRunning = true := rfl
/-- INTERNAL: a completing coordinator does not run any more. -/
@[simp] theorem isRunning_completing (a : ActiveRefresh ι) :
    (completing a).isRunning = false := rfl

end RefreshCoordinatorState

namespace RefreshCoordinator

variable {c c' : RefreshCoordinator ι} {r : ι} {key : RefreshKey}

/-- **What `register` can do**: start on an idle coordinator; join an active refresh of
the same key that has room; or leave the coordinator alone. -/
theorem register_cases {registration : RefreshRegistration}
    (h : c.register r key = (registration, c')) :
    (registration = .start ∧ c.state = .idle ∧
      c' = { c with state := .running ⟨key, [r]⟩ }) ∨
    (registration = .joined ∧ c'.waiters = c.waiters ∧
      c'.state.isRunning = c.state.isRunning ∧ ∃ active, c.state.active? = some active ∧
        active.key = key ∧ active.requestIds.length < maxJoinedRefreshRequests ∧
        c'.state.active? =
          some { active with requestIds := active.requestIds ++ [r] }) ∨
    (registration = .wait ∧ c' = c) ∨ (registration = .busy ∧ c' = c) := by
  have hjoin : ∀ active (state : ActiveRefresh ι → RefreshCoordinatorState ι),
      c.state = state active → (∀ a, (state a).active? = some a) →
      (∀ a b, (state a).isRunning = (state b).isRunning) →
      c.join r key active state = (registration, c') →
      (registration = .joined ∧ c'.waiters = c.waiters ∧
        c'.state.isRunning = c.state.isRunning ∧ ∃ active, c.state.active? = some active ∧
          active.key = key ∧ active.requestIds.length < maxJoinedRefreshRequests ∧
          c'.state.active? =
            some { active with requestIds := active.requestIds ++ [r] }) ∨
      (registration = .wait ∧ c' = c) ∨ (registration = .busy ∧ c' = c) := by
    intro active state hstate hactive hrunning h
    unfold join at h
    split at h
    · rename_i hkey
      split at h
      · cases h
        exact .inr (.inr ⟨rfl, rfl⟩)
      · rename_i hlen
        cases h
        refine .inl ⟨rfl, rfl, ?_, active, ?_, hkey, by omega, hactive _⟩
        · rw [hstate]
          exact hrunning _ _
        · rw [hstate]
          exact hactive _
    · cases h
      exact .inr (.inl ⟨rfl, rfl⟩)
  unfold register at h
  split at h
  · rename_i hstate
    cases h
    exact .inl ⟨rfl, hstate, rfl⟩
  · rename_i active hstate
    exact .inr (hjoin active .running hstate (fun _ => rfl) (fun _ _ => rfl) h)
  · rename_i active hstate
    exact .inr (hjoin active .completing hstate (fun _ => rfl) (fun _ _ => rfl) h)

/-- `begin_completion` succeeds only for the key of a running refresh. -/
theorem beginCompletion_ok (h : c.beginCompletion key = .ok c') :
    ∃ active, c.state = .running active ∧ active.key = key ∧
      c' = { c with state := .completing active } := by
  unfold beginCompletion at h
  split at h
  · rename_i active hstate
    split at h
    · rename_i hkey
      cases h
      exact ⟨active, hstate, hkey, rfl⟩
    · cases h
  · cases h

/-- It succeeds for the key of a running refresh. -/
theorem beginCompletion_of_running {active : ActiveRefresh ι}
    (hstate : c.state = .running active) (hkey : active.key = key) :
    c.beginCompletion key = .ok { c with state := .completing active } := by
  simp only [beginCompletion, hstate, hkey, if_true]

/-- `drain_request_ids` takes the requests of a completing refresh. -/
theorem drainRequestIds_of_completing {active : ActiveRefresh ι}
    (hstate : c.state = .completing active) (hkey : active.key = key) :
    c.drainRequestIds key =
      .ok (active.requestIds,
        { c with state := .completing { active with requestIds := [] } }) := by
  simp only [drainRequestIds, hstate, hkey, if_true]

/-- `complete_if_empty` ends a completing refresh without requests. -/
theorem completeIfEmpty_of_completing {active : ActiveRefresh ι}
    (hstate : c.state = .completing active) (hkey : active.key = key) :
    c.completeIfEmpty key =
      if active.requestIds = [] then .ok (true, ⟨.idle, []⟩) else .ok (false, c) := by
  simp only [completeIfEmpty, hstate, hkey, if_true]

/-- A completion that succeeds was of a completing refresh without requests. -/
theorem completeIfEmpty_true (h : c.completeIfEmpty key = .ok (true, c')) :
    ∃ active, c.state = .completing active ∧ active.key = key ∧ active.requestIds = [] ∧
      c' = ⟨.idle, []⟩ := by
  unfold completeIfEmpty at h
  split at h
  · rename_i active hstate
    split at h
    · rename_i hkey
      split at h
      · rename_i hempty
        cases h
        exact ⟨active, hstate, hkey, hempty, rfl⟩
      · cases h
    · cases h
  · cases h

/-- A completion that is put off changes nothing. -/
theorem completeIfEmpty_false (h : c.completeIfEmpty key = .ok (false, c')) : c' = c := by
  unfold completeIfEmpty at h
  split at h
  · split at h
    · split at h <;> cases h
      rfl
    · cases h
  · cases h

/-- `force_idle` ends the refresh of the key. -/
theorem forceIdle_of_active {active : ActiveRefresh ι}
    (hactive : c.state.active? = some active) (hkey : active.key = key) :
    c.forceIdle key = ⟨.idle, []⟩ := by
  simp only [forceIdle, hactive, hkey, if_true]

end RefreshCoordinator

/-! ## The guard -/

/-- `RefreshGuard`. -/
structure RefreshGuard where
  key : RefreshKey
  completed : Bool
  deriving DecidableEq

namespace RefreshGuard

/-- `RefreshGuard::new`. -/
def new (key : RefreshKey) : RefreshGuard := ⟨key, false⟩

/-- `RefreshGuard::drop`. -/
def drop (guard : RefreshGuard) (c : RefreshCoordinator ι) : RefreshCoordinator ι :=
  if guard.completed then c else c.forceIdle guard.key

end RefreshGuard
end REnvTools.Program
