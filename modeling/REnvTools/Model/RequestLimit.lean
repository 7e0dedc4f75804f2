import REnvTools.Lib.TaskPool

/-!
# The limit of active requests

Any number of calls of `spawn_request`, and of other holders of a permit, over one
`RequestLimit`, in any interleaving. A step is one atomic access to the counter, one attempt to
start a thread, one `send_error`, or the end of a task. A request keeps its number when its
thread has started: the closure with the permit goes on as the thread.

SRC: crates/ret/src/jsonrpc.rs:48, 51-111
-/

set_option autoImplicit false

namespace REnvTools.Model

open Lib

/-- `MAX_ACTIVE_REQUESTS`. -/
def maxActiveRequests : ℕ := 32

/-- `fetch_sub(1)` on `usize`. -/
def fetchSub (active : ℕ) : ℕ := (active + (2 ^ 64 - 1)) % 2 ^ 64

/-- What `send_error` has sent for a request. -/
structure SentError where
  request : ℕ
  code : ℤ
  message : String

/-- The counter, and what has become of the requests: the errors that were sent, and the requests
whose task has run. -/
structure LimitWorld where
  active : ℕ
  sent : List SentError
  ran : List ℕ

/-- Who calls `try_acquire`: `spawn_request`, or code that lets the permit go at some moment,
perhaps by unwinding. -/
inductive PermitUser
  | request
  | holder
  deriving DecidableEq

/-- Where a call is. -/
inductive LimitCall
  | trying (user : PermitUser)
  | looping (user : PermitUser) (active : ℕ)
  | refused (user : PermitUser)
  | holding
  | released
  | spawning
  | notSpawned (error : String)
  | notStarted (error : String)
  | running
  | panicked
  | leaving
  | finished
  deriving DecidableEq

namespace LimitCall

/-- The permits that a call holds. -/
def permits : LimitCall → ℕ
  | holding | spawning | notSpawned _ | running | panicked | leaving => 1
  | trying _ | looping _ _ | refused _ | released | notStarted _ | finished => 0

/-- Where a call is when it has a permit. -/
def acquired : PermitUser → LimitCall
  | .request => spawning
  | .holder => holding

end LimitCall

/-- The steps of call `i`. -/
inductive LimitStep (i : ℕ) : LimitWorld → LimitCall → LimitWorld → LimitCall → Prop
  | load {w : LimitWorld} {user : PermitUser} :
      LimitStep i w (.trying user) w (.looping user w.active)
  | exchange {w : LimitWorld} {user : PermitUser} {active : ℕ} (hlt : active < maxActiveRequests)
      (hsame : w.active = active) :
      LimitStep i w (.looping user active) { w with active := active + 1 } (.acquired user)
  /-- The counter has changed, or the exchange fails spuriously. -/
  | exchangeFails {w : LimitWorld} {user : PermitUser} {active : ℕ}
      (hlt : active < maxActiveRequests) :
      LimitStep i w (.looping user active) w (.looping user w.active)
  | full {w : LimitWorld} {user : PermitUser} {active : ℕ} (hle : maxActiveRequests ≤ active) :
      LimitStep i w (.looping user active) w (.refused user)
  | tooMany {w : LimitWorld} :
      LimitStep i w (.refused .request)
        { w with sent := w.sent ++ [⟨i, -32000, "Too many active requests; retry later"⟩] }
        .finished
  /-- The holder ends, or unwinds. -/
  | drop {w : LimitWorld} :
      LimitStep i w .holding { w with active := fetchSub w.active } .released
  | spawn {w : LimitWorld} : LimitStep i w .spawning w .running
  | spawnFails {w : LimitWorld} (error : String) :
      LimitStep i w .spawning w (.notSpawned error)
  /-- The closure that could not be started is dropped. -/
  | dropClosure {w : LimitWorld} {error : String} :
      LimitStep i w (.notSpawned error) { w with active := fetchSub w.active } (.notStarted error)
  | couldNotStart {w : LimitWorld} {error : String} :
      LimitStep i w (.notStarted error)
        { w with sent := w.sent ++ [⟨i, -32603, "Could not start request: " ++ error⟩] } .finished
  | taskReturns {w : LimitWorld} : LimitStep i w .running { w with ran := w.ran ++ [i] } .leaving
  | taskPanics {w : LimitWorld} : LimitStep i w .running w .panicked
  | failed {w : LimitWorld} :
      LimitStep i w .panicked
        { w with sent := w.sent ++ [⟨i, -32603, "Request failed unexpectedly"⟩] } .leaving
  /-- The thread drops its permit. -/
  | leave {w : LimitWorld} :
      LimitStep i w .leaving { w with active := fetchSub w.active } .finished

/-- The users of one `RequestLimit`. -/
def requestLimit : TaskSystem LimitWorld LimitCall Unit where
  init w := w = ⟨0, [], []⟩
  spawn _ call := ∃ user, call = .trying user
  step i w call _ w' call' := LimitStep i w call w' call'

end REnvTools.Model
