import REnvTools.Lib.TaskPool

/-!
# Probe processes and their shutdown

Any number of calls of `output_with_timeout` and `shutdown_probes` over the registry of
probes, in any interleaving. A step is what runs under the registry's mutex between two reads
of a reference count, one poll of a child, one change of a reference count, or one call that
`ProbeChild::terminate` makes; a child may exit at any moment.

A child is known by its number in the order of spawning, and stays known when nothing refers
to it any more. The weak references of the registry are these numbers.

SRC: crates/ret-r-utils/src/process.rs:18-172
-/

set_option autoImplicit false

namespace REnvTools.Model

open Lib

/-! ## State -/

/-- `Arc<Mutex<ProbeChild>>`: the count of strong references, the mutex, and the process. -/
structure ProbeChild where
  strong : ℕ
  locked : Bool
  exited : Bool
  killed : Bool

namespace ProbeChild

/-- The child as `spawn_probe` makes it. -/
def spawned : ProbeChild := ⟨1, false, false, false⟩

/-- The process is over, or has been sent the kill. -/
def Settled (child : ProbeChild) : Prop := child.exited = true ∨ child.killed = true

end ProbeChild

/-- `ProbeRegistry`. -/
structure ProbeRegistry where
  stopped : Bool
  children : List ℕ

/-- `PROBES` with its mutex, and the children that were spawned. -/
structure ProbeWorld where
  registry : ProbeRegistry
  locked : Bool
  children : List ProbeChild

/-- The child with the given number, set. -/
def ProbeWorld.setChild (w : ProbeWorld) (c : ℕ) (child : ProbeChild) : ProbeWorld :=
  { w with children := w.children.set c child }

/-- What follows when a reference has been released: `output_with_timeout` returns, or
`shutdown_probes` goes on with the other children. -/
inductive AfterRelease
  | finish
  | reap (rest : List ℕ)

/-- Who calls `terminate`: `ProbeChild::drop`, or the loop of `shutdown_probes`. -/
inductive TerminateCaller
  | drop (after : AfterRelease)
  | shutdown (rest : List ℕ)

/-- Where a call is. -/
inductive ProbeCall
  | called
  | spawning
  | retaining (child : ℕ) (kept rest : List ℕ)
  | polling (child : ℕ)
  | releasing (child : ℕ) (after : AfterRelease)
  | terminating (child : ℕ) (caller : TerminateCaller)
  | killing (child : ℕ) (caller : TerminateCaller)
  | waiting (child : ℕ) (caller : TerminateCaller)
  | finished
  | stopping
  | upgrading (rest upgraded : List ℕ)
  | reaping (rest : List ℕ)
  | returned
  | exiting (child : ℕ)

/-- Where the call is after the release. -/
def AfterRelease.resume : AfterRelease → ProbeCall
  | finish => .finished
  | reap rest => .reaping rest

namespace TerminateCaller

/-- Where the call is after `terminate`. -/
def resume (c : ℕ) : TerminateCaller → ProbeCall
  | drop after => after.resume
  | shutdown rest => .releasing c (.reap rest)

/-- The child after `terminate`: the loop of `shutdown_probes` gives up its mutex. -/
def leave (child : ProbeChild) : TerminateCaller → ProbeChild
  | drop _ => child
  | shutdown _ => { child with locked := false }

end TerminateCaller

/-! ## Steps -/

/-- The steps of the calls. -/
inductive ProbeStep : ProbeWorld → ProbeCall → ProbeWorld → ProbeCall → Prop
  /-- The temporary files cannot be made. -/
  | setupFails {w : ProbeWorld} : ProbeStep w .called w .finished
  | refuse {w : ProbeWorld} (hlock : w.locked = false) (h : w.registry.stopped = true) :
      ProbeStep w .called w .finished
  | lock {w : ProbeWorld} (hlock : w.locked = false) (h : w.registry.stopped = false) :
      ProbeStep w .called { w with locked := true } .spawning
  | spawnFails {w : ProbeWorld} : ProbeStep w .spawning { w with locked := false } .finished
  | spawn {w : ProbeWorld} :
      ProbeStep w .spawning { w with children := w.children ++ [ProbeChild.spawned] }
        (.retaining w.children.length [] w.registry.children)
  | retain {w : ProbeWorld} {new c : ℕ} {kept rest : List ℕ} {child : ProbeChild}
      (hc : w.children[c]? = some child) :
      ProbeStep w (.retaining new kept (c :: rest)) w
        (.retaining new (if 0 < child.strong then kept ++ [c] else kept) rest)
  | register {w : ProbeWorld} {new : ℕ} {kept : List ℕ} :
      ProbeStep w (.retaining new kept [])
        { w with registry := { w.registry with children := kept ++ [new] }, locked := false }
        (.polling new)
  /-- `try_wait` gives a status; reading the output may still fail. -/
  | complete {w : ProbeWorld} {c : ℕ} {child : ProbeChild} (hc : w.children[c]? = some child)
      (hlock : child.locked = false) (h : child.exited = true) :
      ProbeStep w (.polling c) w (.releasing c .finish)
  /-- The time is over, the output too large, or a call fails. -/
  | giveUp {w : ProbeWorld} {c : ℕ} : ProbeStep w (.polling c) w (.releasing c .finish)
  | release {w : ProbeWorld} {c : ℕ} {after : AfterRelease} {child : ProbeChild}
      (hc : w.children[c]? = some child) (h : child.strong ≠ 1) :
      ProbeStep w (.releasing c after)
        (w.setChild c { child with strong := child.strong - 1 }) after.resume
  | releaseLast {w : ProbeWorld} {c : ℕ} {after : AfterRelease} {child : ProbeChild}
      (hc : w.children[c]? = some child) (h : child.strong = 1) :
      ProbeStep w (.releasing c after) (w.setChild c { child with strong := 0 })
        (.terminating c (.drop after))
  /-- `try_wait` gives a status. -/
  | exitSeen {w : ProbeWorld} {c : ℕ} {caller : TerminateCaller} {child : ProbeChild}
      (hc : w.children[c]? = some child) (h : child.exited = true) :
      ProbeStep w (.terminating c caller) (w.setChild c (caller.leave child)) (caller.resume c)
  /-- `try_wait` gives no status, or fails. -/
  | exitUnseen {w : ProbeWorld} {c : ℕ} {caller : TerminateCaller} :
      ProbeStep w (.terminating c caller) w (.killing c caller)
  | kill {w : ProbeWorld} {c : ℕ} {caller : TerminateCaller} {child : ProbeChild}
      (hc : w.children[c]? = some child) :
      ProbeStep w (.killing c caller) (w.setChild c { child with killed := true })
        (.waiting c caller)
  /-- `wait` returns; its result is not looked at. -/
  | wait {w : ProbeWorld} {c : ℕ} {caller : TerminateCaller} {child : ProbeChild}
      (hc : w.children[c]? = some child) :
      ProbeStep w (.waiting c caller) (w.setChild c (caller.leave child)) (caller.resume c)
  | stop {w : ProbeWorld} (hlock : w.locked = false) :
      ProbeStep w .stopping { w with registry := ⟨true, []⟩, locked := true }
        (.upgrading w.registry.children [])
  | upgrade {w : ProbeWorld} {c : ℕ} {rest upgraded : List ℕ} {child : ProbeChild}
      (hc : w.children[c]? = some child) (h : child.strong ≠ 0) :
      ProbeStep w (.upgrading (c :: rest) upgraded)
        (w.setChild c { child with strong := child.strong + 1 })
        (.upgrading rest (upgraded ++ [c]))
  | upgradeFails {w : ProbeWorld} {c : ℕ} {rest upgraded : List ℕ} {child : ProbeChild}
      (hc : w.children[c]? = some child) (h : child.strong = 0) :
      ProbeStep w (.upgrading (c :: rest) upgraded) w (.upgrading rest upgraded)
  | unlock {w : ProbeWorld} {upgraded : List ℕ} :
      ProbeStep w (.upgrading [] upgraded) { w with locked := false } (.reaping upgraded)
  | lockChild {w : ProbeWorld} {c : ℕ} {rest : List ℕ} {child : ProbeChild}
      (hc : w.children[c]? = some child) (hlock : child.locked = false) :
      ProbeStep w (.reaping (c :: rest)) (w.setChild c { child with locked := true })
        (.terminating c (.shutdown rest))
  | reaped {w : ProbeWorld} : ProbeStep w (.reaping []) w .returned
  | exit {w : ProbeWorld} {c : ℕ} {child : ProbeChild} (hc : w.children[c]? = some child) :
      ProbeStep w (.exiting c) (w.setChild c { child with exited := true }) .finished

/-- How calls start; a child may exit at any moment. -/
inductive ProbeArrival : ProbeCall → Prop
  | outputWithTimeout : ProbeArrival .called
  | shutdownProbes : ProbeArrival .stopping
  | exit (child : ℕ) : ProbeArrival (.exiting child)

/-- Any number of calls in any interleaving, from the registry the process starts with. -/
def probes : TaskSystem ProbeWorld ProbeCall Unit where
  init w := w = ⟨⟨false, []⟩, false, []⟩
  spawn _ := ProbeArrival
  step _ w call _ w' call' := ProbeStep w call w' call'

/-- The registry, the children and the calls. -/
abbrev ProbeState := TaskSystem.State ProbeWorld ProbeCall

end REnvTools.Model
