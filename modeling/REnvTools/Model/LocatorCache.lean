import REnvTools.Lib.TaskPool
import REnvTools.Model.CondaLocator

/-!
# The locator cache under concurrent calls

Any number of calls of `get` and `get_or_insert_with` on one `LocatorCache`, on any keys and in
any interleaving. Each section under the read or the write lock is one step, and so is the
closure, which runs under no lock: it may return anything, whatever was computed before it, and
it may panic. A closure that uses the cache itself is more calls. Nobody inserts or clears; what
is cached already when the calls begin is arbitrary.

SRC: crates/ret-core/src/cache.rs:19-90
-/

set_option autoImplicit false

namespace REnvTools.Model

open Lib

variable {κ ν : Type}

/-- Where a call is: in `get`, or in `get_or_insert_with` before the check, before the closure or
before the double-check; or it has returned, or the closure has unwound it. -/
inductive LocatorCall (κ ν : Type)
  | getting (key : κ)
  | checking (key : κ)
  | computing (key : κ)
  | inserting (key : κ) (value : ν)
  | returned (key : κ) (result : Option ν)
  | unwound (key : κ)

/-- What a call does in a step: something under a lock, or its closure, which returns or not. -/
inductive LocatorAction (ν : Type)
  | locked
  | closure (result : Option ν)
  | panic

/-- Where a call goes with what its closure has returned. -/
def LocatorCall.computed (key : κ) : Option ν → LocatorCall κ ν
  | some value => inserting key value
  | none => returned key none

variable [DecidableEq κ]

/-- The steps of a call over the map. -/
inductive LocatorStep : (κ → Option ν) → LocatorCall κ ν → LocatorAction ν → (κ → Option ν) →
    LocatorCall κ ν → Prop
  | get {cache : κ → Option ν} {key : κ} :
      LocatorStep cache (.getting key) .locked cache (.returned key (cache key))
  | hit {cache : κ → Option ν} {key : κ} {value : ν} (h : cache key = some value) :
      LocatorStep cache (.checking key) .locked cache (.returned key (some value))
  | miss {cache : κ → Option ν} {key : κ} (h : cache key = none) :
      LocatorStep cache (.checking key) .locked cache (.computing key)
  | compute {cache : κ → Option ν} {key : κ} (result : Option ν) :
      LocatorStep cache (.computing key) (.closure result) cache (.computed key result)
  | unwind {cache : κ → Option ν} {key : κ} :
      LocatorStep cache (.computing key) .panic cache (.unwound key)
  /-- Another call has inserted meanwhile. -/
  | existing {cache : κ → Option ν} {key : κ} {value existing : ν}
      (h : cache key = some existing) :
      LocatorStep cache (.inserting key value) .locked cache (.returned key (some existing))
  | insert {cache : κ → Option ν} {key : κ} {value : ν} (h : cache key = none) :
      LocatorStep cache (.inserting key value) .locked
        (Function.update cache key (some value)) (.returned key (some value))

/-- Calls on one cache, which holds `start` when they begin. -/
def locatorCache (start : κ → Option ν) :
    TaskSystem (κ → Option ν) (LocatorCall κ ν) (LocatorAction ν) where
  init cache := cache = start
  spawn _ call := ∃ key, call = .getting key ∨ call = .checking key
  step _ cache call action cache' call' := LocatorStep cache call action cache' call'

end REnvTools.Model
