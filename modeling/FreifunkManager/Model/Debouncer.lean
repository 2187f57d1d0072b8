import Mathlib.Data.Int.Notation
import Mathlib.Data.Nat.Notation

/-! # The debouncer

A call executes the function at once unless a timer is pending; the calls that come in between are counted, and one
execution stands for all of them when the timer expires. Code runs to its end before anything else happens, so an
event is a call or an expiry with all that follows from it. Delays are such as `setTimeout` takes them, and the
browser calls back after the delay or later.
-/

namespace FreifunkManager.Debouncer

/-- Milliseconds, or any finer unit. -/
abbrev Instant := ℤ

/-- One execution of the function, which may end with an exception. -/
structure Execution where
  start : Instant
  finish : Instant
  threw : Bool
deriving DecidableEq

/-- What is recorded of a run. -/
inductive Entry where
  | call (time : Instant)
  | execution (execution : Execution)
deriving DecidableEq

structure State where
  /-- The handle of the timer, or null. -/
  timer : Option ℕ := none
  numCallsSkipped : ℕ := 0
  /-- The timers of the browser, each with the time at which it was set. -/
  pending : List (ℕ × Instant) := []
  /-- The handle that is given out next. -/
  nextHandle : ℕ := 1
  /-- The end of what ran last. -/
  now : Instant
  /-- The latest entry comes first. -/
  log : List Entry := []
deriving DecidableEq

inductive Event where
  /-- The function takes until `finish` if it is executed, and may throw. -/
  | run (start finish : Instant) (throws : Bool)
  | expire (handle : ℕ) (start finish : Instant) (throws : Bool)
deriving DecidableEq

namespace State

variable (timeoutMsec : ℕ) (s : State)

/-- `window.setTimeout`, called at `set`. -/
def setTimeout (set : Instant) : State :=
  { s with
    timer := some s.nextHandle
    pending := s.pending ++ [(s.nextHandle, set)]
    nextHandle := s.nextHandle + 1 }

/-- An exception leaves `run` before the timer is set. -/
def run (start finish : Instant) (throws : Bool) : State :=
  if s.timer = none then
    let s := { s with now := finish, log := .execution ⟨start, finish, throws⟩ :: s.log }
    if throws then s else s.setTimeout finish
  else { s with now := start, numCallsSkipped := s.numCallsSkipped + 1 }

/-- The callback of the timer. -/
def expired (start finish : Instant) (throws : Bool) : State :=
  let s := { s with timer := none }
  if s.numCallsSkipped > 0 then { s with numCallsSkipped := 0 }.run start finish throws
  else { s with now := start }

def step : Event → Option State
  | .run start finish throws =>
    if s.now ≤ start ∧ start ≤ finish then some ({ s with log := .call start :: s.log }.run start finish throws)
    else none
  | .expire handle start finish throws =>
    match s.pending.lookup handle with
    | some set =>
      if s.now ≤ start ∧ start ≤ finish ∧ set + timeoutMsec ≤ start then
        some ({ s with pending := s.pending.filter (·.1 ≠ handle) }.expired start finish throws)
      else none
    | none => none

/-- A debouncer that was constructed at `now`, after these events. -/
def after (now : Instant) : List Event → Option State
  | [] => some { now }
  | event :: past => (after now past).bind (·.step timeoutMsec event)

end State

end FreifunkManager.Debouncer
