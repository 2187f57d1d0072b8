import FreifunkManager.Model.Node

/-! # The loop around the ping rounds

A pinger waits between its rounds until it is stopped. `Start` runs in a goroutine, and `Stop` in the goroutine of who
calls it; any number of both may run at once, and each step of one may come between any two steps of the others. A
round is here what lies between its first and its last step; it may wait for ever in between, for a goroutine of its own
that there is none of.
-/

namespace FreifunkManager.PingLoop

/-- Where a goroutine with `Start` is: before its timer is set, about to read the flag, waiting for the timer, in a
round, in one that never ends, or right after one, about to leave the wait group, or at its end. -/
inductive Phase where
  | add | started
  | check (due : Time)
  | select (due : Time)
  | run
  | blocked
  | reset
  | leave | ended
deriving DecidableEq

/-- The goroutine is in the wait group. -/
def Phase.counted : Phase → Bool
  | .add | .ended => false
  | _ => true

/-- What happens at the beginning and the end of things. -/
inductive Happening where
  | started (loop : ℕ)
  | began (loop : ℕ)
  | ended (loop : ℕ)
deriving DecidableEq

def Happening.loop : Happening → ℕ
  | .started i | .began i | .ended i => i

structure Mark where
  time : Time
  happening : Happening
deriving DecidableEq

structure State where
  now : Time
  stop : Bool := false
  /-- The counter of the wait group. -/
  wg : ℕ := 0
  loops : List Phase := []
  /-- Whether the calls of `Stop` have returned. -/
  stops : List Bool := []
  /-- The latest comes first. -/
  log : List Mark := []

inductive Action where
  /-- `go pinger.Start()` -/
  | start
  /-- The next step of a goroutine with `Start`. -/
  | loop (i : ℕ)
  /-- The round of a goroutine waits for ever. -/
  | block (i : ℕ)
  /-- `Stop` is called and sets the flag. -/
  | stop
  /-- `Stop` returns from the wait. -/
  | wait (j : ℕ)
  | clock (now : Time)

namespace State

variable (every : Duration) (s : State)

def mark (happening : Happening) : State := { s with log := ⟨s.now, happening⟩ :: s.log }

/-- A goroutine goes on. -/
def goTo (i : ℕ) (phase : Phase) : State := { s with loops := s.loops.set i phase }

def stepLoop (i : ℕ) : Phase → Option State
  | .add => some { s.goTo i .started with wg := s.wg + 1 }
  | .started => some ((s.goTo i (.check (s.now + every))).mark (.started i))
  | .check due => some (s.goTo i (if s.stop then .leave else .select due))
  | .select due => if due ≤ s.now then some ((s.goTo i .run).mark (.began i)) else none
  | .run => some ((s.goTo i .reset).mark (.ended i))
  | .reset => some (s.goTo i (.check (s.now + every)))
  | .leave => some { s.goTo i .ended with wg := s.wg - 1 }
  | .blocked | .ended => none

def step : Action → Option State
  | .start => some { s with loops := s.loops ++ [.add] }
  | .loop i => s.loops[i]?.bind (s.stepLoop every i)
  | .block i => if s.loops[i]? = some .run then some (s.goTo i .blocked) else none
  | .stop => some { s with stop := true, stops := s.stops ++ [false] }
  | .wait j => if s.stops[j]? = some false ∧ s.wg = 0 then some { s with stops := s.stops.set j true } else none
  | .clock now => if s.now ≤ now then some { s with now } else none

def run : State → List Action → Option State
  | s, [] => some s
  | s, action :: rest => (s.step every action).bind (run · rest)

end State

/-- A pinger whose `Start` was not called yet. -/
def newPinger (now : Time) : State := { now }

end FreifunkManager.PingLoop
