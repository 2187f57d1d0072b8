import FreifunkManager.Model.System

/-! # A ping round

The nodes are read and counted by two queries. Then one goroutine for each node that was read decides about it;
the round waits for as many goroutines as were counted. The goroutines, the round itself and the other parts of
the manager, which go on to use the database, interleave step by step.
-/

namespace FreifunkManager.Pinger

structure PingResult where
  trueIDs : List String := []
  falseIDs : List String := []
deriving DecidableEq

/-- What is decided outside about one node: when its time filter is checked, whether its address can be resolved,
and whether it answers. -/
structure Outcome where
  checked : Time
  resolves : Bool
  answers : Bool

/-- Where a goroutine is. On its way out the deferred call is still to come. -/
inductive Stage where
  | start | resolve | ping
  | append (answers : Bool)
  | leave | ended
deriving DecidableEq

structure Goroutine where
  node : Row
  stage : Stage
deriving DecidableEq

/-- Where the round is: before one of its queries, with goroutines to start, or after the wait. -/
inductive Main where
  | find | count
  | start (nodes : List Row)
  | sendResult | ended
deriving DecidableEq

structure Round where
  world : World
  main : Main := .find
  nodes : List Row := []
  count : ℕ := 0
  /-- The counter of the wait group. -/
  wg : ℤ := 0
  goroutines : List Goroutine := []
  result : PingResult := {}
  sent : List PingResult := []

/-- Whose step is next. -/
inductive Action where
  | main
  | goroutine (i : ℕ)
  /-- An operation on behalf of another call. -/
  | other (call : Call) (choice : Choice) (op : Op)

/-- The pinger takes the step. -/
def Action.own : Action → Bool
  | .other .. => false
  | _ => true

section Run

variable (blacklistFor : Duration) (outcome : String → Outcome)

/-- A step of `run`. -/
def Round.runMain (r : Round) : Option Round :=
  match r.main with
  | .find => some { r with main := .count, nodes := r.world.nodes.rows }
  | .count =>
    let count := r.world.nodes.rows.length
    some { r with main := .start r.nodes, count, wg := count }
  | .start (node :: rest) =>
    some { r with main := .start rest, goroutines := r.goroutines ++ [{ node, stage := .start }] }
  | .start [] => if r.wg = 0 then some { r with main := .sendResult } else none
  | .sendResult => some { r with main := .ended, sent := r.sent ++ [r.result] }
  | .ended => none

/-- The next stage of a goroutine that is not about to change the result or the wait group. -/
def Goroutine.next (g : Goroutine) : Stage :=
  match g.stage with
  | .start => if g.node.node.timeFilter blacklistFor (outcome g.node.nodeID).checked then .leave else .resolve
  | .resolve => if (outcome g.node.nodeID).resolves then .ping else .leave
  | .ping => .append (outcome g.node.nodeID).answers
  | .append _ => .leave
  | .leave | .ended => .ended

def PingResult.append (result : PingResult) (nodeID : String) (answers : Bool) : PingResult :=
  if answers then { result with trueIDs := result.trueIDs ++ [nodeID] }
  else { result with falseIDs := result.falseIDs ++ [nodeID] }

def Round.runGoroutine (r : Round) (i : ℕ) : Option Round :=
  match r.goroutines[i]? with
  | none | some { stage := .ended, .. } => none
  | some g =>
    let r := { r with goroutines := r.goroutines.set i { g with stage := g.next blacklistFor outcome } }
    match g.stage with
    | .append answers => some { r with result := r.result.append g.node.nodeID answers }
    | .leave => some { r with wg := r.wg - 1 }
    | _ => some r

/-- A counter below zero is a panic, after which nothing happens any more. -/
def Round.step (r : Round) (action : Action) : Option Round :=
  if r.wg < 0 then none
  else match action with
  | .main => r.runMain
  | .goroutine i => r.runGoroutine blacklistFor outcome i
  | .other call choice op => some { r with world := (r.world.handle call choice op).2 }

def Round.run (r : Round) : List Action → Option Round
  | [] => some r
  | action :: rest => (r.step blacklistFor outcome action).bind (Round.run · rest)

end Run

end FreifunkManager.Pinger
