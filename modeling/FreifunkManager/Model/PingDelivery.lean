import FreifunkManager.Model.ClientStore
import FreifunkManager.Model.Pinger

/-! # From a ping round to the page

The result of a round goes to the sessions that want it, and a page of such a session puts it in its store some time
later. Other calls are handled before, between and after the rounds, and operations of other calls while a round goes
on. The connection of the page is not lost here.
-/

namespace FreifunkManager.PingDelivery

open Pinger

structure State (δ : Type) where
  world : World
  store : ClientStore.State δ := {}
  /-- The results on the way to the page. -/
  results : List PingResult := []

inductive Event (δ : Type) where
  | other (step : Step)
  /-- A round and the sending of its result. -/
  | round (outcome : String → Outcome) (actions : List Action) (choices : ℕ → Choice)
  /-- The next result arrives. -/
  | onmessage
  | updateNode (node : ClientStore.NodeObject δ)
  | getNode (nodeid : String)
  | getNodes

/-- The session was sent something in the course of a call. -/
def pinged (session : UUID) (before after : World) : Bool :=
  (after.log.take (after.log.length - before.log.length)).any fun e => e.op = .sendSession session

variable {δ : Type} (config : Config) (session : UUID)

/-- `sendResult`, for one page of the session. -/
def State.sendPing (s : State δ) (r : Round) (choices : ℕ → Choice) : State δ :=
  let (after, _) := serve config { call := .ping, choices } r.world
  { s with world := after, results := if pinged session r.world after then s.results ++ r.sent else s.results }

def State.step (s : State δ) : Event δ → Option (State δ)
  | .other step =>
    match serve config step s.world with
    | (after, true) => some { s with world := after }
    | (_, false) => none
  | .round outcome actions choices =>
    match Round.run config.blacklistFor outcome { world := s.world } actions with
    | some r => if r.main = .ended then some (s.sendPing config session r choices) else none
    | none => none
  | .onmessage =>
    match s.results with
    | [] => none
    | result :: rest =>
      some { s with store := (s.store.updateNodePing result.trueIDs result.falseIDs).1, results := rest }
  | .updateNode node => some { s with store := s.store.updateNode node }
  | .getNode nodeid => some { s with store := (s.store.getNode nodeid).2 }
  | .getNodes => some { s with store := s.store.getNodes.2 }

def State.run (s : State δ) : List (Event δ) → Option (State δ)
  | [] => some s
  | event :: rest => (s.step config session event).bind fun next => next.run rest

end FreifunkManager.PingDelivery
