import FreifunkManager.Model.ClientStore
import FreifunkManager.Model.System

/-! # The nodes that a page shows

A page is sent every node that is broadcast while it is connected, and nodes of its own when it has asked for them. It
puts them in its store one after the other; what it had before a connection was lost stays there. Edits in the list
change the store at once and are left out.
-/

namespace FreifunkManager.Replica

open ClientStore (State Property)

/-- The handler of `node`; there are no nodes by the id `__proto__` here. -/
def receive (store : State Node) (node : Node) : State Node :=
  if ordinary : node.nodeID ≠ "__proto__" then store.updateNode { nodeID := node.nodeID, data := node, ordinary }
  else store

/-- The node that an operation sends to the page, if it is connected; `own` if it is done for a message of the page. -/
def toPage (own : Bool) : Op → Option Node
  | .sendNode node => some node
  | .write _ (.node node) => if own then some node else none
  | _ => none

/-- The nodes that are sent to the page in the course of a call. -/
def sent (own : Bool) (before after : World) : List Node :=
  ((after.log.take (after.log.length - before.log.length)).filterMap fun e => toPage own e.op).reverse

structure Page where
  world : World
  store : State Node := {}
  connected : Bool := false
  /-- On the way to the page. -/
  line : List Node := []
  /-- The ids of the nodes that were sent on this connection. -/
  told : List String := []

inductive Event where
  | onopen
  | onclose
  /-- The server handles a message of the page. -/
  | own (msg : Message) (choices : ℕ → Choice)
  | other (step : Step)
  /-- The next node arrives. -/
  | onmessage
  | updateNodePing (trueNodes falseNodes : List String)
  | getNode (nodeid : String)
  | getNodes

namespace Page

variable (config : Config) (page : Page)

def serve (own : Bool) (step : Step) : Option Page :=
  match FreifunkManager.serve config step page.world with
  | (after, true) =>
    let nodes := sent own page.world after
    if page.connected then
      some { page with
        world := after, line := page.line ++ nodes, told := page.told ++ nodes.map Node.nodeID }
    else some { page with world := after }
  | (_, false) => none

def step : Event → Option Page
  | .onopen => if page.connected then none else some { page with connected := true }
  | .onclose => some { page with connected := false, line := [], told := [] }
  | .own msg choices => if page.connected then page.serve config true { call := .message msg, choices } else none
  | .other step => page.serve config false step
  | .onmessage =>
    match page.line with
    | [] => none
    | node :: rest => some { page with store := receive page.store node, line := rest }
  | .updateNodePing trueNodes falseNodes =>
    some { page with store := (page.store.updateNodePing trueNodes falseNodes).1 }
  | .getNode nodeid => some { page with store := (page.store.getNode nodeid).2 }
  | .getNodes => some { page with store := page.store.getNodes.2 }

def run (page : Page) : List Event → Option Page
  | [] => some page
  | event :: rest => (page.step config event).bind fun next => next.run rest

end Page

end FreifunkManager.Replica
