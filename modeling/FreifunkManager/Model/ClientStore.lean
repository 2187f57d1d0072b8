import Mathlib.Data.Nat.Notation
import Mathlib.Logic.Function.Basic

/-! # The store of a client

The nodes and the results of the pings are kept in two tables, which are joined when a node is read: the node is
given the array of its results, not a copy. Both tables are plain objects, so a name that every object inherits is
found in them although nothing was put there.
-/

namespace FreifunkManager.ClientStore

/-- The array of results at a place in memory. -/
abbrev Ref := ℕ

def storeMaxPing : ℕ := 10

/-- The names of the properties that an object inherits from `Object.prototype`. -/
def objectPrototype : List String :=
  ["constructor", "hasOwnProperty", "isPrototypeOf", "propertyIsEnumerable", "toLocaleString", "toString", "valueOf",
    "__defineGetter__", "__defineSetter__", "__lookupGetter__", "__lookupSetter__", "__proto__"]

/-- What reading a property of a table gives; what is inherited is a function or an object. -/
inductive Property (α : Type) where
  | own (value : α)
  | inherited
  | undefined
deriving DecidableEq

def read {α : Type} (table : String → Option α) (name : String) : Property α :=
  match table name with
  | some value => .own value
  | none => if name ∈ objectPrototype then .inherited else .undefined

/-- A node as it came from the server, with its results if it was read. Setting the property `__proto__` of a table
replaces what the table inherits from; there are no nodes by this id here. -/
structure NodeObject (δ : Type) where
  nodeID : String
  data : δ
  pingstate : Property Ref := .undefined
  ordinary : nodeID ≠ "__proto__"

structure State (δ : Type) where
  list : String → Option (NodeObject δ) := fun _ => none
  /-- The keys of `list`, in the order in which they came. -/
  keys : List String := []
  pingState : String → Option Ref := fun _ => none
  arrays : Ref → List Bool := fun _ => []
  nextRef : Ref := 0

namespace State

variable {δ : Type} (s : State δ)

/-- A new array. -/
def alloc (values : List Bool) : Ref × State δ :=
  (s.nextRef, { s with arrays := Function.update s.arrays s.nextRef values, nextRef := s.nextRef + 1 })

def getNode (nodeid : String) : Property (NodeObject δ) × State δ :=
  match read s.list nodeid with
  | .undefined => (.undefined, s)
  | .inherited => (.inherited, s)
  | .own node =>
    let (pingstate, s) : Property Ref × State δ :=
      match read s.pingState nodeid with
      | .undefined =>
        let (ref, s) := s.alloc []
        (.own ref, s)
      | found => (found, s)
    let node := { node with pingstate }
    (.own node, { s with list := Function.update s.list nodeid (some node) })

def updateNode (node : NodeObject δ) : State δ :=
  { s with
    list := Function.update s.list node.nodeID (some node)
    keys := if (s.list node.nodeID).isSome then s.keys else s.keys ++ [node.nodeID] }

/-- One result; `false` stands for an exception, as what is inherited has no `unshift`. -/
def updateNodePingTo (value : Bool) (nodeid : String) : State δ × Bool :=
  match read s.list nodeid with
  | .undefined => (s, true)
  | _ =>
    match read s.pingState nodeid with
    | .undefined =>
      let (ref, s) := s.alloc [value]
      ({ s with pingState := Function.update s.pingState nodeid (some ref) }, true)
    | .inherited => (s, false)
    | .own ref =>
      let results := value :: s.arrays ref
      let results := if results.length > storeMaxPing then results.take storeMaxPing else results
      ({ s with arrays := Function.update s.arrays ref results }, true)

/-- An exception ends the loop. -/
def forEach (value : Bool) (s : State δ) : List String → State δ × Bool
  | [] => (s, true)
  | nodeid :: rest =>
    match s.updateNodePingTo value nodeid with
    | (s, true) => forEach value s rest
    | (s, false) => (s, false)

/-- A list that is empty is not sent at all. -/
def updateNodePing (trueNodes falseNodes : List String) : State δ × Bool :=
  match s.forEach true trueNodes with
  | (s, true) => s.forEach false falseNodes
  | (s, false) => (s, false)

/-- Get one more node. -/
def nextNode (got : List (Property (NodeObject δ)) × State δ) (nodeid : String) :
    List (Property (NodeObject δ)) × State δ :=
  let (node, s) := got.2.getNode nodeid
  (got.1 ++ [node], s)

/-- All nodes, in the order in which they were put in; `Object.keys` lists names that are array indices before the
others. -/
def getNodes : List (Property (NodeObject δ)) × State δ := s.keys.foldl nextNode ([], s)

/-- What `getNode(nodeid).pingstate` shows, if it is an array. -/
def pingstate (nodeid : String) : Option (List Bool) :=
  match s.getNode nodeid with
  | (.own node, s) =>
    match node.pingstate with
    | .own ref => some (s.arrays ref)
    | _ => none
  | _ => none

end State

inductive Event (δ : Type) where
  | updateNode (node : NodeObject δ)
  | updateNodePing (trueNodes falseNodes : List String)
  | getNode (nodeid : String)
  | getNodes

def State.step {δ : Type} (s : State δ) : Event δ → State δ
  | .updateNode node => s.updateNode node
  | .updateNodePing trueNodes falseNodes => (s.updateNodePing trueNodes falseNodes).1
  | .getNode nodeid => (s.getNode nodeid).2
  | .getNodes => s.getNodes.2

/-- The store after these calls, of which the latest is the first. -/
def after {δ : Type} : List (Event δ) → State δ
  | [] => {}
  | event :: past => (after past).step event

end FreifunkManager.ClientStore
