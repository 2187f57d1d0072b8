import FreifunkManager.Model.Node
import Mathlib.Logic.Function.Basic

/-! # Edits in the list and on the map

These views change the object of the node at once, send it, and put the old value back when the edit is refused. A
broadcast puts a new object in the store; a row or a marker keeps the object that it was rendered with. All edits
here are of one field of one node, and a request is sent when its edit is made.
-/

namespace FreifunkManager

/-- A part of an object that is read and written as a whole. -/
structure Field (δ α : Type) where
  get : δ → α
  set : α → δ → δ
  get_set (value : α) (object : δ) : get (set value object) = value

namespace Field

def hostname : Field Node String where
  get node := node.hostname
  set value node := { node with hostname := value }
  get_set _ _ := rfl

def location : Field Node Location where
  get node := node.location
  set value node := { node with location := value }
  get_set _ _ := rfl

def channel24 : Field Node UInt32 where
  get node := node.wireless.channel24
  set value node := { node with wireless := { node.wireless with channel24 := value } }
  get_set _ _ := rfl

def channel5 : Field Node UInt32 where
  get node := node.wireless.channel5
  set value node := { node with wireless := { node.wireless with channel5 := value } }
  get_set _ _ := rfl

def txPower24 : Field Node UInt32 where
  get node := node.wireless.txPower24
  set value node := { node with wireless := { node.wireless with txPower24 := value } }
  get_set _ _ := rfl

def txPower5 : Field Node UInt32 where
  get node := node.wireless.txPower5
  set value node := { node with wireless := { node.wireless with txPower5 := value } }
  get_set _ _ := rfl

end Field

namespace InPlace

/-- An edit that was not answered, with what its callback knows. -/
structure Request (α : Type) where
  node : ℕ
  old : α
  value : α

structure State (δ α : Type) where
  /-- The objects that the store has held for the node. -/
  objects : ℕ → δ
  /-- These objects as they came into the store. -/
  came : ℕ → δ
  /-- The one that it holds now. -/
  current : ℕ := 0
  requests : List (Request α) := []
  /-- The values of the edits that were accepted, in the order of the replies. -/
  accepted : List α := []
  /-- The numbers of the accepted edits whose broadcast is on its way. -/
  broadcasts : List ℕ := []

inductive Event (δ α : Type) where
  /-- The user leaves an input or drops a marker that shows this object. -/
  | edit (node : ℕ) (value : α)
  /-- The answer to the oldest request. -/
  | reply (body : Bool)
  /-- The node as the server sends it after an accepted edit. -/
  | broadcast (number : ℕ) (node : δ)

def initial {δ α : Type} (node : δ) : State δ α := { objects := fun _ => node, came := fun _ => node }

namespace State

variable {δ α : Type} (field : Field δ α) (s : State δ α)

/-- The value in the store. -/
def value : α := field.get (s.objects s.current)

def edit (node : ℕ) (value : α) : State δ α :=
  let object := s.objects node
  { s with
    objects := Function.update s.objects node (field.set value object)
    requests := s.requests ++ [{ node, old := field.get object, value }] }

/-- The callback that an edit passes to `sendnode`. -/
def callback (request : Request α) (body : Bool) : State δ α :=
  if !body then
    { s with objects := Function.update s.objects request.node (field.set request.old (s.objects request.node)) }
  else s

def updateNode (node : δ) : State δ α :=
  { s with
    objects := Function.update s.objects (s.current + 1) node
    came := Function.update s.came (s.current + 1) node
    current := s.current + 1 }

def reply (request : Request α) (rest : List (Request α)) (body : Bool) : State δ α :=
  let s := { s with requests := rest }.callback field request body
  if body then
    { s with accepted := s.accepted ++ [request.value], broadcasts := s.broadcasts ++ [s.accepted.length] }
  else s

/-- Replies come in the order of the requests; the broadcast of an edit comes after its reply. -/
def step [DecidableEq α] : Event δ α → Option (State δ α)
  | .edit node value => if node ≤ s.current then some (s.edit field node value) else none
  | .reply body =>
    match s.requests with
    | [] => none
    | request :: rest => some (s.reply field request rest body)
  | .broadcast number node =>
    if number ∈ s.broadcasts ∧ s.accepted[number]? = some (field.get node) then
      some ({ s with broadcasts := s.broadcasts.erase number }.updateNode node)
    else none

def run [DecidableEq α] (s : State δ α) : List (Event δ α) → Option (State δ α)
  | [] => some s
  | event :: rest => (s.step field event).bind fun next => next.run rest

end State

end InPlace

end FreifunkManager
