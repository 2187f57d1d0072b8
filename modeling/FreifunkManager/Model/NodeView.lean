import FreifunkManager.Model.Bodies

/-! # The view of a node

One view shows whatever node is opened. It has inputs for the host name and the owner, a marker that can be dragged, and
a button that starts and stops to follow the position of the user. It is rendered at any time; the inputs and the marker
are left as they are while something is edited. What is sent is a copy of the node in the store with a change.
-/

namespace FreifunkManager.NodeView

structure LatLng where
  latitude : Binary64
  longitude : Binary64
deriving DecidableEq

/-- A node of the store. An empty location has no coordinates. -/
structure Stored where
  hostname : String := ""
  owner : String := ""
  location : Option LatLng := none
deriving DecidableEq

inductive Change where
  | text (input : Text) (value : String)
  | location (location : Option LatLng)
deriving DecidableEq

namespace Stored

variable (node : Stored)

def get : Text → String
  | .hostname => node.hostname
  | .owner => node.owner

def change : Change → Stored
  | .text .hostname value => { node with hostname := value }
  | .text .owner value => { node with owner := value }
  | .location location => { node with location := location }

end Stored

structure State where
  list : String → Option Stored := fun _ => none
  currentNodeID : String := ""
  currentNodeIsRendered : Bool := false
  editing : Bool := false
  inputs : Text → String := fun _ => ""
  marker : LatLng
  /-- Whether the position is watched. -/
  editLocationGPS : Bool := false
  gpsPosition : Option LatLng := none
  /-- The copies that were sent. -/
  sent : List (String × Stored) := []

inductive Event where
  /-- The store gets a node from the server. -/
  | updateNode (nodeID : String) (node : Stored)
  /-- The router opens a node, whose id is in lower case, and shows the view. -/
  | setView (nodeID : String)
  | render
  | focusin (input : Text)
  | input (input : Text) (value : String)
  | focusout (input : Text)
  | dragstart
  | drag (position : LatLng)
  | dragend
  /-- The button for the position. -/
  | click
  /-- The position is told, if it is watched. -/
  | position (position : LatLng)
  /-- The location is reset, which was confirmed. -/
  | resetLocation
deriving DecidableEq

namespace State

variable (s : State)

/-- `store.getNode` or `store.createNode`. -/
def node : Stored := (s.list s.currentNodeID).getD {}

def send (change : Change) : State := { s with sent := s.sent ++ [(s.currentNodeID, s.node.change change)] }

/-- The coordinates to be sent; one that is zero is taken from the last position of the user. -/
def newLocation (pos : LatLng) : Option LatLng :=
  let newLat := if truthy pos.latitude then some pos.latitude else s.gpsPosition.map LatLng.latitude
  let newlng := if truthy pos.longitude then some pos.longitude else s.gpsPosition.map LatLng.longitude
  match newLat.filter truthy, newlng.filter truthy with
  | some latitude, some longitude => some ⟨latitude, longitude⟩
  | _, _ => none

def updatePosition (pos : LatLng) : State :=
  match s.newLocation pos with
  | some location => s.send (.location (some location))
  | none => s

/-- The location of the node, where a coordinate that is zero counts as none. -/
def located : Option LatLng := s.node.location.filter fun location =>
  truthy location.latitude && truthy location.longitude

def renderInputs : State :=
  if s.editing then s
  else
    let shown := { s with inputs := s.node.get }
    match if s.editLocationGPS then none else s.located with
    | some location => { shown with marker := location, currentNodeIsRendered := true }
    | none => shown

/-- A node without a location has its marker where the map begins. -/
def render (bound : LatLng) : State :=
  let shown := s.renderInputs
  if shown.currentNodeIsRendered then shown else { shown with marker := bound, currentNodeIsRendered := true }

/-- The click that starts or stops to follow the position. -/
def onclick : State :=
  if s.editLocationGPS then { s.gpsPosition.elim s s.updatePosition with editLocationGPS := false }
  else { s with gpsPosition := none, editLocationGPS := true }

end State

/-- `bound` is where the map begins. -/
def State.step (bound : LatLng) (s : State) : Event → State
  | .updateNode nodeID node => { s with list := Function.update s.list nodeID (some node) }
  | .setView nodeID => { s with currentNodeID := nodeID, currentNodeIsRendered := false }.render bound
  | .render => s.render bound
  | .focusin _ => { s with editing := true }
  | .input input value => { s with inputs := Function.update s.inputs input value }
  | .focusout input => { s with editing := false }.send (.text input (s.inputs input))
  | .dragstart => { s with editing := true }
  | .drag position => { s with marker := position }
  | .dragend => { s with editing := false }.updatePosition s.marker
  | .click => s.onclick
  | .position position => if s.editLocationGPS then { s with gpsPosition := some position, marker := position } else s
  | .resetLocation => { s with currentNodeIsRendered := false }.send (.location none)

def State.run (bound : LatLng) (s : State) (events : List Event) : State := events.foldl (State.step bound) s

end FreifunkManager.NodeView
