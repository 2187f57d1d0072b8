import FreifunkManager.Model.Operations

/-! # What the views send

The server sends a node as an object, in which the numbers that are zero are left out, and the client keeps the
object as it is. An edit assigns to one property of the object, or of a copy of it, and sends all of it back. What
the standard library and other packages write for their own types is in `Forms`.
-/

namespace FreifunkManager

/-! ## Properties of objects -/

namespace Json

/-- Assign to a property. -/
def setField (name : String) (value : Json) : List (String × Json) → List (String × Json)
  | [] => [(name, value)]
  | (other, old) :: rest =>
    if other = name then (name, value) :: rest else (other, old) :: setField name value rest

def set (json : Json) (name : String) (value : Json) : Json :=
  match json with
  | .object fields => .object (setField name value fields)
  | _ => json

/-- Assign to a property of a property. -/
def setIn (json : Json) (name inner : String) (value : Json) : Json :=
  match json with
  | .object fields =>
    match fields.lookup name with
    | some part => .object (setField name (part.set inner value) fields)
    | none => json
  | _ => json

def uint32 (n : UInt32) : Json := .number (.ofNat n.toNat (n.toNat_lt.trans (by norm_num)))

end Json

/-! ## The settings by their names -/

inductive Text where
  | hostname | owner
deriving DecidableEq

inductive RadioSetting where
  | txPower24 | channel24 | txPower5 | channel5
deriving DecidableEq

inductive Coordinate where
  | longitude | latitude | altitude
deriving DecidableEq

namespace Text

def name : Text → String
  | .hostname => "hostname"
  | .owner => "owner"

def get (settings : Settings) : Text → String
  | .hostname => settings.hostname
  | .owner => settings.owner

end Text

namespace RadioSetting

def all : List RadioSetting := [.txPower24, .channel24, .txPower5, .channel5]

def name : RadioSetting → String
  | .txPower24 => "txpower24"
  | .channel24 => "channel24"
  | .txPower5 => "txpower5"
  | .channel5 => "channel5"

def get (wireless : WirelessSettings) : RadioSetting → UInt32
  | .txPower24 => wireless.txPower24
  | .channel24 => wireless.channel24
  | .txPower5 => wireless.txPower5
  | .channel5 => wireless.channel5

end RadioSetting

namespace Coordinate

def all : List Coordinate := [.longitude, .latitude, .altitude]

def name : Coordinate → String
  | .longitude => "longitude"
  | .latitude => "latitude"
  | .altitude => "altitude"

def get (location : Location) : Coordinate → Binary64
  | .longitude => location.longitude
  | .latitude => location.latitude
  | .altitude => location.altitude

end Coordinate

/-! ## The object of a node -/

def WirelessSettings.json (wireless : WirelessSettings) : Json :=
  .object (RadioSetting.all.filterMap fun radio =>
    if radio.get wireless = 0 then none else some (radio.name, .uint32 (radio.get wireless)))

/-- How values of other packages are written. -/
structure Forms where
  time : Option Time → Json
  /-- No location is written for a coordinate that is not a number. -/
  location : Location → Option Json
  statistics : StatisticsRespondd → Json

def Node.json (forms : Forms) (node : Node) : Option Json := do
  let location ← forms.location node.location
  let locationRespondd ← forms.location node.locationRespondd
  return .object [
    ("lastseen", forms.time node.lastseen),
    ("node_id", .string node.nodeID),
    ("ip", .string node.address),
    ("hostname", .string node.hostname),
    ("hostname_respondd", .string node.hostnameRespondd),
    ("owner", .string node.owner),
    ("owner_respondd", .string node.ownerRespondd),
    ("location", location),
    ("location_respondd", locationRespondd),
    ("wireless", node.wireless.json),
    ("wireless_respondd", node.wirelessRespondd.json),
    ("statistics_respondd", forms.statistics node.statisticsRespondd)]

/-- The object as the store gives it out, with the latest pings. -/
def getNode (pingstate : List Bool) (object : Json) : Json := object.set "pingstate" (.array (pingstate.map .bool))

/-! ## Edits -/

/-- A number that is neither zero nor `NaN`. -/
def truthy (x : Binary64) : Bool := !x.isNaN && !x.eq .zero

/-- The node is sent unless a coordinate is missing; one that is zero is taken from the position of the device. -/
def updatePosition (object : Json) (lat lng : Binary64) (gpsPosition : Option (Binary64 × Binary64)) : Option Json :=
  let newLat := if truthy lat then some lat else gpsPosition.map Prod.fst
  let newlng := if truthy lng then some lng else gpsPosition.map Prod.snd
  match newLat.filter truthy, newlng.filter truthy with
  | some newLat, some newlng =>
    some (object.set "location" (.object [("latitude", .number newLat), ("longitude", .number newlng)]))
  | _, _ => none

/-- The edits of one node, each with the value it sets. -/
inductive ViewEdit where
  | listHostname (value : String)
  /-- A channel or a transmit power in the list; `parseInt` may give no number. -/
  | listRadio (radio : RadioSetting) (value : Option Binary64)
  | nodeHostname (value : String)
  | nodeOwner (value : String)
  | nodePosition (lat lng : Binary64) (gpsPosition : Option (Binary64 × Binary64))
  | mapPosition (lat lng : Binary64)

namespace ViewEdit

/-- What is sent, if anything. -/
def body (object : Json) : ViewEdit → Option Json
  | .listHostname value => some (object.set "hostname" (.string value))
  | .listRadio radio value => some (object.setIn "wireless" radio.name (value.elim .null .number))
  | .nodeHostname value => some (object.set "hostname" (.string value))
  | .nodeOwner value => some (object.set "owner" (.string value))
  | .nodePosition lat lng gpsPosition => updatePosition object lat lng gpsPosition
  | .mapPosition lat lng =>
    some (object.set "location" (.object [("latitude", .number lat), ("longitude", .number lng)]))

/-- The text, the radio setting and the coordinates that an edit is about. -/
def text : ViewEdit → Option Text
  | .listHostname _ | .nodeHostname _ => some .hostname
  | .nodeOwner _ => some .owner
  | _ => none

def radio : ViewEdit → Option RadioSetting
  | .listRadio radio _ => some radio
  | _ => none

def moves : ViewEdit → Bool
  | .nodePosition .. | .mapPosition .. => true
  | _ => false

end ViewEdit

end FreifunkManager
