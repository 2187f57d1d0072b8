import FreifunkManager.Model.Bodies

/-! # What the server makes of a body

`mapstructure` decodes an object into a struct field by field. The name of a field is its tag for `mapstructure`, or
else the name in the source; the tags for the encoder are not looked at. It takes the property of this name, or else
the first whose name differs in case only. A field without a property is zero.
-/

namespace FreifunkManager

/-- What the package compares names with, and what it makes of values of other types than structs. -/
structure Mapstructure where
  equalFold : String → String → Bool
  string : Json → Option String
  uint32 : Json → Option UInt32
  float64 : Json → Option Binary64
  time : Json → Option (Option Time)
  statistics : Json → Option StatisticsRespondd

/-! ## Names of fields -/

def RadioSetting.fieldName : RadioSetting → String
  | .txPower24 => "TxPower24"
  | .channel24 => "Channel24"
  | .txPower5 => "TxPower5"
  | .channel5 => "Channel5"

def Coordinate.fieldName : Coordinate → String
  | .longitude => "Longitude"
  | .latitude => "Latitude"
  | .altitude => "Altitude"

/-- The tag "-" is a name like any other. -/
def Node.fieldNames : List String :=
  ["-", "node_id", "Blacklist", "Address", "Hostname", "HostnameRespondd", "Owner", "OwnerRespondd", "Location",
    "LocationRespondd", "Wireless", "WirelessRespondd"]

namespace Mapstructure

variable (m : Mapstructure)

/-! ## Structs -/

def find (name : String) (fields : List (String × Json)) : Option Json :=
  fields.lookup name <|> (fields.find? fun field => m.equalFold field.1 name).map Prod.snd

def field {α : Type} (fields : List (String × Json)) (name : String) (zero : α) (decode : Json → Option α) : Option α :=
  (m.find name fields).elim (some zero) decode

def struct {α : Type} (zero : α) (decode : List (String × Json) → Option α) : Json → Option α
  | .object fields => decode fields
  | .null => some zero
  | _ => none

def location : Json → Option Location :=
  struct {} fun fields => do
    let longitude ← m.field fields Coordinate.longitude.fieldName .zero m.float64
    let latitude ← m.field fields Coordinate.latitude.fieldName .zero m.float64
    let altitude ← m.field fields Coordinate.altitude.fieldName .zero m.float64
    return { longitude, latitude, altitude }

def wireless : Json → Option WirelessSettings :=
  struct {} fun fields => do
    let txPower24 ← m.field fields RadioSetting.txPower24.fieldName 0 m.uint32
    let channel24 ← m.field fields RadioSetting.channel24.fieldName 0 m.uint32
    let txPower5 ← m.field fields RadioSetting.txPower5.fieldName 0 m.uint32
    let channel5 ← m.field fields RadioSetting.channel5.fieldName 0 m.uint32
    return { txPower24, channel24, txPower5, channel5 }

def decodeNode : Json → Option Node :=
  struct {} fun fields => do
    let lastseen ← m.field fields "-" none m.time
    let nodeID ← m.field fields "node_id" "" m.string
    let blacklist ← m.field fields "Blacklist" none m.time
    let address ← m.field fields "Address" "" m.string
    let hostname ← m.field fields "Hostname" "" m.string
    let hostnameRespondd ← m.field fields "HostnameRespondd" "" m.string
    let owner ← m.field fields "Owner" "" m.string
    let ownerRespondd ← m.field fields "OwnerRespondd" "" m.string
    let location ← m.field fields "Location" {} m.location
    let locationRespondd ← m.field fields "LocationRespondd" {} m.location
    let wireless ← m.field fields "Wireless" {} m.wireless
    let wirelessRespondd ← m.field fields "WirelessRespondd" {} m.wireless
    let statisticsRespondd ← m.field fields "-" {} m.statistics
    return {
      lastseen, nodeID, blacklist, address, hostname, hostnameRespondd, owner, ownerRespondd, location,
      locationRespondd, wireless, wirelessRespondd, statisticsRespondd }

/-- The property is taken for the field of this name. -/
def Matches (key name : String) : Prop := key = name ∨ m.equalFold key name

/-- The property is not taken for any field of a node. -/
def Extra (key : String) : Prop := ∀ name ∈ Node.fieldNames, ¬ m.Matches key name

end Mapstructure

end FreifunkManager
