import FreifunkManager.Math.Binary64
import FreifunkManager.Model.Address
import FreifunkManager.Model.Channel

/-! # Nodes

What a node reports about itself, what the manager keeps about it, and how the two are compared.
A stored node has the settings a user wants and, next to each, the value the node last reported;
only the former are columns of the database. Points in time are passed in where the source reads
the clock.
-/

namespace FreifunkManager

/-- Nanoseconds. -/
abbrev Time := ℤ

abbrev Duration := ℤ

structure Location where
  longitude : Binary64 := .zero
  latitude : Binary64 := .zero
  altitude : Binary64 := .zero
deriving DecidableEq, Inhabited

structure WirelessSettings where
  txPower24 : UInt32 := 0
  channel24 : UInt32 := 0
  txPower5 : UInt32 := 0
  channel5 : UInt32 := 0
deriving DecidableEq, Inhabited

/-- A radio on the air. -/
structure WirelessAirtime where
  frequency : UInt32
deriving DecidableEq

structure Clients where
  wifi : UInt32 := 0
  wifi24 : UInt32 := 0
  wifi5 : UInt32 := 0
  total : UInt32 := 0
deriving DecidableEq, Inhabited

/-! ## Reports -/

namespace Yanic

structure Owner where
  contact : String
deriving DecidableEq

structure Wireless where
  txPower24 : UInt32 := 0
  txPower5 : UInt32 := 0
deriving DecidableEq

structure Nodeinfo where
  nodeID : String
  hostname : String := ""
  /-- The addresses of the `Network` section. -/
  addresses : List String := []
  owner : Option Owner := none
  location : Option Location := none
  wireless : Option Wireless := none
deriving DecidableEq

structure Statistics where
  wireless : List WirelessAirtime := []
  clients : Clients := {}
deriving DecidableEq

/-- One report of a node, as far as its sections came in. -/
structure Node where
  nodeinfo : Option Nodeinfo
  statistics : Option Statistics := none
deriving DecidableEq

end Yanic

/-- One radio of the statistics; unknown and forbidden frequencies are skipped. -/
def airtimeChannel (settings : WirelessSettings) (wifi : WirelessAirtime) : WirelessSettings :=
  match getChannelByFrequency wifi.frequency with
  | none => settings
  | some (ch, channel) =>
    if channelEU && !channel.allowedInEU then settings
    else if channel.frequency > freqThreashold then { settings with channel5 := ch }
    else { settings with channel24 := ch }

/-- The wireless settings that a report shows: the channels really on the air, and the configured
power. -/
def getWirelessSettings (node : Yanic.Node) : Option WirelessSettings :=
  node.statistics.map fun stats =>
    let settings := stats.wireless.foldl airtimeChannel {}
    match node.nodeinfo.bind (·.wireless) with
    | none => settings
    | some wifi =>
      let settings := if settings.txPower24 = 0 then { settings with txPower24 := wifi.txPower24 } else settings
      if settings.txPower5 = 0 then { settings with txPower5 := wifi.txPower5 } else settings

/-! ## Stored nodes -/

/-- What a user may set. -/
structure Settings where
  hostname : String
  owner : String
  location : Location
  wireless : WirelessSettings
deriving DecidableEq, Inhabited

structure StatisticsRespondd where
  wireless : List WirelessAirtime := []
  clients : Clients := {}
deriving DecidableEq, Inhabited

structure Node where
  lastseen : Option Time := none
  nodeID : String := ""
  blacklist : Option Time := none
  address : String := ""
  hostname : String := ""
  hostnameRespondd : String := ""
  owner : String := ""
  ownerRespondd : String := ""
  location : Location := {}
  locationRespondd : Location := {}
  wireless : WirelessSettings := {}
  wirelessRespondd : WirelessSettings := {}
  statisticsRespondd : StatisticsRespondd := {}
deriving DecidableEq, Inhabited

/-- The columns of the nodes table. -/
structure Row where
  lastseen : Option Time := none
  nodeID : String := ""
  blacklist : Option Time := none
  address : String := ""
  hostname : String := ""
  owner : String := ""
  location : Location := {}
  wireless : WirelessSettings := {}
deriving DecidableEq, Inhabited

def Node.row (n : Node) : Row :=
  { lastseen := n.lastseen, nodeID := n.nodeID, blacklist := n.blacklist, address := n.address,
    hostname := n.hostname, owner := n.owner, location := n.location, wireless := n.wireless }

/-- A node as it is loaded: everything that is not a column has its zero value. -/
def Row.node (row : Row) : Node :=
  { lastseen := row.lastseen, nodeID := row.nodeID, blacklist := row.blacklist, address := row.address,
    hostname := row.hostname, owner := row.owner, location := row.location, wireless := row.wireless }

@[simp] theorem Row.node_row (row : Row) : row.node.row = row := rfl

def Node.settings (n : Node) : Settings := ⟨n.hostname, n.owner, n.location, n.wireless⟩

def Row.settings (row : Row) : Settings := ⟨row.hostname, row.owner, row.location, row.wireless⟩

@[simp] theorem Node.row_settings (n : Node) : n.row.settings = n.settings := rfl

@[simp] theorem Row.node_settings (row : Row) : row.node.settings = row.settings := rfl

namespace Node

variable (n : Node)

def getAddress : TCPAddr := { ip := IP.parse n.address, port := 22 }

/-- The node was not seen for `d`, or it is still on the blacklist. -/
def timeFilter (d : Duration) (now : Time) : Bool :=
  let before := now - d
  n.lastseen.all (· < before) || n.blacklist.any (before < ·)

/-- One address of a report: the last one with the prefix that is not link-local, else the first. -/
def considerAddress (ipPrefix : String) (address ip : String) : String :=
  if !ipPrefix.toList.isPrefixOf ip.toList then address
  else
    let ipAddr := IP.parse ip
    if address = "" || ipAddr.any IP.isGlobalUnicast || !ipAddr.any IP.isLinkLocalUnicast then ip else address

def updateNodeinfo (node : Yanic.Node) (ipPrefix : String) (nodeinfo : Yanic.Nodeinfo) : Node :=
  { n with
    hostnameRespondd := nodeinfo.hostname
    address := nodeinfo.addresses.foldl (considerAddress ipPrefix) n.address
    ownerRespondd := (nodeinfo.owner.map (·.contact)).getD n.ownerRespondd
    locationRespondd := nodeinfo.location.getD n.locationRespondd
    wirelessRespondd := (getWirelessSettings node).getD n.wirelessRespondd }

def updateStatistics (stats : Yanic.Statistics) : Node :=
  { n with statisticsRespondd := { wireless := stats.wireless, clients := stats.clients } }

/-- Take over a report that was read at `now`, if there is one. -/
def update (node : Option Yanic.Node) (ipPrefix : String) (now : Time) : Node :=
  match node with
  | none => n
  | some node =>
    let n := { n with lastseen := some now }
    let n := node.nodeinfo.elim n (n.updateNodeinfo node ipPrefix)
    node.statistics.elim n n.updateStatistics

@[simp] theorem update_settings (node : Option Yanic.Node) (ipPrefix : String) (now : Time) :
    (n.update node ipPrefix now).settings = n.settings := by
  rcases node with _ | ⟨_ | nodeinfo, _ | stats⟩ <;> rfl

@[simp] theorem update_nodeID (node : Option Yanic.Node) (ipPrefix : String) (now : Time) :
    (n.update node ipPrefix now).nodeID = n.nodeID := by
  rcases node with _ | ⟨_ | nodeinfo, _ | stats⟩ <;> rfl

@[simp] theorem update_blacklist (node : Option Yanic.Node) (ipPrefix : String) (now : Time) :
    (n.update node ipPrefix now).blacklist = n.blacklist := by
  rcases node with _ | ⟨_ | nodeinfo, _ | stats⟩ <;> rfl

theorem update_address {node : Yanic.Node} {nodeinfo : Yanic.Nodeinfo} (known : node.nodeinfo = some nodeinfo)
    (ipPrefix : String) (now : Time) : (n.update (some node) ipPrefix now).address =
      nodeinfo.addresses.foldl (considerAddress ipPrefix) n.address := by
  rcases node with ⟨_ | _, _ | stats⟩ <;> cases known <;> rfl

/-- `fmt.Sprintf(LOCATION_EQUAL_FORMAT_STRING, x)`. -/
def locationEqualFormat (x : Binary64) : String := x.decimal

end Node

def locationEqual (a b : Location) : Bool :=
  Node.locationEqualFormat a.latitude == Node.locationEqualFormat b.latitude &&
  Node.locationEqualFormat a.longitude == Node.locationEqualFormat b.longitude &&
  a.altitude.eq b.altitude

def wirelessEqual (a b : WirelessSettings) : Bool :=
  a.channel24 == b.channel24 && a.channel5 == b.channel5 && a.txPower24 == b.txPower24 &&
    a.txPower5 == b.txPower5

theorem wirelessEqual_iff {a b : WirelessSettings} : wirelessEqual a b = true ↔ a = b := by
  rcases a with ⟨tx24, ch24, tx5, ch5⟩
  rcases b with ⟨tx24', ch24', tx5', ch5'⟩
  simp only [wirelessEqual, Bool.and_eq_true, beq_iff_eq, WirelessSettings.mk.injEq]
  tauto

namespace Node

/-- The node reports the settings it should have. -/
def checkRespondd (n : Node) : Bool :=
  n.hostname == n.hostnameRespondd && n.owner == n.ownerRespondd &&
    locationEqual n.location n.locationRespondd && wirelessEqual n.wireless n.wirelessRespondd

end Node

/-- A node that is met for the first time gets the settings it reports. -/
def newNode (nodeOrigin : Yanic.Node) (ipPrefix : String) (now : Time) : Option Node :=
  nodeOrigin.nodeinfo.map fun nodeinfo =>
    let node : Node :=
      { hostname := nodeinfo.hostname
        nodeID := nodeinfo.nodeID
        owner := (nodeinfo.owner.map (·.contact)).getD ""
        location := nodeinfo.location.getD {}
        wireless := (getWirelessSettings nodeOrigin).getD {} }
    node.update (some nodeOrigin) ipPrefix now

end FreifunkManager
