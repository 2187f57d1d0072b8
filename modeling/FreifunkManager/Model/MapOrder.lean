import FreifunkManager.Model.Node

/-! # The order of the channel map

A loop over the channel map visits it in an order of its own each time. Here every lookup of a
frequency is given its order; `getWirelessSettingsBy_eq` shows that the orders make no difference.
-/

namespace FreifunkManager

/-- An order of the channel map. -/
structure MapOrder where
  entries : List (UInt32 × Channel)
  permutes : entries.Perm channelList

/-- The orders of the lookups of one call. -/
abbrev MapOrders := ℕ → MapOrder

def getChannelByFrequencyBy (order : MapOrder) (freq : UInt32) : Option (UInt32 × Channel) :=
  order.entries.find? fun entry => entry.2.frequency == freq

def airtimeChannelBy (order : MapOrder) (settings : WirelessSettings) (wifi : WirelessAirtime) : WirelessSettings :=
  match getChannelByFrequencyBy order wifi.frequency with
  | none => settings
  | some (ch, channel) =>
    if channelEU && !channel.allowedInEU then settings
    else if channel.frequency > freqThreashold then { settings with channel5 := ch }
    else { settings with channel24 := ch }

def getWirelessSettingsBy (orders : MapOrders) (node : Yanic.Node) : Option WirelessSettings :=
  node.statistics.map fun stats =>
    let settings := stats.wireless.zipIdx.foldl (fun settings (wifi, i) => airtimeChannelBy (orders i) settings wifi) {}
    match node.nodeinfo.bind (·.wireless) with
    | none => settings
    | some wifi =>
      let settings := if settings.txPower24 = 0 then { settings with txPower24 := wifi.txPower24 } else settings
      if settings.txPower5 = 0 then { settings with txPower5 := wifi.txPower5 } else settings

namespace Node

variable (n : Node)

def updateNodeinfoBy (orders : MapOrders) (node : Yanic.Node) (ipPrefix : String) (nodeinfo : Yanic.Nodeinfo) : Node :=
  { n with
    hostnameRespondd := nodeinfo.hostname
    address := nodeinfo.addresses.foldl (considerAddress ipPrefix) n.address
    ownerRespondd := (nodeinfo.owner.map (·.contact)).getD n.ownerRespondd
    locationRespondd := nodeinfo.location.getD n.locationRespondd
    wirelessRespondd := (getWirelessSettingsBy orders node).getD n.wirelessRespondd }

def updateBy (orders : MapOrders) (node : Option Yanic.Node) (ipPrefix : String) (now : Time) : Node :=
  match node with
  | none => n
  | some node =>
    let n := { n with lastseen := some now }
    let n := node.nodeinfo.elim n (n.updateNodeinfoBy orders node ipPrefix)
    node.statistics.elim n n.updateStatistics

end Node

/-- The wireless settings are computed twice, as desired and as reported ones. -/
def newNodeBy (desired reported : MapOrders) (nodeOrigin : Yanic.Node) (ipPrefix : String) (now : Time) : Option Node :=
  nodeOrigin.nodeinfo.map fun nodeinfo =>
    let node : Node :=
      { hostname := nodeinfo.hostname
        nodeID := nodeinfo.nodeID
        owner := (nodeinfo.owner.map (·.contact)).getD ""
        location := nodeinfo.location.getD {}
        wireless := (getWirelessSettingsBy desired nodeOrigin).getD {} }
    node.updateBy reported (some nodeOrigin) ipPrefix now

/-! ## Orders make no difference -/

/-- No two entries have one frequency, so that any order finds the same one. -/
theorem getChannelByFrequencyBy_eq (order : MapOrder) (freq : UInt32) :
    getChannelByFrequencyBy order freq = getChannelByFrequency freq := by
  unfold getChannelByFrequencyBy getChannelByFrequency
  cases found : order.entries.find? fun entry => entry.2.frequency == freq with
  | none =>
    refine (List.find?_eq_none.mpr fun entry member => ?_).symm
    exact List.find?_eq_none.mp found entry (order.permutes.mem_iff.mpr member)
  | some entry =>
    have member := order.permutes.mem_iff.mp (List.mem_of_find?_eq_some found)
    have same : entry.2.frequency = freq := by simpa using List.find?_some found
    rw [← same]
    exact (getChannelByFrequency_of_mem entry member).symm

theorem airtimeChannelBy_eq (order : MapOrder) (settings : WirelessSettings) (wifi : WirelessAirtime) :
    airtimeChannelBy order settings wifi = airtimeChannel settings wifi := by
  unfold airtimeChannelBy airtimeChannel
  rewrite [getChannelByFrequencyBy_eq]
  cases getChannelByFrequency wifi.frequency <;> rfl

theorem getWirelessSettingsBy_eq (orders : MapOrders) (node : Yanic.Node) :
    getWirelessSettingsBy orders node = getWirelessSettings node := by
  have fold (list : List WirelessAirtime) (k : ℕ) (settings : WirelessSettings) :
      (list.zipIdx k).foldl (fun settings (wifi, i) => airtimeChannelBy (orders i) settings wifi) settings =
        list.foldl airtimeChannel settings := by
    induction list generalizing k settings with
    | nil => rfl
    | cons wifi rest ih =>
      rw [List.zipIdx_cons, List.foldl_cons, List.foldl_cons, ← airtimeChannelBy_eq (orders k)]
      exact ih (k + 1) _
  unfold getWirelessSettingsBy getWirelessSettings
  cases node.statistics with
  | none => rfl
  | some stats =>
    rewrite [Option.map_some, Option.map_some, fold]
    cases node.nodeinfo.bind (·.wireless) <;> rfl

@[simp] theorem Node.updateBy_eq (n : Node) (orders : MapOrders) (node : Option Yanic.Node) (ipPrefix : String)
    (now : Time) : n.updateBy orders node ipPrefix now = n.update node ipPrefix now := by
  have same (n : Node) (node : Yanic.Node) :
      n.updateNodeinfoBy orders node ipPrefix = n.updateNodeinfo node ipPrefix := by
    unfold updateNodeinfoBy updateNodeinfo
    rw [getWirelessSettingsBy_eq]
  cases node with
  | none => rfl
  | some node =>
    unfold updateBy update
    simp only [same]

@[simp] theorem newNodeBy_eq (desired reported : MapOrders) (nodeOrigin : Yanic.Node) (ipPrefix : String) (now : Time) :
    newNodeBy desired reported nodeOrigin ipPrefix now = newNode nodeOrigin ipPrefix now := by
  unfold newNodeBy newNode
  simp only [getWirelessSettingsBy_eq, Node.updateBy_eq]

end FreifunkManager
