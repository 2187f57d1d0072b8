import FreifunkManager.Model.MapOrder
import FreifunkManager.Model.System

/-! # A node that was just learnt is in sync

What a new node should be is what its first report says, so this report never makes a difference: neither right
away, nor when it is taken over again, nor after the node was stored and loaded.
-/

namespace FreifunkManager

/-- What the report says about a setting, or else the value that is given. -/
structure ReportedSettings where
  hostname : String
  owner : String → String
  location : Location → Location
  wireless : WirelessSettings → WirelessSettings

def Yanic.Node.reported (report : Yanic.Node) (nodeinfo : Yanic.Nodeinfo) : ReportedSettings where
  hostname := nodeinfo.hostname
  owner := (nodeinfo.owner.map (·.contact)).getD
  location := nodeinfo.location.getD
  wireless := (getWirelessSettings report).getD

/-- The settings are those of the report, and what it leaves out was never reported. -/
structure Learnt (r : ReportedSettings) (n : Node) : Prop where
  settings : n.settings = ⟨r.hostname, r.owner "", r.location {}, r.wireless {}⟩
  owner : r.owner n.ownerRespondd = r.owner ""
  location : r.location n.locationRespondd = r.location {}
  wireless : r.wireless n.wirelessRespondd = r.wireless {}

/-- No number in it is a NaN. -/
def Location.Numbers (location : Location) : Prop :=
  location.longitude.isNaN = false ∧ location.latitude.isNaN = false ∧ location.altitude.isNaN = false

theorem locationEqual_self {location : Location} (numbers : location.Numbers) :
    locationEqual location location = true := by
  simp [locationEqual, Binary64.eq_self numbers.2.2]

theorem getD_getD {α : Type} (o : Option α) (a : α) : o.getD (o.getD a) = o.getD a := by cases o <;> rfl

section Learnt

variable {report : Yanic.Node} {nodeinfo : Yanic.Nodeinfo} {n : Node}

theorem update_respondd (known : report.nodeinfo = some nodeinfo) (ipPrefix : String) (now : Time) :
    let after := n.update (some report) ipPrefix now
    after.hostnameRespondd = (report.reported nodeinfo).hostname ∧
      after.ownerRespondd = (report.reported nodeinfo).owner n.ownerRespondd ∧
      after.locationRespondd = (report.reported nodeinfo).location n.locationRespondd ∧
      after.wirelessRespondd = (report.reported nodeinfo).wireless n.wirelessRespondd := by
  rcases report with ⟨_ | _, _ | stats⟩ <;> cases known <;> exact ⟨rfl, rfl, rfl, rfl⟩

/-- The report is taken over, and the node is in sync with it. -/
theorem Learnt.update (learnt : Learnt (report.reported nodeinfo) n) (known : report.nodeinfo = some nodeinfo)
    (numbers : ((report.reported nodeinfo).location {}).Numbers) (ipPrefix : String) (now : Time) :
    Learnt (report.reported nodeinfo) (n.update (some report) ipPrefix now) ∧
      (n.update (some report) ipPrefix now).checkRespondd = true := by
  obtain ⟨hostname, owner, location, wireless⟩ := update_respondd (n := n) known ipPrefix now
  have settings := (Node.update_settings n (some report) ipPrefix now).trans learnt.settings
  rw [learnt.owner] at owner
  rw [learnt.location] at location
  rw [learnt.wireless] at wireless
  constructor
  · refine ⟨settings, ?_, ?_, ?_⟩
    · rw [owner]
      exact getD_getD ..
    · rw [location]
      exact getD_getD ..
    · rw [wireless]
      exact getD_getD ..
  · obtain ⟨hostname', owner', location', wireless'⟩ := Settings.mk.injEq .. ▸ settings
    simp only [Node.checkRespondd, Bool.and_eq_true, beq_iff_eq, wirelessEqual_iff]
    rw [hostname', owner', location', wireless', hostname, owner, location, wireless]
    exact ⟨⟨⟨rfl, rfl⟩, locationEqual_self numbers⟩, rfl⟩

/-- Any number of times, each with its own orders of the channel map and its own time. -/
def Node.updates (n : Node) (report : Yanic.Node) (ipPrefix : String) (runs : List (MapOrders × Time)) : Node :=
  runs.foldl (fun n (orders, now) => n.updateBy orders (some report) ipPrefix now) n

theorem Learnt.updates (learnt : Learnt (report.reported nodeinfo) n) (known : report.nodeinfo = some nodeinfo)
    (numbers : ((report.reported nodeinfo).location {}).Numbers) (ipPrefix : String) (runs : List (MapOrders × Time)) :
    Learnt (report.reported nodeinfo) (n.updates report ipPrefix runs) ∧
      (n.checkRespondd = true ∨ runs ≠ [] → (n.updates report ipPrefix runs).checkRespondd = true) := by
  induction runs generalizing n with
  | nil => exact ⟨learnt, fun inSync => inSync.resolve_right (· rfl)⟩
  | cons run rest ih =>
    obtain ⟨orders, now⟩ := run
    have first := learnt.update known numbers ipPrefix now
    have rest := ih first.1
    rw [← Node.updateBy_eq n orders] at rest first
    exact ⟨rest.1, fun _ => rest.2 (.inl first.2)⟩

/-- What was not a column is lost when a node is stored. -/
theorem Learnt.reload (learnt : Learnt (report.reported nodeinfo) n) :
    Learnt (report.reported nodeinfo) n.row.node where
  settings := learnt.settings
  owner := rfl
  location := rfl
  wireless := rfl

end Learnt

/-- A node that is learnt from a report is in sync with it, stays so however often the report comes in, and is so
again after it was stored and loaded, in whatever orders the channels are looked up. -/
theorem newNode_inSync {report : Yanic.Node} {nodeinfo : Yanic.Nodeinfo} (known : report.nodeinfo = some nodeinfo)
    (numbers : ∀ location, nodeinfo.location = some location → location.Numbers) (ipPrefix : String)
    (desired reported : MapOrders) (now : Time) :
    ∃ n, newNodeBy desired reported report ipPrefix now = some n ∧ ∀ runs,
      (n.updates report ipPrefix runs).checkRespondd = true ∧
      ∀ again, again ≠ [] → ((n.updates report ipPrefix runs).row.node.updates report ipPrefix again).checkRespondd =
      true := by
  have numbers : ((report.reported nodeinfo).location {}).Numbers := by
    change (nodeinfo.location.getD {}).Numbers
    cases located : nodeinfo.location with
    | none => exact ⟨rfl, rfl, rfl⟩
    | some location => exact numbers location located
  let base : Node :=
    { hostname := nodeinfo.hostname
      nodeID := nodeinfo.nodeID
      owner := (nodeinfo.owner.map (·.contact)).getD ""
      location := nodeinfo.location.getD {}
      wireless := (getWirelessSettings report).getD {} }
  have learnt : Learnt (report.reported nodeinfo) base := ⟨rfl, rfl, rfl, rfl⟩
  have first := learnt.update known numbers ipPrefix now
  refine ⟨base.update (some report) ipPrefix now, ?_, fun runs => ?_⟩
  · rw [newNodeBy_eq, newNode, known]
    rfl
  · obtain ⟨stays, inSync⟩ := first.1.updates known numbers ipPrefix runs
    exact ⟨inSync (.inl first.2), fun again some => (stays.reload.updates known numbers ipPrefix again).2 (.inr some)⟩

/-- The channel map in the order of the table. -/
def MapOrder.table : MapOrder := ⟨channelList, .refl _⟩

/-- Where a device may stand. -/
def Sample.garden : Location where
  latitude := .ofNat 52 (by norm_num)
  longitude := .ofNat 7 (by norm_num)
  altitude := .ofNat 40 (by norm_num)

/-- A report with all sections: a location, the powers of the radios, and their channels on the air. -/
def Sample.fullReport : Yanic.Node where
  nodeinfo := some {
    nodeID := "f81a67a5e9c1"
    hostname := "attic"
    addresses := ["fe80::1", "2001:db8::2"]
    owner := some { contact := "roof" }
    location := some garden
    wireless := some { txPower24 := 17, txPower5 := 20 } }
  statistics := some { wireless := [⟨2462⟩, ⟨5220⟩], clients := { wifi := 3, wifi24 := 2, wifi5 := 1, total := 4 } }

theorem newNode_inSync_report :
    ∃ n, newNodeBy (fun _ => .table) (fun _ => .table) Sample.fullReport "2001:db8:" 0 = some n ∧
      n.wireless = { channel24 := 11, channel5 := 44, txPower24 := 17, txPower5 := 20 } ∧ ∀ runs,
      (n.updates Sample.fullReport "2001:db8:" runs).checkRespondd = true ∧
      ∀ again, again ≠ [] → ((n.updates Sample.fullReport "2001:db8:" runs).row.node.updates Sample.fullReport
        "2001:db8:" again).checkRespondd = true := by
  have known : Sample.fullReport.nodeinfo = some _ := rfl
  have numbers : ∀ location, some Sample.garden = some location → location.Numbers := by
    rintro _ ⟨⟩
    exact ⟨rfl, rfl, rfl⟩
  obtain ⟨n, learnt, inSync⟩ := newNode_inSync known numbers "2001:db8:" (fun _ => .table) (fun _ => .table) 0
  refine ⟨n, learnt, ?_, inSync⟩
  cases learnt
  rfl

end FreifunkManager
