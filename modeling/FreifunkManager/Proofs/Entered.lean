import FreifunkManager.Proofs.Fleet
import FreifunkManager.Proofs.Untouched

/-! # What is entered in a view reaches the device

A view sends its copy of the node with the edited property. The server decodes it and writes the row, and the next
report of the device brings the row onto the device. Each part has its own results; here they are put together.
-/

namespace FreifunkManager

open Mapstructure

/-! ## From the view to the server -/

/-- A coordinate that the node view sends: one that is zero is taken from the position of the device. -/
def truthyOr (x : Binary64) (gps : Option Binary64) : Binary64 := if truthy x then x else gps.getD .zero

/-- The settings that are meant by an edit. A radio setting is a number, or nothing for zero, and a node that is moved
is on the ground. -/
def ViewEdit.Enters (settings : Settings) : ViewEdit → Settings → Prop
  | .listHostname text, entered | .nodeHostname text, entered => entered = { settings with hostname := text }
  | .nodeOwner text, entered => entered = { settings with owner := text }
  | .listRadio r value, entered => ∃ n : UInt32, (value.elim .null .number = Json.uint32 n ∨ value = none ∧ n = 0) ∧
      entered = { settings with wireless := r.put settings.wireless n }
  | .nodePosition lat lng gps, entered => entered = { settings with location := {
      latitude := truthyOr lat (gps.map Prod.fst), longitude := truthyOr lng (gps.map Prod.snd) } }
  | .mapPosition lat lng, entered => lat.isNaN = false ∧ lng.isNaN = false ∧
      entered = { settings with location := { latitude := lat, longitude := lng } }

/-- A text that is read as a number is entered as this number. -/
theorem Control.enters {text : String} {n : UInt32} (r : RadioSetting) (reads : ReadAs (ListView.parseInt text) n)
    (settings : Settings) : ((Control.radio r).onfocusout text).Enters settings
      { settings with wireless := r.put settings.wireless n } := by
  refine ⟨n, ?_, rfl⟩
  obtain ⟨none, zero⟩ | number := reads
  · rw [none]
    exact .inr ⟨rfl, zero⟩
  · have small : n.toNat < 2 ^ 53 := n.toNat_lt.trans (by norm_num)
    have positive : decide ((n.toNat : ℤ) < 0) = false := decide_eq_false (by omega)
    rw [number, sentNumber, Option.bind_some, positive, Int.natAbs_natCast, Binary64.ofRatio?_ofNat small]
    exact .inl rfl

theorem truthyOr_number {x number : Binary64} {gps : Option Binary64}
    (picked : (if truthy x then some x else gps).filter truthy = some number) :
    truthyOr x gps = number ∧ number.isNaN = false := by
  obtain ⟨picked, sure⟩ := Option.filter_eq_some_iff.mp picked
  have number : number.isNaN = false := by
    rw [truthy, Bool.and_eq_true, Bool.not_eq_true'] at sure
    exact sure.1
  refine ⟨?_, number⟩
  rw [truthyOr]
  split at picked
  · next yes =>
    rw [if_pos yes]
    exact Option.some.inj picked
  · next no => rw [if_neg no, picked, Option.getD_some]

section Client

variable {m : Mapstructure} {node : Node} {located : Json} {fields : List (String × Json)} {value : String → Json}
variable (documented : m.Documented)

include documented

theorem position_decoded (lat lng : Binary64) :
    m.location (.object [("latitude", .number lat), ("longitude", .number lng)]) =
    some { latitude := lat, longitude := lng } := by
  apply documented.location_object
  · intro field member
    obtain rfl | member := List.mem_cons.mp member
    · exact coordinate_lower .latitude
    · exact List.mem_singleton.mp member ▸ coordinate_lower .longitude
  · rintro (_ | _ | _)
    · exact documented.float64 lng
    · exact documented.float64 lat
    · rfl

/-- The body has a new value for one of the properties that the server reads. -/
theorem Holds.changed (holds : Holds m node located fields value) {key : String} (listed : key ∈ readKeys) {new : Json}
    {hostname owner : String} {located' radios : Json} {location : Location} {wireless : WirelessSettings}
    (values : readKeys.map (Function.update value key new) =
      [.string node.nodeID, .string hostname, .string owner, located', radios])
    (location_read : m.location located' = some location) (wireless_read : m.wireless radios = some wireless) :
    m.decodeNode ((Json.object fields).set key new) =
    some { nodeID := node.nodeID, hostname, owner, location, wireless } :=
  (holds.reads.set holds.unique listed new).decodeNode documented values location_read wireless_read

theorem Holds.entered (holds : Holds m node located fields value) {location : Location}
    (coordinates : ∀ c : Coordinate, (c.get location).eq (c.get node.location))
    (read : m.location located = some location)
    {edit : ViewEdit} {entered : Settings} (enters : edit.Enters node.settings entered) {body : Json}
    (sent : edit.body (.object fields) = some body) :
    ∃ location' : Location, (∀ c : Coordinate, (c.get location').eq (c.get entered.location)) ∧
      m.decodeNode body = some {
        nodeID := node.nodeID, hostname := entered.hostname, owner := entered.owner, location := location',
        wireless := entered.wireless } := by
  have values := holds.values
  simp only [readKeys, List.map_cons, List.cons.injEq] at values
  obtain ⟨nodeID, hostname, owner, located_value, wireless, _⟩ := values
  have radios := wireless_decoded documented node.wireless
  have moved (lat lng : Binary64) (number : lat.isNaN = false ∧ lng.isNaN = false) :
      ∃ location' : Location, (∀ c : Coordinate,
        (c.get location').eq (c.get { latitude := lat, longitude := lng : Location })) ∧
        m.decodeNode ((Json.object fields).set "location"
          (.object [("latitude", .number lat), ("longitude", .number lng)])) =
          some {
            nodeID := node.nodeID, hostname := node.hostname, owner := node.owner, location := location',
            wireless := node.wireless } := by
    refine ⟨{ latitude := lat, longitude := lng }, fun c => ?_, holds.changed documented (by decide) ?_
      (position_decoded documented lat lng) radios⟩
    · cases c
      · exact Binary64.eq_self number.2
      · exact Binary64.eq_self number.1
      · rfl
    · simp [readKeys, nodeID, hostname, owner, wireless]
  cases edit with
  | listHostname text | nodeHostname text =>
    cases enters
    cases sent
    refine ⟨location, coordinates, holds.changed documented (by decide) ?_ read radios⟩
    simp [readKeys, nodeID, owner, located_value, wireless, Node.settings]
  | nodeOwner text =>
    cases enters
    cases sent
    refine ⟨location, coordinates, holds.changed documented (by decide) ?_ read radios⟩
    simp [readKeys, nodeID, hostname, located_value, wireless, Node.settings]
  | listRadio r number =>
    obtain ⟨n, numbered, rfl⟩ := enters
    have found : m.uint32 (number.elim .null .number) = some n := by
      obtain same | ⟨rfl, rfl⟩ := numbered
      · rw [same]
        exact documented.uint32 n
      · exact documented.null
    have opened : (ViewEdit.listRadio r number).body (.object fields) =
        some ((Json.object fields).set "wireless" (node.wireless.json.set r.name (number.elim .null .number))) := by
      rw [ViewEdit.body, Json.setIn, holds.found.2]
      rfl
    cases Option.some.inj (opened.symm.trans sent)
    refine ⟨location, coordinates,
      holds.changed documented (by decide) ?_ read (wireless_set documented node.wireless r found)⟩
    simp [readKeys, nodeID, hostname, owner, located_value, Node.settings]
  | nodePosition lat lng gps =>
    cases enters
    rw [ViewEdit.body, updatePosition] at sent
    split at sent
    · next newLat newlng latitude longitude =>
      obtain ⟨same, number⟩ := truthyOr_number latitude
      obtain ⟨same', number'⟩ := truthyOr_number longitude
      cases sent
      rw [same, same']
      exact moved newLat newlng ⟨number, number'⟩
    · contradiction
  | mapPosition lat lng =>
    obtain ⟨number, number', rfl⟩ := enters
    cases sent
    exact moved lat lng ⟨number, number'⟩

end Client

/-! ## From the server to the device -/

namespace Fleet

section Runs

variable {config : Config} {waiting : String → Prop} {s after : State} {nodeID : String}

/-- No message changes the settings in the row of the node. -/
def State.Unedited (config : Config) (nodeID : String) (s : State) : List Event → Prop
  | [] => True
  | event :: rest => (∀ msg choices, event = .message msg choices →
      settingsOf (serve config { call := .message msg, choices } s.world).1 nodeID = settingsOf s.world nodeID) ∧
      ∀ next, s.step config event = some next → next.Unedited config nodeID rest

theorem settingsOf_report {reporter : String} {row : Row} {device : Device} (heard : Heard s reporter row device after)
    {settings : Settings} (there : settingsOf s.world nodeID = some settings) :
    settingsOf after.world nodeID = some settings := by
  obtain ⟨before, found, rfl⟩ := Option.map_eq_some_iff.mp there
  rw [settingsOf, heard.rows]
  split
  · next own =>
    subst own
    rw [Option.map_some, heard.kept before found]
  · rw [found, Option.map_some]

/-- A row that is not edited keeps its settings. -/
theorem settingsOf_run {events : List Event} (steady : Steady waiting s) (fine : Fine config s events)
    (unedited : s.Unedited config nodeID events) {settings : Settings}
    (there : settingsOf s.world nodeID = some settings)
    (ran : s.run config events = some after) : settingsOf after.world nodeID = some settings := by
  induction events generalizing s waiting with
  | nil =>
    cases ran
    exact there
  | cons event rest ih =>
    obtain ⟨next, stepped, ran⟩ := Option.bind_eq_some_iff.mp ran
    refine ih (steady.step fine.1 stepped) (fine.2 next stepped) (unedited.2 next stepped) ?_ ran
    cases event with
    | message msg choices =>
      cases stepped
      exact (unedited.1 msg choices rfl).trans there
    | report reporter choices =>
      obtain ⟨d, device, rfl⟩ := Option.map_eq_some_iff.mp stepped
      obtain ⟨row, device', heard⟩ := steady.hears fine.1 device
      exact settingsOf_report heard there
    | change device =>
      cases stepped
      exact there

end Runs

/-- Somebody edits a node in a view, and the server accepts it. In every run from there in which nobody else edits the
node, after the next report its device is configured as the view showed it, with what was entered. -/
theorem entered_reaches_device {m : Mapstructure} (documented : m.Documented) {config : Config}
    (decodes : config.decodeNode = m.decodeNode) {forms : Forms} (writes : forms.Writes) {node : Node} {object : Json}
    (sent : node.json forms = some object) (pingstate : List Bool) {edit : ViewEdit} {entered : Settings}
    (enters : edit.Enters node.settings entered) {msg : Message}
    (body : edit.body (getNode pingstate object) = some msg.body) (subject : msg.subject = MessageType.node)
    {choices : ℕ → Choice} {s edited after : State} (stepped : s.step config (.message msg choices) = some edited)
    (accepted : (edited.world.since s.world).filterMap Event.answered = [true]) {events : List Event}
    (proper : ∀ nodeID d, s.devices nodeID = some d → Proper nodeID d)
    (unlisted : ∀ nodeID row, s.world.nodes.lookup nodeID = some row → row.blacklist = none)
    (fine : Fine config edited events) (unedited : edited.Unedited config node.nodeID events)
    (ran : edited.run config events = some after) {d : Device} (device : after.devices node.nodeID = some d)
    (calm : ¬ edited.waitsAfter config (fun _ => True) events node.nodeID) :
    ∃ row, after.world.nodes.lookup node.nodeID = some row ∧ entered.Same row.settings ∧ Matches row d := by
  obtain ⟨given, located, value, opened, form, holds⟩ := getNode_holds documented sent pingstate
  obtain ⟨location, coordinates, read⟩ := location_decoded documented writes form
  rw [opened] at body
  obtain ⟨location', same, decoded⟩ := holds.entered documented coordinates read enters body
  have start : Steady (fun _ => True) s := ⟨proper, unlisted, fun _ _ _ _ _ calm => absurd trivial calm⟩
  have moved := start.message stepped
  have steady : Steady (fun _ => True) edited :=
    ⟨moved.devices, moved.unlisted, fun _ _ _ _ _ calm => absurd trivial calm⟩
  have stored : ∃ row, edited.world.nodes.lookup node.nodeID = some row ∧ entered.Same row.settings := by
    cases stepped
    let step : Step := { call := .message msg, choices }
    cases serve_edited config (rfl : step.call = .message msg) subject s.world with
    | refused _ answers => exact absurd (accepted.symm.trans answers) (by decide)
    | saved n report listed updated found named saved =>
      rw [← decodes, found, Option.some.injEq] at decoded
      subst decoded
      refine ⟨_, (saved node.nodeID).trans (if_pos rfl), rfl, rfl, same, rfl⟩
  obtain ⟨row, there, same⟩ := stored
  have kept := settingsOf_run steady fine unedited (show settingsOf edited.world node.nodeID = some row.settings by
    rw [settingsOf, there, Option.map_some]) ran
  obtain ⟨row', found, settings⟩ := Option.map_eq_some_iff.mp kept
  exact ⟨row', found, settings ▸ same, (steady.run fine ran).inSync node.nodeID d row' device found calm⟩

/-- The device from the factory is up, and its node is to be renamed. -/
def upright : State where
  world := Sample.world [renamedRow]
  devices := Function.update (fun _ => none) renamedRow.nodeID (some .factory)

/-- The host name is entered in the list. -/
def entry : Message where
  session := 1
  subject := MessageType.node
  body := ((renamedRow.node.json Sample.forms).bind fun object =>
    (ViewEdit.listHostname "cellar").body (getNode [] object)).getD .null

theorem entered_reaches_device_renamed : ∃ edited after d row,
    upright.step Sample.decoder (.message entry fun _ => { time := 60 }) = some edited ∧
      edited.run Sample.decoder [.report renamedRow.nodeID fun _ => { time := 61 }] = some after ∧
      after.devices renamedRow.nodeID = some d ∧ after.world.nodes.lookup renamedRow.nodeID = some row ∧
      row.hostname = "cellar" ∧ Matches row d := by
  obtain ⟨object, sent⟩ : ∃ object, renamedRow.node.json Sample.forms = some object := ⟨_, rfl⟩
  have body : (ViewEdit.listHostname "cellar").body (getNode [] object) = some entry.body := by
    rw [entry, sent]
    rfl
  let edited : State := ⟨(serve Sample.decoder { call := .message entry, choices := fun _ => { time := 60 } }
      upright.world).1,
    upright.devices⟩
  have accepted : (edited.world.since upright.world).filterMap Event.answered = [true] := by decide +kernel
  have stored : edited.world.nodes.lookup renamedRow.nodeID = some { renamedRow with hostname := "cellar" } := by
    decide +kernel
  obtain ⟨after, ran, there⟩ := Option.map_eq_some_iff.mp (show
    (edited.run Sample.decoder [.report renamedRow.nodeID fun _ => { time := 61 }]).map
      (fun after => (after.devices renamedRow.nodeID).isSome) = some true by decide +kernel)
  obtain ⟨d, device⟩ := Option.isSome_iff_exists.mp there
  have reconcilable : ({ renamedRow with hostname := "cellar" }.node.update (some Device.factory.report)
      Sample.decoder.ipPrefix 61).Reconcilable :=
    ⟨⟨.inr (by decide), .inl (by decide +kernel)⟩, by decide +kernel, fun band => .inr (renamed_permits band)⟩
  have fine : Fine Sample.decoder edited [.report renamedRow.nodeID fun _ => { time := 61 }] := by
    refine ⟨⟨fun _ => rfl, by decide, fun d device => ⟨fun missing => ?_, fun row found => ?_⟩⟩, fun _ _ => trivial⟩
    · rw [stored] at missing
      contradiction
    · cases Option.some.inj (stored.symm.trans found)
      have own : d = Device.factory := Option.some.inj device.symm
      exact own ▸ reconcilable
  have enters : (ViewEdit.listHostname "cellar").Enters renamedRow.node.settings
      { renamedRow.node.settings with hostname := "cellar" } := rfl
  have stepped : upright.step Sample.decoder (.message entry fun _ => { time := 60 }) = some edited := rfl
  have unedited : edited.Unedited Sample.decoder renamedRow.nodeID
      [.report renamedRow.nodeID fun _ => { time := 61 }] :=
    ⟨fun _ _ same => Event.noConfusion same, fun _ _ => trivial⟩
  have proper : ∀ nodeID d, upright.devices nodeID = some d → Proper nodeID d := by
    intro nodeID d device
    have found : Function.update (fun _ => none) renamedRow.nodeID (some Device.factory) nodeID = some d := device
    obtain ⟨rfl, rfl⟩ | ⟨_, nothing⟩ := update_cases found
    · exact ⟨rfl, by decide, Device.factory_settled⟩
    · contradiction
  have unlisted : ∀ nodeID row, upright.world.nodes.lookup nodeID = some row → row.blacklist = none := by
    intro nodeID row found
    cases List.mem_singleton.mp (Store.Table.lookup_eq_some.mp found).1
    rfl
  obtain ⟨row, found, same, fits⟩ :=
    entered_reaches_device Sample.documented rfl Sample.writes sent [] enters body rfl stepped
    accepted proper unlisted fine unedited ran device fun waits => waits.1 rfl
  exact ⟨edited, after, d, row, stepped, ran, device, found, same.hostname, fits⟩

end Fleet

end FreifunkManager
