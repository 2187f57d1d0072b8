import FreifunkManager.Model.Controls
import FreifunkManager.Proofs.RoundTrip
import FreifunkManager.Proofs.RowInputs

/-! # Controls that are left untouched

What a control shows of a node goes through a text and back into the body, and from there into the row. An input shows
what it was given, and nothing for what is missing, which is read back as nothing. A select has no option for what is
missing: it shows its first one, and that is stored.
-/

namespace FreifunkManager

open Mapstructure

/-! ## Numbers that are sent again -/

/-- The number is read as this setting: nothing is read as zero. -/
def ReadAs (number : Option ℤ) (setting : UInt32) : Prop :=
  number = none ∧ setting = 0 ∨ number = some (setting.toNat : ℤ)

theorem sentNumber_read {m : Mapstructure} (documented : m.Documented) {number : Option ℤ} {setting : UInt32}
    (reads : ReadAs number setting) : m.uint32 ((sentNumber number).elim .null .number) = some setting := by
  obtain ⟨rfl, rfl⟩ | rfl := reads
  · exact documented.null
  · have small : setting.toNat < 2 ^ 53 := setting.toNat_lt.trans (by norm_num)
    have positive : decide ((setting.toNat : ℤ) < 0) = false := decide_eq_false (by omega)
    rw [sentNumber, Option.bind_some, positive, Int.natAbs_natCast, Binary64.ofRatio?_ofNat small]
    exact documented.uint32 setting

/-- A setting as the client has it: one that is zero was not sent. -/
def present (setting : UInt32) : Option ℤ := if setting = 0 then none else some (setting.toNat : ℤ)

theorem readAs_present (setting : UInt32) : ReadAs (present setting) setting := by
  rw [present, ReadAs]
  split_ifs with zero
  · exact .inl ⟨rfl, zero⟩
  · exact .inr rfl

theorem present_eq_some {setting channel : UInt32} :
    some (channel.toNat : ℤ) = present setting ↔ setting ≠ 0 ∧ channel = setting := by
  rw [present]
  split_ifs with zero
  · simp [zero]
  · simp [zero, UInt32.toNat_inj]

/-! ## Selects -/

/-- The channel that a select shows: the stored one, or else the first; zero stands for nothing. -/
def shownChannel (options : List UInt32) (setting : UInt32) : UInt32 :=
  if setting ≠ 0 ∧ setting ∈ options then setting else options.head?.getD 0

theorem selectValue_shown (options : List UInt32) (setting : UInt32) :
    ∃ number, ReadAs number (shownChannel options setting) ∧ selectValue (options.map fun channel =>
      (ListView.numberText (some channel.toNat), decide (some (channel.toNat : ℤ) = present setting))) =
        ListView.numberText number := by
  let option (channel : UInt32) : String × Bool :=
    (ListView.numberText (some channel.toNat), decide (some (channel.toNat : ℤ) = present setting))
  let selected := (options.filter (Prod.snd ∘ option)).getLast?
  have value : selectValue (options.map option) =
      ListView.numberText ((selected <|> options.head?).map fun channel => (channel.toNat : ℤ)) := by
    rw [selectValue, List.filter_map, List.getLast?_map, List.head?_map]
    change (((selected.map option <|> options.head?.map option).map Prod.fst).getD "") = _
    cases selected with
    | some channel => rfl
    | none => cases options.head? <;> rfl
  refine ⟨_, ?_, value⟩
  have picks (channel : UInt32) (member : channel ∈ options.filter (Prod.snd ∘ option)) :
      channel ∈ options ∧ setting ≠ 0 ∧ channel = setting := by
    obtain ⟨offered, equal⟩ := List.mem_filter.mp member
    exact ⟨offered, present_eq_some.mp (of_decide_eq_true equal)⟩
  rw [shownChannel]
  split_ifs with there
  · have found : selected = some setting := by
      cases last : selected with
      | none =>
        have kept : setting ∈ options.filter (Prod.snd ∘ option) :=
          List.mem_filter.mpr ⟨there.2, decide_eq_true (present_eq_some.mpr ⟨there.1, rfl⟩)⟩
        rw [List.getLast?_eq_none_iff.mp last] at kept
        contradiction
      | some channel => rw [(picks channel (List.mem_of_getLast? last)).2.2]
    rw [found]
    exact .inr rfl
  · have nothing : selected = none := by
      cases last : selected with
      | none => rfl
      | some channel =>
        obtain ⟨offered, stored, rfl⟩ := picks channel (List.mem_of_getLast? last)
        exact absurd ⟨stored, offered⟩ there
    rw [nothing]
    cases options.head? with
    | none => exact .inl ⟨rfl, rfl⟩
    | some channel => exact .inr rfl

/-! ## The object of the client -/

/-- The properties of the object that are read have the settings of the node. -/
structure Holds (m : Mapstructure) (node : Node) (located : Json) (fields : List (String × Json))
    (value : String → Json) :
    Prop where
  reads : m.Reads fields value
  unique : (fields.map Prod.fst).Nodup
  values : readKeys.map value =
    [.string node.nodeID, .string node.hostname, .string node.owner, located, node.wireless.json]

section Client

variable {m : Mapstructure} {node : Node} {located : Json} {fields : List (String × Json)} {value : String → Json}

theorem Mapstructure.Reads.lookup (reads : m.Reads fields value) (unique : (fields.map Prod.fst).Nodup) {key : String}
    (listed : key ∈ readKeys) : fields.lookup key = some (value key) := lookup_of_mem unique (reads.there key listed)

theorem mem_setField {name : String} {new : Json} {field : String × Json}
    (member : field ∈ Json.setField name new fields) :
    field = (name, new) ∨ field ∈ fields ∧ ((fields.map Prod.fst).Nodup → field.1 ≠ name) := by
  induction fields with
  | nil => exact .inl (List.mem_singleton.mp member)
  | cons first rest ih =>
    obtain ⟨other, old⟩ := first
    rw [List.map_cons, List.nodup_cons]
    rw [Json.setField] at member
    split_ifs at member with here
    · obtain new | later := List.mem_cons.mp member
      · exact .inl new
      · refine .inr ⟨.tail _ later, fun unique same => unique.1 ?_⟩
        exact List.mem_map.mpr ⟨field, later, same.trans here.symm⟩
    · obtain rfl | later := List.mem_cons.mp member
      · exact .inr ⟨.head _, fun _ => here⟩
      · exact (ih later).imp_right (And.imp (.tail _) fun apart unique => apart unique.2)

theorem Mapstructure.Reads.set (reads : m.Reads fields value) (unique : (fields.map Prod.fst).Nodup) {key : String}
    (listed : key ∈ readKeys) (new : Json) :
    m.Reads (Json.setField key new fields) (Function.update value key new) where
  there other known := by
    apply mem_of_lookup
    rw [lookup_setField, reads.lookup unique known, Function.update_apply]
    split_ifs <;> rfl
  only field member := by
    obtain rfl | ⟨old, apart⟩ := mem_setField member
    · exact .inl ⟨listed, by rw [Function.update_self]⟩
    · rw [Function.update_of_ne (apart unique)]
      exact reads.only field old

/-- The object that is shown and sent. -/
theorem getNode_holds (documented : m.Documented) {forms : Forms} {object : Json} (sent : node.json forms = some object)
    (pingstate : List Bool) : ∃ given located value, getNode pingstate object = .object given ∧
      forms.location node.location = some located ∧ Holds m node located given value := by
  obtain ⟨fields, rfl⟩ : ∃ fields, object = .object fields := by
    obtain ⟨fields, same, _⟩ := node_carries sent
    exact ⟨fields, same⟩
  obtain ⟨located, value, form, reads, values⟩ := node_reads documented sent
  obtain ⟨given, opened, keys, kept, added⟩ := getNode_adds documented sent pingstate
  have unique : (given.map Prod.fst).Nodup := keys ▸ by decide +kernel
  exact ⟨given, located, value, opened, form, reads.more kept added, unique, values⟩

/-! ## What is decoded -/

def RadioSetting.put (wireless : WirelessSettings) (n : UInt32) : RadioSetting → WirelessSettings
  | .txPower24 => { wireless with txPower24 := n }
  | .channel24 => { wireless with channel24 := n }
  | .txPower5 => { wireless with txPower5 := n }
  | .channel5 => { wireless with channel5 := n }

theorem RadioSetting.get_put (r other : RadioSetting) (wireless : WirelessSettings) (n : UInt32) :
    other.get (r.put wireless n) = if other = r then n else other.get wireless := by
  cases r <;> cases other <;> rfl

theorem RadioSetting.put_eq_self (r : RadioSetting) (wireless : WirelessSettings) (n : UInt32) :
    r.put wireless n = wireless ↔ n = r.get wireless := by
  constructor
  · intro same
    rw [← same, r.get_put, if_pos rfl]
  · rintro rfl
    cases r <;> rfl

/-- The wireless settings after a control was left as it was rendered. -/
def Control.leaves (channels : Channels) (wireless : WirelessSettings) : Control → WirelessSettings
  | .hostname => wireless
  | .radio r =>
    r.put wireless ((r.options channels).elim (r.get wireless) fun options => shownChannel options (r.get wireless))

theorem wireless_set (documented : m.Documented) (wireless : WirelessSettings) (r : RadioSetting)
    {new : Json} {n : UInt32}
    (decoded : m.uint32 new = some n) : m.wireless (wireless.json.set r.name new) = some (r.put wireless n) := by
  obtain ⟨numbers, same, lower, numbered⟩ := wireless_numbers wireless
  rw [same]
  apply documented.wireless_object (lower_setField (radio_lower r) _ lower)
  intro other
  rw [lookup_setField, r.get_put, numbered]
  by_cases own : other = r
  · rw [if_pos (congrArg RadioSetting.name own), if_pos own]
    exact decoded
  · rw [if_neg fun names => own (radio_name _ _ names), if_neg own]
    split_ifs with zero
    · rw [Option.elim_none, zero]
    · exact documented.uint32 _

theorem Holds.found (holds : Holds m node located fields value) :
    fields.lookup "hostname" = some (.string node.hostname) ∧ fields.lookup "wireless" = some node.wireless.json := by
  have values := holds.values
  simp only [readKeys, List.map_cons, List.cons.injEq] at values
  obtain ⟨_, hostname, _, _, wireless, _⟩ := values
  constructor
  · rw [holds.reads.lookup holds.unique (by decide), hostname]
  · rw [holds.reads.lookup holds.unique (by decide), wireless]

theorem Holds.read (holds : Holds m node located fields value) (r : RadioSetting) :
    r.read (.object fields) = present (r.get node.wireless) := by
  obtain ⟨numbers, same, _, numbered⟩ := wireless_numbers node.wireless
  rw [RadioSetting.read, Json.get, holds.found.2, Option.bind_some, same, Json.get, numbered, present]
  split_ifs with zero
  · rfl
  · rw [Option.bind_some, Json.uint32, Json.whole, Binary64.toNat_ofNat]

/-- What an untouched control of a radio setting sends. -/
theorem Holds.sent (documented : m.Documented) (holds : Holds m node located fields value) (channels : Channels)
    (r : RadioSetting) :
    m.uint32 ((sentNumber (ListView.parseInt (Control.rendered channels (.object fields) (.radio r)))).elim
      .null .number) =
      some ((r.options channels).elim (r.get node.wireless) fun options =>
        shownChannel options (r.get node.wireless)) := by
  rw [Control.rendered, holds.read]
  cases r.options channels with
  | none =>
    rw [ListView.parseInt_numberText]
    exact sentNumber_read documented (readAs_present _)
  | some options =>
    obtain ⟨number, reads, shown⟩ := selectValue_shown options (r.get node.wireless)
    simp only [shown, ListView.parseInt_numberText]
    exact sentNumber_read documented reads

theorem Holds.decoded (documented : m.Documented) (holds : Holds m node located fields value) (channels : Channels)
    (control : Control) {location : Location} (read : m.location located = some location) :
    ((control.onfocusout (control.rendered channels (.object fields))).body (.object fields)).bind m.decodeNode = some {
      nodeID := node.nodeID, hostname := node.hostname, owner := node.owner, location,
      wireless := control.leaves channels node.wireless } := by
  have values := holds.values
  simp only [readKeys, List.map_cons, List.cons.injEq] at values
  obtain ⟨nodeID, hostname, owner, location, wireless, _⟩ := values
  cases control with
  | hostname =>
    have shown : Control.hostname.rendered channels (.object fields) = node.hostname := by
      rw [Control.rendered, Json.get, holds.found.1]
      rfl
    rw [shown]
    have listed : "hostname" ∈ readKeys := by decide
    have reads := holds.reads.set holds.unique listed (.string node.hostname)
    have values : readKeys.map (Function.update value "hostname" (.string node.hostname)) =
        [.string node.nodeID, .string node.hostname, .string node.owner, located, node.wireless.json] := by
      simp [readKeys, nodeID, owner, location, wireless]
    exact reads.decodeNode documented values read (wireless_decoded documented node.wireless)
  | radio r =>
    have body (new : Option Binary64) : (ViewEdit.listRadio r new).body (.object fields) =
        some (.object (Json.setField "wireless" (node.wireless.json.set r.name (new.elim .null .number)) fields)) := by
      rw [ViewEdit.body, Json.setIn, holds.found.2]
    have listed : "wireless" ∈ readKeys := by decide
    have reads (new : Json) := holds.reads.set holds.unique listed new
    have values (new : Json) : readKeys.map (Function.update value "wireless" new) =
        [.string node.nodeID, .string node.hostname, .string node.owner, located, new] := by
      simp [readKeys, nodeID, hostname, owner, location]
    rw [Control.onfocusout, body, Option.bind_some]
    apply (reads _).decodeNode documented (values _) read
    exact wireless_set documented node.wireless r (holds.sent documented channels r)

end Client

/-! ## What is stored -/

/-- The same settings, where the two zeros of a coordinate count as one. -/
structure Settings.Same (settings settings' : Settings) : Prop where
  hostname : settings'.hostname = settings.hostname
  owner : settings'.owner = settings.owner
  coordinate : ∀ c : Coordinate, (c.get settings'.location).eq (c.get settings.location)
  wireless : settings'.wireless = settings.wireless

/-- A select has an option for what is stored; if nothing is, what it shows instead is read as zero. -/
def Control.Shows (channels : Channels) (wireless : WirelessSettings) : Control → Prop
  | .hostname => True
  | .radio r => ∀ options, r.options channels = some options →
      if r.get wireless = 0 then options.head?.getD 0 = 0 else r.get wireless ∈ options

theorem shownChannel_eq_iff (options : List UInt32) (setting : UInt32) :
    shownChannel options setting = setting ↔ if setting = 0 then options.head?.getD 0 = 0 else setting ∈ options := by
  rw [shownChannel]
  by_cases zero : setting = 0
  · rw [if_neg (fun there => there.1 zero), if_pos zero, zero]
  · rw [if_neg zero]
    by_cases offered : setting ∈ options
    · rw [if_pos ⟨zero, offered⟩]
      exact iff_of_true rfl offered
    · rw [if_neg (fun there => offered there.2)]
      refine iff_of_false (fun first => offered ?_) offered
      cases options with
      | nil => exact absurd first.symm zero
      | cons head _ =>
        rw [← first]
        exact .head _

theorem Control.leaves_eq_self (channels : Channels) (wireless : WirelessSettings) (control : Control) :
    control.leaves channels wireless = wireless ↔ control.Shows channels wireless := by
  cases control with
  | hostname => exact iff_of_true rfl trivial
  | radio r =>
    rw [Control.leaves, r.put_eq_self, Control.Shows]
    cases r.options channels with
    | none => exact iff_of_true rfl (by simp)
    | some options =>
      simp only [Option.elim_some, shownChannel_eq_iff, Option.some.injEq, forall_eq']

theorem untouched_iff {m : Mapstructure} (documented : m.Documented) {config : Config}
    (decodes : config.decodeNode = m.decodeNode) {forms : Forms} (writes : forms.Writes) {node : Node} {object : Json}
    (sent : node.json forms = some object) (pingstate : List Bool) (channels : Channels) (control : Control)
    {msg : Message} (body : (control.onfocusout (control.rendered channels (getNode pingstate object))).body
      (getNode pingstate object) = some msg.body) {step : Step} (message : step.call = .message msg)
    (subject : msg.subject = MessageType.node) {w : World}
    (accepted : ((serve config step w).1.since w).filterMap Event.answered = [true]) :
    (∃ row, (serve config step w).1.nodes.lookup node.nodeID = some row ∧ node.settings.Same row.settings) ↔
      control.Shows channels node.wireless := by
  obtain ⟨given, located, value, opened, form, holds⟩ := getNode_holds documented sent pingstate
  obtain ⟨location, coordinates, read⟩ := location_decoded documented writes form
  rw [opened] at body
  have decoded := holds.decoded documented channels control read
  rw [body, Option.bind_some, ← decodes] at decoded
  cases serve_edited config message subject w with
  | refused _ answers => exact absurd (accepted.symm.trans answers) (by decide)
  | saved edited report listed updated found named saved =>
    rw [decoded] at found
    cases found
    rw [saved, if_pos rfl, ← Control.leaves_eq_self]
    constructor
    · rintro ⟨_, ⟨⟩, same⟩
      exact same.wireless
    · intro same
      exact ⟨_, rfl, rfl, rfl, coordinates, same⟩

/-! ## A node whose channel was never set -/

namespace Sample

def decoder : Config := { config with decodeNode := mapstructure.decodeNode }

def channels : Channels where
  channelsWifi24 := [1, 6, 11]
  channelsWifi5 := [36, 40]

/-- The body that is sent when a control of the node is left. -/
def leftBody (node : Node) (control : Control) : Json :=
  ((node.json forms).bind fun object =>
    (control.onfocusout (control.rendered channels (getNode [] object))).body (getNode [] object)).getD .null

def leaveMessage (node : Node) (control : Control) : Message where
  session := 1
  subject := MessageType.node
  body := leftBody node control

def leave (node : Node) (control : Control) : Step where
  call := .message (leaveMessage node control)
  choices := fun _ => { time := 60 }

end Sample

/-- A channel that is offered. -/
theorem untouched_offered :
    ∃ row, (serve Sample.decoder (Sample.leave Sample.onChannels (.radio .channel24))
      (Sample.world [Sample.onChannels.row])).1.nodes.lookup
      "f81a67a5e9c1" = some row ∧ Sample.onChannels.settings.Same row.settings := by
  obtain ⟨object, sent⟩ : ∃ object, Sample.onChannels.json Sample.forms = some object := ⟨_, rfl⟩
  have body : ((Control.radio .channel24).onfocusout ((Control.radio .channel24).rendered Sample.channels
      (getNode [] object))).body (getNode [] object) =
        some (Sample.leaveMessage Sample.onChannels (.radio .channel24)).body := by
    rw [Sample.leaveMessage, Sample.leftBody, sent]
    cases sent
    rfl
  have accepted : ((serve Sample.decoder (Sample.leave Sample.onChannels (.radio .channel24))
      (Sample.world [Sample.onChannels.row])).1.since (Sample.world [Sample.onChannels.row])).filterMap
      Event.answered = [true] := by
    decide +kernel
  apply (untouched_iff Sample.documented rfl Sample.writes sent [] Sample.channels
    (.radio .channel24) body rfl rfl accepted).mpr
  rintro options ⟨⟩
  decide

/-- The node has no channel, and is on the first one after its select was left. -/
theorem unset_selected :
    let after := (serve Sample.decoder (Sample.leave Sample.hill.node (.radio .channel24))
        (Sample.world [Sample.hill])).1
    (after.since (Sample.world [Sample.hill])).filterMap Event.answered = [true] ∧
      (after.nodes.lookup "f81a67a5e9c1").map (·.wireless.channel24) = some 1 ∧
      ¬ ∃ row, after.nodes.lookup "f81a67a5e9c1" = some row ∧ Sample.hill.settings.Same row.settings := by
  intro after
  have selected : (after.nodes.lookup "f81a67a5e9c1").map (·.wireless.channel24) = some 1 := by decide +kernel
  refine ⟨by decide +kernel, selected, ?_⟩
  rintro ⟨row, stored, same⟩
  rw [stored] at selected
  have channel : row.wireless.channel24 = Sample.hill.wireless.channel24 := congrArg _ same.wireless
  exact absurd ((Option.some.inj selected).symm.trans channel) (by decide)

end FreifunkManager
