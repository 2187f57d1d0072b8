import FreifunkManager.Proofs.FailingUpdate

/-! # Whether an update reaches what the comparison asks for

`checkRespondd` and `sshUpdate` look at the same settings in different ways. Here an update runs
against a device, which then reports again, and the comparison is made with this report.
-/

namespace FreifunkManager

open Effects Shell

/-! ## Reports -/

/-- The channel that a report shows for a radio on the air. -/
def heard (frequency : UInt32) : UInt32 :=
  match getChannelByFrequency frequency with
  | some (channel, ch) => if ch.allowedInEU then channel else 0
  | none => 0

theorem heard_of_permitted {channel : UInt32} {ch : Channel} (permitted : getChannel channel = some ch) :
    heard ch.frequency = channel := by
  obtain ⟨found, allowed⟩ := getChannel_eq_some permitted
  have member : (channel, ch) ∈ channelList := by
    obtain ⟨before, after, split, _⟩ := List.lookup_eq_some_iff.mp found
    rw [split]
    simp
  rw [heard, getChannelByFrequency_of_mem _ member]
  exact if_pos allowed

/-- A channel that is shown is permitted, and it is the one with this frequency. -/
theorem heard_cases (frequency : UInt32) : heard frequency = 0 ∨
    ∃ ch, getChannel (heard frequency) = some ch ∧ ch.frequency = frequency := by
  have listed : ∀ entry ∈ channelList, entry.2.allowedInEU = true → getChannel entry.1 = some entry.2 := by decide
  cases found : getChannelByFrequency frequency with
  | none => exact .inl (by rw [heard, found])
  | some entry =>
    obtain ⟨channel, ch⟩ := entry
    have same : ch.frequency = frequency := by simpa using List.find?_some found
    cases allowed : ch.allowedInEU with
    | false => exact .inl (by simp [heard, found, allowed])
    | true =>
      have shown : heard frequency = channel := by simp [heard, found, allowed]
      rw [shown]
      exact .inr ⟨ch, listed _ (List.mem_of_find?_eq_some found) allowed, same⟩

theorem airtimeChannel_eq (settings : WirelessSettings) (frequency : UInt32) : airtimeChannel settings ⟨frequency⟩ =
    if heard frequency = 0 then settings
    else if frequency > freqThreashold then { settings with channel5 := heard frequency }
    else { settings with channel24 := heard frequency } := by
  have positive : ∀ entry ∈ channelList, entry.1 ≠ 0 := by decide
  cases found : getChannelByFrequency frequency with
  | none => simp [airtimeChannel, heard, found]
  | some entry =>
    obtain ⟨channel, ch⟩ := entry
    have same : ch.frequency = frequency := by simpa using List.find?_some found
    have numbered : channel ≠ 0 := positive _ (List.mem_of_find?_eq_some found)
    cases allowed : ch.allowedInEU <;> simp [airtimeChannel, heard, found, allowed, channelEU, same, numbered]

namespace Device

variable (d : Device)

/-- The location in the report of a device. -/
def location : Location where
  latitude := (Binary64.parse (d.value .latitude)).getD .zero
  longitude := (Binary64.parse (d.value .longitude)).getD .zero
  altitude := (Binary64.parse (d.value .altitude)).getD .zero

/-- The wireless settings in the report of a device. -/
def reported : WirelessSettings :=
  { airtimeChannel (airtimeChannel {} ⟨d.onAir .radio0⟩) ⟨d.onAir .radio1⟩ with
    txPower24 := readNumber (d.value (.txPower d.radio24))
    txPower5 := readNumber (d.value (.txPower d.radio5)) }

theorem getWirelessSettings_report : getWirelessSettings d.report = some d.reported := by
  have power (settings : WirelessSettings) (wifi : WirelessAirtime) :
      (airtimeChannel settings wifi).txPower24 = settings.txPower24 ∧
        (airtimeChannel settings wifi).txPower5 = settings.txPower5 := by
    rw [show wifi = ⟨wifi.frequency⟩ from rfl, airtimeChannel_eq]
    split_ifs <;> exact ⟨rfl, rfl⟩
  have power24 : (airtimeChannel (airtimeChannel {} ⟨d.onAir .radio0⟩) ⟨d.onAir .radio1⟩).txPower24 = 0 := by
    rw [(power _ _).1, (power _ _).1]
  have power5 : (airtimeChannel (airtimeChannel {} ⟨d.onAir .radio0⟩) ⟨d.onAir .radio1⟩).txPower5 = 0 := by
    rw [(power _ _).2, (power _ _).2]
  simp only [getWirelessSettings, report, reported, Option.map_some, List.foldl_cons, List.foldl_nil,
    Option.bind_some, power24, power5, if_true]
  rfl

@[simp] theorem reported_txPower (band : Band) :
    d.reported.txPower band = readNumber (d.value (.txPower (d.radio band))) := by
  cases band <;> rfl

/-- A radio that is in its band shows its own channel. -/
theorem reported_channel (inBand : ∀ band : Band, band.Contains (d.onAir (d.radio band))) (band : Band) :
    d.reported.channel band = heard (d.onAir (d.radio band)) := by
  have low : ¬ d.onAir d.radio24 > freqThreashold := inBand .band24
  have high : d.onAir d.radio24.other > freqThreashold := inBand .band5
  -- the radio of the lower band is the first or the second one in the report
  cases first : d.radio24 <;> rw [first] at low high <;> simp only [Radio.other] at high <;>
    cases band <;> simp only [WirelessSettings.channel, reported, airtimeChannel_eq, radio, radio5, first, Radio.other,
      if_neg low, if_pos high] <;> split_ifs <;> simp_all

private theorem airtimeChannel_permits {settings : WirelessSettings} (wifi : WirelessAirtime)
    (permits : ∀ band, settings.channel band = 0 ∨ band.Permits (settings.channel band)) (band : Band) :
    (airtimeChannel settings wifi).channel band = 0 ∨ band.Permits ((airtimeChannel settings wifi).channel band) := by
  rw [show wifi = ⟨wifi.frequency⟩ from rfl, airtimeChannel_eq]
  rcases heard_cases wifi.frequency with silent | ⟨ch, permitted, same⟩
  · rw [if_pos silent]
    exact permits band
  · split_ifs with _ high
    · exact permits band
    · cases band with
      | band24 => exact permits .band24
      | band5 => exact .inr ⟨ch, permitted, same ▸ high⟩
    · cases band with
      | band24 => exact .inr ⟨ch, permitted, same ▸ high⟩
      | band5 => exact permits .band5

/-- A channel that is shown for a band is a permitted one of the band. -/
theorem reported_permits (band : Band) : d.reported.channel band = 0 ∨ band.Permits (d.reported.channel band) := by
  have nothing (band : Band) : ({} : WirelessSettings).channel band = 0 ∨
      band.Permits (({} : WirelessSettings).channel band) := by
    cases band <;> exact .inl rfl
  have heard := airtimeChannel_permits ⟨d.onAir .radio1⟩ (airtimeChannel_permits ⟨d.onAir .radio0⟩ nothing) band
  cases band <;> exact heard

end Device

/-- The comparison with the report of a device. -/
theorem checkRespondd_report (n : Node) (d : Device) (ipPrefix : String) (now : Time) :
    (n.update (some d.report) ipPrefix now).checkRespondd = true ↔
      n.hostname = d.value .hostname ∧ n.owner = d.value .contact ∧ locationEqual n.location d.location = true ∧
        ∀ band, n.wireless.channel band = d.reported.channel band ∧
          n.wireless.txPower band = d.reported.txPower band := by
  have wireless : (n.update (some d.report) ipPrefix now).wirelessRespondd = d.reported := by
    change (getWirelessSettings d.report).getD n.wirelessRespondd = d.reported
    rw [d.getWirelessSettings_report, Option.getD_some]
  rw [Node.checkRespondd, wireless, Bool.and_eq_true, Bool.and_eq_true, Bool.and_eq_true, wirelessEqual_iff_bands,
    beq_iff_eq, beq_iff_eq, and_assoc, and_assoc]
  rfl

/-! ## Convergence -/

/-- What the node says is reported is what the device reports. -/
structure Node.Knows (n : Node) (d : Device) : Prop where
  hostname : n.hostnameRespondd = d.value .hostname
  owner : n.ownerRespondd = d.value .contact
  location : n.locationRespondd = d.location
  wireless : n.wirelessRespondd = d.reported

theorem update_knows (n : Node) (d : Device) (ipPrefix : String) (now : Time) :
    (n.update (some d.report) ipPrefix now).Knows d where
  hostname := rfl
  owner := rfl
  location := rfl
  wireless := congrArg (Option.getD · n.wirelessRespondd) d.getWirelessSettings_report

/-- The node asks for nothing that an update does not bring about: no text to be pushed has a quote or a
nul, the altitude is the reported one, and for each band either nothing is to be changed or the
channel is permitted and of the band. -/
structure Node.Reconcilable (n : Node) : Prop extends Node.Clean n where
  altitude : n.location.altitude.eq n.locationRespondd.altitude = true
  radios : ∀ band : Band, (n.wireless.channel band = n.wirelessRespondd.channel band ∧
    n.wireless.txPower band = n.wirelessRespondd.txPower band) ∨ band.Permits (n.wireless.channel band)

namespace Device

variable {d : Device} {n : Node}

theorem Settled.inBand (settled : d.Settled) : ∀ band : Band, band.Contains (d.onAir (d.radio band))
  | .band24 => settled.band24
  | .band5 => settled.band5

private theorem push_inBand (settled : d.Settled) (clean : n.Clean)
    (fits : ∀ band, retunes (n.wireless.channel band) (n.wirelessRespondd.channel band) = true →
      band.Permits (n.wireless.channel band)) (band : Band) :
    band.Contains ((d.push n).onAir ((d.push n).radio band)) := by
  rw [push_radio d clean, push_onAir settled clean]
  split
  · next retuned =>
    obtain ⟨ch, permitted, contained⟩ := fits band retuned
    rw [permitted]
    exact contained
  · exact settled.inBand band

/-- The channel that is reported after an update, if no radio leaves its band. -/
theorem push_reported_channel (settled : d.Settled) (clean : n.Clean)
    (fits : ∀ band, retunes (n.wireless.channel band) (n.wirelessRespondd.channel band) = true →
      band.Permits (n.wireless.channel band)) (band : Band) :
    (d.push n).reported.channel band =
      if retunes (n.wireless.channel band) (n.wirelessRespondd.channel band) then n.wireless.channel band
      else d.reported.channel band := by
  rw [reported_channel _ (push_inBand settled clean fits), push_radio d clean, push_onAir settled clean,
    d.reported_channel settled.inBand]
  split
  · next retuned =>
    obtain ⟨ch, permitted, _⟩ := fits band retuned
    rw [permitted, Option.map_some, Option.getD_some, heard_of_permitted permitted]
  · rfl

theorem push_reported_txPower (clean : n.Clean) (band : Band) : (d.push n).reported.txPower band =
    if (getChannel (n.wireless.channel band)).isSome ∧ n.wireless.txPower band ≠ n.wirelessRespondd.txPower band
    then n.wireless.txPower band else d.reported.txPower band := by
  rw [reported_txPower, push_radio d clean, push_txPower d clean, reported_txPower, apply_ite readNumber,
    readNumber_toString]

/-- The radios are reported as they should be if and only if they can be set so. -/
theorem radios_reached_iff (settled : d.Settled) (clean : n.Clean) (knows : n.Knows d) :
    (∀ band, n.wireless.channel band = (d.push n).reported.channel band ∧
      n.wireless.txPower band = (d.push n).reported.txPower band) ↔
    ∀ band : Band, (n.wireless.channel band = n.wirelessRespondd.channel band ∧
      n.wireless.txPower band = n.wirelessRespondd.txPower band) ∨ band.Permits (n.wireless.channel band) := by
  constructor
  · intro reached
    have shown (band : Band) : n.wireless.channel band = 0 ∨ band.Permits (n.wireless.channel band) := by
      rw [(reached band).1]
      exact (d.push n).reported_permits band
    have fits (band : Band) (retuned : retunes (n.wireless.channel band) (n.wirelessRespondd.channel band) = true) :
        band.Permits (n.wireless.channel band) := by
      refine (shown band).resolve_left fun none => ?_
      rw [none] at retuned
      contradiction
    intro band
    refine (shown band).symm.imp id (fun none => ?_) |>.symm
    obtain ⟨channel, txPower⟩ := reached band
    have forbidden : getChannel (n.wireless.channel band) = .none := none ▸ rfl
    rw [push_reported_channel settled clean fits, retunes, forbidden] at channel
    rw [push_reported_txPower clean, forbidden] at txPower
    rw [knows.wireless]
    exact ⟨by simpa using channel, by simpa using txPower⟩
  · intro settable
    have fits (band : Band) (retuned : retunes (n.wireless.channel band) (n.wirelessRespondd.channel band) = true) :
        band.Permits (n.wireless.channel band) :=
      (settable band).resolve_left fun same => bne_iff_ne.mp (Bool.and_eq_true_iff.mp retuned).2 same.1
    intro band
    rw [push_reported_channel settled clean fits, push_reported_txPower clean, ← knows.wireless]
    rcases settable band with ⟨channel, txPower⟩ | ⟨ch, permitted, _⟩
    · simp [retunes, channel, txPower]
    · rw [retunes, permitted]
      constructor
      · split <;> simp_all
      · split <;> simp_all

theorem location_reached_iff (clean : n.Clean) (knows : n.Knows d) :
    locationEqual n.location (d.push n).location = true ↔
      n.location.altitude.eq n.locationRespondd.altitude = true := by
  obtain ⟨_, _, latitude, longitude, altitude⟩ := push_value d clean
  rw [knows.location] at latitude longitude ⊢
  cases same : locationEqual n.location d.location with
  | true =>
    have kept : (d.push n).location = d.location := by
      rw [if_neg (by simp [same])] at latitude longitude
      rw [Device.location, latitude, longitude, altitude, Device.location]
    rw [kept, same]
    exact ⟨fun _ => (Bool.and_eq_true_iff.mp same).2, fun _ => rfl⟩
  | false =>
    rw [if_pos same] at latitude longitude
    obtain ⟨back, read, equal⟩ := n.location.latitude.decimal_parse
    obtain ⟨back', read', equal'⟩ := n.location.longitude.decimal_parse
    rw [locationEqual, Device.location, latitude, longitude, altitude, read, read']
    simp [Node.locationEqualFormat, equal, equal', Device.location]

end Device

/-- After an update and the next report there is no difference left if and only if the node asks for
nothing that an update does not bring about. -/
theorem converges_iff (stored : Node) {d : Device} (settled : d.Settled) (ipPrefix : String) (now later : Time) :
    let n := stored.update (some d.report) ipPrefix now
    (n.update (some (d.push n).report) ipPrefix later).checkRespondd = true ↔ n.Reconcilable := by
  intro n
  have knows : n.Knows d := update_knows stored d ipPrefix now
  rw [checkRespondd_report]
  constructor
  · rintro ⟨hostname, owner, location, wireless⟩
    have clean : n.Clean := by
      rw [Device.push_eq_pushAmid] at hostname owner
      exact clean_of_reached _ (.inl hostname) (.inl owner) knows.hostname knows.owner
    exact { clean with
      altitude := (Device.location_reached_iff clean knows).mp location
      radios := (Device.radios_reached_iff settled clean knows).mp wireless }
  · intro reconcilable
    have clean := reconcilable.toClean
    obtain ⟨hostname, owner, _⟩ := d.push_value clean
    refine ⟨?_, ?_, (Device.location_reached_iff clean knows).mpr reconcilable.altitude,
      (Device.radios_reached_iff settled clean knows).mpr reconcilable.radios⟩
    · rw [hostname, ← knows.hostname]
      split <;> simp_all
    · rw [owner, ← knows.owner]
      split <;> simp_all

/-- A device as it comes from the factory, on the channels 1 and 36. -/
def Device.factory : Device where
  nodeID := "f81a67a5e9c1"
  addresses := ["2001:db8::1"]
  uci key := if key = channelKey .radio0 then "1" else if key = channelKey .radio1 then "36" else ""
  radio24 := .radio0
  onAir
    | .radio0 => 2412
    | .radio1 => 5180

theorem Device.factory_settled : Device.factory.Settled where
  configured := funext fun radio => by cases radio <;> decide +kernel
  band24 := by decide
  band5 := by decide

/-- A new name and new channels are on the device after one update. -/
theorem converges_renamed : (let stored : Node := {
        nodeID := "f81a67a5e9c1"
        hostname := "attic"
        wireless := { channel24 := 6, channel5 := 44 } }
    let n := stored.update (some Device.factory.report) "" 0
    (n.update (some (Device.factory.push n).report) "" 60).checkRespondd) = true := by
  refine (converges_iff _ Device.factory_settled "" 0 60).mpr ⟨⟨.inr (by decide), .inl ?_⟩, ?_, fun band => .inr ?_⟩
  · decide +kernel
  · decide +kernel
  · cases band with
    | band24 => exact ⟨⟨2437, true⟩, by decide, (by decide : ¬ (2437 : UInt32) > freqThreashold)⟩
    | band5 => exact ⟨⟨5220, true⟩, by decide, (by decide : (5220 : UInt32) > freqThreashold)⟩

/-- The altitude is compared, but never pushed. -/
theorem altitude_never_reached : ¬ ∀ (stored : Node) (d : Device) (ipPrefix : String) (now later : Time), d.Settled →
    let n := stored.update (some d.report) ipPrefix now
    (n.update (some (d.push n).report) ipPrefix later).checkRespondd = true := by
  intro converges
  let stored : Node := {
    nodeID := "f81a67a5e9c1"
    location := { altitude := (Binary64.parse "13").getD .zero } }
  let n := stored.update (some Device.factory.report) "" 0
  have knows : n.Knows Device.factory := update_knows stored _ "" 0
  have clean : n.Clean := ⟨.inl (by decide +kernel), .inl (by decide +kernel)⟩
  obtain ⟨_, _, location, _⟩ := (checkRespondd_report n _ "" 60).mp (converges stored _ "" 0 60 Device.factory_settled)
  have altitude := (Device.location_reached_iff clean knows).mp location
  revert altitude
  decide +kernel

end FreifunkManager
