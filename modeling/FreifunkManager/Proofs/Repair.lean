import FreifunkManager.Proofs.Reconcile
import FreifunkManager.Proofs.Programs
import FreifunkManager.Proofs.Worlds

/-! # What is left of a failed update

The next report shows most of what an update has failed to do, so that it is done again. The name of the offline
network is not in a report: it is pushed together with the hostname, and never again.
-/

namespace FreifunkManager

open Effects Program Shell Store

/-! ## A report with the device at hand -/

/-- The operation is a part of an SSH session. -/
def Op.overSsh : Op → Bool
  | .connectTo _ | .newSession | .runCommand _ => true
  | _ => false

/-- The operations of a step whose connections all lead to a device that can be reached. -/
def Step.handleAt (step : Step) : Handler operations ((World × ℕ) × Device) := fun op (s, d) =>
  if op.overSsh then
    let (reply, d) := Device.handle op d
    (reply, s, d)
  else
    let (reply, s) := step.handle op s
    (reply, s, d)

/-- The device after a step. -/
def visit (config : Config) (step : Step) (w : World) (d : Device) : Device :=
  ((step.call.program config).run step.handleAt ((w, 0), d)).2.2

section Visit

variable {config : Config} {step : Step} {w : World} {d : Device}

/-- Code that only talks to the device. -/
theorem run_handleAt {α : Type} {program : Prog α} (only : Only (·.overSsh = true) program)
    (s : World × ℕ) (d : Device) :
    program.run step.handleAt (s, d) = ((program.run Device.handle d).1, s, (program.run Device.handle d).2) := by
  induction program generalizing d with
  | done value => rfl
  | ask op next ih =>
    obtain ⟨inSession, rest⟩ := only
    have handled : step.handleAt op (s, d) = ((Device.handle op d).1, s, (Device.handle op d).2) := if_pos inSession
    rw [run_ask, run_ask, handled]
    exact ih _ (rest _ trivial) _

/-- A node that differs in nothing is not changed. -/
theorem push_of_checkRespondd {n : Node} (checked : n.checkRespondd = true) (d : Device) : d.push n = d := by
  unfold Node.checkRespondd at checked
  simp only [Bool.and_eq_true, beq_iff_eq, wirelessEqual_iff] at checked
  obtain ⟨⟨⟨hostname, owner⟩, location⟩, wireless⟩ := checked
  rw [Device.push_eq, hostname, owner, location, Device.pushRadios, Device.pushRadio, Device.pushRadio, wireless]
  simp [Device.pushIf, retunes, hostname]

theorem pushDifferences_does (n : Node) (s : World × ℕ) (d : Device) :
    Does step.handleAt n.pushDifferences true (s, d) (s, d.push n) := by
  unfold Node.pushDifferences
  split
  · next checked =>
    rw [push_of_checkRespondd checked]
    exact rfl
  · have only : Only (·.overSsh = true) n.sshUpdate.run := by
      apply (sshUpdate_only n).weaken
      intro op updates
      cases op <;> first | rfl | contradiction
    rw [Does, run_handleAt only, show n.sshUpdate.run.run Device.handle d = _ from Device.does_push d n,
      Device.push_eq_update]

/-- The report of a device whose row is found and passes the filter. -/
theorem visit_eq {row : Row} (report : step.call = .report d.report) (works : (step.choices 1).dbFails = false)
    (found : w.nodes.first d.nodeID = some row)
    (passes : (row.node.seenAt (step.choices 0).time).timeFilter config.blacklistFor (step.choices 4).time = false) :
    visit config step w d = d.push
      ((row.node.update (some d.report) config.ipPrefix (step.choices 2).time).seenAt (step.choices 0).time) := by
  let now := (step.choices 0).time
  let node := row.node.update (some d.report) config.ipPrefix (step.choices 2).time
  let begun := (step.handle (.now .insertNode) (w, 0)).2
  let read := (step.handle (.firstNode d.nodeID) begun).2
  let updated := (step.handle (.now .update) read).2
  let stored := (step.handle (.updateNode node.nodeID (.observed node.address now)) updated).2
  let checked := (step.handle (.now .timeFilter) stored).2
  let sent := (step.handle (.sendNode (node.seenAt now)) checked).2
  have passes : (node.seenAt now).timeFilter config.blacklistFor (step.choices 4).time = false := by
    rw [← passes, Node.timeFilter, Node.timeFilter]
    exact congrArg (fun blacklist => _ || Option.any _ blacklist) (Node.update_blacklist ..)
  have reads : Does step.handleAt (perform (.firstNode d.nodeID) : Go (Option Row)) (some row) (begun, d)
      (read, d) := by
    have answer : (step.handle (.firstNode d.nodeID) begun).1 = some row := by
      change (if (step.choices 1).dbFails then none else w.nodes.first d.nodeID) = some row
      rw [works, found]
      rfl
    exact congrArg (fun found => (Except.ok found, read, d)) answer
  have starts : Does step.handleAt (perform (.now .insertNode) : Go Time) now ((w, 0), d) (begun, d) := rfl
  have updates : Does step.handleAt (perform (.now .update) : Go Time) (step.choices 2).time (read, d)
      (updated, d) := rfl
  have writes : Does step.handleAt (perform (.updateNode node.nodeID (.observed node.address now)) : Go Bool) _
    (updated, d) (stored, d) := rfl
  have checks : Does step.handleAt (perform (.now .timeFilter) : Go Time) (step.choices 4).time (stored, d)
      (checked, d) :=
    rfl
  have sends (d : Device) : Does step.handleAt (perform (.sendNode (node.seenAt now)) : Go Unit) ()
      (checked, d) (sent, d) :=
    rfl
  have refreshes : Does step.handleAt (refreshKnown config now node) () (updated, d)
      (sent, d.push (node.seenAt now)) := by
    refine writes.bind (checks.bind ?_)
    rw [if_neg (by rw [passes]; exact Bool.false_ne_true)]
    exact (pushDifferences_does _ checked d).bind (sends _)
  have inserts : Does step.handleAt (insertNode config d.report) () ((w, 0), d) (sent, d.push (node.seenAt now)) :=
    starts.bind (reads.bind (updates.bind refreshes))
  rw [visit, report]
  exact congrArg Prod.snd inserts.after

end Visit

/-! ## The channels -/

/-- The device has the settings, and keeps its channels when the radios restart. -/
structure Device.Has (d : Device) (settings : Settings) : Prop where
  hostname : d.value .hostname = settings.hostname
  contact : d.value .contact = settings.owner
  latitude : Node.locationEqualFormat d.location.latitude = Node.locationEqualFormat settings.location.latitude
  longitude : Node.locationEqualFormat d.location.longitude = Node.locationEqualFormat settings.location.longitude
  channel : ∀ band, ∃ ch, getChannel (settings.wireless.channel band) = some ch ∧ d.onAir (d.radio band) = ch.frequency
  configured : d.wifi.onAir = d.onAir
  txPower : ∀ band, readNumber (d.value (.txPower (d.radio band))) = settings.wireless.txPower band
  ssid : ∀ band, d.value (.ssid (d.radio band)) = offlineSsid settings.hostname

/-- A radio is in its band, and its configured channel is on the air or desired. -/
structure Device.Tuning (d : Device) (wireless : WirelessSettings) (band : Band) : Prop where
  inBand : band.Contains (d.onAir (d.radio band))
  configured : tuned (d.value (.channel (d.radio band))) (d.onAir (d.radio band)) = d.onAir (d.radio band) ∨
    d.value (.channel (d.radio band)) = toString (wireless.channel band).toNat

namespace Device

variable {d : Device} {n : Node} {fails : String → Bool}

theorem wifi_onAir (d : Device) (radio : Radio) :
    d.wifi.onAir radio = tuned (d.value (.channel radio)) (d.onAir radio) := rfl

/-- A channel that is heard is the one on the air. -/
theorem onAir_of_heard {channel frequency : UInt32} {ch : Channel} (permitted : getChannel channel = some ch)
    (shown : heard frequency = channel) : frequency = ch.frequency := by
  rcases heard_cases frequency with silent | ⟨other, permitted', same⟩
  · rw [← shown, silent] at permitted
    contradiction
  · rw [shown, permitted, Option.some.injEq] at permitted'
    rw [← same, ← permitted']

theorem pushAmid_radio (d : Device) (fails : String → Bool) (n : Node) : (d.pushAmid fails n).radio = d.radio := by
  rw [pushAmid_eq]
  exact radio_of_identity (apply_identity ..)

theorem pushAmid_nodeID (d : Device) (fails : String → Bool) (n : Node) : (d.pushAmid fails n).nodeID = d.nodeID := by
  rw [pushAmid_eq]
  exact congrArg Prod.fst (apply_identity ..)

/-- An update of a settled device leaves this, whatever fails. -/
theorem pushAmid_tuning (settled : d.Settled) (clean : n.Clean) {band : Band}
    (permits : band.Permits (n.wireless.channel band)) :
    (d.pushAmid fails n).Tuning n.wireless band := by
  have before : tuned (d.value (.channel (d.radio band))) (d.onAir (d.radio band)) = d.onAir (d.radio band) :=
    congrFun settled.configured _
  obtain ⟨ch, permitted, contained⟩ := permits
  constructor
  · rw [pushAmid_radio, pushAmid_onAir d clean]
    cases (n.applied fails d.radio).wifi with
    | false => exact settled.inBand band
    | true =>
      cases (n.applied fails d.radio).channel band with
      | false => exact before.symm ▸ settled.inBand band
      | true =>
        rw [if_pos rfl, if_pos rfl, tuned_channel permitted]
        exact contained
  · rw [pushAmid_radio, pushAmid_onAir d clean, pushAmid_channel d clean]
    cases (n.applied fails d.radio).channel band with
    | true => exact .inr rfl
    | false =>
      left
      rw [if_neg Bool.false_ne_true, before, ite_self, before]

/-- What is applied if nothing fails. -/
theorem applied_all (n : Node) (radio : Band → Radio) (band : Band) :
    (n.applied (fun _ => false) radio).channel band =
    retunes (n.wireless.channel band) (n.wirelessRespondd.channel band) ∧
    (n.applied (fun _ => false) radio).ssid band = (n.hostname != n.hostnameRespondd) ∧
    (retunes (n.wireless.channel band) (n.wirelessRespondd.channel band) = true →
      (n.applied (fun _ => false) radio).wifi = true) := by
  unfold Node.applied
  cases band <;> simp [asked, WirelessSettings.channel] <;> tauto

/-- The next update brings the desired channel on the air. -/
theorem push_channel (clean : n.Clean) (knows : n.Knows d) (tuning : ∀ band, d.Tuning n.wireless band) (band : Band)
    {ch : Channel} (permitted : getChannel (n.wireless.channel band) = some ch) :
    (d.push n).onAir (d.radio band) = ch.frequency ∧
      tuned ((d.push n).value (.channel (d.radio band))) ch.frequency = ch.frequency := by
  have shown : n.wirelessRespondd.channel band = heard (d.onAir (d.radio band)) := by
    rw [knows.wireless, reported_channel _ fun band => (tuning band).inBand]
  obtain ⟨channels, -, restarts⟩ := applied_all n d.radio band
  rw [push_eq_pushAmid, pushAmid_onAir d clean, pushAmid_channel d clean, channels]
  cases retuned : retunes (n.wireless.channel band) (n.wirelessRespondd.channel band) with
  | true =>
    rw [restarts retuned, if_pos rfl, if_pos rfl]
    exact ⟨tuned_channel permitted _, tuned_channel permitted _⟩
  | false =>
    have same : n.wireless.channel band = n.wirelessRespondd.channel band := by
      rw [retunes, permitted] at retuned
      simpa using retuned
    have onAir := onAir_of_heard permitted (shown.symm.trans same.symm)
    have stays : tuned (d.value (.channel (d.radio band))) ch.frequency = ch.frequency := by
      rcases (tuning band).configured with same | desired
      · rwa [onAir] at same
      · rw [desired]
        exact tuned_channel permitted _
    rw [if_neg Bool.false_ne_true, onAir, stays, ite_self]
    exact ⟨rfl, rfl⟩

theorem radio_surjective (d : Device) (radio : Radio) : ∃ band, d.radio band = radio := by
  cases first : d.radio24 <;> cases radio
  · exact ⟨.band24, first⟩
  · exact ⟨.band5, congrArg Radio.other first⟩
  · exact ⟨.band5, congrArg Radio.other first⟩
  · exact ⟨.band24, first⟩

/-- The next update brings the desired place. -/
theorem push_location (clean : n.Clean) (knows : n.Knows d) :
    Node.locationEqualFormat (d.push n).location.latitude = Node.locationEqualFormat n.location.latitude ∧
      Node.locationEqualFormat (d.push n).location.longitude = Node.locationEqualFormat n.location.longitude := by
  obtain ⟨_, _, latitude, longitude, _⟩ := push_value d clean
  rw [knows.location] at latitude longitude
  rw [Device.location, latitude, longitude]
  cases same : locationEqual n.location d.location with
  | true =>
    obtain ⟨both, -⟩ := Bool.and_eq_true_iff.mp same
    obtain ⟨latitudes, longitudes⟩ := Bool.and_eq_true_iff.mp both
    rw [if_neg (by decide), if_neg (by decide)]
    exact ⟨(beq_iff_eq.mp latitudes).symm, (beq_iff_eq.mp longitudes).symm⟩
  | false =>
    obtain ⟨back, read, equal⟩ := n.location.latitude.decimal_parse
    obtain ⟨back', read', equal'⟩ := n.location.longitude.decimal_parse
    rw [if_pos rfl, if_pos rfl, read, read']
    exact ⟨equal, equal'⟩

theorem push_ssid (clean : n.Clean) (band : Band) : (d.push n).value (.ssid (d.radio band)) =
    if n.hostname ≠ n.hostnameRespondd then offlineSsid n.hostname else d.value (.ssid (d.radio band)) := by
  rw [push_eq_pushAmid, pushAmid_ssid d clean, (applied_all n d.radio band).2.1]
  simp only [bne_iff_ne]

/-- The next update brings everything but the names of the offline networks, if the hostname is there already. -/
theorem push_has_iff (clean : n.Clean) (knows : n.Knows d)
    (permits : ∀ band : Band, band.Permits (n.wireless.channel band))
    (tuning : ∀ band, d.Tuning n.wireless band) : (d.push n).Has n.settings ↔
      ∀ band, n.hostname ≠ d.value .hostname ∨ d.value (.ssid (d.radio band)) = offlineSsid n.hostname := by
  have same : (d.push n).radio = d.radio := funext fun band => push_radio d clean band
  constructor
  · intro has band
    by_cases differs : n.hostname = d.value .hostname
    · right
      have ssid := has.ssid band
      rwa [same, push_ssid clean, if_neg (by rw [knows.hostname]; exact not_not.mpr differs)] at ssid
    · exact .inl differs
  · intro named
    obtain ⟨hostname, contact, _⟩ := push_value d clean
    constructor
    · rw [show n.settings.hostname = n.hostname from rfl, hostname, ← knows.hostname, ite_not]
      split
      · next same => exact same.symm
      · rfl
    · rw [show n.settings.owner = n.owner from rfl, contact, ← knows.owner, ite_not]
      split
      · next same => exact same.symm
      · rfl
    · exact (push_location clean knows).1
    · exact (push_location clean knows).2
    · intro band
      obtain ⟨ch, permitted, _⟩ := permits band
      rw [same]
      exact ⟨ch, permitted, (push_channel clean knows tuning band permitted).1⟩
    · funext radio
      obtain ⟨band, rfl⟩ := d.radio_surjective radio
      obtain ⟨ch, permitted, _⟩ := permits band
      obtain ⟨onAir, stays⟩ := push_channel clean knows tuning band permitted
      rw [wifi_onAir, onAir, stays]
    · intro band
      obtain ⟨ch, permitted, _⟩ := permits band
      rw [show n.settings.wireless = n.wireless from rfl, ← reported_txPower, push_reported_txPower clean, permitted,
        ← knows.wireless]
      by_cases same : n.wireless.txPower band = n.wirelessRespondd.txPower band
      · rw [if_neg fun differs => differs.2 same, same]
      · rw [if_pos ⟨rfl, same⟩]
    · intro band
      rw [show n.settings.hostname = n.hostname from rfl, same, push_ssid clean, knows.hostname]
      rcases named band with differs | there
      · exact if_pos differs
      · rw [there, ite_self]

end Device

/-! ## The next report -/

/-- The name of an offline network was right before, or it was pushed, or the hostname that it goes with was not
taken. -/
def Node.SsidFollows (n : Node) (d : Device) (fails : String → Bool) (band : Band) : Prop :=
  d.value (.ssid (d.radio band)) = Device.offlineSsid n.hostname ∨
    n.hostname ≠ d.value .hostname ∧ (fails (hostnameCommand n.hostname) = true ∨
      Device.asked fails band = true ∧ fails (ssidCommand (d.radio band).name n.hostname) = false)

section Repair

variable {n : Node} {d : Device} {fails : String → Bool}

/-- Only a hostname that has not arrived is pushed again, and the names of the offline networks with it. -/
theorem ssidFollows_iff (clean : n.Clean) (knows : n.Knows d) (band : Band) :
    n.hostname ≠ (d.pushAmid fails n).value .hostname ∨
        (d.pushAmid fails n).value (.ssid (d.radio band)) = Device.offlineSsid n.hostname ↔
        n.SsidFollows d fails band := by
  rw [Device.pushAmid_hostname d clean, Device.pushAmid_ssid d clean, Node.SsidFollows]
  unfold Node.applied
  dsimp only
  rw [knows.hostname]
  by_cases same : n.hostname = d.value .hostname
  · simp [same]
  · by_cases failed : fails (hostnameCommand n.hostname) = true
    · simp [same, failed]
    · by_cases asked : Device.asked fails band = true
      · by_cases spoiled : fails (ssidCommand (d.radio band).name n.hostname) = true <;>
          simp [same, failed, asked, spoiled]
      · simp [same, failed, asked]

theorem seenAt_knows (stored : Node) (d : Device) (ipPrefix : String) (updated now : Time) :
    ((stored.update (some d.report) ipPrefix updated).seenAt now).Knows d :=
  have knows := update_knows stored d ipPrefix updated
  ⟨knows.hostname, knows.owner, knows.location, knows.wireless⟩

theorem seenAt_update_settings (row : Row) (report : Option Yanic.Node) (ipPrefix : String) (updated now : Time) :
    ((row.node.update report ipPrefix updated).seenAt now).settings = row.settings := by
  rw [Node.seenAt_settings, Node.update_settings, Row.node_settings]

/-- The next update of the same settings is about the same texts and channels. -/
theorem settings_eq {a b : Node} (same : a.settings = b.settings) :
    a.hostname = b.hostname ∧ a.owner = b.owner ∧ a.wireless = b.wireless := by
  simp only [Node.settings, Settings.mk.injEq] at same
  exact ⟨same.1, same.2.1, same.2.2.2⟩

/-- A second update, by the report of the device after the first one. -/
theorem push_again_iff (settled : d.Settled) (knows : n.Knows d)
    (permits : ∀ band : Band, band.Permits (n.wireless.channel band))
    {next : Node} (knows' : next.Knows (d.pushAmid fails n)) (same : next.settings = n.settings) :
    ((d.pushAmid fails n).push next).Has n.settings ↔ n.Clean ∧ ∀ band, n.SsidFollows d fails band := by
  obtain ⟨hostname, owner, wireless⟩ := settings_eq same
  have goesOn (clean : n.Clean) (next_clean : next.Clean) :
      ((d.pushAmid fails n).push next).Has n.settings ↔ ∀ band, n.SsidFollows d fails band := by
    have tuning (band : Band) : (d.pushAmid fails n).Tuning next.wireless band :=
      wireless ▸ Device.pushAmid_tuning settled clean (permits band)
    rw [← same, Device.push_has_iff next_clean knows' (wireless ▸ permits) tuning, hostname, Device.pushAmid_radio]
    exact forall_congr' (ssidFollows_iff clean knows)
  constructor
  · intro has
    -- what has arrived is quotable or was there before, in the second update and so in the first one
    have next_clean : next.Clean := by
      have arrived := has
      rw [← same, Device.push_eq_pushAmid] at arrived
      exact clean_of_reached _ (.inl arrived.hostname.symm) (.inl arrived.contact.symm) knows'.hostname knows'.owner
    have clean : n.Clean := by
      obtain ⟨hostnames, owners⟩ := next_clean
      rw [hostname, knows'.hostname] at hostnames
      rw [owner, knows'.owner] at owners
      exact clean_of_reached fails hostnames owners knows.hostname knows.owner
    exact ⟨clean, (goesOn clean next_clean).mp has⟩
  · rintro ⟨clean, follows⟩
    have next_clean : next.Clean := by
      constructor
      · rw [hostname, knows'.hostname, Device.pushAmid_hostname d clean]
        apply clean.hostname.imp_left
        intro there
        rw [← knows.hostname, ← there, ite_self]
      · rw [owner, knows'.owner, Device.pushAmid_contact d clean]
        apply clean.owner.imp_left
        intro there
        rw [← knows.owner, ← there, ite_self]
    exact (goesOn clean next_clean).mpr follows

/-- After an update in which some commands fail, a report for which nothing fails leaves all settings on the device, if
and only if the texts to be pushed are quotable and the names of the offline networks were right, or were pushed, or
are pushed once more because the hostname was not taken. -/
theorem repaired_iff (config : Config) (stored : Row) {d : Device} (settled : d.Settled)
    (permits : ∀ band : Band, band.Permits (stored.wireless.channel band)) (fails : String → Bool)
    (updated began : Time) :
    let n := (stored.node.update (some d.report) config.ipPrefix updated).seenAt began
    ∀ (w : World) (row : Row) (step : Step), step.call = .report (d.pushAmid fails n).report →
      (step.choices 1).dbFails = false → w.nodes.first d.nodeID = some row → row.settings = stored.settings →
      (row.node.seenAt (step.choices 0).time).timeFilter config.blacklistFor (step.choices 4).time = false →
      ((visit config step w (d.pushAmid fails n)).Has stored.settings ↔
        n.Clean ∧ ∀ band, n.SsidFollows d fails band) := by
  intro n w row step report works found same passes
  have settings : n.settings = stored.settings := seenAt_update_settings ..
  have wireless : n.wireless = stored.wireless := congrArg Settings.wireless settings
  rw [visit_eq report works ((d.pushAmid_nodeID fails n).symm ▸ found) passes, ← settings]
  apply push_again_iff settled (seenAt_knows ..) (wireless ▸ permits) (seenAt_knows ..)
  rw [seenAt_update_settings, same, settings]

end Repair

/-- The row of the device from the factory, which is to get a name and other channels. -/
def renamedRow : Row :=
  { nodeID := "f81a67a5e9c1", hostname := "attic", wireless := { channel24 := 6, channel5 := 44 }, lastseen := some 0 }

/-- The copy that a first report of the device updates. -/
def renamedNode : Node := (renamedRow.node.update (some Device.factory.report) Sample.config.ipPrefix 0).seenAt 0

def Device.reporting (d : Device) : Step := { call := .report d.report, choices := fun _ => { time := 60 } }

theorem renamed_permits : ∀ band : Band, band.Permits (renamedRow.wireless.channel band)
  | .band24 => ⟨⟨2437, true⟩, by decide, (by decide : ¬ (2437 : UInt32) > freqThreashold)⟩
  | .band5 => ⟨⟨5220, true⟩, by decide, (by decide : (5220 : UInt32) > freqThreashold)⟩

theorem renamed_clean : renamedNode.Clean := ⟨.inr (by decide), .inl (by decide +kernel)⟩

/-- The hostname is not taken at first; with the next report it is, and so are the names of the offline networks. -/
theorem repaired_renamed :
    let flawed := Device.factory.pushAmid (· = hostnameCommand "attic") renamedNode
    (visit Sample.config flawed.reporting (Sample.world [renamedRow]) flawed).Has renamedRow.settings := by
  apply (repaired_iff Sample.config renamedRow Device.factory_settled renamed_permits (· = hostnameCommand "attic") 0 0
    (Sample.world [renamedRow]) renamedRow (Device.reporting _) rfl rfl (by decide +kernel) rfl (by decide +kernel)).mpr
  exact ⟨renamed_clean, fun band => .inr ⟨by decide +kernel, .inl (decide_eq_true rfl)⟩⟩

/-- An offline network whose name could not be pushed keeps it, and no report shows this. -/
theorem ssid_never_repaired : ¬ ∀ (config : Config) (stored : Row) (d : Device), d.Settled →
    (∀ band : Band, band.Permits (stored.wireless.channel band)) → ∀ (fails : String → Bool) (updated began : Time),
    let n := (stored.node.update (some d.report) config.ipPrefix updated).seenAt began
    ∀ (w : World) (row : Row) (step : Step), step.call = .report (d.pushAmid fails n).report →
      (step.choices 1).dbFails = false → w.nodes.first d.nodeID = some row → row.settings = stored.settings →
      (row.node.seenAt (step.choices 0).time).timeFilter config.blacklistFor (step.choices 4).time = false →
      (visit config step w (d.pushAmid fails n)).Has stored.settings := by
  intro claimed
  let fails : String → Bool := fun cmd => cmd = ssidCommand "radio0" "attic"
  let flawed := Device.factory.pushAmid fails renamedNode
  have has : (visit Sample.config flawed.reporting (Sample.world [renamedRow]) flawed).Has renamedRow.settings :=
    claimed Sample.config renamedRow Device.factory Device.factory_settled renamed_permits fails 0 0
      (Sample.world [renamedRow]) renamedRow flawed.reporting rfl rfl (by decide +kernel) rfl (by decide +kernel)
  have found : (Sample.world [renamedRow]).nodes.first flawed.nodeID = some renamedRow := by
    rw [Device.pushAmid_nodeID]
    decide +kernel
  have knows : renamedNode.Knows Device.factory := seenAt_knows ..
  have again := (seenAt_update_settings renamedRow (some flawed.report) Sample.config.ipPrefix 60 60).trans
    (seenAt_update_settings renamedRow (some Device.factory.report) Sample.config.ipPrefix 0 0).symm
  rw [visit_eq rfl rfl found (by decide +kernel)] at has
  obtain ⟨-, follows⟩ :=
    (push_again_iff Device.factory_settled knows renamed_permits
      (seenAt_knows renamedRow.node flawed _ 60 60) again).mp has
  rcases follows .band24 with right | ⟨-, failed | ⟨-, spared⟩⟩
  · revert right
    decide +kernel
  · revert failed
    decide +kernel
  · revert spared
    decide +kernel

end FreifunkManager
