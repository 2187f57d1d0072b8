import FreifunkManager.Proofs.Reconcile
import FreifunkManager.Proofs.Serving

/-! # Reports with missing parts

`Update` keeps what was reported before if a report leaves a part out. In a report that is being handled this is
the zero value, because a row that was just loaded has no reported values; so the missing part counts as a
difference, unless the zero value is what the row asks for.
-/

namespace FreifunkManager

open Effects Program Shell Store

/-! ## Commands that change a node -/

/-- The command sets an option or restarts the radios. -/
def Changes (cmd : String) : Prop := Ssh.contains cmd "uci set" = true ∨ cmd = wifiCommand

instance (cmd : String) : Decidable (Changes cmd) := inferInstanceAs (Decidable (_ ∨ _))

theorem contains_iff {s substr : String} : Ssh.contains s substr = true ↔ substr.toList <:+: s.toList := by
  rw [Ssh.contains, List.any_eq_true, List.infix_iff_prefix_suffix]
  constructor
  · rintro ⟨tail, member, starts⟩
    exact ⟨tail, List.isPrefixOf_iff_prefix.mp starts, (List.mem_tails _ _).mp member⟩
  · rintro ⟨tail, starts, ends⟩
    exact ⟨tail, (List.mem_tails _ _).mpr ends, List.isPrefixOf_iff_prefix.mpr starts⟩

/-- A text that begins with such a command. -/
theorem changes_of_literal {first : String} {chars : List Char} (literal : first = String.ofList chars)
    (sets : ['u', 'c', 'i', ' ', 's', 'e', 't'] <:+: chars) (rest : String) : Changes (first ++ rest) := by
  left
  rw [contains_iff, String.toList_append, toList_literal literal, toList_literal (rfl : "uci set" = _)]
  exact sets.trans (List.prefix_append ..).isInfix

theorem hostname_changes (hostname : String) : Changes (hostnameCommand hostname) := by
  unfold hostnameCommand
  rw [String.append_assoc]
  exact changes_of_literal rfl (by decide +kernel) _

theorem contact_changes (owner : String) : Changes (contactCommand owner) := by
  unfold contactCommand
  rw [String.append_assoc]
  exact changes_of_literal rfl (by decide +kernel) _

theorem location_changes (location : Location) : Changes (locationCommand location) := by
  unfold locationCommand
  rw [String.append_assoc, String.append_assoc, String.append_assoc]
  exact changes_of_literal rfl (by decide +kernel) _

theorem txPower_changes (radio : String) (txPower : UInt32) : Changes (txPowerCommand radio txPower) := by
  unfold txPowerCommand
  rw [String.append_assoc, String.append_assoc, String.append_assoc]
  exact changes_of_literal rfl (by decide +kernel) _

theorem channel_changes (radio : String) (channel : UInt32) : Changes (channelCommand radio channel) := by
  unfold channelCommand
  rw [String.append_assoc, String.append_assoc, String.append_assoc]
  exact changes_of_literal rfl (by decide +kernel) _

/-- A text that is only read. -/
theorem not_changes_of_literal {text : String} {chars : List Char} (literal : text = String.ofList chars)
    (reads : ¬ ['u', 'c', 'i', ' ', 's', 'e', 't'] <:+: chars) (other : chars ≠ ['w', 'i', 'f', 'i']) :
    ¬ Changes text := by
  rintro (sets | restarts)
  · rw [contains_iff, toList_literal literal, toList_literal (rfl : "uci set" = _)] at sets
    exact reads sets
  · have same := congrArg String.toList restarts
    rw [toList_literal literal, toList_literal (rfl : wifiCommand = _)] at same
    exact other same

/-- No command of a call that changes a node. -/
def Event.Unchanging (e : Event) : Prop := ∀ cmd, e.op = .runCommand cmd → ¬ Changes cmd

/-! ## When an update changes nothing -/

/-- Nothing that an update pushes differs from the report; a radio is left alone if its channel is not permitted. -/
structure Node.Quiet (n : Node) : Prop where
  hostname : n.hostname = n.hostnameRespondd
  owner : n.owner = n.ownerRespondd
  location : locationEqual n.location n.locationRespondd = true
  radios : ∀ band : Band, (getChannel (n.wireless.channel band)).isSome →
    n.wireless.channel band = n.wirelessRespondd.channel band ∧
    n.wireless.txPower band = n.wirelessRespondd.txPower band

theorem Node.Quiet.unchanged {n : Node} (quiet : n.Quiet) {cmd : String} (pushes : n.Pushes cmd) : ¬ Changes cmd := by
  cases pushes with
  | hostname differs => exact absurd quiet.hostname differs
  | owner differs => exact absurd quiet.owner differs
  | location differs => exact absurd (quiet.location.symm.trans differs) (by decide)
  | asks24 =>
    exact not_changes_of_literal (append_literal
      (append_literal (append_literal (append_literal rfl rfl) rfl) rfl) rfl) (by decide +kernel)
      (by decide +kernel)
  | asks5 =>
    exact not_changes_of_literal (append_literal
      (append_literal (append_literal (append_literal rfl rfl) rfl) rfl) rfl) (by decide +kernel)
      (by decide +kernel)
  | txPower24 radio permitted differs => exact absurd (quiet.radios .band24 permitted).2 differs
  | txPower5 radio permitted differs => exact absurd (quiet.radios .band5 permitted).2 differs
  | channel24 radio permitted differs => exact absurd (quiet.radios .band24 permitted).1 differs
  | channel5 radio permitted differs => exact absurd (quiet.radios .band5 permitted).1 differs
  | ssid radio differs => exact absurd quiet.hostname differs
  | wifi24 permitted differs => exact absurd (quiet.radios .band24 permitted).1 differs
  | wifi5 permitted differs => exact absurd (quiet.radios .band5 permitted).1 differs

/-- The other end keeps a record of the commands, and calls its radio by a name. -/
structure Remote.Records {σ : Type} (remote : Remote σ) (issued : String → σ → Prop) : Prop where
  now : ∀ cmd s, issued cmd (remote.answer cmd s).2
  kept : ∀ cmd other s, issued cmd s → issued cmd (remote.answer other s).2
  named : ∀ cmd s, (remote.answer cmd s).1 = some "radio0\n"

namespace Remote.Records

variable {σ : Type} {remote : Remote σ} {issued : String → σ → Prop} (records : remote.Records issued)

include records

theorem pushIf_kept {cmd : String} {s : σ} (before : issued cmd s) (condition : Bool) (other : String) :
    issued cmd (remote.pushIf condition other s) := by
  cases condition with
  | false => exact before
  | true => exact records.kept cmd other s before

theorem pushIf_now {condition : Bool} (holds : condition = true) (cmd : String) (s : σ) :
    issued cmd (remote.pushIf condition cmd s) := by
  rw [holds]
  exact records.now cmd s

theorem updateRadio_eq (n : Node) (probe : String) (txPower txPowerRespondd channel channelRespondd : UInt32) (s : σ) :
    remote.updateRadio n probe txPower txPowerRespondd channel channelRespondd s =
      (true, retunes channel channelRespondd,
        remote.pushRadio n "radio0" txPower txPowerRespondd channel channelRespondd (remote.answer probe s).2) := by
  have answered : remote.answer probe s = (some "radio0\n", (remote.answer probe s).2) :=
    Prod.ext (records.named probe s) rfl
  rw [updateRadio, answered]
  exact if_neg (by decide)

theorem pushRadio_kept {cmd : String} {s : σ} (before : issued cmd s) (n : Node) (radio : String)
    (txPower txPowerRespondd channel channelRespondd : UInt32) :
    issued cmd (remote.pushRadio n radio txPower txPowerRespondd channel channelRespondd s) :=
  records.pushIf_kept (records.pushIf_kept (records.pushIf_kept before _ _) _ _) _ _

theorem pushRadio_txPower (n : Node) (radio : String) {txPower txPowerRespondd channel : UInt32}
    (permitted : (getChannel channel).isSome) (differs : txPower ≠ txPowerRespondd) (channelRespondd : UInt32) (s : σ) :
    issued (txPowerCommand radio txPower)
      (remote.pushRadio n radio txPower txPowerRespondd channel channelRespondd s) := by
  apply records.pushIf_kept
  apply records.pushIf_kept
  exact records.pushIf_now (by rw [permitted, Bool.true_and, bne_iff_ne]; exact differs) _ _

theorem pushRadio_channel (n : Node) (radio : String) {channel channelRespondd : UInt32}
    (permitted : (getChannel channel).isSome) (differs : channel ≠ channelRespondd) (txPower txPowerRespondd : UInt32)
    (s : σ) : issued (channelCommand radio channel)
      (remote.pushRadio n radio txPower txPowerRespondd channel channelRespondd s) := by
  apply records.pushIf_kept
  exact records.pushIf_now (by rw [retunes, permitted, Bool.true_and, bne_iff_ne]; exact differs) _ _

/-- The radios are asked for, and their settings pushed, one after the other. -/
theorem updateRadios_eq (n : Node) (s : σ) : ∃ armed, remote.updateRadios n s = remote.pushIf armed wifiCommand
    (remote.pushRadio n "radio0" n.wireless.txPower5 n.wirelessRespondd.txPower5 n.wireless.channel5
      n.wirelessRespondd.channel5 (remote.answer radio5Command
        (remote.pushRadio n "radio0" n.wireless.txPower24 n.wirelessRespondd.txPower24 n.wireless.channel24
          n.wirelessRespondd.channel24 (remote.answer radio24Command s).2)).2) := by
  unfold updateRadios updateRadio24 updateRadio5
  rw [records.updateRadio_eq]
  dsimp only
  rw [records.updateRadio_eq]
  exact ⟨_, rfl⟩

theorem updateRadios_kept {cmd : String} {s : σ} (before : issued cmd s) (n : Node) :
    issued cmd (remote.updateRadios n s) := by
  obtain ⟨armed, same⟩ := records.updateRadios_eq n s
  rw [same]
  apply records.pushIf_kept
  apply records.pushRadio_kept
  apply records.kept
  apply records.pushRadio_kept
  exact records.kept _ _ _ before

/-- What is pushed before the radios is issued. -/
theorem update_kept {cmd : String} {n : Node} {s : σ}
    (before : issued cmd (remote.pushIf (!locationEqual n.location n.locationRespondd) (locationCommand n.location)
      (remote.pushIf (n.owner != n.ownerRespondd) (contactCommand n.owner)
        (remote.pushIf (n.hostname != n.hostnameRespondd) (hostnameCommand n.hostname) s)))) :
    issued cmd (remote.update n s) := records.updateRadios_kept before n

/-- An update that changes nothing has no difference to push. -/
theorem quiet_of_unchanged {n : Node} {s : σ} (unchanged : ∀ cmd, issued cmd (remote.update n s) → ¬ Changes cmd) :
    n.Quiet := by
  have radios (cmd : String) (pushed : ∀ s, issued cmd (remote.updateRadios n s)) : ¬ Changes cmd :=
    unchanged cmd (pushed _)
  constructor
  · by_contra differs
    apply unchanged (hostnameCommand n.hostname) _ (hostname_changes _)
    apply records.update_kept
    apply records.pushIf_kept
    apply records.pushIf_kept
    exact records.pushIf_now (bne_iff_ne.mpr differs) _ _
  · by_contra differs
    apply unchanged (contactCommand n.owner) _ (contact_changes _)
    apply records.update_kept
    apply records.pushIf_kept
    exact records.pushIf_now (bne_iff_ne.mpr differs) _ _
  · by_contra differs
    apply unchanged (locationCommand n.location) _ (location_changes _)
    apply records.update_kept
    exact records.pushIf_now (by simpa using differs) _ _
  · intro band permitted
    have radio24 (cmd : String) (pushed : ∀ s, issued cmd (remote.pushRadio n "radio0" n.wireless.txPower24
        n.wirelessRespondd.txPower24 n.wireless.channel24 n.wirelessRespondd.channel24 s)) : ¬ Changes cmd := by
      apply radios
      intro s
      obtain ⟨armed, same⟩ := records.updateRadios_eq n s
      rw [same]
      exact records.pushIf_kept (records.pushRadio_kept (records.kept _ _ _ (pushed _)) _ _ _ _ _ _) _ _
    have radio5 (cmd : String) (pushed : ∀ s, issued cmd (remote.pushRadio n "radio0" n.wireless.txPower5
        n.wirelessRespondd.txPower5 n.wireless.channel5 n.wirelessRespondd.channel5 s)) : ¬ Changes cmd := by
      apply radios
      intro s
      obtain ⟨armed, same⟩ := records.updateRadios_eq n s
      rw [same]
      exact records.pushIf_kept (pushed _) _ _
    cases band with
    | band24 =>
      constructor
      · by_contra differs
        exact radio24 _ (records.pushRadio_channel n "radio0" permitted differs _ _) (channel_changes _ _)
      · by_contra differs
        exact radio24 _ (records.pushRadio_txPower n "radio0" permitted differs _) (txPower_changes _ _)
    | band5 =>
      constructor
      · by_contra differs
        exact radio5 _ (records.pushRadio_channel n "radio0" permitted differs _ _) (channel_changes _ _)
      · by_contra differs
        exact radio5 _ (records.pushRadio_txPower n "radio0" permitted differs _) (txPower_changes _ _)

end Remote.Records

/-! ## A report that reaches its node -/

/-- A step in which everything works; the time filter is checked at the end of the period. -/
def reaching (part : Yanic.Node) (time : Time) (blacklistFor : Duration) : Step where
  call := .report part
  choices i := { time := if i = 4 then time + blacklistFor else time, output := some "radio0\n" }

/-- The node that is reached, seen from the database. -/
def Step.remote (step : Step) : Remote (World × ℕ) where
  answer cmd s := step.handle (.runCommand cmd) (step.handle .newSession s).2

/-- The log shows the command. -/
def Issued (cmd : String) (s : World × ℕ) : Prop := ∃ e ∈ s.1.log, e.op = .runCommand cmd

/-- Only one row is stored. -/
def alone (row : Row) : World where
  nodes := ⟨[row], List.nodup_singleton _⟩

section Reaching

variable (config : Config) {part : Yanic.Node} {time : Time} {blacklistFor : Duration} {row : Row}

theorem reaching_records : (reaching part time blacklistFor).remote.Records Issued where
  now _ _ := ⟨_, .head _, rfl⟩
  kept _ _ _ := fun ⟨e, member, same⟩ => ⟨e, .tail _ (.tail _ member), same⟩
  named _ _ := rfl

theorem reaching_serves : (reaching part time blacklistFor).remote.Serves (reaching part time blacklistFor).handle :=
  ⟨fun _ => rfl, fun _ _ => rfl⟩

theorem quiet_of_checkRespondd {n : Node} (checked : n.checkRespondd = true) : n.Quiet := by
  unfold Node.checkRespondd at checked
  simp only [Bool.and_eq_true, beq_iff_eq, wirelessEqual_iff] at checked
  obtain ⟨⟨⟨hostname, owner⟩, location⟩, wireless⟩ := checked
  exact ⟨hostname, owner, location, fun band _ => by rw [wireless]; exact ⟨rfl, rfl⟩⟩

theorem first_alone (row : Row) : (alone row).nodes.first row.nodeID = some row := by
  rw [Table.first]
  split
  · rfl
  · exact Table.lookup_eq_some.mpr ⟨List.mem_singleton_self row, rfl⟩

/-- An update that reaches the node and changes nothing found no difference. -/
theorem quiet_of_pushed {lNode : Node} {now : Time} {s : World × ℕ} {connected : World × ℕ}
    (connects : (reaching part time blacklistFor).handle (.connectTo lNode.getAddress) s = (none, connected)) :
    (lNode.pushOrBlacklist now).run.Along (S := operations) (reaching part time blacklistFor).Next
      (fun _ after => (∀ e ∈ after.1.log, e.Unchanging) → lNode.Quiet) s := by
  apply (along_next_iff _).mpr
  intro unchanged
  by_cases checked : lNode.checkRespondd = true
  · exact quiet_of_checkRespondd checked
  · have updated : Does (reaching part time blacklistFor).handle lNode.pushDifferences true s
        ((reaching part time blacklistFor).remote.update lNode connected) := by
      unfold Node.pushDifferences
      rw [if_neg checked]
      exact does_update reaching_serves lNode connects
    have sent : Does (reaching part time blacklistFor).handle (lNode.pushOrBlacklist now) () s _ :=
      updated.bind (by exact rfl)
    rw [show (lNode.pushOrBlacklist now).run.run _ s = _ from sent] at unchanged
    apply reaching_records.quiet_of_unchanged
    rintro cmd ⟨e, member, same⟩
    exact unchanged e (.tail _ member) cmd same

/-- A report that reaches its node and changes nothing found no difference. -/
theorem quiet_of_reaching {info : Yanic.Nodeinfo} (known : part.nodeinfo = some info) (own : row.nodeID = info.nodeID)
    (expired : ∀ t, row.blacklist = some t → t ≤ time)
    (unchanged : ∀ e ∈ (serve config (reaching part time config.blacklistFor) (alone row)).1.log,
      e.Unchanging) :
    ((row.node.update (some part) config.ipPrefix time).seenAt time).Quiet := by
  revert unchanged
  let lNode := (row.node.update (some part) config.ipPrefix time).seenAt time
  apply serve_next config (reaching part time config.blacklistFor) fun after _ =>
    (∀ e ∈ after.log, e.Unchanging) → lNode.Quiet
  change Along (S := operations) _ _ (insertNode config part).run _
  unfold insertNode
  rw [known]
  rintro now _ ⟨begun, rfl⟩ found _ ⟨reads, rfl⟩
  have read : found = some row := reads.trans (own ▸ first_alone row)
  subst read
  rintro updated _ ⟨stamped, rfl⟩ written _ ⟨-, rfl⟩ checked _ ⟨checks, rfl⟩
  have passes : lNode.timeFilter config.blacklistFor (time + config.blacklistFor) = false := by
    rw [Node.timeFilter, add_sub_cancel_right, Bool.or_eq_false_iff]
    constructor
    · exact decide_eq_false (lt_irrefl time)
    · rw [show lNode.blacklist = row.blacklist from Node.update_blacklist ..]
      cases stamp : row.blacklist with
      | none => rfl
      | some t => exact decide_eq_false (not_lt.mpr (expired t stamp))
  have goesOn (s : World × ℕ)
      (connects : ((reaching part time config.blacklistFor).handle (.connectTo lNode.getAddress) s).1 = none) :
      Along (S := operations) (reaching part time config.blacklistFor).Next
        (fun _ after => (∀ e ∈ after.1.log, e.Unchanging) → lNode.Quiet)
        (ExceptT.run (m := Prog) (if lNode.timeFilter config.blacklistFor (time + config.blacklistFor) then pure ()
          else lNode.pushOrBlacklist time)) s := by
    rw [if_neg (by rw [passes]; exact Bool.false_ne_true)]
    exact quiet_of_pushed (Prod.ext connects rfl)
  rw [show now = time from begun, show updated = time from stamped,
    show checked = time + config.blacklistFor from checks]
  exact goesOn _ rfl

end Reaching

/-! ## Parts -/

instance (frequency : UInt32) : (band : Band) → Decidable (band.Contains frequency)
  | .band24 => inferInstanceAs (Decidable (¬ frequency > freqThreashold))
  | .band5 => inferInstanceAs (Decidable (frequency > freqThreashold))

/-- The frequency is that of a permitted channel of the band. -/
def Band.hears (band : Band) (frequency : UInt32) : Bool := heard frequency ≠ 0 ∧ band.Contains frequency

namespace Yanic

/-- The same report of a node, as far as its parts came in. -/
structure Nodeinfo.PartOf (part whole : Nodeinfo) : Prop where
  nodeID : part.nodeID = whole.nodeID
  hostname : part.hostname = whole.hostname
  addresses : part.addresses = whole.addresses
  owner : part.owner = none ∨ part.owner = whole.owner
  location : part.location = none ∨ part.location = whole.location
  wireless : part.wireless = none ∨ part.wireless = whole.wireless

/-- The same statistics, as far as the entries of radios came in. -/
def Statistics.PartOf (part whole : Statistics) : Prop :=
  part.wireless.Sublist whole.wireless ∧ part.clients = whole.clients

/-- The same report, as far as it came in. -/
structure Node.PartOf (part whole : Node) : Prop where
  nodeinfo : Option.Rel Nodeinfo.PartOf part.nodeinfo whole.nodeinfo
  statistics : part.statistics = none ∨ Option.Rel Statistics.PartOf part.statistics whole.statistics

/-- The channel that the statistics show for a band: the last one that is heard in it. -/
def Statistics.shown (stats : Statistics) (band : Band) : UInt32 :=
  ((stats.wireless.map (·.frequency)).filter band.hears).getLast?.elim 0 heard

end Yanic

theorem airtimeChannel_channel (settings : WirelessSettings) (wifi : WirelessAirtime) (band : Band) :
    (airtimeChannel settings wifi).channel band =
      if band.hears wifi.frequency then heard wifi.frequency else settings.channel band := by
  rw [show wifi = ⟨wifi.frequency⟩ from rfl, airtimeChannel_eq]
  by_cases silent : heard wifi.frequency = 0
  · rw [if_pos silent, if_neg (by simp [Band.hears, silent])]
  · rw [if_neg silent]
    by_cases high : wifi.frequency > freqThreashold
    · cases band <;> simp [high, silent, Band.hears, Band.Contains, WirelessSettings.channel]
    · cases band <;> simp [high, silent, Band.hears, Band.Contains, WirelessSettings.channel]

theorem airtimeChannel_txPower (settings : WirelessSettings) (wifi : WirelessAirtime) (band : Band) :
    (airtimeChannel settings wifi).txPower band = settings.txPower band := by
  rw [show wifi = ⟨wifi.frequency⟩ from rfl, airtimeChannel_eq]
  split_ifs <;> cases band <;> rfl

theorem airtimeChannels_channel (wireless : List WirelessAirtime) (clients : Clients) (band : Band) :
    (wireless.foldl airtimeChannel {}).channel band = (Yanic.Statistics.mk wireless clients).shown band := by
  induction wireless using List.reverseRecOn with
  | nil => cases band <;> rfl
  | append_singleton wireless wifi ih =>
    rw [List.foldl_append, List.foldl_cons, List.foldl_nil, airtimeChannel_channel, ih]
    unfold Yanic.Statistics.shown
    rw [List.map_append, List.filter_append, List.map_cons, List.map_nil]
    split_ifs with audible
    · rw [List.filter_cons_of_pos audible, List.filter_nil, List.getLast?_concat]
      rfl
    · rw [List.filter_cons_of_neg audible, List.filter_nil, List.append_nil]

theorem airtimeChannels_txPower (wireless : List WirelessAirtime) (band : Band) :
    (wireless.foldl airtimeChannel {}).txPower band = 0 := by
  induction wireless using List.reverseRecOn with
  | nil => cases band <;> rfl
  | append_singleton wireless wifi ih =>
    rw [List.foldl_append, List.foldl_cons, List.foldl_nil, airtimeChannel_txPower, ih]

def Yanic.Wireless.txPower (wireless : Yanic.Wireless) : Band → UInt32
  | .band24 => wireless.txPower24
  | .band5 => wireless.txPower5

section Respondd

variable (info : Yanic.Nodeinfo) (stats : Yanic.Statistics) (band : Band)

theorem getWirelessSettings_channel : ((getWirelessSettings ⟨some info, some stats⟩).getD {}).channel band =
    stats.shown band := by
  rw [← airtimeChannels_channel stats.wireless stats.clients band]
  cases wifi : info.wireless with
  | none => simp [getWirelessSettings, wifi]
  | some wireless =>
    simp only [getWirelessSettings, wifi, Option.map_some, Option.bind_some, Option.getD_some]
    split_ifs <;> cases band <;> rfl

theorem getWirelessSettings_txPower : ((getWirelessSettings ⟨some info, some stats⟩).getD {}).txPower band =
    info.wireless.elim 0 (·.txPower band) := by
  have power := airtimeChannels_txPower stats.wireless
  have power24 : (stats.wireless.foldl airtimeChannel {}).txPower24 = 0 := power .band24
  have power5 : (stats.wireless.foldl airtimeChannel {}).txPower5 = 0 := power .band5
  cases wifi : info.wireless with
  | none => simpa [getWirelessSettings, wifi] using power band
  | some wireless =>
    simp only [getWirelessSettings, wifi, Option.map_some, Option.bind_some, Option.getD_some, power24, if_true, power5]
    cases band <;> rfl

end Respondd

/-- The row asks for the zero value of every part that is missing. Of the wireless settings those count whose channel
is permitted; it must be shown, and so what is left of the statistics counts too. -/
structure Row.Spares (row : Row) (info : Yanic.Nodeinfo) (statistics : Option Yanic.Statistics) : Prop where
  owner : info.owner = none → row.owner = ""
  location : info.location = none → locationEqual row.location {} = true
  channel : ∀ band, (getChannel (row.wireless.channel band)).isSome →
    ∃ stats, statistics = some stats ∧ stats.shown band = row.wireless.channel band
  txPower : ∀ band, (getChannel (row.wireless.channel band)).isSome → info.wireless = none →
    row.wireless.txPower band = 0

section Parts

variable {row : Row} {info whole : Yanic.Nodeinfo} {statistics wholeStatistics : Option Yanic.Statistics}
  {ipPrefix : String} {time wholeTime now : Time}

private theorem permitted_ne_zero {channel : UInt32} (permitted : (getChannel channel).isSome) : channel ≠ 0 := by
  rintro rfl
  exact absurd permitted (by decide)

/-- What an update compares for a report that came in, with a row that was just loaded. -/
theorem quiet_iff : ((row.node.update (some ⟨some info, statistics⟩) ipPrefix time).seenAt now).Quiet ↔
    row.hostname = info.hostname ∧ row.owner = (info.owner.map (·.contact)).getD "" ∧
      locationEqual row.location (info.location.getD {}) = true ∧
      ∀ band, (getChannel (row.wireless.channel band)).isSome →
        ∃ stats, statistics = some stats ∧ row.wireless.channel band = stats.shown band ∧
          row.wireless.txPower band = info.wireless.elim 0 (·.txPower band) := by
  have nothing (band : Band) : ({} : WirelessSettings).channel band = 0 := by cases band <;> rfl
  have compares : ((row.node.update (some ⟨some info, statistics⟩) ipPrefix time).seenAt now).Quiet ↔
      row.hostname = info.hostname ∧ row.owner = (info.owner.map (·.contact)).getD "" ∧
        locationEqual row.location (info.location.getD {}) = true ∧
        ∀ band, (getChannel (row.wireless.channel band)).isSome →
          row.wireless.channel band = ((getWirelessSettings ⟨some info, statistics⟩).getD {}).channel band ∧
          row.wireless.txPower band = ((getWirelessSettings ⟨some info, statistics⟩).getD {}).txPower band := by
    cases statistics <;> exact ⟨fun quiet => ⟨quiet.1, quiet.2, quiet.3, quiet.4⟩,
      fun ⟨hostname, owner, location, radios⟩ => ⟨hostname, owner, location, radios⟩⟩
  rw [compares]
  cases statistics with
  | none =>
    have unseen (band : Band) (permitted : (getChannel (row.wireless.channel band)).isSome) :
        ¬ (row.wireless.channel band = ({} : WirelessSettings).channel band) :=
      fun same => permitted_ne_zero permitted (same.trans (nothing band))
    simp only [reduceCtorEq, false_and, exists_false]
    constructor
    · rintro ⟨hostname, owner, location, radios⟩
      exact ⟨hostname, owner, location, fun band permitted => unseen band permitted (radios band permitted).1⟩
    · rintro ⟨hostname, owner, location, radios⟩
      exact ⟨hostname, owner, location, fun band permitted => (radios band permitted).elim⟩
  | some stats =>
    simp only [getWirelessSettings_channel, getWirelessSettings_txPower, Option.some.injEq, exists_eq_left']

/-- The missing parts decide whether there is a difference, if there was none to the whole report. -/
theorem quiet_iff_spares (partOf : info.PartOf whole) (agrees :
      (row.node.update (some ⟨some whole, wholeStatistics⟩) ipPrefix wholeTime).checkRespondd = true) :
    ((row.node.update (some ⟨some info, statistics⟩) ipPrefix time).seenAt now).Quiet ↔ row.Spares info statistics := by
  have quiet : ((row.node.update (some ⟨some whole, wholeStatistics⟩) ipPrefix wholeTime).seenAt now).Quiet :=
    quiet_of_checkRespondd agrees
  obtain ⟨hostname, owner, location, radios⟩ := quiet_iff.mp quiet
  rw [quiet_iff]
  constructor
  · rintro ⟨-, owner, location, radios⟩
    constructor
    · intro missing
      rw [missing] at owner
      exact owner
    · intro missing
      rw [missing] at location
      exact location
    · intro band permitted
      obtain ⟨stats, came, channel, -⟩ := radios band permitted
      exact ⟨stats, came, channel.symm⟩
    · intro band permitted missing
      obtain ⟨-, -, -, txPower⟩ := radios band permitted
      rw [missing] at txPower
      exact txPower
  · intro spares
    refine ⟨hostname.trans partOf.hostname.symm, ?_, ?_, ?_⟩
    · rcases partOf.owner with missing | same
      · rw [missing]
        exact spares.owner missing
      · rw [same]
        exact owner
    · rcases partOf.location with missing | same
      · rw [missing]
        exact spares.location missing
      · rw [same]
        exact location
    · intro band permitted
      obtain ⟨stats, came, channel⟩ := spares.channel band permitted
      refine ⟨stats, came, channel.symm, ?_⟩
      rcases partOf.wireless with missing | same
      · rw [missing]
        exact spares.txPower band permitted missing
      · obtain ⟨-, -, -, txPower⟩ := radios band permitted
        rw [same]
        exact txPower

end Parts

/-! ## Reports with missing parts -/

/-- A report changes nothing on its node if the node built from it has no difference. -/
theorem unchanged_of_quiet (config : Config) {part : Yanic.Node} {info : Yanic.Nodeinfo} {row : Row}
    (known : part.nodeinfo = some info)
    (quiet : ∀ time now, ((row.node.update (some part) config.ipPrefix time).seenAt now).Quiet)
    {w : World} (first : w.nodes.first info.nodeID = some row) {step : Step} (report : step.call = .report part) :
    ∀ e ∈ (serve config step w).1.since w, e.Unchanging := by
  rw [serve_since]
  apply serve_moves config step fun after => ∀ e ∈ after.log, e.Unchanging
  rw [report]
  have begun (found : Option Row) (now read : Time) : ∀ e ∈ step.begun info.nodeID found now read [], e.Unchanging := by
    refine List.forall_mem_cons.mpr ⟨fun _ same => (by cases same), ?_⟩
    exact List.forall_mem_cons.mpr ⟨fun _ same => (by cases same), List.forall_mem_nil _⟩
  apply insertNode_along config step known
  · intro i j k stored read
    have same : stored = row := by
      change (if (step.choices j).dbFails then none else w.nodes.first info.nodeID) = some stored at read
      split at read
      · contradiction
      · exact Option.some.inj (read.symm.trans first)
    subst same
    apply along_events step (refreshKnown_only known _ _ stored)
    · rintro e ⟨-, issues⟩ cmd runs
      rw [runs] at issues
      exact (quiet _ _).unchanged issues
    · exact List.forall_mem_cons.mpr ⟨fun _ same => (by cases same), begun _ _ _⟩
  · intro i j read
    apply along_events step (learnNew_only known _)
    · rintro e ⟨-, runs⟩ cmd same
      rw [same] at runs
      rw [show cmd = "uptime" from runs]
      decide +kernel
    · exact begun _ _ _

/-- A report of which parts are missing changes nothing on its node, whatever happens on the way, if and only if the
row asks for the zero value of what is missing; provided that the whole report shows no difference. -/
theorem partReport_unchanged_iff (config : Config) {part whole : Yanic.Node} {info : Yanic.Nodeinfo} {row : Row}
    {seen : Time} (known : part.nodeinfo = some info) (partOf : part.PartOf whole) (own : row.nodeID = info.nodeID)
    (agrees : (row.node.update (some whole) config.ipPrefix seen).checkRespondd = true) :
    (∀ (w : World) (step : Step), w.nodes.first info.nodeID = some row → step.call = .report part →
      ∀ e ∈ (serve config step w).1.since w, e.Unchanging) ↔
    row.Spares info part.statistics := by
  obtain ⟨nodeinfo, statistics⟩ := part
  obtain ⟨wholeNodeinfo, wholeStatistics⟩ := whole
  obtain rfl : nodeinfo = some info := known
  obtain ⟨wholeInfo, rfl, infoOf⟩ : ∃ wholeInfo, wholeNodeinfo = some wholeInfo ∧ info.PartOf wholeInfo := by
    cases wholeNodeinfo with
    | none => exact nomatch partOf.nodeinfo
    | some wholeInfo =>
      have related := partOf.nodeinfo
      cases related with
      | some infoOf => exact ⟨wholeInfo, rfl, infoOf⟩
  constructor
  · intro unchanged
    have expired (t : Time) (stamp : row.blacklist = some t) : t ≤ row.blacklist.getD 0 := by
      rw [stamp, Option.getD_some]
    apply (quiet_iff_spares infoOf agrees).mp
    apply quiet_of_reaching config rfl own expired
    have events := unchanged (alone row) (reaching ⟨some info, statistics⟩ (row.blacklist.getD 0) config.blacklistFor)
      (own ▸ first_alone row) rfl
    rwa [serve_since] at events
  · intro spares w step first report
    apply unchanged_of_quiet config rfl _ first report
    exact fun time now => (quiet_iff_spares infoOf agrees).mpr spares

/-- A node in agreement with its row, which has no owner. -/
def Sample.agreeing : Yanic.Node where
  nodeinfo := some { nodeID := "f81a67a5e9c1", hostname := "attic", owner := some ⟨""⟩, location := some {} }
  statistics := some {}

/-- The same report without its owner and its location. -/
def Sample.part : Yanic.Node where
  nodeinfo := some { nodeID := "f81a67a5e9c1", hostname := "attic" }
  statistics := some {}

theorem Sample.part_partOf : Sample.part.PartOf Sample.agreeing where
  nodeinfo := .some ⟨rfl, rfl, rfl, .inl rfl, .inl rfl, .inl rfl⟩
  statistics := .inr (.some ⟨List.Sublist.refl _, rfl⟩)

theorem partReport_unchanged_noOwner :
    Sample.row.Spares { nodeID := "f81a67a5e9c1", hostname := "attic" } (some {}) ∧
    ∀ (w : World) (step : Step), w.nodes.first "f81a67a5e9c1" = some Sample.row →
      step.call = .report Sample.part → ∀ e ∈ (serve Sample.config step w).1.since w, e.Unchanging := by
  have agrees : (Sample.row.node.update (some Sample.agreeing) Sample.config.ipPrefix 60).checkRespondd = true := by
    decide +kernel
  have spares : Sample.row.Spares { nodeID := "f81a67a5e9c1", hostname := "attic" } (some {}) := by
    constructor
    · exact fun _ => rfl
    · exact fun _ => by decide +kernel
    · intro band permitted
      cases band <;> exact absurd permitted (by decide)
    · intro band permitted
      cases band <;> exact absurd permitted (by decide)
  exact ⟨spares, (partReport_unchanged_iff Sample.config rfl Sample.part_partOf rfl agrees).mpr spares⟩

/-- A row that asks for a channel, and a node that is on it. -/
def Sample.tuned : Row := { Sample.row with wireless := { channel24 := 1 } }

def Sample.onChannel : Yanic.Node :=
  { Sample.agreeing with statistics := some { wireless := [⟨2412⟩] } }

/-- When the statistics of a node are late, its radios are restarted. -/
theorem partReport_restarts :
    let part : Yanic.Node := { Sample.onChannel with statistics := none }
    part.PartOf Sample.onChannel ∧
      (Sample.tuned.node.update (some Sample.onChannel) Sample.config.ipPrefix 60).checkRespondd = true ∧
      ¬ ∀ e ∈ (serve Sample.config (reaching part 60 3600) (alone Sample.tuned)).1.log, e.Unchanging := by
  intro part
  refine ⟨⟨.some ⟨rfl, rfl, rfl, .inr rfl, .inr rfl, .inr rfl⟩, .inl rfl⟩, by decide +kernel, fun unchanging => ?_⟩
  have restarted : ((serve Sample.config (reaching part 60 3600) (alone Sample.tuned)).1.log.any
      fun e => e.op = .runCommand wifiCommand) = true := by decide +kernel
  obtain ⟨e, member, runs⟩ := List.any_eq_true.mp restarted
  exact unchanging e member wifiCommand (of_decide_eq_true runs) (.inr rfl)

end FreifunkManager
