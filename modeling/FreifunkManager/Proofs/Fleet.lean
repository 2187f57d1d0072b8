import FreifunkManager.Model.Fleet
import FreifunkManager.Proofs.Edits
import FreifunkManager.Proofs.FreshNode
import FreifunkManager.Proofs.Interleaving
import FreifunkManager.Proofs.ReportReload

/-! # Devices follow their rows

A report makes its device what the row of its node asks for, and a device that is not known yet makes a row. Until the
row is edited or the device is changed by other means, the two stay in agreement, whatever happens to other nodes.
-/

namespace FreifunkManager.Fleet

open Effects Program Store

/-- The device is configured as the row says. -/
structure Matches (row : Row) (d : Device) : Prop where
  hostname : row.hostname = d.value .hostname
  owner : row.owner = d.value .contact
  location : locationEqual row.location d.location = true
  wireless : ∀ band, row.wireless.channel band = d.reported.channel band ∧
    row.wireless.txPower band = d.reported.txPower band

/-- A check that finds no difference, for a node with the settings of the row. -/
theorem matches_of_check {row : Row} {n : Node} {d : Device} {ipPrefix : String} {now : Time}
    (same : n.settings = row.settings)
    (check : (n.update (some d.report) ipPrefix now).checkRespondd = true) : Matches row d := by
  simp only [Node.settings, Row.settings, Settings.mk.injEq] at same
  obtain ⟨hostname, owner, location, wireless⟩ := same
  rw [checkRespondd_report, hostname, owner, location, wireless] at check
  exact ⟨check.1, check.2.1, check.2.2.1, check.2.2.2⟩

/-- Only the settings count. -/
theorem Matches.congr {row other : Row} {d : Device} (fits : Matches row d) (same : other.settings = row.settings) :
    Matches other d := by
  simp only [Row.settings, Settings.mk.injEq] at same
  obtain ⟨hostname, owner, location, wireless⟩ := same
  constructor
  · rw [hostname, fits.hostname]
  · rw [owner, fits.owner]
  · rw [location, fits.location]
  · rw [wireless]
    exact fits.wireless

/-! ## Devices -/

section Devices

variable {d : Device} {n : Node}

theorem push_seenAt (d : Device) (n : Node) (now : Time) : d.push (n.seenAt now) = d.push n := by
  rw [Device.push_eq, Device.push_eq]
  rfl

theorem push_nodeID (d : Device) (n : Node) : (d.push n).nodeID = d.nodeID := by
  rw [Device.push_eq_pushAmid, Device.pushAmid_nodeID]

/-- An update leaves the radios as they are configured, each in its band. -/
theorem push_settled (settled : d.Settled) (reconcilable : n.Reconcilable) : (d.push n).Settled := by
  have clean := reconcilable.toClean
  have permits {band : Band} (retuned : retunes (n.wireless.channel band) (n.wirelessRespondd.channel band) = true) :
      band.Permits (n.wireless.channel band) := by
    refine (reconcilable.radios band).resolve_left fun same => ?_
    rw [retunes, same.1, bne_self_eq_false, Bool.and_false] at retuned
    contradiction
  have inBand (band : Band) : band.Contains ((d.push n).onAir ((d.push n).radio band)) := by
    rw [Device.push_radio d clean, Device.push_onAir settled clean]
    split
    · next retuned =>
      obtain ⟨ch, permitted, contained⟩ := permits retuned
      rw [permitted]
      exact contained
    · exact settled.inBand band
  refine ⟨?_, inBand .band24, inBand .band5⟩
  funext radio
  obtain ⟨band, rfl⟩ := d.radio_surjective radio
  obtain ⟨channels, -, restarts⟩ := Device.applied_all n d.radio band
  have before : Device.tuned (d.value (.channel (d.radio band))) (d.onAir (d.radio band)) = d.onAir (d.radio band) :=
    congrFun settled.configured _
  rw [Device.wifi_onAir, Device.push_eq_pushAmid, Device.pushAmid_channel d clean,
    Device.pushAmid_onAir d clean, channels]
  cases retuned : retunes (n.wireless.channel band) (n.wirelessRespondd.channel band) with
  | true =>
    obtain ⟨ch, permitted, _⟩ := permits retuned
    rw [restarts retuned, if_pos rfl, if_pos rfl, Device.tuned_channel permitted, Device.tuned_channel permitted]
  | false => rw [if_neg Bool.false_ne_true, before, ite_self, before]

end Devices

/-! ## Reports -/

section Reports

variable {config : Config} {step : Step} {w : World} {d : Device}

/-- An operation of the server, with no device in it. -/
theorem does_op {op : Op} (aside : op.overSsh = false) (s : World × ℕ) (d : Device) :
    Does step.handleAt (perform op : Go op.Reply) (step.handle op s).1 (s, d) ((step.handle op s).2, d) := by
  have handled : step.handleAt op (s, d) = ((step.handle op s).1, (step.handle op s).2, d) :=
    if_neg (by rw [aside]; exact Bool.false_ne_true)
  rw [Does, show (ExceptT.run (m := Prog) (perform op : Go op.Reply)).run step.handleAt (s, d) =
    (.ok (step.handleAt op (s, d)).1, (step.handleAt op (s, d)).2) from rfl, handled]

/-- The report of a device whose row is found and passes the filter. -/
theorem report_known {row : Row} (report : step.call = .report d.report) (works : step.Works)
    (found : w.nodes.first d.nodeID = some row)
    (passes : (row.node.seenAt (step.choices 0).time).timeFilter config.blacklistFor (step.choices 4).time = false) :
    let n := (row.node.update (some d.report) config.ipPrefix (step.choices 2).time).seenAt (step.choices 0).time
    ∃ after i, (step.call.program config).run step.handleAt ((w, 0), d) = (.ok (), (after, i), d.push n) ∧
      after.nodes = w.nodes.modify row.nodeID (Columns.observed n.address (step.choices 0).time).apply
        (Columns.apply_nodeID _) := by
  intro n
  let node := row.node.update (some d.report) config.ipPrefix (step.choices 2).time
  let begun := (step.handle (.now .insertNode) (w, 0)).2
  let read := (step.handle (.firstNode d.nodeID) begun).2
  let updated := (step.handle (.now .update) read).2
  let stored := (step.handle (.updateNode node.nodeID (.observed node.address (step.choices 0).time)) updated).2
  let checked := (step.handle (.now .timeFilter) stored).2
  let sent := (step.handle (.sendNode n) checked).2
  have passes : n.timeFilter config.blacklistFor (step.choices 4).time = false := by
    rw [← passes, Node.timeFilter, Node.timeFilter]
    exact congrArg (fun blacklist => _ || Option.any _ blacklist) (Node.update_blacklist ..)
  have reads : Does step.handleAt (perform (.firstNode d.nodeID) : Go (Option Row)) (some row) (begun, d)
      (read, d) := by
    have answer : (step.handle (.firstNode d.nodeID) begun).1 = some row := by
      change (if (step.choices 1).dbFails then none else w.nodes.first d.nodeID) = some row
      rw [works, found]
      rfl
    exact answer ▸ does_op rfl begun d
  have refreshes : Does step.handleAt (refreshKnown config (step.choices 0).time node) () (updated, d)
      (sent, d.push n) := by
    refine (does_op rfl updated d).bind ((does_op rfl stored d).bind ?_)
    rw [show (step.handle (.now .timeFilter) stored).1 = (step.choices 4).time from rfl,
      if_neg (by rw [passes]; exact Bool.false_ne_true)]
    exact (pushDifferences_does n checked d).bind (does_op rfl checked (d.push n))
  have inserts : Does step.handleAt (insertNode config d.report) () ((w, 0), d) (sent, d.push n) :=
    (does_op rfl (w, 0) d).bind (reads.bind ((does_op rfl read d).bind refreshes))
  refine ⟨sent.1, sent.2, ?_, ?_⟩
  · rw [report]
    exact inserts
  · have own : node.nodeID = row.nodeID := Node.update_nodeID ..
    change (updated.1.act (step.choices 3)
      (.updateNode node.nodeID (.observed n.address (step.choices 0).time))).2.nodes = _
    simp only [World.act, works 3, Bool.false_eq_true, if_false, own]
    rfl

/-- The check of a new node leaves a device as it is. -/
theorem execute_uptime (d : Device) : d.execute "uptime" = (some "", d) := by
  have read : Shell.read "uptime" = some [[.text "uptime".toList]] := by decide +kernel
  have chars : [Shell.Token.text "uptime".toList].mapM Shell.Token.chars? = some ["uptime".toList] := by decide +kernel
  have invoked : d.invoke [.text "uptime".toList] = d := by
    unfold Device.invoke
    rw [chars]
    exact if_neg (by decide)
  rw [Device.execute, if_neg (by decide), if_neg (by decide), read]
  exact congrArg (some "", ·) invoked

theorem does_uptime (addr : TCPAddr) (s : World × ℕ) (d : Device) :
    Does step.handleAt (Ssh.runOn addr "uptime") (some "") (s, d) (s, d) := by
  have only : Only (·.overSsh = true) (Ssh.runOn addr "uptime").run := by
    refine (runOn_only addr "uptime").weaken fun op ssh => ?_
    cases op <;> first | rfl | exact ssh.elim
  have run : (Ssh.runOn addr "uptime").run.run Device.handle d = (.ok (some ""), d) :=
    congrArg (fun answer => (Except.ok answer.1, answer.2)) (execute_uptime d)
  rw [Does, run_handleAt only, run]

theorem report_unknown {node : Node} (report : step.call = .report d.report) (works : step.Works)
    (missing : w.nodes.first d.nodeID = none)
    (built : newNode d.report config.ipPrefix (step.choices 2).time = some node)
    (free : w.nodes.lookup node.nodeID = none) :
    ∃ after i, (step.call.program config).run step.handleAt ((w, 0), d) = (.ok (), (after, i), d) ∧
      w.nodes.create node.row = some after.nodes := by
  let begun := (step.handle (.now .insertNode) (w, 0)).2
  let read := (step.handle (.firstNode d.nodeID) begun).2
  let reached := (step.handle (.now .update) read).2
  let made := (step.handle (.createNode node.row) reached).2
  let sent := (step.handle (.sendNode node) made).2
  have fresh : node.blacklist = none := (newNode_learned rfl built).2
  have reads : Does step.handleAt (perform (.firstNode d.nodeID) : Go (Option Row)) none (begun, d) (read, d) := by
    have answer : (step.handle (.firstNode d.nodeID) begun).1 = none := by
      change (if (step.choices 1).dbFails then none else w.nodes.first d.nodeID) = none
      rw [missing, ite_self]
    exact answer ▸ does_op rfl begun d
  have learns : Does step.handleAt (learnNew d.report config (step.choices 0).time) () (read, d) (sent, d) := by
    refine (does_op rfl read d).bind ?_
    rw [show (step.handle (.now .update) read).1 = (step.choices 2).time from rfl, built]
    refine (does_uptime _ reached d).bind ?_
    change Does step.handleAt ((perform (.createNode node.row) : Go Bool) >>= fun _ =>
      if node.blacklist.isNone then perform (.sendNode node) else pure ()) () (reached, d) (sent, d)
    refine (does_op rfl reached d).bind ?_
    rw [fresh]
    exact does_op rfl made d
  have inserts : Does step.handleAt (insertNode config d.report) () ((w, 0), d) (sent, d) :=
    (does_op rfl (w, 0) d).bind (reads.bind learns)
  refine ⟨sent.1, sent.2, ?_, ?_⟩
  · rw [report]
    exact inserts
  · obtain ⟨nodes, created⟩ := Option.ne_none_iff_exists'.mp fun taken =>
      Table.create_eq_none.mp taken (show w.nodes.lookup (Row.nodeID node.row) = none from free)
    rw [created]
    change some nodes = some (reached.1.act (step.choices 3) (.createNode node.row)).2.nodes
    rw [World.act_createNode, works 3, if_neg (by decide),
      show reached.1.nodes.create node.row = some nodes from created]

end Reports

/-! ## Runs -/

/-- The settings of a row. -/
def settingsOf (w : World) (nodeID : String) : Option Settings := (w.nodes.lookup nodeID).map Row.settings

/-- The nodes whose settings or device were changed after the last report, by a step. -/
def State.waits (config : Config) (s : State) (waiting : String → Prop) : Event → String → Prop
  | .message msg choices, nodeID =>
    waiting nodeID ∨ settingsOf (serve config { call := .message msg, choices } s.world).1 nodeID ≠
    settingsOf s.world nodeID
  | .report reporter _, nodeID => nodeID ≠ reporter ∧ waiting nodeID
  | .change device, nodeID => nodeID = device.nodeID ∨ waiting nodeID

/-- The nodes that wait for a report after a run. -/
def State.waitsAfter (config : Config) (s : State) (waiting : String → Prop) : List Event → String → Prop
  | [] => waiting
  | event :: rest => match s.step config event with
    | some next => next.waitsAfter config (s.waits config waiting event) rest
    | none => waiting

/-- A report is handled in time and with a working database, and the row asks for nothing that an update does not
bring about. A device is on the channels that it is configured for. -/
def Event.Fine (config : Config) (s : State) : Event → Prop
  | .message _ _ => True
  | .report nodeID choices => (∀ i, (choices i).dbFails = false) ∧
      (choices 4).time ≤ (choices 0).time + config.blacklistFor ∧ ∀ d, s.devices nodeID = some d →
        (s.world.nodes.lookup nodeID = none → d.location.Numbers) ∧
        ∀ row, s.world.nodes.lookup nodeID = some row →
          (row.node.update (some d.report) config.ipPrefix (choices 2).time).Reconcilable
  | .change device => device.nodeID ≠ "" ∧ device.Settled

def Fine (config : Config) (s : State) : List Event → Prop
  | [] => True
  | event :: rest => event.Fine config s ∧ ∀ next, s.step config event = some next → Fine config next rest

/-- A device that reports under its own id, on the channels that it is configured for. -/
structure Proper (nodeID : String) (d : Device) : Prop where
  own : d.nodeID = nodeID
  named : nodeID ≠ ""
  settled : d.Settled

/-- Devices match their rows unless they wait for a report, and no node is on the blacklist. -/
structure Steady (waiting : String → Prop) (s : State) : Prop where
  devices : ∀ nodeID d, s.devices nodeID = some d → Proper nodeID d
  unlisted : ∀ nodeID row, s.world.nodes.lookup nodeID = some row → row.blacklist = none
  inSync : ∀ nodeID d row, s.devices nodeID = some d → s.world.nodes.lookup nodeID = some row → ¬ waiting nodeID →
    Matches row d

section Runs

variable {config : Config} {waiting : String → Prop} {s after : State}

/-- A message that is not about a node keeps away from the nodes. -/
theorem aside_of_other (config : Config) {msg : Message} (other : msg.subject ≠ MessageType.node) :
    Only Aside (handleMessage config msg) := by
  have personal {program : Prog Unit} (only : Only Personal program) : Only Aside program :=
    only.weaken fun _ => aside_of_personal
  unfold handleMessage
  split_ifs
  · exact (connectHandler_plain config).weaken fun _ => aside_of_plain
  · exact personal (loginHandler_personal config msg)
  · exact personal (authStatusHandler_personal msg)
  · exact personal (settingsHandler_personal config msg)
  · exact personal (logoutHandler_personal msg)
  · exact only_done ()

/-- A message leaves the rows as they are, but for one that is edited. -/
theorem message_rows {step : Step} {msg : Message} (call : step.call = .message msg) (w : World)
    (nodeID : String) (row : Row) (found : (serve config step w).1.nodes.lookup nodeID = some row) :
    w.nodes.lookup nodeID = some row ∨ ∃ node, row = (w.rowOf nodeID).edit node := by
  by_cases subject : msg.subject = MessageType.node
  · cases serve_edited config call subject w with
    | refused nodes => exact .inl (nodes ▸ found)
    | saved node report listed updated decoded named stored =>
      rw [stored] at found
      split at found
      · next own =>
        cases found
        exact .inr ⟨node, own ▸ rfl⟩
      · exact .inl found
  · have aside : Only (·.writesNodes = false) (step.call.program config) := by
      rw [call]
      refine Only.bind ((aside_of_other config subject).weaken fun _ => Aside.reads) fun _ => only_done _
    have kept : (serve config step w).1.nodes = w.nodes :=
      serve_keeps config step aside (fun after => after.nodes = w.nodes)
        (fun op _ current reads same => ⟨trivial, (current.act_nodes _ reads).trans same⟩) rfl
    exact .inl (kept ▸ found)

theorem Steady.message (steady : Steady waiting s) {msg : Message} {choices : ℕ → Choice}
    (stepped : s.step config (.message msg choices) = some after) :
    Steady (s.waits config waiting (.message msg choices)) after := by
  cases stepped
  refine ⟨steady.devices, fun nodeID row found => ?_, fun nodeID d row device found calm => ?_⟩
  · rcases message_rows rfl s.world nodeID row found with same | ⟨node, rfl⟩
    · exact steady.unlisted nodeID row same
    · change (s.world.rowOf nodeID).blacklist = none
      rw [World.rowOf]
      cases before : s.world.nodes.lookup nodeID with
      | none => rfl
      | some row => exact steady.unlisted nodeID row before
  · obtain ⟨calm, same⟩ := not_or.mp calm
    have same := not_not.mp same
    rw [settingsOf, settingsOf, show (serve config _ s.world).1.nodes.lookup nodeID = some row from found] at same
    obtain ⟨before, there, settings⟩ := Option.map_eq_some_iff.mp same.symm
    exact (steady.inSync nodeID d before device there calm).congr settings.symm

theorem update_cases {devices : String → Option Device} {nodeID other : String} {device d : Device}
    (there : Function.update devices nodeID (some device) other = some d) :
    (other = nodeID ∧ d = device) ∨ (other ≠ nodeID ∧ devices other = some d) := by
  by_cases own : other = nodeID
  · subst own
    rw [Function.update_self, Option.some.injEq] at there
    exact .inl ⟨rfl, there.symm⟩
  · rw [Function.update_of_ne own] at there
    exact .inr ⟨own, there⟩

theorem Steady.change (steady : Steady waiting s) {device : Device} (fine : (Event.change device).Fine config s)
    (stepped : s.step config (.change device) = some after) :
    Steady (s.waits config waiting (.change device)) after := by
  cases stepped
  refine ⟨fun nodeID d found => ?_, steady.unlisted, fun nodeID d row found there calm => ?_⟩
  · rcases update_cases found with ⟨rfl, rfl⟩ | ⟨_, found⟩
    · exact ⟨rfl, fine.1, fine.2⟩
    · exact steady.devices nodeID d found
  · obtain ⟨other, calm⟩ := not_or.mp calm
    rcases update_cases found with ⟨own, _⟩ | ⟨_, found⟩
    · exact absurd own other
    · exact steady.inSync nodeID d row found there calm

/-- After a report there is a row for the node, and its device is configured as the row says. -/
structure Heard (s : State) (nodeID : String) (row : Row) (device : Device) (after : State) : Prop where
  devices : after.devices = Function.update s.devices nodeID (some device)
  rows : ∀ other, after.world.nodes.lookup other = if other = nodeID then some row else s.world.nodes.lookup other
  kept : ∀ before, s.world.nodes.lookup nodeID = some before → row.settings = before.settings
  unlisted : row.blacklist = none
  proper : Proper nodeID device
  fits : Matches row device

theorem Steady.hears_known (steady : Steady waiting s) {nodeID : String} {d : Device} {row : Row} {choices : ℕ → Choice}
    (fine : (Event.report nodeID choices).Fine config s) (device : s.devices nodeID = some d)
    (found : s.world.nodes.lookup nodeID = some row) :
    ∃ row device, Heard s nodeID row device (s.hear config d choices) := by
  obtain ⟨works, inTime, asks⟩ := fine
  obtain ⟨own, named, settled⟩ := steady.devices nodeID d device
  have reconcilable := (asks d device).2 row found
  have unlisted := steady.unlisted nodeID row found
  have first : s.world.nodes.first d.nodeID = some row := by rw [own, Table.first_eq_lookup named, found]
  have passes : (row.node.seenAt (choices 0).time).timeFilter config.blacklistFor (choices 4).time = false := by
    rw [Bool.eq_false_iff, Ne, Node.timeFilter_iff rfl]
    rintro (late | ⟨time, listed, _⟩)
    · linarith
    · rw [show (row.node.seenAt (choices 0).time).blacklist = none from unlisted] at listed
      contradiction
  let step : Step := { call := .report d.report, choices }
  let n := row.node.update (some d.report) config.ipPrefix (choices 2).time
  let columns : Columns := .observed (n.seenAt (choices 0).time).address (choices 0).time
  obtain ⟨world, i, ran, nodes⟩ := Fleet.report_known (rfl : step.call = .report d.report) works first passes
  have ran : (step.call.program config).run step.handleAt ((s.world, 0), d) = (.ok (), (world, i), d.push n) :=
    push_seenAt d n (choices 0).time ▸ ran
  have hears : s.hear config d choices = { world, devices := Function.update s.devices d.nodeID (some (d.push n)) } :=
    congrArg (fun result => State.mk result.2.1.1 (Function.update s.devices d.nodeID (some result.2.2))) ran
  have fits : Matches row (d.push n) :=
    matches_of_check (Node.update_settings ..) ((converges_iff row.node settled config.ipPrefix _ 0).mpr reconcilable)
  refine ⟨columns.apply row, d.push n, ?_⟩
  rw [hears, own]
  constructor
  · rfl
  · intro other
    rw [nodes, Table.lookup_modify, Table.lookup_key found]
    by_cases same : other = nodeID
    · subst same
      rw [if_pos (.inr rfl), if_pos rfl, found]
      rfl
    · rw [if_neg (show ¬(nodeID = default ∨ nodeID = other) from not_or.mpr ⟨named, Ne.symm same⟩), if_neg same]
  · intro before there
    rw [columns.apply_settings, Option.some.inj (found.symm.trans there)]
  · exact unlisted
  · exact ⟨(push_nodeID d n).trans own, named, push_settled settled reconcilable⟩
  · exact fits.congr (columns.apply_settings row)

theorem newNode_matches {d : Device} {ipPrefix : String} {now : Time} {node : Node} (numbers : d.location.Numbers)
    (built : newNode d.report ipPrefix now = some node) : Matches node.row d := by
  obtain ⟨n, there, inSync⟩ := newNode_inSync (rfl : d.report.nodeinfo = some _)
    (fun location located => Option.some.inj located ▸ numbers) ipPrefix (fun _ => .table) (fun _ => .table) now
  rw [newNodeBy_eq, built, Option.some.injEq] at there
  subst there
  have check := (inSync [(fun _ => .table, now)]).1
  change (node.updateBy (fun _ => .table) (some d.report) ipPrefix now).checkRespondd = true at check
  rw [Node.updateBy_eq] at check
  exact matches_of_check rfl check

theorem Steady.hears_unknown (steady : Steady waiting s) {nodeID : String} {d : Device} {choices : ℕ → Choice}
    (fine : (Event.report nodeID choices).Fine config s) (device : s.devices nodeID = some d)
    (missing : s.world.nodes.lookup nodeID = none) :
    ∃ row device, Heard s nodeID row device (s.hear config d choices) := by
  obtain ⟨works, _, asks⟩ := fine
  obtain ⟨own, named, settled⟩ := steady.devices nodeID d device
  let step : Step := { call := .report d.report, choices }
  obtain ⟨node, built⟩ : ∃ node, newNode d.report config.ipPrefix (choices 2).time = some node := ⟨_, rfl⟩
  obtain ⟨learned, unlisted⟩ := newNode_learned rfl built
  have key : node.nodeID = nodeID := learned.nodeID.trans own
  have first : s.world.nodes.first d.nodeID = none := by rw [own, Table.first_eq_lookup named, missing]
  obtain ⟨world, i, ran, created⟩ :=
    Fleet.report_unknown (rfl : step.call = .report d.report) works first built (key ▸ missing)
  have hears : s.hear config d choices = { world, devices := Function.update s.devices d.nodeID (some d) } :=
    congrArg (fun result => State.mk result.2.1.1 (Function.update s.devices d.nodeID (some result.2.2))) ran
  refine ⟨node.row, d, ?_⟩
  rw [hears, own]
  constructor
  · rfl
  · intro other
    rw [(Table.create_eq_some created).2 other, show Row.nodeID node.row = nodeID from key]
    exact if_congr eq_comm rfl rfl
  · intro before there
    rw [missing] at there
    contradiction
  · exact unlisted
  · exact ⟨own, named, settled⟩
  · exact newNode_matches ((asks d device).1 missing) built

theorem Steady.hears (steady : Steady waiting s) {nodeID : String} {d : Device} {choices : ℕ → Choice}
    (fine : (Event.report nodeID choices).Fine config s) (device : s.devices nodeID = some d) :
    ∃ row device, Heard s nodeID row device (s.hear config d choices) := by
  cases found : s.world.nodes.lookup nodeID with
  | none => exact steady.hears_unknown fine device found
  | some row => exact steady.hears_known fine device found

theorem Steady.heard (steady : Steady waiting s) {nodeID : String} {row : Row} {device : Device} {choices : ℕ → Choice}
    (heard : Heard s nodeID row device after) : Steady (s.waits config waiting (.report nodeID choices)) after := by
  refine ⟨fun other d there => ?_, fun other row' there => ?_, fun other d row' there stored calm => ?_⟩
  · rw [heard.devices] at there
    rcases update_cases there with ⟨rfl, rfl⟩ | ⟨_, there⟩
    · exact heard.proper
    · exact steady.devices other d there
  · rw [heard.rows] at there
    split at there
    · cases there
      exact heard.unlisted
    · exact steady.unlisted other row' there
  · rw [heard.devices] at there
    rw [heard.rows] at stored
    rcases update_cases there with ⟨rfl, rfl⟩ | ⟨own, there⟩
    · rw [if_pos rfl, Option.some.injEq] at stored
      exact stored ▸ heard.fits
    · rw [if_neg own] at stored
      exact steady.inSync other d row' there stored fun waits => calm ⟨own, waits⟩

theorem Steady.step (steady : Steady waiting s) {event : Event} (fine : event.Fine config s)
    (stepped : s.step config event = some after) : Steady (s.waits config waiting event) after := by
  cases event with
  | message msg choices => exact steady.message stepped
  | report nodeID choices =>
    obtain ⟨d, device, rfl⟩ := Option.map_eq_some_iff.mp stepped
    obtain ⟨row, device', heard⟩ := steady.hears fine device
    exact steady.heard heard
  | change device => exact steady.change fine stepped

theorem Steady.run {events : List Event} (steady : Steady waiting s) (fine : Fine config s events)
    (ran : s.run config events = some after) : Steady (s.waitsAfter config waiting events) after := by
  induction events generalizing s waiting with
  | nil =>
    cases ran
    exact steady
  | cons event rest ih =>
    obtain ⟨next, stepped, ran⟩ := Option.bind_eq_some_iff.mp ran
    rw [State.waitsAfter, stepped]
    exact ih (steady.step fine.1 stepped) (fine.2 next stepped) ran

end Runs

/-- In every run, a device is configured as the row of its node says, from a report on until a client changes the
settings in the row or the device is changed by other means; nothing that is done for other nodes, no message and no
report, comes in between. -/
theorem devices_match (config : Config) {s after : State} {events : List Event}
    (proper : ∀ nodeID d, s.devices nodeID = some d → Proper nodeID d)
    (unlisted : ∀ nodeID row, s.world.nodes.lookup nodeID = some row → row.blacklist = none)
    (fine : Fine config s events) (ran : s.run config events = some after) {nodeID : String} {d : Device} {row : Row}
    (device : after.devices nodeID = some d) (found : after.world.nodes.lookup nodeID = some row)
    (calm : ¬ s.waitsAfter config (fun _ => True) events nodeID) : Matches row d := by
  have start : Steady (fun _ => True) s := ⟨proper, unlisted, fun _ _ _ _ _ calm => absurd trivial calm⟩
  exact (start.run fine ran).inSync nodeID d row device found calm

/-- The renamed node gets a new device, which reports. -/
def installed : List Event := [.change Device.factory, .report renamedRow.nodeID fun _ => {}]

theorem devices_match_installed : ∃ after d row,
    (State.mk (Sample.world [renamedRow]) fun _ => none).run Sample.config installed = some after ∧
      after.devices renamedRow.nodeID = some d ∧ after.world.nodes.lookup renamedRow.nodeID = some row ∧
      Matches row d := by
  let s : State := .mk (Sample.world [renamedRow]) fun _ => none
  have runs : (s.run Sample.config installed).map (fun after => (after.devices renamedRow.nodeID).isSome &&
      (after.world.nodes.lookup renamedRow.nodeID).isSome) = some true := by decide +kernel
  obtain ⟨after, ran, there⟩ := Option.map_eq_some_iff.mp runs
  obtain ⟨⟨d, device⟩, row, found⟩ :=
    (Bool.and_eq_true ..).mp there |>.imp Option.isSome_iff_exists.mp Option.isSome_iff_exists.mp
  have stored {nodeID : String} {row : Row} (found : s.world.nodes.lookup nodeID = some row) : row = renamedRow := by
    exact List.mem_singleton.mp (Table.lookup_eq_some.mp found).1
  have reconcilable : (renamedRow.node.update (some Device.factory.report) Sample.config.ipPrefix 0).Reconcilable :=
    ⟨⟨.inr (by decide), .inl (by decide +kernel)⟩, by decide +kernel, fun band => .inr (renamed_permits band)⟩
  have fine : Fine Sample.config s installed := by
    refine ⟨⟨by decide, Device.factory_settled⟩, fun next stepped => ?_⟩
    cases stepped
    refine ⟨⟨fun _ => rfl, by decide, fun d device => ⟨fun missing => ?_, fun row found => ?_⟩⟩, fun _ _ => trivial⟩
    · exact absurd missing (by decide)
    · cases stored found
      have own : d = Device.factory := Option.some.inj device.symm
      exact own ▸ reconcilable
  refine ⟨after, d, row, ran, device, found, devices_match Sample.config ?_ ?_ fine ran device found ?_⟩
  · rintro nodeID d ⟨⟩
  · intro nodeID row found
    cases stored found
    rfl
  · exact fun waits => waits.1 rfl

end FreifunkManager.Fleet
