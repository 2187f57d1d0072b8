import FreifunkManager.Proofs.Serving

/-! # Nodes on the blacklist

A report that fails at SSH stamps the row of its node with the time at which it began. No later call takes
the stamp back or makes it older (`serve_stamped`), so the time filter of a report stops it for the whole period.
-/

namespace FreifunkManager

open Effects Program Store

/-! ## The stamp of a node -/

/-- The row was put on the blacklist at `t` or later. -/
def Row.Stamped (t : Time) (row : Row) : Prop := ∃ time, row.blacklist = some time ∧ t ≤ time

/-- There is a row of the node, and it is stamped. -/
def Stamped (nodeID : String) (t : Time) (w : World) : Prop :=
  ∃ row, w.nodes.lookup nodeID = some row ∧ row.Stamped t

/-- The operation writes no older stamp. -/
def KeepsStamp (nodeID : String) (t : Time) : Op → Prop
  | .updateNode _ (.blacklist time) => t ≤ time
  | .saveNode row => row.nodeID = nodeID → row.Stamped t
  | _ => True

/-- The call began at `t` or later, and reads the stamped row. -/
def ReadsStamp (nodeID : String) (t : Time) : (op : Op) → op.Reply → Prop
  | .now .insertNode, now => t ≤ now
  | .firstNode _, found => ∀ row, found = some row → row.nodeID = nodeID → row.Stamped t
  | _, _ => True

section Stamp

variable {nodeID : String} {t : Time}

theorem Columns.apply_stamped {columns : Columns} {row : Row} (stamped : row.Stamped t)
    {key : String} (keeps : KeepsStamp nodeID t (.updateNode key columns)) : (columns.apply row).Stamped t := by
  cases columns with
  | observed address lastseen => exact stamped
  | blacklist time => exact ⟨time, rfl, keeps⟩

theorem handle_stamped {call : Call} {choice : Choice} {w : World} {op : Op} (keeps : KeepsStamp nodeID t op)
    (stamped : Stamped nodeID t w) : Stamped nodeID t (w.handle call choice op).2 := by
  obtain ⟨row, there, stamp⟩ := stamped
  rw [Stamped, w.lookup_handle, there, Event.rowAfter]
  cases written : (w.event call choice op).written with
  | some new =>
    dsimp only
    split
    · next same =>
      rcases w.written_cases call choice written with rfl | ⟨rfl, missing⟩
      · exact ⟨new, rfl, keeps same⟩
      · rw [same, there] at missing
        contradiction
    · exact ⟨row, rfl, stamp⟩
  | none =>
    cases changed : (w.event call choice op).changed with
    | none => exact ⟨row, rfl, stamp⟩
    | some change =>
      obtain ⟨key, columns⟩ := change
      obtain rfl := w.changed_cases call choice changed
      dsimp only
      split
      · exact ⟨columns.apply row, rfl, Columns.apply_stamped stamp keeps⟩
      · exact ⟨row, rfl, stamp⟩

theorem act_readsStamp {choice : Choice} {w : World} {op : Op}
    (late : op = .now .insertNode → t ≤ choice.time) (stamped : Stamped nodeID t w) :
    ReadsStamp nodeID t op (w.act choice op).1 := by
  cases op with
  | now clock =>
    cases clock with
    | insertNode => exact late rfl
    | _ => trivial
  | firstNode key =>
    rintro row found rfl
    obtain ⟨other, there, stamp⟩ := stamped
    rw [(w.firstNode_found choice found).1] at there
    cases there
    exact stamp
  | _ => trivial

/-- All calls keep the stamp. -/
theorem program_stamped (nodeID : String) (t : Time) (config : Config) (call : Call) :
    (call.program config).Satisfies (S := operations) (KeepsStamp nodeID t) (ReadsStamp nodeID t) fun _ => True := by
  cases call with
  | report n =>
    refine insertNode_satisfies (fun _ => trivial) (fun _ => trivial) (fun nodeinfo now row op late refreshes => ?_)
      fun nodeinfo now op late learns => ?_
    · cases op with
      | updateNode key columns =>
        cases columns with
        | observed address lastseen => trivial
        | blacklist time => exact refreshes.2.symm ▸ late
      | _ => trivial
    · cases op <;> trivial
  | message msg =>
    refine satisfies_bind.mpr ((handleMessage_satisfies config msg (fun op aside => ?_) (fun _ => trivial)
      (fun node row _ answered => answered row rfl) (fun _ _ => trivial) fun node op _ announces => ?_).mono
      fun _ _ => trivial)
    · cases op <;> trivial
    · cases op <;> trivial
  | ping =>
    refine satisfies_bind.mpr (((sendPing_only.weaken fun op pings => ?_).assuming fun _ _ _ => trivial).mono
      fun _ _ => trivial)
    cases op <;> trivial

/-- A call that begins at `t` or later keeps a stamp of that time. -/
theorem serve_stamped (config : Config) {step : Step} {w : World}
    (late : ∀ e ∈ (serve config step w).1.since w, e.op = .now .insertNode → t ≤ e.time)
    (stamped : Stamped nodeID t w) :
    Stamped nodeID t (serve config step w).1 := by
  refine serve_keeps_if config (fun op i w keeps late stamped => ?_) (program_stamped nodeID t config step.call) late
    stamped
  exact ⟨act_readsStamp late stamped, handle_stamped keeps stamped⟩

end Stamp

/-! ## The report that fails -/

/-- A connection could not be opened. -/
def Event.failsConnect : Event → Bool
  | ⟨_, .connectTo _, some _, _⟩ => true
  | _ => false

/-- The command for a new node failed. -/
def Event.failsUptime : Event → Bool
  | ⟨_, .runCommand cmd, none, _⟩ => cmd = "uptime"
  | _ => false

/-- The row of a node was not found. -/
def Event.findsNothing : Event → Bool
  | ⟨_, .firstNode _, none, _⟩ => true
  | _ => false

/-- A report failed at SSH: there was no connection, or the first command of a new node failed. -/
def FailedAtSsh (events : List Event) : Prop :=
  (∃ e ∈ events, e.failsConnect) ∨ (∃ e ∈ events, e.findsNothing) ∧ ∃ e ∈ events, e.failsUptime

/-- The event belongs to a report that began at `t`. -/
def Event.Began (t : Time) (e : Event) : Prop := e.op = .now .insertNode → e.time = t

/-- Nothing went wrong yet, as far as the kind of report is concerned. -/
structure Event.Calm (t : Time) (odd : Event → Bool) (e : Event) : Prop where
  began : e.Began t
  connects : e.failsConnect = false
  usual : odd e = false

/-- A report that failed has put its node on the blacklist. -/
def Punished (nodeID : String) (after : World) : Prop :=
  FailedAtSsh after.log → ∀ e ∈ after.log, e.op = .now .insertNode → Stamped nodeID e.time after

section Failing

variable {nodeID : String} {t : Time} {w : World}

theorem punished_of_calm {odd : Event → Bool} (kind : odd = Event.findsNothing ∨ odd = Event.failsUptime)
    (calm : ∀ e ∈ w.log, e.Calm t odd) : Punished nodeID w := by
  rintro (⟨e, member, fails⟩ | ⟨⟨e, member, missing⟩, e', member', fails⟩)
  · rw [(calm e member).connects] at fails
    contradiction
  · rcases kind with rfl | rfl
    · rw [(calm e member).usual] at missing
      contradiction
    · rw [(calm e' member').usual] at fails
      contradiction

theorem punished_of_stamped (began : ∀ e ∈ w.log, e.Began t) (stamped : Stamped nodeID t w) : Punished nodeID w :=
  fun _ e member start => began e member start ▸ stamped

/-- A report that has found the row of its node, and did not fail so far. -/
structure Proceeds (nodeID : String) (t : Time) (w : World) : Prop where
  there : (w.nodes.lookup nodeID).isSome
  calm : ∀ e ∈ w.log, e.Calm t Event.findsNothing

variable {call : Call} {choice : Choice}

theorem Proceeds.handle (proceeds : Proceeds nodeID t w) {op : Op}
    (calm : (w.event call choice op).Calm t Event.findsNothing) : Proceeds nodeID t (w.handle call choice op).2 where
  there := by
    obtain ⟨row, found⟩ := Option.isSome_iff_exists.mp proceeds.there
    rw [w.lookup_handle, found]
    unfold Event.rowAfter
    split
    · split <;> rfl
    · split <;> rfl
    · rfl
  calm := List.forall_mem_cons.mpr ⟨calm, proceeds.calm⟩

/-- The operations after the row was read that cannot fail. -/
def Settled : Op → Prop
  | .now clock => clock ≠ .insertNode
  | .connectTo _ | .firstNode _ => False
  | _ => True

theorem Settled.calm {e : Event} (settled : Settled e.op) : e.Calm t Event.findsNothing := by
  obtain ⟨call, op, reply, time⟩ := e
  cases op with
  | now clock => exact ⟨fun same => absurd (Op.now.inj same) settled, rfl, rfl⟩
  | connectTo | firstNode => contradiction
  | _ => exact ⟨nofun, rfl, rfl⟩

theorem Proceeds.settled (proceeds : Proceeds nodeID t w) {op : Op} (settled : Settled op) :
    Proceeds nodeID t (w.handle call choice op).2 := proceeds.handle (Settled.calm settled)

theorem stamped_of_blacklist (works : choice.dbFails = false) (there : (w.nodes.lookup nodeID).isSome) :
    Stamped nodeID t (w.handle call choice (.updateNode nodeID (.blacklist t))).2 := by
  obtain ⟨row, found⟩ := Option.isSome_iff_exists.mp there
  have changed : (w.event call choice (.updateNode nodeID (.blacklist t))).rowAfter nodeID (some row) =
      some (Columns.apply (.blacklist t) row) := by
    simp [World.event, World.act, works, Event.rowAfter, Event.written, Event.changed]
  exact ⟨_, (w.lookup_handle call choice _ nodeID).trans (found ▸ changed), t, rfl, le_rfl⟩

theorem connects_of_reply {addr : TCPAddr} (same : (none : Option String) = (w.act choice (.connectTo addr)).1) :
    (w.event call choice (.connectTo addr)).failsConnect = false := by
  unfold World.event Event.failsConnect
  rw [← same]

theorem pushOrBlacklist_punished (step : Step) (works : step.Works) (lNode : Node) (now : Time)
    (proceeds : Proceeds lNode.nodeID now w) :
    (lNode.pushOrBlacklist now).run.Along (S := operations) step.Moves (fun _ => Punished lNode.nodeID) w := by
  have calm {program : Prog (Except Panic Unit)} (only : Only Settled program) {w : World}
      (proceeds : Proceeds lNode.nodeID now w) :
      program.Along (S := operations) step.Moves (fun _ => Punished lNode.nodeID) w :=
    (along_events step only _ (fun _ => Settled.calm) proceeds.calm).mono fun _ _ => punished_of_calm (.inl rfl)
  cases differs : lNode.checkRespondd with
  | true =>
    unfold Node.pushOrBlacklist Node.pushDifferences
    rw [if_pos differs]
    exact calm (only_perform trivial) proceeds
  | false =>
    rw [pushOrBlacklist_eq differs]
    rintro err _ ⟨i, same, rfl⟩
    cases err with
    | some err =>
      rintro _ _ ⟨j, rfl, rfl⟩
      refine punished_of_stamped ?_ (stamped_of_blacklist (works j) ?_)
      · exact List.forall_mem_cons.mpr
          ⟨nofun, List.forall_mem_cons.mpr ⟨nofun, fun e member => (proceeds.calm e member).began⟩⟩
      · rw [World.handle_nodes, w.act_nodes _ rfl]
        exact proceeds.there
    | none =>
      refine calm (Only.goBind ((pushAll_only lNode).weaken fun op commands => ?_) fun pushed => ?_)
        (proceeds.handle ?_)
      · cases op <;> trivial
      · cases pushed with
        | true => exact only_perform trivial
        | false => exact Only.goBind (only_perform trivial) fun _ => only_done _
      · exact ⟨nofun, connects_of_reply same, rfl⟩

theorem refreshKnown_punished (config : Config) (step : Step) (works : step.Works) {lNode : Node}
    (own : lNode.nodeID = nodeID) (now : Time) (proceeds : Proceeds nodeID now w) :
    (refreshKnown config now lNode).run.Along (S := operations) step.Moves (fun _ => Punished nodeID) w := by
  subst own
  rw [refreshKnown_eq]
  rintro _ _ ⟨i, rfl, rfl⟩ checked _ ⟨j, rfl, rfl⟩
  have first : Proceeds lNode.nodeID now (w.handle step.call (step.choices i)
      (.updateNode lNode.nodeID (.observed lNode.address now))).2 := proceeds.settled trivial
  have proceeds : Proceeds lNode.nodeID now (World.handle step.call (step.choices j) (.now .timeFilter) _).2 :=
    first.settled nofun
  change Along (S := operations) step.Moves _ (ExceptT.run (m := Prog)
    (if (lNode.seenAt now).timeFilter config.blacklistFor (step.choices j).time then pure ()
    else (lNode.seenAt now).pushOrBlacklist now)) _
  split
  · exact punished_of_calm (.inl rfl) proceeds.calm
  · exact pushOrBlacklist_punished step works (lNode.seenAt now) now proceeds

/-- A new node that is blacklisted gets a stamped row. -/
theorem stamped_of_create (works : choice.dbFails = false) {node : Node} (stamped : node.blacklist = some t)
    (missing : w.nodes.lookup node.nodeID = none) :
    Stamped node.nodeID t (w.handle call choice (.createNode node.row)).2 := by
  have created := w.createNode_lookup call choice node.row works
  split at created
  · exact ⟨_, created, t, stamped, le_rfl⟩
  · exact absurd missing created

theorem createBlacklisted_punished (step : Step) (works : step.Works) (node : Node) (now : Time)
    (missing : w.nodes.lookup node.nodeID = none) (began : ∀ e ∈ w.log, e.Began now) :
    (ExceptT.run (m := Prog) (ε := Panic) do
      let _ ← perform (.createNode (node.blacklisted now).row)
      if (node.blacklisted now).blacklist.isNone then perform (.sendNode (node.blacklisted now))).Along
        (S := operations)
      step.Moves (fun _ => Punished node.nodeID) w := by
  rintro _ _ ⟨i, rfl, rfl⟩
  refine punished_of_stamped (List.forall_mem_cons.mpr ⟨nofun, began⟩) ?_
  exact stamped_of_create (works i) rfl (show w.nodes.lookup (node.blacklisted now).nodeID = none from missing)

theorem usual_of_reply {cmd output : String} (same : some output = (w.act choice (.runCommand cmd)).1) :
    (w.event call choice (.runCommand cmd)).failsUptime = false := by
  unfold World.event Event.failsUptime
  rw [← same]

theorem createReached_punished (step : Step) (node : Node) (now : Time)
    (calm : ∀ e ∈ w.log, e.Calm now Event.failsUptime) :
    (ExceptT.run (m := Prog) (ε := Panic) do
      let _ ← perform (.createNode node.row)
      if node.blacklist.isNone then perform (.sendNode node)).Along (S := operations) step.Moves
      (fun _ => Punished node.nodeID) w := by
  rintro _ _ ⟨i, rfl, rfl⟩
  have created : ∀ e ∈ (w.handle step.call (step.choices i) (.createNode node.row)).2.log,
      e.Calm now Event.failsUptime :=
    List.forall_mem_cons.mpr ⟨⟨nofun, rfl, rfl⟩, calm⟩
  change Along (S := operations) step.Moves _ (ExceptT.run (m := Prog) (ε := Panic)
    (if node.blacklist.isNone then perform (.sendNode node) else pure ())) _
  split
  · rintro _ _ ⟨j, rfl, rfl⟩
    exact punished_of_calm (.inr rfl) (List.forall_mem_cons.mpr ⟨⟨nofun, rfl, rfl⟩, created⟩)
  · exact punished_of_calm (.inr rfl) created

theorem register_punished (step : Step) (works : step.Works) (node : Node) (now : Time)
    (missing : w.nodes.lookup node.nodeID = none) (calm : ∀ e ∈ w.log, e.Calm now Event.failsUptime) :
    (node.register now).run.Along (S := operations) step.Moves (fun _ => Punished node.nodeID) w := by
  rintro err _ ⟨i, same, rfl⟩
  cases err with
  | some err =>
    refine createBlacklisted_punished step works node now ?_ ?_
    · rw [World.handle_nodes, w.act_nodes _ rfl, missing]
    · exact List.forall_mem_cons.mpr ⟨nofun, fun e member => (calm e member).began⟩
  | none =>
    have connected : ∀ e ∈ (w.handle step.call (step.choices i) (.connectTo node.getAddress)).2.log,
        e.Calm now Event.failsUptime :=
      List.forall_mem_cons.mpr ⟨⟨nofun, connects_of_reply same, rfl⟩, calm⟩
    have missing : (w.handle step.call (step.choices i) (.connectTo node.getAddress)).2.nodes.lookup node.nodeID =
        none := by
      rw [World.handle_nodes, w.act_nodes _ rfl, missing]
    generalize (w.handle step.call (step.choices i) (.connectTo node.getAddress)).2 = w at connected missing ⊢
    rintro made _ ⟨j, _, rfl⟩
    have asked : ∀ e ∈ (w.handle step.call (step.choices j) .newSession).2.log, e.Calm now Event.failsUptime :=
      List.forall_mem_cons.mpr ⟨⟨nofun, rfl, rfl⟩, connected⟩
    cases made with
    | false => exact punished_of_calm (.inr rfl) asked
    | true =>
      rintro output _ ⟨k, same, rfl⟩
      cases output with
      | none =>
        refine createBlacklisted_punished step works node now missing ?_
        exact List.forall_mem_cons.mpr ⟨nofun, fun e member => (asked e member).began⟩
      | some output =>
        refine createReached_punished step node now (List.forall_mem_cons.mpr ⟨⟨nofun, rfl, ?_⟩, asked⟩)
        exact usual_of_reply same

theorem learnNew_punished (config : Config) (step : Step) (works : step.Works) {n : Yanic.Node}
    {nodeinfo : Yanic.Nodeinfo} (known : n.nodeinfo = some nodeinfo) (now : Time)
    (missing : w.nodes.lookup nodeinfo.nodeID = none) (calm : ∀ e ∈ w.log, e.Calm now Event.failsUptime) :
    (learnNew n config now).run.Along (S := operations) step.Moves (fun _ => Punished nodeinfo.nodeID) w := by
  rw [learnNew_eq]
  rintro updated _ ⟨i, rfl, rfl⟩
  change Along (S := operations) step.Moves _
    (registerBuilt now (newNode n config.ipPrefix (step.choices i).time)).run _
  have read : ∀ e ∈ (w.handle step.call (step.choices i) (.now .update)).2.log, e.Calm now Event.failsUptime :=
    List.forall_mem_cons.mpr ⟨⟨nofun, rfl, rfl⟩, calm⟩
  cases built : newNode n config.ipPrefix (step.choices i).time with
  | none => exact punished_of_calm (.inr rfl) read
  | some node =>
    rw [← (newNode_learned known built).1.nodeID] at missing ⊢
    exact register_punished step works node now missing read

theorem insertNode_punished (config : Config) (step : Step) (works : step.Works) {n : Yanic.Node}
    {nodeinfo : Yanic.Nodeinfo} (known : n.nodeinfo = some nodeinfo) (named : nodeinfo.nodeID ≠ "")
    (fresh : w.log = []) :
    (insertNode config n).run.Along (S := operations) step.Moves (fun _ => Punished nodeinfo.nodeID) w := by
  have begun {found : Option Row} {now read : Time} {odd : Event → Bool}
      (finds : odd ⟨step.call, .firstNode nodeinfo.nodeID, found, read⟩ = false)
      (clock : odd ⟨step.call, .now .insertNode, now, now⟩ = false) :
      ∀ e ∈ step.begun nodeinfo.nodeID found now read w.log, e.Calm now odd := by
    rw [fresh]
    refine List.forall_mem_cons.mpr ⟨⟨nofun, rfl, finds⟩, List.forall_mem_cons.mpr ⟨⟨fun _ => rfl, rfl, clock⟩, ?_⟩⟩
    exact List.forall_mem_nil _
  apply insertNode_along config step known
  · intro i j k row found
    obtain ⟨there, own⟩ := w.firstNode_found _ found
    have proceeds : Proceeds nodeinfo.nodeID (step.choices i).time (w.withLog
        (⟨step.call, .now .update, (step.choices k).time, (step.choices k).time⟩ ::
          step.begun nodeinfo.nodeID (some row) (step.choices i).time (step.choices j).time w.log)) := by
      refine ⟨Option.isSome_iff_exists.mpr ⟨row, ?_⟩, List.forall_mem_cons.mpr ⟨⟨nofun, rfl, rfl⟩, begun rfl rfl⟩⟩
      rw [← own named]
      exact there
    exact refreshKnown_punished config step works ((Node.update_nodeID ..).trans (own named)) _ proceeds
  · intro i j missing
    exact learnNew_punished config step works known _ (World.firstNode_missing _ _ (works j) missing) (begun rfl rfl)

end Failing

/-- A report that failed at SSH has stamped the row of its node with the time at which it began. -/
theorem serve_punished (config : Config) {step : Step} {n : Yanic.Node} {nodeinfo : Yanic.Nodeinfo}
    (report : step.call = .report n) (known : n.nodeinfo = some nodeinfo) (named : nodeinfo.nodeID ≠ "")
    (works : step.Works) {w : World} (failed : FailedAtSsh ((serve config step w).1.since w)) {e : Event}
    (member : e ∈ (serve config step w).1.since w) (start : e.op = .now .insertNode) :
    Stamped nodeinfo.nodeID e.time (serve config step w).1 := by
  rw [serve_since] at failed member
  rw [serve_log]
  refine serve_moves config step (Punished nodeinfo.nodeID) ?_ failed e member start
  rw [report]
  exact insertNode_punished config step works known named rfl

/-! ## The report that comes too early -/

/-- A report whose time filter was checked before `deadline` did not dial and sent nothing. -/
def LeavesAlone (deadline : Time) (events : List Event) : Prop :=
  (∃ e ∈ events, e.op = .now .timeFilter ∧ e.time < deadline) →
    ∀ e ∈ events, (∀ addr, e.op ≠ .connectTo addr) ∧ ∀ node, e.op ≠ .sendNode node

theorem timeFilter_stamped {lNode : Node} {d : Duration} {t now : Time}
    (stamped : ∃ time, lNode.blacklist = some time ∧ t ≤ time) (early : now < t + d) :
    lNode.timeFilter d now = true := by
  obtain ⟨time, same, late⟩ := stamped
  have recent : now - d < time := (sub_lt_iff_lt_add.mpr early).trans_le late
  rw [Node.timeFilter, same, Bool.or_eq_true, Option.any_some, decide_eq_true_eq]
  exact .inr recent

/-- The operations after the time filter: the clock is not read any more. -/
def AfterFilter : Op → Prop
  | .now _ => False
  | _ => True

theorem pushOrBlacklist_only (lNode : Node) (now : Time) : Only AfterFilter (lNode.pushOrBlacklist now).run := by
  refine Only.goBind ((pushDifferences_only lNode).weaken fun op ssh => ?_) fun reached => ?_
  · cases op <;> trivial
  · cases reached with
    | true => exact only_perform trivial
    | false => exact Only.goBind (only_perform trivial) fun _ => only_done _

/-- The operations of a report that is stopped. -/
def Idle : Op → Prop
  | .connectTo _ | .sendNode _ => False
  | _ => True

theorem leavesAlone_of_idle {deadline : Time} {events : List Event} (idle : ∀ e ∈ events, Idle e.op) :
    LeavesAlone deadline events := by
  refine fun _ e member => ⟨fun addr same => ?_, fun node same => ?_⟩ <;>
    exact absurd (idle e member) (by rw [same]; exact id)

theorem leavesAlone_of_late {deadline : Time} {events : List Event}
    (late : ∀ e ∈ events, e.op = .now .timeFilter → deadline ≤ e.time) : LeavesAlone deadline events := by
  rintro ⟨e, member, checked, early⟩
  exact absurd early (not_lt.mpr (late e member checked))

theorem refreshKnown_leavesAlone (config : Config) (step : Step) {lNode : Node} {t : Time} (now : Time)
    (stamped : ∃ time, lNode.blacklist = some time ∧ t ≤ time) {w : World}
    (reads : ∀ e ∈ w.log, Idle e.op ∧ e.op ≠ .now .timeFilter) :
    (refreshKnown config now lNode).run.Along (S := operations) step.Moves
      (fun _ after => LeavesAlone (t + config.blacklistFor) after.log) w := by
  rw [refreshKnown_eq]
  rintro _ _ ⟨i, rfl, rfl⟩ checked _ ⟨j, rfl, rfl⟩
  change Along (S := operations) step.Moves _ (ExceptT.run (m := Prog)
    (if (lNode.seenAt now).timeFilter config.blacklistFor (step.choices j).time then pure ()
    else (lNode.seenAt now).pushOrBlacklist now)) _
  by_cases early : (step.choices j).time < t + config.blacklistFor
  · rw [if_pos (timeFilter_stamped
      (show ∃ time, (lNode.seenAt now).blacklist = some time ∧ t ≤ time from stamped) early)]
    refine leavesAlone_of_idle (List.forall_mem_cons.mpr ⟨trivial, List.forall_mem_cons.mpr ⟨trivial, ?_⟩⟩)
    exact fun e member => (reads e member).1
  · have late : ∀ e ∈ (World.handle step.call (step.choices j) (.now .timeFilter) (w.handle step.call (step.choices i)
        (.updateNode lNode.nodeID (.observed lNode.address now))).2).2.log,
        e.op = .now .timeFilter → t + config.blacklistFor ≤ e.time :=
      List.forall_mem_cons.mpr ⟨fun _ => not_lt.mp early, List.forall_mem_cons.mpr ⟨nofun, fun e member checked =>
        absurd checked (reads e member).2⟩⟩
    split
    · exact leavesAlone_of_late late
    · refine (along_events step (pushOrBlacklist_only _ now) _ (fun e after checked => ?_) late).mono
        fun _ _ => leavesAlone_of_late
      rw [checked] at after
      contradiction

theorem insertNode_leavesAlone (config : Config) (step : Step) (works : step.Works) {n : Yanic.Node}
    {nodeinfo : Yanic.Nodeinfo} (known : n.nodeinfo = some nodeinfo)
    (named : nodeinfo.nodeID ≠ "") {t : Time} {w : World}
    (fresh : w.log = []) (stamped : Stamped nodeinfo.nodeID t w) :
    (insertNode config n).run.Along (S := operations) step.Moves
      (fun _ after => LeavesAlone (t + config.blacklistFor) after.log) w := by
  obtain ⟨row, there, stamp⟩ := stamped
  have reads (j : ℕ) : (w.act (step.choices j) (.firstNode nodeinfo.nodeID)).1 = some row :=
    (if_neg (by rw [works j]; exact Bool.false_ne_true)).trans ((Table.first_eq_lookup named).trans there)
  apply insertNode_along config step known
  · intro i j k found read
    obtain rfl : row = found := Option.some.inj ((reads j).symm.trans read)
    refine refreshKnown_leavesAlone config step _ ?_ ?_
    · rwa [Node.update_blacklist]
    · rw [fresh]
      simp [World.withLog, Step.begun, Idle]
  · intro i j missing
    exact absurd (missing.symm.trans (reads j)) (Option.some_ne_none row).symm

/-- A report of a stamped node leaves it alone before the end of the period. -/
theorem serve_leavesAlone (config : Config) {step : Step} {n : Yanic.Node} {nodeinfo : Yanic.Nodeinfo}
    (report : step.call = .report n) (known : n.nodeinfo = some nodeinfo) (named : nodeinfo.nodeID ≠ "")
    (works : step.Works) {t : Time} {w : World} (stamped : Stamped nodeinfo.nodeID t w) :
    LeavesAlone (t + config.blacklistFor) ((serve config step w).1.since w) := by
  rw [serve_since]
  refine serve_moves config step (fun after => LeavesAlone (t + config.blacklistFor) after.log) ?_
  rw [report]
  exact insertNode_leavesAlone config step works known named rfl stamped

/-! ## Runs -/

/-- The report has this node id. -/
def ReportOf (nodeID : String) (call : Call) : Prop :=
  ∃ n nodeinfo, call = .report n ∧ n.nodeinfo = some nodeinfo ∧ nodeinfo.nodeID = nodeID

/-- After a report of a node that began at `t` and failed at SSH, whatever calls come next, a report of the node
whose time filter is checked before the period is over neither dials nor sends the node. -/
theorem left_alone (config : Config) {nodeID : String} (named : nodeID ≠ "") {failing last : Step} {between : List Step}
    (first : ReportOf nodeID failing.call) (firstWorks : failing.Works) (second : ReportOf nodeID last.call)
    (secondWorks : last.Works) (w : World) {t : Time} :
    let after := (serve config failing w).1
    let later := serveAll config between after
    let final := (serve config last later).1
    ClockForward final.log → FailedAtSsh (after.since w) →
    (∃ e ∈ after.since w, e.op = .now .insertNode ∧ e.time = t) →
    LeavesAlone (t + config.blacklistFor) (final.since later) := by
  rintro after later final forward failed ⟨start, member, starts, rfl⟩
  obtain ⟨n, nodeinfo, report, known, rfl⟩ := first
  obtain ⟨m, nodeinfo', report', known', same⟩ := second
  have stamped : Stamped nodeinfo.nodeID start.time after :=
    serve_punished config report known named firstWorks failed member starts
  have order : ∀ e ∈ later.since after, start.time ≤ e.time := by
    intro e inBetween
    have grown : final.log = final.since later ++ (later.since after ++ after.log) :=
      (serve_grown config last later).trans (congrArg _ (serveAll_grown config between after))
    rw [ClockForward, grown, List.pairwise_append, List.pairwise_append] at forward
    refine forward.2.1.2.2 e inBetween start ?_
    rw [show after.log = after.since w ++ w.log from serve_grown config failing w]
    exact List.mem_append_left _ member
  have stamped : Stamped nodeinfo.nodeID start.time later :=
    serveAll_keeps_if config (fun step _ current stamped late => serve_stamped config late stamped)
      (fun e inBetween _ => order e inBetween) stamped
  rw [← same] at named stamped
  exact serve_leavesAlone config report' known' named secondWorks stamped

/-- A call whose operations are all at one time, with or without an error of the network. -/
def stepAt (time : Time) (call : Call) (dial : Option String) : Step := { call, choices := fun _ => { time, dial } }

def unreachable : Step := stepAt 60 (.report (Sample.report "cellar")) (some "timeout")

def early : Step := stepAt 70 (.report (Sample.report "cellar")) none

theorem left_alone_edited :
    let after := (serve Sample.config unreachable (Sample.world [Sample.row])).1
    let later := serveAll Sample.config [stepAt 65 (.message (Sample.edit "attic")) none] after
    LeavesAlone (60 + 3600) ((serve Sample.config early later).1.since later) :=
  left_alone Sample.config (by decide) ⟨_, _, rfl, rfl, rfl⟩ (fun _ => rfl) ⟨_, _, rfl, rfl, rfl⟩ (fun _ => rfl)
    (Sample.world [Sample.row]) (by decide +kernel) (.inl (by decide +kernel)) (by decide +kernel)

end FreifunkManager
