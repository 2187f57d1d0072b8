import FreifunkManager.Proofs.Reload
import Mathlib.Tactic.Linarith

/-! # A report and a reload

A report is broadcast unless its node is filtered or could not be reached; then a reload filters the row as well, as
long as the entry on the blacklist does not run out in between. `sameAfterReport` compares the two nodes.
-/

namespace FreifunkManager

open Effects Program Store

/-- The report changes nothing any more but the time at which the node was last seen. -/
def Node.Refreshed (config : Config) (n : Yanic.Node) (lNode : Node) : Prop :=
  ∀ later, lNode.row.node.update (some n) config.ipPrefix later = { lNode with lastseen := some later }

/-- A loaded node and a new one have no reported values before the report. -/
theorem Node.refreshed_update {config : Config} {n : Yanic.Node} {base : Node} (loaded : base.row.node = base)
    (updated : Time) (lastseen : Option Time) :
    Node.Refreshed config n { base.update (some n) config.ipPrefix updated with lastseen } := by
  intro later
  rw [Node.update_eq, Node.update_eq, ← loaded]
  simp only [Row.node, Node.row, fold_again]

/-- What a report did to the row of its node, and whether it was broadcast. -/
inductive Reported (config : Config) (n : Yanic.Node) (call : Call) (nodeID : String) (before after : World)
    (events : List Event) : Prop
  | sent (lNode : Node) (seen now : Time) (refreshed : lNode.Refreshed config n)
      (stored : after.nodes.lookup nodeID = some lNode.row) (broadcasts : events.filterMap Event.broadcast = [lNode])
      (began : ⟨call, .now .insertNode, now, now⟩ ∈ events) (lastseen : lNode.lastseen = some seen)
      (read : ∃ e ∈ events, e.time = seen)
      (passes : lNode.blacklist = none ∨ ∃ e ∈ events, lNode.timeFilter config.blacklistFor e.time = false)
  | filtered (row stored : Row) (now checked : Time) (there : before.nodes.lookup nodeID = some row)
      (stays : after.nodes.lookup nodeID = some stored) (blacklist : stored.blacklist = row.blacklist)
      (lastseen : stored.lastseen = some now) (broadcasts : events.filterMap Event.broadcast = [])
      (began : ⟨call, .now .insertNode, now, now⟩ ∈ events)
      (check : ⟨call, .now .timeFilter, checked, checked⟩ ∈ events)
      (stops : stored.node.timeFilter config.blacklistFor checked = true)
  | unreachable (stored : Row) (now : Time) (stays : after.nodes.lookup nodeID = some stored)
      (blacklist : stored.blacklist = some now) (broadcasts : events.filterMap Event.broadcast = [])
      (began : ⟨call, .now .insertNode, now, now⟩ ∈ events)

/-- The row of a node, what was broadcast, and some events that have happened. -/
structure Holding (nodeID : String) (row : Option Row) (sent : List Node) (past : List Event) (w : World) : Prop where
  row : w.nodes.lookup nodeID = row
  sent : w.log.filterMap Event.broadcast = sent
  past : past ⊆ w.log

section Holding

variable {nodeID : String} {row : Row} {found : Option Row} {sent : List Node} {past : List Event} {w : World}
variable (call : Call) (choice : Choice)

/-- The operation neither writes to the nodes nor sends one. -/
def Op.quiet : Op → Bool
  | .sendNode _ => false
  | op => !op.writesNodes

theorem Holding.quiet (holding : Holding nodeID found sent past w) {op : Op} (quiet : op.quiet = true) :
    Holding nodeID found sent (w.event call choice op :: past) (w.handle call choice op).2 := by
  have reads : op.writesNodes = false := by cases op <;> first | rfl | contradiction
  have silent : (w.event call choice op).broadcast = none := by cases op <;> first | rfl | contradiction
  constructor
  · rw [World.handle_nodes, w.act_nodes choice reads, holding.row]
  · rw [World.handle_log, List.filterMap_cons_none silent, holding.sent]
  · exact List.cons_subset_cons _ holding.past

theorem Holding.drop {e : Event} (holding : Holding nodeID found sent (e :: past) w) :
    Holding nodeID found sent past w :=
  ⟨holding.row, holding.sent, fun _ member => holding.past (.tail _ member)⟩

theorem Holding.send (holding : Holding nodeID found sent past w) (node : Node) :
    Holding nodeID found (node :: sent) past (w.handle call choice (.sendNode node)).2 := by
  constructor
  · exact holding.row
  · exact congrArg (node :: ·) holding.sent
  · exact List.subset_cons_of_subset _ holding.past

theorem Holding.update (holding : Holding nodeID (some row) sent past w)
    (works : choice.dbFails = false) (columns : Columns) :
    Holding nodeID (some (columns.apply row)) sent past (w.handle call choice (.updateNode nodeID columns)).2 := by
  constructor
  · rw [w.lookup_handle, holding.row]
    simp [World.event, World.act, works, Event.rowAfter, Event.written, Event.changed]
  · exact holding.sent
  · exact List.subset_cons_of_subset _ holding.past

theorem Holding.create (holding : Holding nodeID none sent past w) (works : choice.dbFails = false)
    (own : row.nodeID = nodeID) : Holding nodeID (some row) sent past (w.handle call choice (.createNode row)).2 := by
  constructor
  · have created := w.createNode_lookup call choice row works
    rw [own] at created
    split at created
    · exact created
    · exact absurd holding.row created
  · exact holding.sent
  · exact List.subset_cons_of_subset _ holding.past

/-- Commands do not change what is held. -/
theorem Holding.along {α : Type} {step : Step} {program : Prog α} (only : Only (fun op => op.quiet = true) program)
    (holding : Holding nodeID found sent past w) :
    program.Along (S := operations) step.Moves (fun _ => Holding nodeID found sent past) w := by
  apply (Along.of_satisfies only (Holding nodeID found sent past) ?_ holding).mono fun _ _ ended => ended.2
  rintro op w _ _ quiet holding ⟨i, rfl, rfl⟩
  exact ⟨trivial, (holding.quiet _ _ quiet).drop⟩

end Holding

section Runs

variable {config : Config} {step : Step} {n : Yanic.Node} {nodeID : String} {past : List Event} {w before : World}

/-- The node was sent, or it has been put on the blacklist. -/
def Settles (lNode : Node) (now : Time) (row : Row) (past : List Event) (after : World) : Prop :=
  Holding lNode.nodeID (some row) [lNode] past after ∨
    Holding lNode.nodeID (some (Columns.apply (.blacklist now) row)) [] past after

theorem pushOrBlacklist_settles (works : step.Works) {lNode : Node} (now : Time) {row : Row}
    (holding : Holding lNode.nodeID (some row) [] past w) : (lNode.pushOrBlacklist now).run.Along (S := operations)
      step.Moves (fun result after => result.isOk = true → Settles lNode now row past after) w := by
  have send {w : World} (holding : Holding lNode.nodeID (some row) [] past w) :
      (ExceptT.run (m := Prog) (ε := Panic) (perform (.sendNode lNode))).Along (S := operations) step.Moves
        (fun result after => result.isOk = true → Settles lNode now row past after) w := by
    rintro _ _ ⟨i, rfl, rfl⟩ _
    exact .inl (holding.send _ _ lNode)
  have blacklist {w : World} (holding : Holding lNode.nodeID (some row) [] past w) (i : ℕ) :
      Settles lNode now row past
        (w.handle step.call (step.choices i) (.updateNode lNode.nodeID (.blacklist now))).2 :=
    .inr (holding.update _ _ (works i) (.blacklist now))
  cases differs : lNode.checkRespondd with
  | true =>
    unfold Node.pushOrBlacklist Node.pushDifferences
    rw [if_pos differs]
    exact send holding
  | false =>
    rw [pushOrBlacklist_eq differs]
    rintro err _ ⟨i, _, rfl⟩
    have dialled : Holding lNode.nodeID (some row) [] past
        (w.handle step.call (step.choices i) (.connectTo lNode.getAddress)).2 := (holding.quiet _ _ rfl).drop
    cases err with
    | some err =>
      rintro _ _ ⟨j, _, rfl⟩ _
      exact blacklist dialled j
    | none =>
      have quiet : Only (fun op => op.quiet = true) lNode.pushAll.run := by
        apply (pushAll_only lNode).weaken
        intro op commands
        cases op <;> first | rfl | contradiction
      change Along (S := operations) step.Moves _ (ExceptT.run (m := Prog) (lNode.pushAll >>= _)) _
      rw [ExceptT.run_bind]
      apply along_bind.mpr
      apply (dialled.along quiet).mono
      rintro (panic | pushed) after holding
      · exact fun survives => absurd survives Bool.false_ne_true
      · cases pushed with
        | true => exact send holding
        | false =>
          rintro _ _ ⟨j, _, rfl⟩ _
          exact blacklist holding j

theorem refreshKnown_reported (works : step.Works) {row : Row} (there : before.nodes.lookup nodeID = some row)
    (now updated : Time)
    (began : ⟨step.call, .now .insertNode, now, now⟩ ∈ past) (holding : Holding nodeID (some row) [] past w) :
    (refreshKnown config now (row.node.update (some n) config.ipPrefix updated)).run.Along (S := operations) step.Moves
      (fun result after => result.isOk = true → Reported config n step.call nodeID before after after.log) w := by
  obtain rfl : row.nodeID = nodeID := Table.lookup_key there
  let lNode := (row.node.update (some n) config.ipPrefix updated).seenAt now
  have named : lNode.nodeID = row.nodeID := Node.update_nodeID ..
  have refreshed : lNode.Refreshed config n := Node.refreshed_update rfl updated (some now)
  have observed : Columns.apply (.observed lNode.address now) row = lNode.row := by
    unfold lNode
    rw [Node.update_eq]
    rfl
  rw [← named] at there ⊢
  rw [refreshKnown_eq]
  rintro _ _ ⟨i, _, rfl⟩ checked _ ⟨j, rfl, rfl⟩
  have wrote := holding.update step.call (step.choices i) (works i) (.observed lNode.address now)
  rw [observed, ← named] at wrote
  have read := wrote.quiet step.call (step.choices j) (show (Op.now .timeFilter).quiet = true from rfl)
  change Along (S := operations) step.Moves _ (ExceptT.run (m := Prog) (if lNode.timeFilter config.blacklistFor
    (step.choices j).time then pure () else lNode.pushOrBlacklist now)) _
  cases filters : lNode.timeFilter config.blacklistFor (step.choices j).time with
  | true =>
    intro _
    exact .filtered row lNode.row now _ there read.row (Node.update_blacklist ..) rfl read.sent
      (read.past (.tail _ began)) (read.past (.head _)) filters
  | false =>
    apply (pushOrBlacklist_settles works now read).mono
    intro result after settles survives
    rcases settles survives with ended | ended
    · exact .sent lNode now now refreshed ended.row ended.sent (ended.past (.tail _ began)) rfl
          ⟨_, ended.past (.tail _ began), rfl⟩ (.inr ⟨_, ended.past (.head _), filters⟩)
    · exact .unreachable _ now ended.row rfl ended.sent (ended.past (.tail _ began))

/-- A new node is registered, and sent if it could be reached. -/
theorem create_reported (works : step.Works) {node : Node} (own : node.nodeID = nodeID)
    (refreshed : node.Refreshed config n)
    {seen now : Time} (lastseen : node.lastseen = some seen) (read : ∃ e ∈ past, e.time = seen)
    (blacklist : node.blacklist = none ∨ node.blacklist = some now)
    (began : ⟨step.call, .now .insertNode, now, now⟩ ∈ past) (holding : Holding nodeID none [] past w) :
    (ExceptT.run (m := Prog) (ε := Panic) do
      let _ ← perform (.createNode node.row)
      if node.blacklist.isNone then perform (.sendNode node)).Along (S := operations) step.Moves
      (fun _ after => Reported config n step.call nodeID before after after.log) w := by
  rintro _ _ ⟨i, _, rfl⟩
  have created := holding.create step.call (step.choices i) (works i) (show node.row.nodeID = nodeID from own)
  change Along (S := operations) step.Moves _ (ExceptT.run (m := Prog) (ε := Panic)
    (if node.blacklist.isNone then perform (.sendNode node) else pure ())) _
  rcases blacklist with free | listed
  · rw [free]
    rintro _ _ ⟨j, _, rfl⟩
    have ended := created.send step.call (step.choices j) node
    obtain ⟨e, member, time⟩ := read
    exact .sent node seen now refreshed ended.row ended.sent (ended.past began) lastseen
      ⟨e, ended.past member, time⟩ (.inl free)
  · rw [listed]
    exact .unreachable _ now created.row listed created.sent (created.past began)

theorem register_reported (works : step.Works) {node : Node} (own : node.nodeID = nodeID)
    (refreshed : node.Refreshed config n)
    {seen now : Time} (lastseen : node.lastseen = some seen) (read : ∃ e ∈ past, e.time = seen)
    (fresh : node.blacklist = none) (began : ⟨step.call, .now .insertNode, now, now⟩ ∈ past)
    (holding : Holding nodeID none [] past w) : (node.register now).run.Along (S := operations) step.Moves
      (fun result after => result.isOk = true → Reported config n step.call nodeID before after after.log) w := by
  have refreshed' : (node.blacklisted now).Refreshed config n := by
    intro later
    have same := refreshed later
    rw [Node.update_eq] at same ⊢
    simp only [Node.blacklisted, Node.row, Row.node, Node.mk.injEq] at same ⊢
    tauto
  have own' : (node.blacklisted now).nodeID = nodeID := own
  have lastseen' : (node.blacklisted now).lastseen = some seen := lastseen
  rintro err _ ⟨i, _, rfl⟩
  have dialled := (holding.quiet step.call (step.choices i)
      (show (Op.connectTo node.getAddress).quiet = true from rfl)).drop
  cases err with
  | some err =>
    exact (create_reported works own' refreshed' lastseen' read (.inr rfl) began dialled).mono
      fun _ _ reported _ => reported
  | none =>
    rintro made _ ⟨j, _, rfl⟩
    have asked := (dialled.quiet step.call (step.choices j) (show Op.newSession.quiet = true from rfl)).drop
    cases made with
    | false => exact fun survives => absurd survives Bool.false_ne_true
    | true =>
      rintro output _ ⟨k, _, rfl⟩
      have ran := (asked.quiet step.call (step.choices k) (show (Op.runCommand "uptime").quiet = true from rfl)).drop
      cases output with
      | none =>
        exact (create_reported works own' refreshed' lastseen' read (.inr rfl) began ran).mono
          fun _ _ reported _ => reported
      | some output =>
        exact (create_reported works own refreshed lastseen read (.inl fresh) began ran).mono
          fun _ _ reported _ => reported

theorem learnNew_reported (works : step.Works) {nodeinfo : Yanic.Nodeinfo}
    (known : n.nodeinfo = some nodeinfo) (now : Time)
    (began : ⟨step.call, .now .insertNode, now, now⟩ ∈ past) (holding : Holding nodeinfo.nodeID none [] past w) :
    (learnNew n config now).run.Along (S := operations) step.Moves (fun result after => result.isOk = true →
      Reported config n step.call nodeinfo.nodeID before after after.log) w := by
  rw [learnNew_eq]
  rintro updated _ ⟨i, rfl, rfl⟩
  let base : Node :=
    { hostname := nodeinfo.hostname
      nodeID := nodeinfo.nodeID
      owner := (nodeinfo.owner.map (·.contact)).getD ""
      location := nodeinfo.location.getD {}
      wireless := (getWirelessSettings n).getD {} }
  have built : newNode n config.ipPrefix (step.choices i).time =
      some (base.update (some n) config.ipPrefix (step.choices i).time) := by
    rw [newNode, known]
    rfl
  have read := holding.quiet step.call (step.choices i) (show (Op.now .update).quiet = true from rfl)
  change Along (S := operations) step.Moves _
    (registerBuilt now (newNode n config.ipPrefix (step.choices i).time)).run _
  rw [built]
  have lastseen : (base.update (some n) config.ipPrefix (step.choices i).time).lastseen =
      some (step.choices i).time := by
    rw [Node.update_eq]
  have refreshed : (base.update (some n) config.ipPrefix (step.choices i).time).Refreshed config n := by
    have same : Node.Refreshed config n
        { base.update (some n) config.ipPrefix (step.choices i).time with lastseen := some (step.choices i).time } :=
      Node.refreshed_update rfl _ _
    rw [← lastseen] at same
    exact same
  apply register_reported works (Node.update_nodeID ..) refreshed lastseen ⟨_, .head _, rfl⟩ (Node.update_blacklist ..)
    (.tail _ began) read

theorem insertNode_reported (works : step.Works) {nodeinfo : Yanic.Nodeinfo} (known : n.nodeinfo = some nodeinfo)
    (named : nodeinfo.nodeID ≠ "") (fresh : w.log = []) :
    (insertNode config n).run.Along (S := operations) step.Moves (fun result after => result.isOk = true →
      Reported config n step.call nodeinfo.nodeID w after after.log) w := by
  have begun (found : Option Row) (now read : Time) : Holding nodeinfo.nodeID (w.nodes.lookup nodeinfo.nodeID) []
      [⟨step.call, .now .insertNode, now, now⟩] (w.withLog (step.begun nodeinfo.nodeID found now read w.log)) := by
    rw [fresh]
    exact ⟨rfl, rfl, fun _ member => .tail _ member⟩
  apply insertNode_along config step known
  · intro i j k row read
    obtain ⟨there, own⟩ := w.firstNode_found (step.choices j) read
    rw [own named] at there
    have holding := begun (some row) (step.choices i).time (step.choices j).time
    rw [there] at holding
    apply refreshKnown_reported works there _ _ (List.mem_singleton.mpr rfl)
    exact ⟨holding.row, holding.sent, fun e member => .tail _ (holding.past member)⟩
  · intro i j missing
    have gone := w.firstNode_missing _ (works j) missing
    have holding := begun none (step.choices i).time (step.choices j).time
    rw [gone] at holding
    exact learnNew_reported works known _ (List.mem_singleton.mpr rfl) holding

end Runs

/-- What a report does when it is served alone and its process survives. -/
theorem serve_reported (config : Config) {step : Step} {n : Yanic.Node} {nodeinfo : Yanic.Nodeinfo}
    (report : step.call = .report n) (known : n.nodeinfo = some nodeinfo) (named : nodeinfo.nodeID ≠ "")
    (works : step.Works) {w : World} (survives : (serve config step w).2 = true) :
    Reported config n step.call nodeinfo.nodeID w (serve config step w).1 ((serve config step w).1.since w) := by
  have program : step.call.program config = (insertNode config n).run := by
    rw [report]
    rfl
  have along : (step.call.program config).Along (S := operations) step.Moves (fun result after => result.isOk = true →
      Reported config n step.call nodeinfo.nodeID (w.withLog []) after after.log) (w.withLog []) := by
    rw [program]
    exact insertNode_reported works known named rfl
  obtain ⟨result, ended, alive⟩ := serve_along config step id step.Moves (fun _ i _ => ⟨i, rfl, rfl⟩) along
  have same : (serve config step (w.withLog [])).2 = (serve config step w).2 := by
    obtain ⟨after, events, alive, same⟩ := serve_withLog config step w
    rw [same]
    exact (congrArg Prod.snd (same w.log)).symm
  rw [serve_since, serve_log]
  cases ended (alive.symm.trans (same.trans survives)) with
  | sent lNode seen now refreshed stored broadcasts began lastseen read passes =>
    exact .sent lNode seen now refreshed stored broadcasts began lastseen read passes
  | filtered row stored now checked there stays blacklist lastseen broadcasts began check stops =>
    exact .filtered row stored now checked there stays blacklist lastseen broadcasts began check stops
  | unreachable stored now stays blacklist broadcasts began =>
    exact .unreachable stored now stays blacklist broadcasts began

/-! ## The comparison -/

/-- What clients are sent of a node, without the time at which it was last seen. -/
def Node.timeless (n : Node) : Node := { n with blacklist := none, lastseen := none }

/-- The clock of a report and of the check that comes after it: the check is late, but not too late. -/
def Prompt (d : Duration) (events : List Event) (later : Time) : Prop :=
  ∀ start ∈ events, start.op = .now .insertNode →
    (∀ e ∈ events, start.time ≤ e.time ∧ e.time ≤ later) ∧ later < start.time + d

/-- An entry on the blacklist that stops the report is still there when the row is checked later. -/
def KeepsEntry (d : Duration) (row : Option Row) (events : List Event) (later : Time) : Prop :=
  ∀ time, row.bind Row.blacklist = some time → ∀ e ∈ events, e.op = .now .timeFilter → e.time < time + d →
  later < time + d

theorem Node.timeFilter_iff {n : Node} {d : Duration} {now seen : Time} (lastseen : n.lastseen = some seen) :
    n.timeFilter d now = true ↔ seen < now - d ∨ ∃ time, n.blacklist = some time ∧ now - d < time := by
  rw [Node.timeFilter, lastseen, Bool.or_eq_true, Option.all_some, decide_eq_true_eq, Option.any_eq_true]
  simp only [decide_eq_true_eq]

/-- After a report clients see what new ones do, provided that no entry on the blacklist runs out in between. -/
theorem sameAfterReport (config : Config) (reports : Reports) {insert reload : Step} {n : Yanic.Node}
    {nodeinfo : Yanic.Nodeinfo} {connect : Message} (reporting : insert.call = .report n)
    (known : n.nodeinfo = some nodeinfo) (named : nodeinfo.nodeID ≠ "") (listed : reports nodeinfo.nodeID = some n)
    (reloading : reload.call = .message connect) (connects : connect.subject = MessageType.connect)
    (works : insert.Works) (reads : (reload.choices 0).dbFails = false) (w : World) :
    let after := (serve config insert w).1
    let events := after.since w
    let answer := (serve config reload after).1.since after
    let later := reload.checks config reports nodeinfo.nodeID after
    (serve config insert w).2 = true → (∀ e ∈ answer, e.Lists reports) → Prompt config.blacklistFor events later →
    KeepsEntry config.blacklistFor (w.nodes.lookup nodeinfo.nodeID) events later →
    (events.filterMap Event.broadcast).map Node.timeless =
      ((answer.filterMap Event.shown).filter (·.nodeID = nodeinfo.nodeID)).map Node.timeless := by
  intro after events answer later survives lists prompt keeps
  have reported := serve_reported config reporting known named works survives
  rw [serve_connect config reports reload reloading connects nodeinfo.nodeID lists, reload.find?_finds, reads,
    if_neg Bool.false_ne_true]
  change Prompt config.blacklistFor (after.since w) later at prompt
  change KeepsEntry config.blacklistFor (w.nodes.lookup nodeinfo.nodeID) (after.since w) later at keeps
  generalize (reload.choices (reload.place config reports nodeinfo.nodeID after.nodes.rows 1 + 2)).time = updated
  change _ = ((after.nodes.lookup nodeinfo.nodeID).bind fun row => row.shown config reports later updated).toList.map _
  cases reported with
  | sent lNode seen now refreshed stored broadcasts began lastseen read passes =>
    obtain ⟨between, soon⟩ := prompt _ began rfl
    obtain ⟨e, member, time⟩ := read
    have order := (between e member).1
    have passes : lNode.row.node.timeFilter config.blacklistFor later = false := by
      rw [← Bool.not_eq_true, Node.timeFilter_iff (show lNode.row.node.lastseen = some seen from lastseen)]
      rintro (old | ⟨entry, same, recent⟩)
      · dsimp only at soon order
        linarith
      · rcases passes with free | ⟨e', member', passes⟩
        · rw [show lNode.row.node.blacklist = none from free] at same
          contradiction
        · rw [← Bool.not_eq_true, Node.timeFilter_iff lastseen] at passes
          have order' := (between e' member').2
          exact passes (.inr ⟨entry, same, by linarith⟩)
    have own : lNode.row.nodeID = nodeinfo.nodeID := Table.lookup_key stored
    rw [stored, Option.bind_some, Row.shown, passes, if_neg Bool.false_ne_true, own, listed, refreshed, broadcasts]
    rfl
  | filtered row stored now checked there stays blacklist lastseen broadcasts began check stops =>
    obtain ⟨between, soon⟩ := prompt _ began rfl
    have order := (between _ check).2
    have stops : stored.node.timeFilter config.blacklistFor later = true := by
      rw [Node.timeFilter_iff (show stored.node.lastseen = some now from lastseen)] at stops ⊢
      rcases stops with old | ⟨entry, same, recent⟩
      · dsimp only at soon order
        linarith
      · right
        have still := keeps entry (by rw [there, Option.bind_some, ← blacklist]; exact same) _ check rfl (by
          change checked < entry + config.blacklistFor
          linarith)
        exact ⟨entry, same, by linarith⟩
    rw [stays, Option.bind_some, Row.shown, stops, broadcasts]
    rfl
  | unreachable stored now stays blacklist broadcasts began =>
    obtain ⟨-, soon⟩ := prompt _ began rfl
    have stops : stored.node.timeFilter config.blacklistFor later = true := by
      rw [Node.timeFilter, Bool.or_eq_true, show stored.node.blacklist = some now from blacklist, Option.any_some,
        decide_eq_true_eq]
      right
      dsimp only at soon
      linarith
    rw [stays, Option.bind_some, Row.shown, stops, broadcasts]
    rfl

def reporting (time : Time) : Step := listing time (.report (Sample.report "attic")) none

/-- The entry on the blacklist runs out between the two checks. -/
theorem expired_not_same :
    let w := Sample.world [{ Sample.row with blacklist := some 0 }]
    let reload := reloadAt 3601 (some (Sample.report "attic"))
    let reports : Reports := fun _ => some (Sample.report "attic")
    let after := (serve Sample.config (reporting 3599) w).1
    let events := after.since w
    let answer := (serve Sample.config reload after).1.since after
    (serve Sample.config (reporting 3599) w).2 = true ∧ (∀ e ∈ answer, e.Lists reports) ∧
      Prompt 3600 events (reload.checks Sample.config reports "f81a67a5e9c1" after) ∧
      (events.filterMap Event.broadcast).map Node.timeless ≠
        ((answer.filterMap Event.shown).filter (·.nodeID = "f81a67a5e9c1")).map Node.timeless := by
  refine ⟨by decide +kernel, by decide +kernel, ?_, by decide +kernel⟩
  unfold Prompt
  decide +kernel

theorem sameAfterReport_known :
    let w := Sample.world [Sample.row]
    let after := (serve Sample.config (reporting 60) w).1
    let answer := (serve Sample.config (reloadAt 61 (some (Sample.report "attic"))) after).1.since after
    ((after.since w).filterMap Event.broadcast).map Node.timeless =
      ((answer.filterMap Event.shown).filter (·.nodeID = "f81a67a5e9c1")).map Node.timeless := by
  apply sameAfterReport Sample.config (fun _ => some (Sample.report "attic")) rfl rfl (by decide) rfl rfl rfl
    (fun _ => rfl) rfl
    (Sample.world [Sample.row]) (by decide +kernel) (by decide +kernel)
  · unfold Prompt
    decide +kernel
  · intro _ entry
    cases entry

end FreifunkManager
