import FreifunkManager.Proofs.Edits

/-! # What a report announces

The statements of a report are not checked: an address that could not be written and a row that could not be
created are announced all the same. `announced_iff` tells when what is announced is in the table.
-/

namespace FreifunkManager

open Effects Program Store

/-- The row has the settings and the address of the node. -/
def Row.Shows (row : Row) (node : Node) : Prop := row.settings = node.settings ∧ row.address = node.address

/-- What was sent to the clients is in the table. -/
def Announced (nodeID : String) (after : World) (events : List Event) : Prop :=
  ∀ node ∈ events.filterMap Event.broadcast, ∃ row, after.nodes.lookup nodeID = some row ∧ row.Shows node

/-! ## SSH -/

/-- The operations of SSH. -/
def Talks : Op → Prop
  | .connectTo _ | .newSession | .runCommand _ => True
  | _ => False

theorem pushDifferences_talks (node : Node) : Only Talks node.pushDifferences.run :=
  (pushDifferences_only node).weaken fun op updates => by cases op <;> trivial

theorem runOn_talks (addr : TCPAddr) (cmd : String) : Only Talks (Ssh.runOn addr cmd).run :=
  (runOn_only addr cmd).weaken fun op ssh => by cases op <;> trivial

section Ssh

variable (step : Step)

/-- How SSH code ends, from its place among the choices on. -/
def Step.outcome {α : Type} (code : Go α) (w : World) (i : ℕ) : Except Panic α := (code.run.run step.handle (w, i)).1

/-- SSH depends on the manager of the connections only, and changes nothing else. -/
theorem run_talks {α : Type} {program : Prog α} (talks : Only Talks program) {v w : World}
    (same : v.manager = w.manager)
    (i : ℕ) : (program.run step.handle (v, i)).1 = (program.run step.handle (w, i)).1 ∧
      (program.run step.handle (v, i)).2.1.nodes = v.nodes ∧
      (program.run step.handle (v, i)).2.1.log.filterMap Event.broadcast = v.log.filterMap Event.broadcast := by
  induction program generalizing v w i with
  | done value => exact ⟨rfl, rfl, rfl⟩
  | ask op next ih =>
    have act : (v.act (step.choices i) op).1 = (w.act (step.choices i) op).1 ∧
        (v.act (step.choices i) op).2.manager = (w.act (step.choices i) op).2.manager ∧
        (v.act (step.choices i) op).2.nodes = v.nodes ∧
        (v.event step.call (step.choices i) op).broadcast = none := by
      cases op with
      | connectTo addr =>
        unfold World.act
        rw [same]
        exact ⟨rfl, rfl, rfl, rfl⟩
      | newSession => exact ⟨rfl, same, rfl, rfl⟩
      | runCommand cmd => exact ⟨rfl, same, rfl, rfl⟩
      | _ => exact talks.1.elim
    obtain ⟨reply, manager, nodes, silent⟩ := act
    obtain ⟨result, kept, quiet⟩ := ih (v.act (step.choices i) op).1 (talks.2 _ trivial)
      (v := (v.handle step.call (step.choices i) op).2)
      (w := (w.handle step.call (step.choices i) op).2) manager (i + 1)
    rw [run_ask, run_ask]
    refine ⟨result.trans ?_, kept.trans nodes, quiet.trans (List.filterMap_cons_none silent)⟩
    rw [reply]
    rfl

/-- An SSH call, and what follows its outcome. -/
theorem along_talks {α β : Type} {code : Go α} (talks : Only Talks code.run) {rest : α → Go β}
    {wanted : Except Panic β → World × ℕ → Prop} {v w : World} (same : v.manager = w.manager) (i : ℕ)
    (panics : ∀ panic after j, step.outcome code w i = .error panic → after.nodes = v.nodes →
      after.log.filterMap Event.broadcast = v.log.filterMap Event.broadcast → wanted (.error panic) (after, j))
    (returns : ∀ value after j, code.run.run step.handle (v, i) = (.ok value, after, j) →
      step.outcome code w i = .ok value → after.nodes = v.nodes →
      after.log.filterMap Event.broadcast = v.log.filterMap Event.broadcast →
      (rest value).run.Along (S := operations) step.Next wanted (after, j)) :
    (code >>= rest).run.Along (S := operations) step.Next wanted (v, i) := by
  obtain ⟨outcome, nodes, quiet⟩ := run_talks step talks same i
  rw [ExceptT.run_bind]
  refine along_bind.mpr ((along_next_iff step).mpr ?_)
  rcases result : (code.run.run step.handle (v, i)) with ⟨panic | value, after, j⟩ <;>
    rw [result] at outcome nodes quiet
  · exact panics panic after j outcome.symm nodes quiet
  · exact returns value after j result outcome.symm nodes quiet

theorem runOn_eq (addr : TCPAddr) (cmd : String) : (Ssh.runOn addr cmd).run =
    .ask (.connectTo addr) fun err => if err.isSome then .done (.ok none) else
      .ask .newSession fun made => if made then .ask (.runCommand cmd) fun output => .done (.ok output)
      else .done (.error .nilSession) := by
  change Program.ask (S := operations) (.connectTo addr) _ = _
  refine congrArg _ (funext fun err => ?_)
  cases err with
  | some err => rfl
  | none =>
    change Program.ask (S := operations) .newSession _ = _
    refine congrArg _ (funext fun made => ?_)
    cases made <;> rfl

/-- A command that has output took three operations. -/
theorem runOn_place {addr : TCPAddr} {cmd output : String} {v after : World} {i j : ℕ}
    (ran : (Ssh.runOn addr cmd).run.run step.handle (v, i) = (.ok (some output), after, j)) : j = i + 3 := by
  rw [runOn_eq, run_ask] at ran
  split at ran
  · cases ran
  · rw [run_ask] at ran
    split at ran
    · exact (congrArg (·.2.2) ran).symm
    · cases ran

end Ssh

/-! ## A report -/

section Report

variable (config : Config) (step : Step) (n : Yanic.Node) (w : World)

/-- The copy of a row that a report refreshes. -/
def Step.refreshed (row : Row) : Node :=
  (row.node.update (some n) config.ipPrefix (step.choices 2).time).seenAt (step.choices 0).time

/-- The row is written, or need not be, or the node is not announced. -/
def RefreshStored (row : Row) : Prop :=
  (step.choices 3).dbFails = false ∨ (step.refreshed config n row).address = row.address ∨
    (step.refreshed config n row).timeFilter config.blacklistFor (step.choices 4).time = true ∨
    step.outcome (step.refreshed config n row).pushDifferences w 5 ≠ .ok true

/-- The row is created, or is there as it would be, or the node is not announced. -/
def LearnStored (node : Node) : Prop :=
  ((step.choices 6).dbFails = false ∧ w.nodes.lookup node.nodeID = none) ∨
    (∃ row, w.nodes.lookup node.nodeID = some row ∧ row.Shows node) ∨
    ∀ output, step.outcome (Ssh.runOn node.getAddress "uptime") w 3 ≠ .ok (some output)

/-- When a report stores what it announces; the row was read, or it could not be. -/
def Stored (nodeID : String) : Prop :=
  match (w.act (step.choices 1) (.firstNode nodeID)).1 with
  | some row => RefreshStored config step n w row
  | none => ∀ node, newNode n config.ipPrefix (step.choices 2).time = some node → LearnStored step w node

/-- Nothing was announced so far. -/
structure Quiet (w v : World) : Prop where
  nodes : v.nodes = w.nodes
  manager : v.manager = w.manager
  broadcasts : v.log.filterMap Event.broadcast = []

variable {config step n w}

theorem announced_nothing {nodeID : String} {after : World} (quiet : after.log.filterMap Event.broadcast = []) :
    Announced nodeID after after.log := by
  rw [Announced, quiet]
  exact List.forall_mem_nil _

theorem announced_sent {nodeID : String} {after : World} {events : List Event} {node : Node}
    (sent : events.filterMap Event.broadcast = [node]) :
    Announced nodeID after events ↔ ∃ row, after.nodes.lookup nodeID = some row ∧ row.Shows node := by
  rw [Announced, sent]
  exact List.forall_mem_singleton

theorem announced_one {nodeID : String} {after : World} {events : List Event} {node : Node} {row : Row}
    (sent : events.filterMap Event.broadcast = [node]) (there : after.nodes.lookup nodeID = some row) :
    Announced nodeID after events ↔ row.Shows node := by
  rw [announced_sent sent, there]
  simp

theorem updateNode_lookup (nodeID : String) (columns : Columns) (choice : Choice) :
    (w.act choice (.updateNode nodeID columns)).2.nodes.lookup nodeID =
      if choice.dbFails then w.nodes.lookup nodeID else (w.nodes.lookup nodeID).map columns.apply := by
  have act : w.act choice (.updateNode nodeID columns) = if choice.dbFails then (false, w)
      else (true, { w with nodes := w.nodes.modify nodeID columns.apply columns.apply_nodeID }) := rfl
  rw [act]
  split
  · rfl
  · exact (Table.lookup_modify _ _ _ columns.apply_nodeID _).trans (if_pos (.inr rfl))

theorem createNode_written (row : Row) (choice : Choice) :
    (w.act choice (.createNode row)).2.nodes.lookup row.nodeID =
      if choice.dbFails = false ∧ w.nodes.lookup row.nodeID = none then some row else w.nodes.lookup row.nodeID := by
  rw [w.act_createNode choice]
  cases fails : choice.dbFails with
  | true => simp
  | false =>
    rw [if_neg Bool.false_ne_true]
    cases created : w.nodes.create row with
    | none => exact (if_neg fun free => Table.create_eq_none.mp created free.2).symm
    | some nodes =>
      have free := Table.create_eq_some created
      rw [if_pos ⟨rfl, free.1⟩]
      exact (free.2 _).trans (if_pos rfl)

theorem updateNode_manager (nodeID : String) (columns : Columns) (choice : Choice) :
    (w.act choice (.updateNode nodeID columns)).2.manager = w.manager := by
  unfold World.act
  cases choice.dbFails <;> rfl

/-- What is announced of the refreshed copy. -/
theorem refresh_announced {nodeID : String} {row : Row} (there : w.nodes.lookup nodeID = some row)
    {v : World} (quiet : Quiet w v) :
    (refreshKnown config (step.choices 0).time
      (row.node.update (some n) config.ipPrefix (step.choices 2).time)).run.Along
      (S := operations) step.Next (fun _ after => Announced nodeID after.1 after.1.log ↔
        RefreshStored config step n w row)
      (v, 3) := by
  have key := Table.lookup_key there
  have own : (step.refreshed config n row).nodeID = nodeID := (Node.update_nodeID ..).trans key
  have settings : (step.refreshed config n row).settings = row.settings := Node.update_settings ..
  have address : (row.node.update (some n) config.ipPrefix (step.choices 2).time).address =
      (step.refreshed config n row).address := rfl
  rw [refreshKnown_eq, show (row.node.update (some n) config.ipPrefix (step.choices 2).time).nodeID =
    nodeID from own, address]
  rintro updated _ ⟨same, rfl⟩ checked _ ⟨rfl, rfl⟩
  have written := updateNode_lookup (w := v) nodeID
    (.observed (step.refreshed config n row).address (step.choices 0).time) (step.choices 3)
  rw [quiet.nodes, there] at written
  change (ExceptT.run (m := Prog) (ε := Panic)
    (if (step.refreshed config n row).timeFilter config.blacklistFor (step.choices 4).time then pure ()
    else (step.refreshed config n row).pushOrBlacklist (step.choices 0).time)).Along _ _ _
  split
  · next filtered =>
    refine iff_of_true (announced_nothing quiet.broadcasts) (.inr (.inr (.inl filtered)))
  · next timely =>
    have unreached {after : World} (nothing : after.log.filterMap Event.broadcast = [])
        (missed : step.outcome (step.refreshed config n row).pushDifferences w 5 ≠ .ok true) :
        Announced nodeID after after.log ↔ RefreshStored config step n w row :=
      iff_of_true (announced_nothing nothing) (.inr (.inr (.inr missed)))
    unfold Node.pushOrBlacklist
    refine along_talks step (w := w) (pushDifferences_talks _) ?_ _ ?_ ?_
    · exact (updateNode_manager ..).trans quiet.manager
    · intro panic after j outcome nodes broadcasts
      exact unreached (broadcasts.trans quiet.broadcasts) (by rw [outcome]; exact nofun)
    · intro reached after j _ outcome nodes broadcasts
      cases reached with
      | false =>
        rintro _ _ ⟨rfl, rfl⟩
        exact unreached (broadcasts.trans quiet.broadcasts) (by rw [outcome]; decide)
      | true =>
        rintro _ _ ⟨rfl, rfl⟩
        have stored : after.nodes.lookup nodeID = if (step.choices 3).dbFails then some row
            else some { row with
              address := (step.refreshed config n row).address, lastseen := some (step.choices 0).time } :=
          (congrArg (Table.lookup · nodeID) nodes).trans written
        have missed : ¬ (step.refreshed config n row).timeFilter config.blacklistFor (step.choices 4).time = true ∧
            ¬ step.outcome (step.refreshed config n row).pushDifferences w 5 ≠ .ok true :=
            ⟨timely, not_not_intro outcome⟩
        unfold RefreshStored
        rw [or_iff_left missed.2, or_iff_left missed.1]
        have sent := congrArg (step.refreshed config n row :: ·) (broadcasts.trans quiet.broadcasts)
        cases fails : (step.choices 3).dbFails with
        | true =>
          rw [fails, if_pos rfl] at stored
          refine (announced_one ?_ ?_).trans (?_ : row.Shows (step.refreshed config n row) ↔ _)
          · exact sent
          · exact stored
          · exact ⟨fun shows => .inr shows.2.symm, fun same => ⟨settings.symm, (same.resolve_left nofun).symm⟩⟩
        | false =>
          rw [fails, if_neg Bool.false_ne_true] at stored
          have shows : Row.Shows { row with
              address := (step.refreshed config n row).address, lastseen := some (step.choices 0).time }
            (step.refreshed config n row) := ⟨settings.symm, rfl⟩
          refine iff_of_true ((announced_one ?_ ?_).mpr shows) (.inl rfl)
          · exact sent
          · exact stored

/-- What is announced of a new node. -/
theorem learn_announced {nodeID : String} {node : Node} (own : node.nodeID = nodeID) (fresh : node.blacklist = none)
    {v : World} (quiet : Quiet w v) (now : Time) :
    (node.register now).run.Along (S := operations) step.Next
      (fun _ after => Announced nodeID after.1 after.1.log ↔ LearnStored step w node) (v, 3) := by
  have unreached {after : World} (nothing : after.log.filterMap Event.broadcast = [])
      (missed : ∀ output, step.outcome (Ssh.runOn node.getAddress "uptime") w 3 ≠ .ok (some output)) :
      Announced nodeID after after.log ↔ LearnStored step w node :=
    iff_of_true (announced_nothing nothing) (.inr (.inr missed))
  unfold Node.register
  refine along_talks step (w := w) (runOn_talks _ _) quiet.manager _ ?_ ?_
  · intro panic after j outcome nodes broadcasts
    exact unreached (broadcasts.trans quiet.broadcasts) (by rw [outcome]; exact fun _ => nofun)
  · intro result after j ran outcome nodes broadcasts
    cases result with
    | none =>
      rintro _ _ ⟨rfl, rfl⟩
      refine unreached ?_ (by rw [outcome]; exact fun _ => nofun)
      exact broadcasts.trans quiet.broadcasts
    | some output =>
      rw [runOn_place step ran]
      rintro created _ ⟨same, rfl⟩
      change (ExceptT.run (m := Prog) (ε := Panic)
        (if node.blacklist.isNone then perform (.sendNode node) else pure ())).Along _ _ _
      rw [fresh]
      rintro _ _ ⟨rfl, rfl⟩
      have sent := congrArg (node :: ·) (broadcasts.trans quiet.broadcasts)
      have stored := createNode_written (w := after) node.row (step.choices 6)
      rw [show node.row.nodeID = nodeID from own, nodes, quiet.nodes] at stored
      have reached : ¬ ∀ output, step.outcome (Ssh.runOn node.getAddress "uptime") w 3 ≠ .ok (some output) :=
        fun missed => missed output outcome
      unfold LearnStored
      rw [or_iff_left reached, own]
      by_cases creates : (step.choices 6).dbFails = false ∧ w.nodes.lookup nodeID = none
      · rw [if_pos creates] at stored
        refine iff_of_true ((announced_one ?_ ?_).mpr (⟨rfl, rfl⟩ : node.row.Shows node)) (.inl creates)
        · exact sent
        · exact stored
      · rw [if_neg creates] at stored
        rw [or_iff_right creates, ← stored]
        exact announced_sent sent

end Report

theorem stored_of_found {config : Config} {step : Step} {n : Yanic.Node} {w : World} {nodeID : String} {row : Row}
    (found : (w.act (step.choices 1) (.firstNode nodeID)).1 = some row) (works : (step.choices 3).dbFails = false) :
    Stored config step n w nodeID := by
  rw [Stored, found]
  exact .inl works

/-- A report announces only what is in the table if and only if its row is written or need not be. -/
theorem announced_iff (config : Config) {step : Step} {n : Yanic.Node} {nodeinfo : Yanic.Nodeinfo}
    (report : step.call = .report n) (known : n.nodeinfo = some nodeinfo) (named : nodeinfo.nodeID ≠ "") (w : World) :
    Announced nodeinfo.nodeID (serve config step w).1 ((serve config step w).1.since w) ↔
      Stored config step n w nodeinfo.nodeID := by
  have alone : Announced nodeinfo.nodeID (serve config step (w.withLog [])).1 (serve config step (w.withLog [])).1.log ↔
      Stored config step n w nodeinfo.nodeID := by
    apply serve_next config step fun after _ => Announced nodeinfo.nodeID after after.log ↔
      Stored config step n w nodeinfo.nodeID
    rw [report]
    change (insertNode config n).run.Along _ _ _
    unfold insertNode Stored
    rw [known]
    rintro now _ ⟨rfl, rfl⟩ found _ ⟨same, rfl⟩
    rw [show (w.act (step.choices 1) (.firstNode nodeinfo.nodeID)).1 = found from same.symm]
    cases found with
    | some row =>
      obtain ⟨there, own⟩ := w.firstNode_found (step.choices 1) same.symm
      rintro updated _ ⟨rfl, rfl⟩
      exact refresh_announced (own named ▸ there) ⟨rfl, rfl, rfl⟩
    | none =>
      change (learnNew n config (step.choices 0).time).run.Along _ _ _
      rw [learnNew_eq]
      rintro updated _ ⟨rfl, rfl⟩
      change (registerBuilt (step.choices 0).time (newNode n config.ipPrefix (step.choices 2).time)).run.Along _ _ _
      cases built : newNode n config.ipPrefix (step.choices 2).time with
      | none => exact iff_of_true (announced_nothing rfl) (by simp)
      | some node =>
        obtain ⟨learned, fresh⟩ := newNode_learned known built
        have quiet : Quiet w (World.handle step.call (step.choices 2) (.now .update) (World.handle step.call
            (step.choices 1) (.firstNode nodeinfo.nodeID) (World.handle step.call (step.choices 0) (.now .insertNode)
              (w.withLog [])).2).2).2 := ⟨rfl, rfl, rfl⟩
        refine (learn_announced learned.nodeID fresh quiet (step.choices 0).time).mono fun _ after same => ?_
        refine same.trans ⟨fun stored => ?_, fun stored => stored node rfl⟩
        rintro _ ⟨⟩
        exact stored
  rw [serve_since, serve_log]
  exact alone

/-- A node whose row is found and written. -/
def refreshing : Step := { call := .report (Sample.report "attic"), choices := fun _ => {} }

theorem announced_found :
    Announced "f81a67a5e9c1" (serve Sample.config refreshing (Sample.world [Sample.row])).1
      ((serve Sample.config refreshing (Sample.world [Sample.row])).1.since (Sample.world [Sample.row])) := by
  have found : ((Sample.world [Sample.row]).act (refreshing.choices 1) (.firstNode "f81a67a5e9c1")).1 =
      some Sample.row := by
    decide +kernel
  have stored : Stored Sample.config refreshing (Sample.report "attic") (Sample.world [Sample.row]) "f81a67a5e9c1" :=
    stored_of_found found rfl
  have report : refreshing.call = .report (Sample.report "attic") := rfl
  have known : (Sample.report "attic").nodeinfo = some _ := rfl
  exact (announced_iff Sample.config report known (by decide) (Sample.world [Sample.row])).mpr stored

/-- A node whose row could not be read: it is taken for a new one and sent, but its row cannot be created. -/
def unreadable : Step := { call := .report (Sample.report "cellar"), choices := fun i => { dbFails := i = 1 } }

theorem announced_unstored : ¬ ∀ (config : Config) (step : Step) (n : Yanic.Node) (nodeinfo : Yanic.Nodeinfo),
    step.call = .report n → n.nodeinfo = some nodeinfo → nodeinfo.nodeID ≠ "" → ∀ w : World,
      Announced nodeinfo.nodeID (serve config step w).1 ((serve config step w).1.since w) := by
  intro claimed
  have announced := claimed Sample.config unreadable _ _ rfl rfl (by decide) (Sample.world [Sample.row])
  have sent : (((serve Sample.config unreadable (Sample.world [Sample.row])).1.since
      (Sample.world [Sample.row])).filterMap
      Event.broadcast).map Node.hostname = ["cellar"] := by decide +kernel
  have stored : ((serve Sample.config unreadable (Sample.world [Sample.row])).1.nodes.lookup "f81a67a5e9c1").map
      Row.hostname = some "attic" := by decide +kernel
  obtain ⟨node, member, hostname⟩ := List.mem_map.mp (sent.symm ▸ List.mem_singleton_self "cellar")
  obtain ⟨row, there, shows⟩ := announced node member
  rw [there, Option.map_some, Option.some.injEq] at stored
  have same : row.hostname = node.hostname := congrArg Settings.hostname shows.1
  rw [stored, hostname] at same
  exact absurd same (by decide)

end FreifunkManager
