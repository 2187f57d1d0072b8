import FreifunkManager.Proofs.Serving

/-! # What a report and an edit leave alone

Both have one node id and use it as the key of everything they read, write and send. A blank id is no key:
the handler of edits refuses it, but a report with a blank id reads the first row of the table instead.
-/

namespace FreifunkManager

open Effects Program Store

/-- A command of a report with this id: it asks a new node for a sign of life, or it pushes a setting of the row. -/
def OwnCommand (nodeID : String) (before : World) (cmd : String) : Prop :=
  cmd = "uptime" ∨ ∃ (row : Row) (node : Node),
    before.nodes.lookup nodeID = some row ∧ node.settings = row.settings ∧ node.Pushes cmd

/-- No other row is read, no other settings are pushed, and no other node is sent. -/
def Event.Concerns (nodeID : String) (before : World) : Event → Prop
  | ⟨_, .firstNode _, found, _⟩ => ∀ row, found = some row → row.nodeID = nodeID
  | ⟨_, .findNodes, _, _⟩ => False
  | ⟨_, .runCommand cmd, _, _⟩ => OwnCommand nodeID before cmd
  | ⟨_, .sendNode node, _, _⟩ => node.nodeID = nodeID
  | _ => True

/-- What happened between two worlds is all about one node. -/
structure TouchesOnly (nodeID : String) (before after : World) : Prop where
  events : ∀ e ∈ after.since before, e.Concerns nodeID before
  others : ∀ other, other ≠ nodeID → after.nodes.lookup other = before.nodes.lookup other

/-- The key tells the row of the node from all others. -/
def Tells (nodeID : String) (w : World) : Prop := nodeID ≠ "" ∨ ∀ row ∈ w.nodes.rows, row.nodeID = ""

/-- The operation uses this key for everything. -/
def Op.Concerns (nodeID : String) (before : World) : Op → Prop
  | .firstNode key => key = nodeID ∧ key ≠ ""
  | .updateNode key _ => key = nodeID ∧ Tells nodeID before
  | .saveNode row | .createNode row => row.nodeID = nodeID
  | .runCommand cmd => OwnCommand nodeID before cmd
  | .sendNode node => node.nodeID = nodeID
  | .findNodes => False
  | _ => True

section Frame

variable {nodeID : String} {w before : World}

theorem Op.Concerns.event {op : Op} (concerns : op.Concerns nodeID before) (call : Call) (choice : Choice) (w : World) :
    (w.event call choice op).Concerns nodeID before := by
  cases op with
  | firstNode key =>
    obtain ⟨rfl, named⟩ := concerns
    intro row found
    exact (w.firstNode_found choice found).2 named
  | findNodes => exact concerns.elim
  | runCommand cmd => exact concerns
  | sendNode node => exact concerns
  | _ => trivial

theorem Tells.others (tells : Tells nodeID w) {other : String} (different : other ≠ nodeID) :
    nodeID ≠ "" ∨ w.nodes.lookup other = none := by
  rcases eq_or_ne nodeID "" with rfl | named
  · right
    apply Table.lookup_eq_none.mpr
    rintro row member rfl
    exact different (tells.resolve_left (fun named => named rfl) row member)
  · exact .inl named

/-- What has happened so far, with a log that began empty. -/
structure TouchedOnly (nodeID : String) (before w : World) : Prop where
  events : ∀ e ∈ w.log, e.Concerns nodeID before
  others : ∀ other, other ≠ nodeID → w.nodes.lookup other = before.nodes.lookup other

theorem TouchedOnly.row (touched : TouchedOnly nodeID before w) {op : Op} (concerns : op.Concerns nodeID before)
    {other : String} (different : other ≠ nodeID) (call : Call) (choice : Choice) :
    (w.handle call choice op).2.nodes.lookup other = w.nodes.lookup other := by
  rw [w.lookup_handle, Event.rowAfter]
  cases written : (w.event call choice op).written with
  | some row =>
    have own : row.nodeID = nodeID := by
      rcases w.written_cases call choice written with rfl | ⟨rfl, -⟩ <;> exact concerns
    exact if_neg fun same => different (same.symm.trans own)
  | none =>
    cases changed : (w.event call choice op).changed with
    | none => rfl
    | some change =>
      obtain ⟨key, columns⟩ := change
      obtain rfl := w.changed_cases call choice changed
      obtain ⟨rfl, tells⟩ := concerns
      rcases tells.others different with named | missing
      · exact if_neg (not_or.mpr ⟨named, Ne.symm different⟩)
      · rw [touched.others other different, missing]
        exact ite_self none

theorem TouchedOnly.handle (touched : TouchedOnly nodeID before w) {op : Op}
    (concerns : op.Concerns nodeID before) (call : Call) (choice : Choice) :
    TouchedOnly nodeID before (w.handle call choice op).2 where
  events := List.forall_mem_cons.mpr ⟨concerns.event call choice w, touched.events⟩
  others other different := by
    rw [touched.row concerns different call choice, touched.others other different]

theorem TouchedOnly.along {α : Type} {step : Step} {program : Prog α} {promised : (op : Op) → op.Reply → Prop}
    (kept : ∀ op choice w, promised op (World.act choice op w).1)
    (satisfied : program.Satisfies (S := operations) (Op.Concerns nodeID before) promised fun _ => True)
    (touched : TouchedOnly nodeID before w) :
    program.Along (S := operations) step.Moves (fun _ => TouchedOnly nodeID before) w := by
  apply (Along.of_satisfies satisfied (TouchedOnly nodeID before) ?_ touched).mono fun _ _ ended => ended.2
  rintro op w _ _ concerns touched ⟨i, rfl, rfl⟩
  exact ⟨kept op _ w, touched.handle concerns _ _⟩

/-- What a call does from an empty log is what it does after any other. -/
theorem touchesOnly_of_touchedOnly (config : Config) (step : Step)
    (touched : TouchedOnly nodeID w (serve config step (w.withLog [])).1) :
    TouchesOnly nodeID w (serve config step w).1 where
  events := by
    rw [serve_since]
    exact touched.events
  others other different := by
    rw [serve_log]
    exact touched.others other different

end Frame

/-! ## Reports -/

section Reports

variable (config : Config) (step : Step) {n : Yanic.Node} {nodeinfo : Yanic.Nodeinfo} {w before : World}

theorem refreshKnown_touchesOnly (known : n.nodeinfo = some nodeinfo) {row : Row}
    (tells : Tells nodeinfo.nodeID before) (own : row.nodeID = nodeinfo.nodeID)
    (there : before.nodes.lookup nodeinfo.nodeID = some row) (now updated : Time) :
    Only (Op.Concerns nodeinfo.nodeID before)
      (refreshKnown config now (row.node.update (some n) config.ipPrefix updated)).run := by
  apply (refreshKnown_only known now updated row).weaken
  rintro op ⟨refreshes, issues⟩
  cases op with
  | updateNode key columns => cases columns <;> exact ⟨refreshes.1.trans own, tells⟩
  | sendNode node => exact refreshes.1.trans own
  | runCommand cmd => exact Or.inr ⟨row, _, there, Node.update_settings .., issues⟩
  | now | connectTo | newSession => trivial
  | _ => exact refreshes.elim

theorem learnNew_touchesOnly (known : n.nodeinfo = some nodeinfo) (now : Time) :
    Only (Op.Concerns nodeinfo.nodeID before) (learnNew n config now).run := by
  apply (learnNew_only known now).weaken
  rintro op ⟨learns, runs⟩
  cases op with
  | createNode row => exact learns.1.nodeID
  | sendNode node => exact learns.nodeID
  | runCommand cmd => exact Or.inl runs
  | now | connectTo | newSession => trivial
  | _ => exact learns.elim

theorem insertNode_touchesOnly (known : n.nodeinfo = some nodeinfo) (tells : Tells nodeinfo.nodeID w) :
    (insertNode config n).run.Along (S := operations) step.Moves (fun _ => TouchedOnly nodeinfo.nodeID w)
      (w.withLog []) := by
  have begun (found : Option Row) (now read : Time) (own : ∀ row, found = some row → row.nodeID = nodeinfo.nodeID) :
      TouchedOnly nodeinfo.nodeID w (w.withLog (step.begun nodeinfo.nodeID found now read [])) := by
    constructor
    · exact List.forall_mem_cons.mpr ⟨own, List.forall_mem_cons.mpr ⟨trivial, List.forall_mem_nil _⟩⟩
    · exact fun _ _ => rfl
  apply insertNode_along config step known
  · intro i j k row read
    obtain ⟨there, named⟩ := (w.withLog []).firstNode_found (step.choices j) read
    have own : row.nodeID = nodeinfo.nodeID := by
      rcases eq_or_ne nodeinfo.nodeID "" with blank | present
      · rw [blank]
        exact tells.resolve_left (fun named => named blank) row (Table.lookup_eq_some.mp there).1
      · exact named present
    rw [own] at there
    apply TouchedOnly.along (fun _ _ _ => trivial) (refreshKnown_touchesOnly config known tells own there _ _)
    have read := begun (some row) (step.choices i).time (step.choices j).time fun _ same => by cases same; exact own
    exact read.handle (show Op.Concerns _ w (.now .update) from trivial) step.call (step.choices k)
  · intro i j _
    apply TouchedOnly.along (fun _ _ _ => trivial) (learnNew_touchesOnly config known _)
    exact begun none (step.choices i).time (step.choices j).time fun row same => by cases same

/-- A report whose time filter is checked so late that the report ends there. -/
def stopped (n : Yanic.Node) (time : Time) (blacklistFor : Duration) : Step where
  call := .report n
  choices i := { time := if i = 4 then time + blacklistFor + 1 else time }

theorem serve_stopped (known : n.nodeinfo = some nodeinfo) {row : Row}
    (first : w.nodes.first nodeinfo.nodeID = some row) (time : Time) :
    (∃ address, (serve config (stopped n time config.blacklistFor) w).1.nodes =
      w.nodes.modify row.nodeID (Columns.observed address time).apply (Columns.apply_nodeID _)) ∧
    ⟨.report n, .firstNode nodeinfo.nodeID, some row, time⟩ ∈
      (serve config (stopped n time config.blacklistFor) w).1.since w := by
  suffices ended : ∃ address events, (serve config (stopped n time config.blacklistFor) w).1.nodes =
      w.nodes.modify row.nodeID (Columns.observed address time).apply (Columns.apply_nodeID _) ∧
      (serve config (stopped n time config.blacklistFor) w).1.log = events ++ w.log ∧
      ⟨.report n, .firstNode nodeinfo.nodeID, some row, time⟩ ∈ events by
    obtain ⟨address, events, modified, grown, member⟩ := ended
    rw [World.since_eq grown]
    exact ⟨⟨address, modified⟩, member⟩
  apply serve_next config (stopped n time config.blacklistFor) fun after _ => ∃ address events, after.nodes =
      w.nodes.modify row.nodeID (Columns.observed address time).apply (Columns.apply_nodeID _) ∧
      after.log = events ++ w.log ∧ ⟨.report n, .firstNode nodeinfo.nodeID, some row, time⟩ ∈ events
  change Along (S := operations) _ _ (insertNode config n).run _
  unfold insertNode
  rw [known]
  rintro now _ ⟨begun, rfl⟩ found _ ⟨reads, rfl⟩
  have read : found = some row := reads.trans first
  subst read
  rintro updated _ ⟨-, rfl⟩ written _ ⟨-, rfl⟩ checked _ ⟨checks, rfl⟩
  change Along (S := operations) _ _ (ExceptT.run (m := Prog)
    (if (Node.seenAt _ now).timeFilter config.blacklistFor checked then pure ()
    else Node.pushOrBlacklist _ now)) _
  have late : time < time + config.blacklistFor + 1 - config.blacklistFor := by
    rw [add_right_comm, add_sub_cancel_right]
    exact lt_add_one time
  rw [show now = time from begun, show checked = time + config.blacklistFor + 1 from checks,
    if_pos (by simp [Node.timeFilter, Node.seenAt, late])]
  refine ⟨(row.node.update (some n) config.ipPrefix updated).address, [_, _, _, _, _], ?_, rfl, ?_⟩
  · exact congrArg (fun key => w.nodes.modify key (Columns.observed _ time).apply (Columns.apply_nodeID _))
      (Node.update_nodeID ..)
  · rw [reads]
    exact .tail _ (.tail _ (.tail _ (.head _)))

/-- A report touches no other row if its key tells its row from all others, and not otherwise. -/
theorem report_touchesOnly_iff (known : n.nodeinfo = some nodeinfo) :
    (∀ step : Step, step.call = .report n → TouchesOnly nodeinfo.nodeID w (serve config step w).1) ↔
      Tells nodeinfo.nodeID w := by
  constructor
  · intro touches
    by_contra blank
    obtain ⟨blank, others⟩ := not_or.mp blank
    rw [not_ne_iff] at blank
    obtain ⟨other, member, named⟩ : ∃ other ∈ w.nodes.rows, other.nodeID ≠ "" := by simpa using others
    obtain ⟨row, first⟩ : ∃ row, w.nodes.first nodeinfo.nodeID = some row := by
      rw [blank, Table.first, if_pos (show "" = default from rfl), ← Option.ne_none_iff_exists', ne_eq,
        List.argmin_eq_none]
      exact List.ne_nil_of_mem member
    let time := other.lastseen.getD 0 + 1
    have touched := touches (stopped n time config.blacklistFor) rfl
    obtain ⟨⟨address, modified⟩, read⟩ := serve_stopped config known first time
    have own : row.nodeID = "" := (touched.events _ read row rfl).trans blank
    have kept := touched.others other.nodeID (by rwa [blank])
    have there : w.nodes.lookup other.nodeID = some other := Table.lookup_eq_some.mpr ⟨member, rfl⟩
    rw [modified, Table.lookup_modify, if_pos (.inl own), there, Option.map_some, Option.some.injEq] at kept
    have seen : some time = other.lastseen := congrArg Row.lastseen kept
    have past : time = other.lastseen.getD 0 := by rw [← seen, Option.getD_some]
    exact absurd past (lt_add_one _).ne'
  · intro tells step report
    apply touchesOnly_of_touchedOnly
    apply serve_moves config step
    rw [report]
    exact insertNode_touchesOnly config step known tells

end Reports

/-! ## Edits -/

/-- A row that is read by a key has this key. -/
def ReadsOwn : (op : Op) → op.Reply → Prop
  | .firstNode key, found => key ≠ "" → ∀ row, found = some row → row.nodeID = key
  | _, _ => True

theorem act_readsOwn (choice : Choice) (w : World) (op : Op) : ReadsOwn op (w.act choice op).1 := by
  cases op with
  | firstNode key => exact fun named row found => (w.firstNode_found choice found).2 named
  | _ => trivial

theorem nodeHandler_touchesOnly (config : Config) {msg : Message} {nodeID : String} {before : World}
    (own : ∀ node, config.decodeNode msg.body = some node → node.nodeID = nodeID) :
    (nodeHandler config msg).Satisfies (S := operations) (Op.Concerns nodeID before) ReadsOwn fun _ => True := by
  apply nodeHandler_satisfies config msg
  · intro op checks
    cases op <;> trivial
  · exact fun node decoded named => ⟨own node decoded, named⟩
  · exact fun node row decoded named answered => (answered named row rfl).trans (own node decoded)
  · exact fun node decoded named => own node decoded
  · intro node op decoded named announces
    cases op with
    | sendNode listed => exact announces.2.trans (own node decoded)
    | now | listNode | answer => trivial
    | _ => exact announces.elim

/-- The messages about a node touch no other row. -/
theorem message_touchesOnly (config : Config) {step : Step} {msg : Message} (message : step.call = .message msg)
    (subject : msg.subject = MessageType.node) {nodeID : String}
    (own : ∀ node, config.decodeNode msg.body = some node → node.nodeID = nodeID) (w : World) :
    TouchesOnly nodeID w (serve config step w).1 := by
  have handler : handleMessage config msg = nodeHandler config msg := by
    unfold handleMessage
    rw [subject]
    rfl
  apply touchesOnly_of_touchedOnly
  apply message_moves config step message
  rw [handler]
  apply TouchedOnly.along (fun op choice w => act_readsOwn choice w op) (nodeHandler_touchesOnly config own)
  exact ⟨List.forall_mem_nil _, fun _ _ => rfl⟩

/-- A report reads, writes, pushes and sends nothing of other nodes, whatever happens on the way, if and only if its
id is not blank or there is no row with another id; and an edit never does. -/
theorem touchesOnly_iff (config : Config) (w : World) (nodeinfo : Yanic.Nodeinfo)
    (statistics : Option Yanic.Statistics) :
    ((∀ step : Step, step.call = .report { nodeinfo := some nodeinfo, statistics } →
        TouchesOnly nodeinfo.nodeID w (serve config step w).1) ↔
      nodeinfo.nodeID ≠ "" ∨ ∀ row ∈ w.nodes.rows, row.nodeID = "") ∧
    ∀ (step : Step) (msg : Message) (nodeID : String), step.call = .message msg → msg.subject = MessageType.node →
      (∀ node, config.decodeNode msg.body = some node → node.nodeID = nodeID) →
      TouchesOnly nodeID w (serve config step w).1 :=
  ⟨report_touchesOnly_iff config rfl, fun _ _ _ message subject own => message_touchesOnly config message subject own w⟩

/-- The report of a node that does not tell its id. -/
def blankReport : Yanic.Node where
  nodeinfo := some { nodeID := "", hostname := "cellar", addresses := ["2001:db8::9"] }

/-- It is taken for a report of the first node of the table. -/
theorem blankReport_touches_first :
    let step : Step := { call := .report blankReport, choices := fun _ => { time := 60 } }
    ¬ TouchesOnly "" (Sample.world [Sample.row]) (serve Sample.config step (Sample.world [Sample.row])).1 := by
  intro step touches
  have kept := touches.others "f81a67a5e9c1" (by decide)
  revert kept
  decide +kernel

end FreifunkManager
