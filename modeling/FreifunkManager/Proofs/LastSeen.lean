import FreifunkManager.Proofs.Dialled
import FreifunkManager.Proofs.EditReload
import Mathlib.Data.List.DropRight

/-! # When a node was last seen

The time that clients are sent with a node is not later than a report of it that was handled, or it is one at which a
message has taken over the cached report of the node (`Dating`). In the second case the report may be of any age, unless
it is taken over promptly (`Promptly`).
-/

namespace FreifunkManager

open Effects Program Store

/-- The call is a report of this node. -/
def Call.reports (nodeID : String) : Call → Bool
  | .report n => n.nodeinfo.any (·.nodeID = nodeID)
  | _ => false

/-- The node whose report was found in the list by the last operation of a message. -/
def lookedUp : List Event → Option String
  | [] => none
  | ⟨.message _, .listNode nodeID, some _, _⟩ :: _ => some nodeID
  | ⟨.message _, _, _, _⟩ :: _ => none
  | _ :: older => lookedUp older

/-- A message reads the clock to take over the report that it has found. -/
structure Event.TakesOver (nodeID : String) (e : Event) (older : List Event) : Prop where
  clock : e.op = .now .update
  message : ∃ msg, e.call = .message msg
  found : lookedUp older = some nodeID

/-- The node that an operation sends to clients. -/
def Op.shows : Op → Option Node
  | .sendNode node => some node
  | .write _ (.node node) => some node
  | _ => none

/-- A report of the node was handled at this time, or later. -/
def ReportedSince (log : List Event) (nodeID : String) (time : Time) : Prop :=
  ∃ e ∈ log, e.call.reports nodeID = true ∧ time ≤ e.time

/-- A cached report of the node was taken over at this time. -/
def TakenOverAt (log : List Event) (nodeID : String) (time : Time) : Prop :=
  ∃ newer e older, log = newer ++ e :: older ∧ e.TakesOver nodeID older ∧ e.time = time

/-- Where the time in a node comes from. -/
def Sourced (log : List Event) (node : Node) : Prop :=
  ∀ time, node.lastseen = some time → ReportedSince log node.nodeID time ∨ TakenOverAt log node.nodeID time

/-- A report that does not name its node finds no row; and an edit that brings a time of its own finds a report of the
node, or the time is not later than a report that was handled. -/
def Attributed (config : Config) (call : Call) (choice : Choice) (op : Op) (w : World) : Prop :=
  Named call choice op w ∧
    match call, op with
    | .message msg, .listNode nodeID => msg.subject = MessageType.node → choice.listed = none →
        ∀ node time, config.decodeNode msg.body = some node → node.nodeID = nodeID → node.lastseen = some time →
          ReportedSince w.log nodeID time
    | _, _ => True

/-- The times in the rows are those of reports, and those in the messages to clients are known. -/
structure Dating (w : World) : Prop where
  rows : ∀ nodeID row time, w.nodes.lookup nodeID = some row → row.lastseen = some time →
    ReportedSince w.log nodeID time
  shown : ∀ newer e older node, w.log = newer ++ e :: older → e.op.shows = some node → Sourced older node

/-- The log grows, and reports do not change what a message has found. -/
def Extends : Worker → World → World → Prop
  | .handler, before, after => before.log <:+ after.log ∧ lookedUp after.log = lookedUp before.log
  | .reporter, before, after => before.log <:+ after.log

/-- The operation writes and sends times as they should be. -/
def Op.Dated (log : List Event) : Op → Prop
  | .updateNode key (.observed _ lastseen) => key ≠ "" ∧ ReportedSince log key lastseen
  | .saveNode row | .createNode row => ∀ time, row.lastseen = some time → ReportedSince log row.nodeID time
  | op => ∀ node, op.shows = some node → Sourced log node

/-- The operation has nothing to do with when a node was seen. -/
def Op.timeless : Op → Bool
  | .updateNode _ (.observed ..) | .saveNode _ | .createNode _ | .sendNode _ | .write .. => false
  | _ => true

theorem dated_of_timeless {log : List Event} {op : Op} (timeless : op.timeless = true) : op.Dated log := by
  cases op with
  | updateNode key columns =>
    cases columns with
    | observed => contradiction
    | blacklist =>
      intro _ shows
      cases shows
  | saveNode | createNode | sendNode | write => contradiction
  | _ =>
    intro _ shows
    cases shows

section Dating

variable {log older : List Event} {nodeID : String} {time : Time}

theorem ReportedSince.mono (grown : older <:+ log) (reported : ReportedSince older nodeID time) :
    ReportedSince log nodeID time := by
  obtain ⟨e, member, rest⟩ := reported
  exact ⟨e, grown.subset member, rest⟩

theorem TakenOverAt.mono (grown : older <:+ log) (taken : TakenOverAt older nodeID time) :
    TakenOverAt log nodeID time := by
  obtain ⟨newest, rfl⟩ := grown
  obtain ⟨newer, e, oldest, rfl, rest⟩ := taken
  exact ⟨newest ++ newer, e, oldest, (List.append_assoc ..).symm, rest⟩

theorem Sourced.mono {node : Node} (grown : older <:+ log) (sourced : Sourced older node) : Sourced log node :=
  fun time seen => (sourced time seen).imp (ReportedSince.mono grown) (TakenOverAt.mono grown)

variable {w : World} {call : Call} {choice : Choice} {op : Op}

/-- The row of a node has the time that it had before, or one that the operation writes. -/
theorem handle_row_dated (holds : Dating w) (dated : op.Dated w.log) {nodeID : String} {row : Row} {time : Time}
    (found : (w.handle call choice op).2.nodes.lookup nodeID = some row) (seen : row.lastseen = some time) :
    ReportedSince w.log nodeID time := by
  rw [w.lookup_handle, Event.rowAfter] at found
  cases written : (w.event call choice op).written with
  | some new =>
    rw [written] at found
    dsimp only at found
    split at found
    · next same =>
      cases found
      rcases w.written_cases call choice written with rfl | ⟨rfl, -⟩
      · exact same ▸ dated time seen
      · exact same ▸ dated time seen
    · exact holds.rows nodeID row time found seen
  | none =>
    rw [written] at found
    cases changed : (w.event call choice op).changed with
    | none =>
      rw [changed] at found
      exact holds.rows nodeID row time found seen
    | some change =>
      obtain ⟨key, columns⟩ := change
      obtain rfl := w.changed_cases call choice changed
      rw [changed] at found
      dsimp only at found
      split at found
      · next concerned =>
        obtain ⟨old, there, rfl⟩ := Option.map_eq_some_iff.mp found
        cases columns with
        | observed address lastseen =>
          cases seen
          exact concerned.resolve_left dated.1 ▸ dated.2
        | blacklist stamp => exact holds.rows nodeID old time there seen
      · exact holds.rows nodeID row time found seen

theorem handle_dating (holds : Dating w) (dated : op.Dated w.log) : Dating (w.handle call choice op).2 := by
  constructor
  · intro nodeID row time found seen
    exact (handle_row_dated holds dated found seen).mono (List.suffix_cons ..)
  · intro newer e older node split shows
    rw [w.handle_log] at split
    cases newer with
    | nil =>
      obtain ⟨rfl, rfl⟩ := List.cons.inj split
      cases op with
      | sendNode sent => exact dated node shows
      | write subject body => exact dated node shows
      | _ => contradiction
    | cons first newer => exact holds.shown newer e older node (List.cons.inj split).2 shows

theorem message_dated (msg : Message) (holds : Dating w) (dated : op.Dated w.log) :
    Pool.Kept Dating Extends .handler w (w.handle (.message msg) choice op).2 := by
  refine ⟨handle_dating holds dated, fun other different => ?_⟩
  cases other with
  | handler => contradiction
  | reporter => exact List.suffix_cons ..

theorem report_dated (n : Yanic.Node) (holds : Dating w) (dated : op.Dated w.log) :
    Pool.Kept Dating Extends .reporter w (w.handle (.report n) choice op).2 := by
  refine ⟨handle_dating holds dated, fun other different => ?_⟩
  cases other with
  | reporter => contradiction
  | handler => exact ⟨List.suffix_cons .., rfl⟩

end Dating

/-! ## Reports -/

section Reports

variable {config : Config} {n : Yanic.Node} {nodeinfo : Yanic.Nodeinfo} {w : World}

theorem reports_of_known (known : n.nodeinfo = some nodeinfo) : (Call.report n).reports nodeinfo.nodeID = true := by
  rw [Call.reports, known]
  exact decide_eq_true rfl

/-- The rest of a report, which has read the clock at this time. -/
theorem report_goes_on {time : Time} {allowed : Op → Prop} {program : Prog (Except Panic Unit)}
    (only : Only allowed program)
    (dated : ∀ op log, allowed op → ReportedSince log nodeinfo.nodeID time → op.Dated log)
    (reported : ReportedSince w.log nodeinfo.nodeID time) :
    (pool config).Guarded (Attributed config) Dating Extends .reporter (.report n) (fun _ _ => True) program w := by
  have stable : ∀ before after, ReportedSince before.log nodeinfo.nodeID time → Extends .reporter before after →
      ReportedSince after.log nodeinfo.nodeID time := fun _ _ reported grown => reported.mono grown
  have guarded : (pool config).Guarded (Attributed config) Dating Extends .reporter (.report n)
      (fun _ w => ReportedSince w.log nodeinfo.nodeID time) program w := by
    apply guarded_only only (fun w => ReportedSince w.log nodeinfo.nodeID time) stable _ reported
    intro op choice before asks holds reported _
    exact ⟨report_dated n holds (dated op _ asks reported), reported.mono (List.suffix_cons ..)⟩
  exact guarded.mono fun _ _ _ => trivial

/-- What is done to a known node has its id, and the time of its report. -/
theorem dated_of_refreshes {log : List Event} {now : Time} {row : Row} (own : row.nodeID = nodeinfo.nodeID)
    (named : nodeinfo.nodeID ≠ "") (reported : ReportedSince log nodeinfo.nodeID now) {op : Op}
    (refreshes : Refreshes config nodeinfo now row op) (seen : op.SeenAt now) : op.Dated log := by
  cases op with
  | updateNode key columns =>
    cases columns with
    | observed address lastseen =>
      obtain ⟨rfl, -, rfl⟩ := refreshes
      rw [← own] at named reported
      exact ⟨named, reported⟩
    | blacklist stamp => exact dated_of_timeless rfl
  | sendNode node =>
    intro shown same time lastseen
    cases same
    rw [seen] at lastseen
    cases lastseen
    rw [refreshes.1, own]
    exact .inl reported
  | saveNode | createNode | write => exact refreshes.elim
  | _ => exact dated_of_timeless rfl

/-- What is done to a new node. -/
theorem dated_of_learns {log : List Event} {now updated : Time}
    (reported : ReportedSince log nodeinfo.nodeID updated) {op : Op}
    (learns : Learns config n nodeinfo now op) (seen : op.SeenAt updated) : op.Dated log := by
  cases op with
  | createNode row =>
    intro time lastseen
    rw [seen] at lastseen
    cases lastseen
    rw [show row.nodeID = nodeinfo.nodeID from learns.1.nodeID]
    exact reported
  | sendNode node =>
    intro shown same time lastseen
    cases same
    rw [seen] at lastseen
    cases lastseen
    rw [learns.nodeID]
    exact .inl reported
  | updateNode | saveNode | write => exact learns.elim
  | _ => exact dated_of_timeless rfl

theorem learnNew_dated (known : n.nodeinfo = some nodeinfo) (now : Time) :
    (pool config).Guarded (Attributed config) Dating Extends .reporter (.report n) (fun _ _ => True)
    (learnNew n config now).run w := by
  rw [learnNew_eq]
  refine ⟨fun _ => True, fun _ _ _ _ => trivial, trivial, fun choice before holds _ _ => ?_⟩
  refine ⟨report_dated n holds (dated_of_timeless rfl), ?_⟩
  have reported : ReportedSince (before.handle (.report n) choice (.now .update)).2.log nodeinfo.nodeID choice.time :=
    ⟨_, List.mem_cons_self, reports_of_known known, le_rfl⟩
  change Pool.Guarded _ _ _ _ _ _ _ (registerBuilt now (newNode n config.ipPrefix choice.time)).run _
  cases built : newNode n config.ipPrefix choice.time with
  | none => trivial
  | some node =>
    obtain ⟨learned, fresh⟩ := newNode_learned known built
    have seen : node.lastseen = some choice.time := by
      rw [newNode, known, Option.map_some, Option.some.injEq] at built
      rw [← built, Node.update]
      cases n.nodeinfo <;> cases n.statistics <;> rfl
    apply report_goes_on ((register_only learned fresh now).and (register_seen seen now)) _ reported
    exact fun op log asks reported => dated_of_learns reported asks.1.1 asks.2

theorem insertNode_dated (n : Yanic.Node) (w : World) :
    (pool config).Guarded (Attributed config) Dating Extends .reporter (.report n) (fun _ _ => True)
      ((pool config).program (.report n)) w := by
  apply guarded_report_since n
    (fun now w => ∀ nodeinfo, n.nodeinfo = some nodeinfo → ReportedSince w.log nodeinfo.nodeID now)
  · exact fun now before after began grown nodeinfo known => (began nodeinfo known).mono grown
  · intro choice before holds
    refine ⟨report_dated n holds (dated_of_timeless rfl), fun nodeinfo known => ?_⟩
    exact ⟨_, List.mem_cons_self, reports_of_known known, le_rfl⟩
  · intro nodeinfo now choice before known holds began named
    refine ⟨report_dated n holds (dated_of_timeless rfl), fun row program found only => ?_,
      fun _ => learnNew_dated known now⟩
    obtain ⟨-, own⟩ := before.firstNode_found choice found
    have named : nodeinfo.nodeID ≠ "" := Named.ne_empty named.1 found
    apply report_goes_on only _ ((began nodeinfo known).mono (List.suffix_cons ..))
    exact fun op log asks reported => dated_of_refreshes (own named) named reported asks.1 asks.2

end Reports

/-! ## Messages -/

section Messages

variable {config : Config} {msg : Message} {w : World}

/-- An assertion about the log that stays true. -/
def Lasting (assertion : List Event → Prop) : Prop := ∀ older log, older <:+ log → assertion older → assertion log

variable (config) in
/-- What is left of an update when the list has answered. -/
def takeOver (node : Node) : Option Yanic.Node → Prog Node
  | some report =>
    .ask (S := operations) (.now .update) fun now => .done (node.update (some report) config.ipPrefix now)
  | none => .done node

variable (config) in
theorem updateFromList_eq (node : Node) :
    updateFromList config node = .ask (S := operations) (.listNode node.nodeID) (takeOver config node) := by
  apply congrArg (Program.ask (S := operations) (.listNode node.nodeID))
  funext reply
  cases reply <;> rfl

/-- A node that is found in the list gets the time at which its report is taken over. -/
theorem takeOver_dated {node : Node} {assertion : List Event → Prop} (lasting : Lasting assertion)
    (holds : assertion w.log) (listed : Option Yanic.Node) (sourced : listed = none → Sourced w.log node)
    (looked : lookedUp w.log = listed.map fun _ => node.nodeID) :
    (pool config).Guarded (Attributed config) Dating Extends .handler (.message msg)
      (fun updated w => assertion w.log ∧ Sourced w.log updated) (takeOver config node listed) w := by
  cases listed with
  | none => exact ⟨holds, sourced rfl⟩
  | some report =>
    refine ⟨fun w => assertion w.log ∧ lookedUp w.log = some node.nodeID, ?_, ⟨holds, looked⟩,
      fun choice before kept known _ => ?_⟩
    · exact fun before after known grown => ⟨lasting _ _ grown.1 known.1, grown.2.trans known.2⟩
    · refine ⟨message_dated msg kept (dated_of_timeless rfl), lasting _ _ (List.suffix_cons ..) known.1, ?_⟩
      intro time lastseen
      rw [Node.update_eq] at lastseen
      cases lastseen
      rw [Node.update_nodeID]
      exact .inr ⟨[], _, before.log, rfl, ⟨rfl, ⟨msg, rfl⟩, known.2⟩, rfl⟩

/-- A node that is updated from the list has a known time, if it has one where the list has no report. -/
theorem updateFromList_dated {node : Node} {assertion : List Event → Prop} (lasting : Lasting assertion)
    (holds : assertion w.log)
    (sourced : ∀ choice before, Attributed config (.message msg) choice (.listNode node.nodeID) before →
      assertion before.log → choice.listed = none → Sourced before.log node) :
    (pool config).Guarded (Attributed config) Dating Extends .handler (.message msg)
      (fun updated w => assertion w.log ∧ Sourced w.log updated) (updateFromList config node) w := by
  rw [updateFromList_eq]
  refine ⟨fun w => assertion w.log, ?_, holds, fun choice before kept known attributed => ?_⟩
  · exact fun before after known grown => lasting _ _ grown.1 known
  · have grown : before.log <:+ (before.handle (.message msg) choice (.listNode node.nodeID)).2.log :=
      List.suffix_cons ..
    refine ⟨message_dated msg kept (dated_of_timeless rfl), ?_⟩
    apply takeOver_dated lasting (lasting _ _ grown known) choice.listed
    · exact fun unlisted => (sourced choice before attributed known unlisted).mono grown
    · rw [before.handle_log]
      change lookedUp (⟨.message msg, .listNode node.nodeID, choice.listed, choice.time⟩ :: before.log) = _
      cases choice.listed <;> rfl

/-- A node of the answer to a new client has a known time, if its row has one. -/
theorem connectNode_dated {row : Row} {assertion : List Event → Prop} (lasting : Lasting assertion)
    (holds : assertion w.log) (sourced : Sourced w.log row.node) :
    (pool config).Guarded (Attributed config) Dating Extends .handler (.message msg)
      (fun _ w => assertion w.log) (connectNode config row) w := by
  refine ⟨fun w => assertion w.log ∧ Sourced w.log row.node, ?_, ⟨holds, sourced⟩, fun choice before kept known _ => ?_⟩
  · exact fun before after known grown => ⟨lasting _ _ grown.1 known.1, known.2.mono grown.1⟩
  · have grown : before.log <:+ (before.handle (.message msg) choice (.now .timeFilter)).2.log := List.suffix_cons ..
    refine ⟨message_dated msg kept (dated_of_timeless rfl), ?_⟩
    change Pool.Guarded _ _ _ _ _ _ _ (if row.node.timeFilter config.blacklistFor choice.time then pure () else _) _
    split
    · exact lasting _ _ grown known.1
    · apply Pool.guarded_bind.mpr
      have lasting' : Lasting fun log => assertion log ∧ Sourced log row.node :=
        fun _ _ grown known => ⟨lasting _ _ grown known.1, known.2.mono grown⟩
      have kept : assertion _ ∧ Sourced _ row.node := lasting' _ _ grown known
      apply (updateFromList_dated lasting' kept fun _ _ _ known _ => known.2).mono
      intro node w known
      refine ⟨fun w => assertion w.log ∧ Sourced w.log node, ?_, ⟨known.1.1, known.2⟩,
        fun choice before kept known _ => ⟨?_, ?_⟩⟩
      · exact fun before after known grown => ⟨lasting _ _ grown.1 known.1, known.2.mono grown.1⟩
      · apply message_dated msg kept
        intro shown same
        cases same
        exact known.2
      · exact lasting _ _ (List.suffix_cons ..) known.1

theorem connectNodes_dated {rows : List Row} (sourced : ∀ row ∈ rows, Sourced w.log row.node) :
    (pool config).Guarded (Attributed config) Dating Extends .handler (.message msg)
      (fun _ _ => True) (rows.forM (connectNode config)) w := by
  induction rows generalizing w with
  | nil => trivial
  | cons row rest ih =>
    obtain ⟨first, others⟩ := List.forall_mem_cons.mp sourced
    have lasting : Lasting fun log => ∀ row ∈ rest, Sourced log row.node :=
      fun _ _ grown known row member => (known row member).mono grown
    apply Pool.guarded_bind.mpr
    exact (connectNode_dated lasting others first).mono fun _ _ sourced => ih sourced

theorem connectHandler_dated (w : World) :
    (pool config).Guarded (Attributed config) Dating Extends .handler (.message msg) (fun _ _ => True)
    (connectHandler config) w := by
  refine ⟨fun _ => True, fun _ _ _ _ => trivial, trivial, fun choice before kept _ _ => ?_⟩
  refine ⟨message_dated msg kept (dated_of_timeless rfl), ?_⟩
  have sourced : ∀ row ∈ (before.act choice .findNodes).1,
      Sourced (before.handle (.message msg) choice .findNodes).2.log row.node := by
    intro row member time seen
    have there : row ∈ before.nodes.rows := by
      change row ∈ (if choice.dbFails then [] else before.nodes.rows) at member
      split at member
      · contradiction
      · exact member
    exact .inl ((kept.rows row.nodeID row time (Table.lookup_eq_some.mpr ⟨there, rfl⟩) seen).mono (List.suffix_cons ..))
  change Pool.Guarded _ _ _ _ _ _ _ ((before.act choice .findNodes).1.forM (connectNode config) >>= _) _
  apply Pool.guarded_bind.mpr
  apply (connectNodes_dated sourced).mono
  intro _ w _
  refine ⟨fun _ => True, fun _ _ _ _ => trivial, trivial, fun choice before kept _ _ => ⟨?_, ?_⟩⟩
  · apply message_dated msg kept
    intro _ same
    cases same
  · refine ⟨fun _ => True, fun _ _ _ _ => trivial, trivial, fun choice before kept _ _ => ⟨?_, trivial⟩⟩
    apply message_dated msg kept
    intro _ same
    cases same

section Edits

variable {node : Node} (subject : msg.subject = MessageType.node) (decoded : config.decodeNode msg.body = some node)
include subject decoded

/-- After an edit the node goes to all clients as it was sent, with the latest report. -/
theorem announceEdit_dated (saved : Bool) (w : World) :
    (pool config).Guarded (Attributed config) Dating Extends .handler (.message msg) (fun _ _ => True)
      (announceEdit config msg node saved) w := by
  refine ⟨fun _ => True, fun _ _ _ _ => trivial, trivial, fun choice before kept _ _ => ⟨?_, ?_⟩⟩
  · exact message_dated msg kept (dated_of_timeless rfl)
  · cases saved with
    | false => trivial
    | true =>
      have lasting : Lasting fun _ => True := fun _ _ _ _ => trivial
      change Pool.Guarded _ _ _ _ _ _ _ (updateFromList config node >>= fun node => perform (.sendNode node)) _
      apply Pool.guarded_bind.mpr
      have sourced (choice : Choice) (before : World)
          (attributed : Attributed config (.message msg) choice (.listNode node.nodeID) before) (_ : True)
          (unlisted : choice.listed = none) : Sourced before.log node :=
        fun time seen => .inl (attributed.2 subject unlisted node time decoded rfl seen)
      apply (updateFromList_dated lasting trivial sourced).mono
      intro listed w known
      refine ⟨fun w => Sourced w.log listed, ?_, known.2, fun choice before kept known _ => ⟨?_, trivial⟩⟩
      · exact fun before after known grown => known.mono grown.1
      · apply message_dated msg kept
        intro shown same
        cases same
        exact known

/-- The copy of an edit has the time of a report. -/
theorem edit_dated (w : World) :
    (pool config).Guarded (Attributed config) Dating Extends .handler (.message msg) (fun _ _ => True)
      (saveEdit node >>= announceEdit config msg node) w := by
  apply guarded_edit (fun _ => True) fun copy w => ∀ time, copy.lastseen = some time →
    ReportedSince w.log copy.nodeID time
  · exact fun _ _ _ _ => trivial
  · exact fun copy before after reported grown time seen => (reported time seen).mono grown.1
  · refine fun choice before kept _ _ =>
      ⟨message_dated msg kept (dated_of_timeless rfl), trivial, fun copy found time seen => ?_⟩
    exact (kept.rows copy.nodeID copy time (before.firstNode_found choice found).1 seen).mono (List.suffix_cons ..)
  · intro copy choice before kept reported _
    exact ⟨message_dated msg kept reported, announceEdit_dated subject decoded _ _⟩
  · refine fun choice before kept _ _ => ⟨message_dated msg kept ?_, announceEdit_dated subject decoded _ _⟩
    intro time seen
    cases seen
  · trivial

end Edits

end Messages

/-- In every run from an empty nodes table whose steps are `Attributed`, the times of the nodes that clients are sent
come from reports, or from the moments when cached reports were taken over. -/
theorem dating (config : Config) {w : World} (empty : w.nodes = .empty) (fresh : w.log = [])
    {s : Snapshot operations Worker Call (Except Panic Unit) World}
    (reached : (pool config).Reachable (Pool.Admits (fun _ => True) (Attributed config)) (idle w) s) :
    Dating s.shared := by
  have starts (worker : Worker) (call : Call) (current : World) (accepted : (pool config).accepts worker call = true)
      (_ : True) (_ : Dating current) (_ : True) :
      (pool config).Guarded (Attributed config) Dating Extends worker call (fun _ _ => True)
      ((pool config).program call) current := by
    cases worker <;> cases call <;> try contradiction
    · exact insertNode_dated _ current
    · apply guarded_handlers _ (fun _ _ _ _ => trivial) _ (fun w _ => connectHandler_dated w) _ trivial
      · intro op choice before personal kept _ _
        have timeless : op.timeless = true := by cases op <;> first | rfl | contradiction
        exact ⟨message_dated _ kept (dated_of_timeless timeless), trivial⟩
      · exact fun subject node decoded _ w _ => edit_dated subject decoded w
  have initially : Dating w := by
    constructor
    · intro nodeID row time found
      rw [empty] at found
      contradiction
    · intro newer e older node split
      rw [fresh] at split
      exact absurd split.symm (by simp)
  exact (reached.guarded Dating Extends (fun _ _ => True) starts (fun _ _ _ _ _ => trivial) initially
    fun _ => ⟨rfl, trivial⟩).1

/-! ## The ends of reports -/

/-- The first operation of a report. -/
def Event.begins : Event → Bool
  | ⟨.report _, .now .insertNode, _, _⟩ => true
  | _ => false

/-- The last operation of the latest report of the node that had begun when the log was `sofar`. Reports are
handled one after the other. -/
def reportEnd (nodeID : String) (newer sofar : List Event) : Option Event :=
  (newer.rtakeWhile (!·.begins) ++ sofar).find? (·.call.reports nodeID)

/-- A report that has begun and is not at its end. -/
def underway : Prog (Except Panic Unit) → Bool
  | .ask op _ => op != .now .insertNode
  | .done _ => false

/-- A report of the node is being handled. -/
def Underway (s : Snapshot operations Worker Call (Except Panic Unit) World) (nodeID : String) : Prop :=
  ∃ n program, s.active .reporter = some (.report n, program) ∧ (Call.report n).reports nodeID = true ∧
    underway program = true

/-- The latest report that had begun then is one of the node and goes on. -/
structure GoesOn (s : Snapshot operations Worker Call (Except Panic Unit) World) (nodeID : String)
    (newer : List Event) :
    Prop where
  handled : Underway s nodeID
  same : ∀ e ∈ newer, e.begins = false

/-- The time is not later than the end of the latest report of the node. -/
def InTime (s : Snapshot operations Worker Call (Except Panic Unit) World) (nodeID : String) (newer sofar : List Event)
    (time : Time) : Prop :=
  (∃ e, reportEnd nodeID newer sofar = some e ∧ time ≤ e.time) ∨ GoesOn s nodeID newer

/-- A message that takes over the cached report of a node does so while a report of this node is being handled, or
before the clock has moved on since the last one. -/
def Promptly (s : Snapshot operations Worker Call (Except Panic Unit) World) : Action Worker Call Choice → Prop
  | .advance .handler choice => ∀ msg next nodeID, s.active .handler = some (.message msg, .ask (.now .update) next) →
      lookedUp s.shared.log = some nodeID →
      Underway s nodeID ∨ ∃ last, s.shared.log.find? (·.call.reports nodeID) = some last ∧ choice.time = last.time
  | _ => True

section InTime

variable {s : Snapshot operations Worker Call (Except Panic Unit) World} {nodeID : String} {newer sofar : List Event}

/-- The report that is found is not older than any other one. -/
theorem find?_latest {log : List Event} {p : Event → Bool} (forward : ClockForward log) {e : Event} (member : e ∈ log)
    (holds : p e = true) : ∃ latest, log.find? p = some latest ∧ e.time ≤ latest.time := by
  obtain ⟨newer, older, rfl⟩ := List.append_of_mem member
  cases found : newer.find? p with
  | none =>
    refine ⟨e, ?_, le_rfl⟩
    rw [List.find?_append, found, Option.none_or, List.find?_cons_of_pos holds]
  | some latest =>
    refine ⟨latest, ?_, ?_⟩
    · rw [List.find?_append, found, Option.some_or]
    · apply (List.pairwise_append.mp forward).2.2 latest (List.mem_of_find?_eq_some found)
      exact List.mem_cons_self

theorem rtakeWhile_append_subset {α : Type} (p : α → Bool) (l rest : List α) :
    (l ++ rest).rtakeWhile p ⊆ l.rtakeWhile p ++ rest := by
  induction rest using List.reverseRecOn with
  | nil => simp
  | append_singleton rest x ih =>
    rw [← List.append_assoc, List.rtakeWhile_concat, ← List.append_assoc]
    split
    · exact List.append_subset.mpr ⟨fun y member => List.mem_append_left _ (ih member), List.subset_append_right ..⟩
    · exact List.nil_subset _

theorem forward_untilNext (forward : ClockForward (newer ++ sofar)) :
    ClockForward (newer.rtakeWhile (!·.begins) ++ sofar) := by
  apply List.Pairwise.sublist _ forward
  exact (List.rtakeWhile_suffix _ newer).sublist.append_right sofar

/-- What has been reported so far was reported in time. -/
theorem inTime_of_reported (forward : ClockForward (newer ++ sofar)) {time : Time}
    (reported : ReportedSince sofar nodeID time) :
    InTime s nodeID newer sofar time := by
  obtain ⟨e, member, reports, before⟩ := reported
  obtain ⟨latest, found, later⟩ :=
    find?_latest (p := (·.call.reports nodeID)) (forward_untilNext forward) (List.mem_append_right _ member) reports
  exact .inl ⟨latest, found, before.trans later⟩

/-- What was in time is in time later on. -/
theorem InTime.later {between : List Event} (forward : ClockForward (newer ++ (between ++ sofar))) {time : Time}
    (inTime : InTime s nodeID (newer ++ between) sofar time) : InTime s nodeID newer (between ++ sofar) time := by
  rcases inTime with ⟨e, found, later⟩ | ⟨handled, same⟩
  · unfold reportEnd at found
    have member : e ∈ newer.rtakeWhile (!·.begins) ++ (between ++ sofar) := by
      rw [← List.append_assoc]
      rcases List.mem_append.mp (List.mem_of_find?_eq_some found) with next | before
      · exact List.mem_append_left _ (rtakeWhile_append_subset _ newer between next)
      · exact List.mem_append_right _ before
    have reports := List.find?_some found
    obtain ⟨latest, found', later'⟩ :=
      find?_latest (p := (·.call.reports nodeID)) (forward_untilNext forward) member reports
    exact .inl ⟨latest, found', later.trans later'⟩
  · exact .inr ⟨handled, fun e member => same e (List.mem_append_left _ member)⟩

theorem rtakeWhile_subset_cons {α : Type} (p : α → Bool) (first : α) (l : List α) :
    l.rtakeWhile p ⊆ (first :: l).rtakeWhile p := by
  induction l using List.reverseRecOn with
  | nil => exact List.nil_subset _
  | append_singleton l x ih =>
    rw [← List.cons_append, List.rtakeWhile_concat, List.rtakeWhile_concat]
    split
    · exact List.append_subset.mpr ⟨fun y member => List.mem_append_left _ (ih member), List.subset_append_right ..⟩
    · exact List.nil_subset _

/-- The end of a report can only be put off by what happens next. -/
theorem reportEnd_cons {next e : Event} (forward : ClockForward (next :: newer ++ sofar))
    (found : reportEnd nodeID newer sofar = some e) :
    ∃ latest, reportEnd nodeID (next :: newer) sofar = some latest ∧ e.time ≤ latest.time := by
  unfold reportEnd at found
  have reports := List.find?_some found
  have member : e ∈ (next :: newer).rtakeWhile (!·.begins) ++ sofar := by
    rcases List.mem_append.mp (List.mem_of_find?_eq_some found) with near | before
    · exact List.mem_append_left _ (rtakeWhile_subset_cons _ _ _ near)
    · exact List.mem_append_right _ before
  exact find?_latest (p := (·.call.reports nodeID)) (forward_untilNext forward) member reports

/-- The next operation of a report that goes on is its last one for now. -/
theorem reportEnd_next {next : Event} (same : ∀ e ∈ next :: newer, e.begins = false)
    (reports : next.call.reports nodeID = true) : reportEnd nodeID (next :: newer) sofar = some next := by
  have whole : (next :: newer).rtakeWhile (!·.begins) = next :: newer := by
    rw [List.rtakeWhile_eq_self_iff]
    intro e member
    rw [same e member]
    rfl
  rw [reportEnd, whole, List.cons_append]
  exact List.find?_cons_of_pos reports

/-- What was in time stays so as long as the report goes on if it did. -/
theorem InTime.goesOn {target : Snapshot operations Worker Call (Except Panic Unit) World}
    (goes : Underway s nodeID → Underway target nodeID) {time : Time} (inTime : InTime s nodeID newer sofar time) :
    InTime target nodeID newer sofar time :=
  inTime.imp_right fun ⟨handled, same⟩ => ⟨goes handled, same⟩

end InTime

section Taken

variable {config : Config} {s target : Snapshot operations Worker Call (Except Panic Unit) World}

/-- The cached reports were taken over in time. -/
def TakenInTime (s : Snapshot operations Worker Call (Except Panic Unit) World) : Prop :=
  ∀ newer e older nodeID, s.shared.log = newer ++ e :: older → e.TakesOver nodeID older →
    InTime s nodeID newer (e :: older) e.time

/-- An operation of a message. The report that is handled does not move. -/
theorem TakenInTime.message {msg : Message} {choice : Choice} {op : Op}
    {next : op.Reply → Prog (Except Panic Unit)} (taken : TakenInTime s)
    (busy : s.active .handler = some (.message msg, .ask op next)) (prompt : Promptly s (.advance .handler choice))
    (logged : target.shared.log = s.shared.event (.message msg) choice op :: s.shared.log)
    (reporter : target.active .reporter = s.active .reporter) (forward : ClockForward target.shared.log) :
    TakenInTime target := by
  have goes (nodeID : String) (handled : Underway s nodeID) : Underway target nodeID := by
    unfold Underway
    rw [reporter]
    exact handled
  intro newer e older nodeID split takes
  rw [logged] at split
  cases newer with
  | nil =>
    obtain ⟨rfl, rfl⟩ := List.cons.inj split
    obtain rfl : op = .now .update := takes.clock
    rcases prompt msg next nodeID busy takes.found with handled | ⟨last, found, unmoved⟩
    · exact .inr ⟨goes nodeID handled, fun _ nothing => absurd nothing List.not_mem_nil⟩
    · refine .inl ⟨last, ?_, le_of_eq unmoved⟩
      rw [reportEnd, List.rtakeWhile_nil, List.nil_append, List.find?_cons_of_neg Bool.false_ne_true, found]
  | cons first newer =>
    obtain ⟨rfl, earlier⟩ := List.cons.inj split
    rcases (taken newer e older nodeID earlier takes).goesOn (goes nodeID) with ⟨last, found, later⟩ | ⟨handled, same⟩
    · rw [logged, earlier] at forward
      obtain ⟨latest, found', later'⟩ := reportEnd_cons forward found
      exact .inl ⟨latest, found', later.trans later'⟩
    · exact .inr ⟨handled, List.forall_mem_cons.mpr ⟨rfl, same⟩⟩

/-- An operation of a report, which is then the last one of it. -/
theorem TakenInTime.report {n : Yanic.Node} {choice : Choice} {op : Op} {next : op.Reply → Prog (Except Panic Unit)}
    (taken : TakenInTime s) (busy : s.active .reporter = some (.report n, .ask op next))
    (logged : target.shared.log = s.shared.event (.report n) choice op :: s.shared.log)
    (forward : ClockForward target.shared.log) : TakenInTime target := by
  intro newer e older nodeID split takes
  rw [logged] at split
  cases newer with
  | nil =>
    obtain ⟨rfl, rfl⟩ := List.cons.inj split
    obtain ⟨msg, message⟩ := takes.message
    contradiction
  | cons first newer =>
    obtain ⟨rfl, earlier⟩ := List.cons.inj split
    rw [logged, earlier] at forward
    rcases taken newer e older nodeID earlier takes with ⟨last, found, later⟩ |
      ⟨⟨n', program, busy', reports, goes⟩, same⟩
    · obtain ⟨latest, found', later'⟩ := reportEnd_cons forward found
      exact .inl ⟨latest, found', later.trans later'⟩
    · cases busy.symm.trans busy'
      have begun : (s.shared.event (.report n) choice op).begins = false := by
        unfold Event.begins
        split
        · next same => cases same; contradiction
        · rfl
      refine .inl ⟨_, reportEnd_next (List.forall_mem_cons.mpr ⟨begun, same⟩) reports, ?_⟩
      exact (List.pairwise_cons.mp forward).1 e (List.mem_append_right _ List.mem_cons_self)

theorem TakenInTime.step {action : Action Worker Call Choice}
    (accepted : ∀ worker call program, s.active worker = some (call, program) →
      (pool config).accepts worker call = true)
    (prompt : Promptly s action) (stepped : (pool config).step s action = some target)
    (forward : ClockForward target.shared.log) (taken : TakenInTime s) : TakenInTime target := by
  rcases Pool.step_cases stepped with
    ⟨worker, call, rfl, free, _, rfl⟩ | ⟨worker, choice, call, op, next, rfl, busy, rfl⟩ |
    ⟨worker, call, result, rfl, ended, rfl⟩
  · intro newer e older nodeID split takes
    apply (taken newer e older nodeID split takes).goesOn
    rintro ⟨n, program, busy, handled⟩
    refine ⟨n, program, ?_, handled⟩
    have other : Worker.reporter ≠ worker := by
      rintro rfl
      rw [free] at busy
      contradiction
    exact (Function.update_of_ne other ..).trans busy
  · have accepts := accepted worker call _ busy
    cases worker <;> cases call <;> try contradiction
    · exact taken.report busy rfl forward
    · have other : Worker.reporter ≠ Worker.handler := Worker.noConfusion
      apply taken.message busy prompt rfl _ forward
      dsimp only
      exact Function.update_of_ne other ..
  · intro newer e older nodeID split takes
    apply (taken newer e older nodeID split takes).goesOn
    rintro ⟨n, program, busy, handled, goes⟩
    refine ⟨n, program, ?_, handled, goes⟩
    have other : Worker.reporter ≠ worker := by
      rintro rfl
      cases ended.symm.trans busy
      contradiction
    exact (Function.update_of_ne other ..).trans busy

/-- In every run with prompt steps, cached reports are taken over in time. -/
theorem takenInTime {w : World} (fresh : w.log = [])
    {allowed : Snapshot operations Worker Call (Except Panic Unit) World →
      Action Worker Call Choice → Prop} (prompt : ∀ state action, allowed state action → Promptly state action)
    (reached : (pool config).Reachable allowed (idle w) s) (forward : ClockForward s.shared.log) : TakenInTime s := by
  induction reached with
  | refl =>
    intro newer e older nodeID split
    rw [show (idle w).shared.log = [] from fresh] at split
    exact absurd split.symm (by simp)
  | @next state target action earlier admitted stepped ih =>
    have grown : state.shared.log <:+ target.shared.log := by
      rcases Pool.step_cases stepped with ⟨_, _, _, _, _, rfl⟩ | ⟨_, _, _, _, _, _, _, rfl⟩ | ⟨_, _, _, _, _, rfl⟩
      · exact List.suffix_rfl
      · exact List.suffix_cons ..
      · exact List.suffix_rfl
    apply TakenInTime.step _ (prompt _ _ admitted) stepped forward (ih (forward.sublist grown.sublist))
    exact fun worker call program busy => earlier.accepted (fun _ => rfl) busy

end Taken

/-- In every run from an empty nodes table whose clock does not go back, whose steps are `Attributed` and in which
cached reports are only taken over promptly, all nodes are sent with a time that is not later than the end of their
latest report. -/
theorem shown_inTime (config : Config) {w : World} (empty : w.nodes = .empty) (fresh : w.log = [])
    {s : Snapshot operations Worker Call (Except Panic Unit) World}
    (reached : (pool config).Reachable
      (fun state action => Pool.Admits (fun _ => True) (Attributed config) state action ∧ Promptly state action)
      (idle w) s)
    (forward : ClockForward s.shared.log) {newer older : List Event} {e : Event}
    (split : s.shared.log = newer ++ e :: older)
    {node : Node} (shows : e.op.shows = some node) {time : Time} (seen : node.lastseen = some time) :
    InTime s node.nodeID newer (e :: older) time := by
  have dated := dating config empty fresh (reached.mono fun _ _ => And.left)
  have taken := takenInTime fresh (fun _ _ => And.right) reached forward
  rcases dated.shown newer e older node split shows time seen with reported | cached
  · apply inTime_of_reported (split ▸ forward)
    exact reported.mono (List.suffix_cons ..)
  · obtain ⟨between, taking, oldest, rfl, takes, rfl⟩ := cached
    rw [split] at forward
    change InTime s node.nodeID newer ((e :: between) ++ taking :: oldest) taking.time
    apply InTime.later forward
    apply taken _ taking oldest node.nodeID _ takes
    rw [split, List.append_assoc, List.cons_append]

/-- A first report, and a client that connects later and gets the node. -/
def connectAfterReport (time : Time) : List (Action Worker Call Choice) :=
  firstDial (Sample.report "attic") ++ Sample.advance .reporter 4 60 ++
    [.finish .reporter, .start .handler (.message { session := 1, subject := MessageType.connect })] ++
    List.replicate 5 (.advance .handler { time, listed := some (Sample.report "attic") })

/-- The time that the last operation has sent to clients. -/
def sentTime (log : List Event) : Option (Node × Time) := do
  let node ← (← log.head?).op.shows
  let time ← node.lastseen
  return (node, time)

theorem sentTime_eq_some {log : List Event} {node : Node} {time : Time} (sent : sentTime log = some (node, time)) :
    ∃ e older, log = e :: older ∧ e.op.shows = some node ∧ node.lastseen = some time := by
  obtain ⟨e, first, sent⟩ := Option.bind_eq_some_iff.mp sent
  obtain ⟨shown, shows, sent⟩ := Option.bind_eq_some_iff.mp sent
  obtain ⟨lastseen, seen, sent⟩ := Option.bind_eq_some_iff.mp sent
  cases sent
  obtain ⟨older, split⟩ := List.head?_eq_some_iff.mp first
  exact ⟨e, older, split, shows, seen⟩

/-- The reports name their nodes, and edits find reports. -/
def attributes : Call → Choice → Op → Bool
  | .message msg, choice, .listNode _ => msg.subject != MessageType.node || choice.listed.isSome
  | _, _, op => looksUpNamed op

theorem attributed_of_attributes (config : Config) {call : Call} {choice : Choice} {op : Op} {w : World}
    (checked : attributes call choice op = true) : Attributed config call choice op w := by
  cases op with
  | listNode nodeID =>
    cases call with
    | message msg =>
      refine ⟨trivial, fun subject unlisted => ?_⟩
      change (msg.subject != MessageType.node || choice.listed.isSome) = true at checked
      rw [subject, unlisted] at checked
      contradiction
    | report | ping => exact ⟨trivial, trivial⟩
  | _ =>
    refine ⟨named_of_looksUpNamed call choice _ w ?_, ?_⟩
    · cases call <;> exact checked
    · cases call <;> trivial

/-- The clock has not moved since the last report of the node whose report is taken over. -/
def unmoved : Call → Choice → Op → World → Bool
  | .message _, choice, .now .update, w => (lookedUp w.log).all fun nodeID =>
      (w.log.find? (·.call.reports nodeID)).any (choice.time = ·.time)
  | _, _, _, _ => true

theorem prompt_of_unmoved {s : Snapshot operations Worker Call (Except Panic Unit) World}
    {action : Action Worker Call Choice}
    (admitted : Pool.Admits (fun _ => True) (fun call choice op w => unmoved call choice op w = true) s action) :
    Promptly s action := by
  cases action with
  | start | finish => trivial
  | advance worker choice =>
    cases worker with
    | reporter => trivial
    | handler =>
      intro msg next nodeID busy found
      have checked : (lookedUp s.shared.log).all (fun nodeID =>
        (s.shared.log.find? (·.call.reports nodeID)).any (choice.time = ·.time)) = true := admitted _ _ _ busy
      rw [found] at checked
      obtain ⟨last, reports, same⟩ := (Option.any_eq_true _ _).mp checked
      exact .inr ⟨last, reports, of_decide_eq_true same⟩

theorem shown_inTime_atOnce : ∃ s e older node time,
    (pool Sample.config).run (fun _ => true)
    (fun call choice op w => attributes call choice op && unmoved call choice op w)
      (idle (Sample.world [])) (connectAfterReport 60) = some s ∧
    s.shared.log = e :: older ∧ e.op.shows = some node ∧ node.lastseen = some time ∧
    InTime s node.nodeID [] (e :: older) time := by
  have ends : ((pool Sample.config).run (fun _ => true)
      (fun call choice op w => attributes call choice op && unmoved call choice op w) (idle (Sample.world []))
      (connectAfterReport 60)).any (fun s => decide (ClockForward s.shared.log) && (sentTime s.shared.log).isSome) =
      true := by
    decide +kernel
  obtain ⟨s, replayed, checks⟩ := (Option.any_eq_true _ _).mp ends
  obtain ⟨forward, sent⟩ := Bool.and_eq_true_iff.mp checks
  obtain ⟨⟨node, time⟩, sent⟩ := Option.isSome_iff_exists.mp sent
  obtain ⟨e, older, split, shows, seen⟩ := sentTime_eq_some sent
  have reached : (pool Sample.config).Reachable (Pool.Admits (fun _ => True) fun call choice op w =>
      Attributed Sample.config call choice op w ∧ unmoved call choice op w = true) (idle (Sample.world [])) s := by
    apply Pool.Reachable.of_run replayed (fun _ _ => trivial)
    intro call choice op w checked
    obtain ⟨attributed, still⟩ := Bool.and_eq_true_iff.mp checked
    exact ⟨attributed_of_attributes _ attributed, still⟩
  refine ⟨s, e, older, node, time, replayed, split, shows, seen, ?_⟩
  have prompt : (pool Sample.config).Reachable (fun state action =>
      Pool.Admits (fun _ => True) (Attributed Sample.config) state action ∧ Promptly state action)
      (idle (Sample.world [])) s := by
    refine reached.mono fun state action admitted => ⟨?_, ?_⟩
    · exact admitted.mono fun _ _ _ _ => And.left
    · exact prompt_of_unmoved (admitted.mono fun _ _ _ _ => And.right)
  exact shown_inTime Sample.config (w := Sample.world []) rfl rfl prompt (of_decide_eq_true forward)
    (show s.shared.log = [] ++ e :: older from split) shows seen

/-- A client that connects gets a node that has long been silent as if it had reported just now. -/
theorem shown_too_late : ¬ ∀ (config : Config) (w : World)
    (s : Snapshot operations Worker Call (Except Panic Unit) World),
    w.nodes = .empty → w.log = [] →
    (pool config).Reachable (Pool.Admits (fun _ => True) (Attributed config)) (idle w) s → ClockForward s.shared.log →
    ∀ newer e older node time, s.shared.log = newer ++ e :: older → Op.shows e.op = some node →
      node.lastseen = some time → InTime s node.nodeID newer (e :: older) time := by
  intro claimed
  have late : ((pool Sample.config).run (fun _ => true) (fun call choice op _ => attributes call choice op)
      (idle (Sample.world [])) (connectAfterReport 90)).any (fun s => decide (ClockForward s.shared.log) &&
        (s.active .reporter).isNone && (sentTime s.shared.log).any fun (node, time) =>
          (reportEnd node.nodeID [] s.shared.log).all fun last => last.time < time) = true := by
    decide +kernel
  obtain ⟨s, replayed, checks⟩ := (Option.any_eq_true _ _).mp late
  obtain ⟨checks, sent⟩ := Bool.and_eq_true_iff.mp checks
  obtain ⟨forward, rests⟩ := Bool.and_eq_true_iff.mp checks
  obtain ⟨⟨node, time⟩, sent, ended⟩ := (Option.any_eq_true _ _).mp sent
  obtain ⟨e, older, split, shows, seen⟩ := sentTime_eq_some sent
  have reached := Pool.Reachable.of_run replayed (fun _ _ => trivial)
    fun _ _ _ w checked => attributed_of_attributes Sample.config (w := w) checked
  have inTime := claimed Sample.config (Sample.world []) s rfl rfl reached
      (of_decide_eq_true forward) [] e older node time
    split shows seen
  rw [← split] at inTime
  rcases inTime with ⟨last, found, later⟩ | ⟨⟨n, program, busy, _⟩, _⟩
  · dsimp only at ended
    rw [found] at ended
    exact absurd later (not_le.mpr (of_decide_eq_true ended))
  · rw [Option.isNone_iff_eq_none.mp rests] at busy
    contradiction

end FreifunkManager
