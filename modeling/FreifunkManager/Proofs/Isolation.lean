import FreifunkManager.Effects.Isolation
import FreifunkManager.Proofs.ManagerBlacklist
import FreifunkManager.Proofs.OwnRow
import FreifunkManager.Proofs.OwnSession

/-! # Calls on different rows

A report works on the row of its node, a message on the row of its session, and an edit on both. Calls on different
rows do not disturb each other, however their operations interleave: rows and histories become what they become when
the calls are served one after the other, in the order of their ends. This needs calls that tell their row by its key,
and a manager without refusals, which it is and stays. New clients and ping rounds read all rows, but they write none.
-/

namespace FreifunkManager

open Effects Program Store

/-- A row of the database. -/
inductive Part where
  | node (nodeID : String)
  | session (sessionID : UUID)
deriving DecidableEq

/-- The rows that a call works on. -/
def Call.parts (config : Config) : Call → Finset Part
  | .report n => n.nodeinfo.elim ∅ fun nodeinfo => {.node nodeinfo.nodeID}
  | .message msg =>
    if msg.subject = MessageType.connect then ∅
    else (if msg.session = UUID.nil then ∅ else {.session msg.session}) ∪
      if msg.subject = MessageType.node then (config.decodeNode msg.body).elim ∅ fun node => {.node node.nodeID} else ∅
  | .ping => ∅

/-- The key of the row is not blank. -/
def Call.Named : Call → Prop
  | .report n => ∀ nodeinfo, n.nodeinfo = some nodeinfo → nodeinfo.nodeID ≠ ""
  | _ => True

/-- What there is of a row and its history: the events of the calls that work on it. -/
@[reducible] def Part.Content : Part → Type
  | .node _ => Option Row × List Event
  | .session _ => Option Session × List Event

def World.history (w : World) (config : Config) (part : Part) : List Event :=
  w.log.filter fun e => part ∈ e.call.parts config

def World.part (config : Config) : (part : Part) → World → part.Content
  | .node nodeID, w => (w.nodes.lookup nodeID, w.history config (.node nodeID))
  | .session sessionID, w => (w.sessions.lookup sessionID, w.history config (.session sessionID))

/-! ## What calls ask for -/

/-- The operation reads and writes no other nodes than these. -/
def Op.NodesWithin (parts : Finset Part) : Op → Prop
  | .firstNode nodeID | .updateNode nodeID _ => nodeID ≠ "" ∧ .node nodeID ∈ parts
  | .saveNode row | .createNode row => .node row.nodeID ∈ parts
  | .findNodes => parts = ∅
  | _ => True

/-- The operation reads and writes no other sessions than these. -/
def Op.SessionsWithin (parts : Finset Part) : Op → Prop
  | .firstSession sessionID | .deleteSession sessionID => sessionID ≠ UUID.nil ∧ .session sessionID ∈ parts
  | .saveSession session | .createSession session => .session session.sessionID ∈ parts
  | .findSessions => parts = ∅
  | _ => True

/-- A row that is found has the key that it was looked up by. -/
def Found (op : Op) (reply : op.Reply) : Prop := ReadsOwn op reply ∧ FoundById op reply

section Programs

variable {config : Config}

theorem report_nodesWithin {n : Yanic.Node} (named : (Call.report n).Named) :
    (insertNode config n).run.Satisfies (S := operations) (Op.NodesWithin ((Call.report n).parts config)) ReadsOwn
      fun _ => True := by
  have parts {nodeinfo : Yanic.Nodeinfo} (known : n.nodeinfo = some nodeinfo) :
      Part.node nodeinfo.nodeID ∈ (Call.report n).parts config := by
    simp [Call.parts, known]
  apply insertNode_reads
  · exact fun _ => trivial
  · exact fun nodeinfo known => ⟨named nodeinfo known, parts known⟩
  · intro nodeinfo now row updated op known _ read refreshes _
    have own : row.nodeID = nodeinfo.nodeID := read (named nodeinfo known) row rfl
    cases op with
    | updateNode key columns =>
      have same : key = nodeinfo.nodeID := by cases columns <;> exact refreshes.1.trans own
      exact same ▸ ⟨named nodeinfo known, parts known⟩
    | now | connectTo | newSession | runCommand | sendNode => trivial
    | _ => exact refreshes.elim
  · intro nodeinfo now op known _ _ learns _
    cases op with
    | createNode row =>
      have same : row.nodeID = nodeinfo.nodeID := learns.1.nodeID
      exact (congrArg (Part.node · ∈ (Call.report n).parts config) same).mpr (parts known)
    | now | connectTo | newSession | runCommand | sendNode => trivial
    | _ => exact learns.elim

theorem report_sessionsWithin (config : Config) (n : Yanic.Node) (parts : Finset Part) :
    Only (Op.SessionsWithin parts) (insertNode config n).run := by
  refine insertNode_satisfies (fun _ => trivial) (fun _ => trivial) (fun nodeinfo now row op _ asked => ?_)
    fun nodeinfo now op _ asked => ?_
  · cases op <;> trivial
  · cases op <;> trivial

variable {msg : Message}

/-- A message with another subject keeps away from the nodes. -/
theorem handleMessage_personal (connect : msg.subject ≠ MessageType.connect) (node : msg.subject ≠ MessageType.node) :
    Only Personal (handleMessage config msg) := by
  rw [handleMessage, if_neg connect, if_neg node]
  split_ifs
  · exact loginHandler_personal config msg
  · exact authStatusHandler_personal msg
  · exact settingsHandler_personal config msg
  · exact logoutHandler_personal msg
  · trivial

theorem message_nodesWithin (connect : msg.subject ≠ MessageType.connect) :
    (handleMessage config msg).Satisfies (S := operations) (Op.NodesWithin ((Call.message msg).parts config)) ReadsOwn
      fun _ => True := by
  by_cases subject : msg.subject = MessageType.node
  · have handler : handleMessage config msg = nodeHandler config msg := by
      unfold handleMessage
      rw [subject]
      rfl
    have parts {node : Node} (decoded : config.decodeNode msg.body = some node) :
        Part.node node.nodeID ∈ (Call.message msg).parts config := by
      simp only [Call.parts, if_neg connect, if_pos subject, decoded, Option.elim_some]
      exact Finset.mem_union_right _ (Finset.mem_singleton_self _)
    rw [handler]
    apply nodeHandler_satisfies config msg
    · intro op checks
      cases op <;> trivial
    · exact fun node decoded named => ⟨named, parts decoded⟩
    · intro node row decoded named answered
      have same : row.nodeID = node.nodeID := answered named row rfl
      exact (congrArg (Part.node · ∈ (Call.message msg).parts config) same).mpr (parts decoded)
    · exact fun node decoded named => parts decoded
    · intro node op decoded named announces
      cases op <;> trivial
  · refine ((handleMessage_personal connect subject).weaken fun op personal => ?_).assuming fun _ _ _ => trivial
    cases op <;> trivial

theorem message_sessionsWithin (connect : msg.subject ≠ MessageType.connect) :
    (handleMessage config msg).Satisfies (S := operations)
    (Op.SessionsWithin ((Call.message msg).parts config)) FoundById
      fun _ => True := by
  have parts (named : msg.session ≠ UUID.nil) : Part.session msg.session ∈ (Call.message msg).parts config := by
    simp [Call.parts, connect, named]
  refine (handleMessage_own config msg).weaken fun op own => ?_
  cases op with
  | firstSession | deleteSession =>
    obtain ⟨named, rfl⟩ := own
    exact ⟨named, parts named⟩
  | saveSession session | createSession session =>
    exact (congrArg (Part.session · ∈ (Call.message msg).parts config) own.2).mpr (parts own.1)
  | findSessions => exact own.elim
  | _ => trivial

/-- Calls ask for nothing but their rows, if these are told by their keys. -/
theorem program_within (call : Call) (named : call.Named) : (call.program config).Satisfies (S := operations)
    (fun op => op.NodesWithin (call.parts config) ∧ op.SessionsWithin (call.parts config)) Found fun _ => True := by
  cases call with
  | report n =>
    have sessions := report_sessionsWithin config n ((Call.report n).parts config)
    exact ((report_nodesWithin named).and (sessions.assuming fun _ _ (_ : FoundById ..) => trivial)).mono
      fun _ _ => trivial
  | message msg =>
    refine satisfies_bind.mpr ?_
    by_cases connect : msg.subject = MessageType.connect
    · have handler : handleMessage config msg = connectHandler config := if_pos connect
      have parts : (Call.message msg).parts config = ∅ := if_pos connect
      rw [handler, parts]
      refine (((connectHandler_plain config).weaken fun op plain => ?_).assuming fun _ _ _ => trivial).mono
        fun _ _ => trivial
      cases op <;> first | exact ⟨trivial, trivial⟩ | exact ⟨rfl, trivial⟩ | contradiction
    · exact ((message_nodesWithin connect).and (message_sessionsWithin connect)).mono fun _ _ => trivial
  | ping =>
    refine satisfies_bind.mpr ((Satisfies.assuming (sendPing_only.weaken fun op pings => ?_) fun _ _ _ => trivial).mono
      fun _ _ => trivial)
    cases op <;> first | exact ⟨trivial, trivial⟩ | exact ⟨trivial, rfl⟩ | contradiction

end Programs

/-! ## What operations do to rows -/

/-- What an operation does to the row of a session. -/
def Event.sessionAfter (e : Event) (id : UUID) (before : Option Session) : Option Session :=
  match e with
  | ⟨_, .saveSession session, true, _⟩ | ⟨_, .createSession session, true, _⟩ =>
    if session.sessionID = id then some session else before
  | ⟨_, .deleteSession key, true, _⟩ => if key = UUID.nil ∨ key = id then none else before
  | _ => before

section Operations

variable {config : Config} (call : Call) (choice : Choice) {w w' : World}

theorem World.sessions_handle (op : Op) (id : UUID) : (w.handle call choice op).2.sessions.lookup id =
    (w.event call choice op).sessionAfter id (w.sessions.lookup id) := by
  change (w.act choice op).2.sessions.lookup id = _
  cases fails : choice.dbFails with
  | true =>
    cases op with
    | createNode row | createSession session => simp [act, event, fails, Event.sessionAfter]
    | saveSession session | deleteSession key => simp [act, event, fails, Event.sessionAfter]
    | _ => rw [w.act_sessions choice rfl]; rfl
  | false =>
    cases op with
    | saveSession session => simp [act, event, fails, Event.sessionAfter, Table.lookup_save]
    | deleteSession key =>
      simp only [act, event, fails, Event.sessionAfter, Bool.false_eq_true, if_false, Table.lookup_delete]
      rfl
    | createSession session =>
      cases created : w.sessions.create session with
      | none => simp [act, event, fails, created, Event.sessionAfter]
      | some sessions => simp [act, event, fails, created, Event.sessionAfter, (Table.create_eq_some created).2]
    | _ => rw [w.act_sessions choice rfl]; rfl

/-- A manager without refusals stays so. -/
theorem World.handle_manager (fresh : w.manager = Ssh.newManager) (op : Op) :
    (w.handle call choice op).2.manager = Ssh.newManager := by
  change (w.act choice op).2.manager = _
  cases op with
  | connectTo addr =>
    simp only [act, fresh]
    exact (Ssh.connectTo_newManager _ _).1
  | createNode row | createSession row =>
    simp only [act]
    split <;> exact fresh
  | _ =>
    simp only [act]
    try split_ifs <;> exact fresh
    all_goals exact fresh

omit call choice in
theorem Event.rowAfter_outside {parts : Finset Part} {nodeID : String} (other : .node nodeID ∉ parts) {e : Event}
    (within : e.op.NodesWithin parts) (before : Option Row) : e.rowAfter nodeID before = before := by
  obtain ⟨call, op, reply, time⟩ := e
  cases op with
  | updateNode key columns =>
    cases reply with
    | false => rfl
    | true => exact if_neg (not_or.mpr ⟨within.1, fun same : key = nodeID => other (same ▸ within.2)⟩)
  | saveNode row | createNode row =>
    cases reply with
    | false => rfl
    | true => exact if_neg fun same : row.nodeID = nodeID => other (same ▸ within)
  | _ => rfl

omit call choice in
theorem Event.sessionAfter_outside {parts : Finset Part} {id : UUID} (other : .session id ∉ parts) {e : Event}
    (within : e.op.SessionsWithin parts) (before : Option Session) : e.sessionAfter id before = before := by
  obtain ⟨call, op, reply, time⟩ := e
  cases op with
  | deleteSession key =>
    cases reply with
    | false => rfl
    | true => exact if_neg (not_or.mpr ⟨within.1, fun same : key = id => other (same ▸ within.2)⟩)
  | saveSession session | createSession session =>
    cases reply with
    | false => rfl
    | true => exact if_neg fun same : session.sessionID = id => other (same ▸ within)
  | _ => rfl

variable {op : Op}

theorem World.history_handle {part : Part} (member : part ∈ call.parts config) :
    (w.handle call choice op).2.history config part = w.event call choice op :: w.history config part :=
  List.filter_cons_of_pos (decide_eq_true member)

theorem World.history_other {part : Part} (other : part ∉ call.parts config) :
    (w.handle call choice op).2.history config part = w.history config part :=
  List.filter_cons_of_neg (mt of_decide_eq_true other)

/-- An operation leaves other rows as they are, and its event is not theirs. -/
theorem World.part_outside (nodes : op.NodesWithin (call.parts config))
    (sessions : op.SessionsWithin (call.parts config))
    {part : Part} (other : part ∉ call.parts config) :
    (w.handle call choice op).2.part config part = w.part config part := by
  have history : (w.handle call choice op).2.history config part = w.history config part :=
    World.history_other call choice other
  cases part with
  | node nodeID => exact Prod.ext ((w.lookup_handle ..).trans (Event.rowAfter_outside other nodes _)) history
  | session id => exact Prod.ext ((w.sessions_handle ..).trans (Event.sessionAfter_outside other sessions _)) history

/-- Insertion asks only whether the key is taken. -/
theorem create_isSome {ρ κ : Type} {key : ρ → κ} [DecidableEq κ] {table table' : Table key} {row : ρ}
    (same : table.lookup (key row) = table'.lookup (key row)) :
    (table.create row).isSome = (table'.create row).isSome := by
  rw [Bool.eq_iff_iff, Option.isSome_iff_ne_none, Option.isSome_iff_ne_none, Ne, Ne, Table.create_eq_none,
    Table.create_eq_none, same]

/-- The reply to an operation depends on the rows of the call only. -/
theorem World.reply_inside (parts : (call.parts config).Nonempty) (nodes : op.NodesWithin (call.parts config))
    (sessions : op.SessionsWithin (call.parts config)) (fresh : w.manager = Ssh.newManager)
    (fresh' : w'.manager = Ssh.newManager) (alike : Pool.Alike (World.part config) (call.parts config) w w') :
    (w.act choice op).1 = (w'.act choice op).1 := by
  have sameNode {nodeID : String} (member : .node nodeID ∈ call.parts config) :
      w.nodes.lookup nodeID = w'.nodes.lookup nodeID := congrArg Prod.fst (alike _ member)
  have sameSession {id : UUID} (member : .session id ∈ call.parts config) :
      w.sessions.lookup id = w'.sessions.lookup id := congrArg Prod.fst (alike _ member)
  cases op with
  | firstNode nodeID =>
    simp only [act, Table.first_eq_lookup (show nodeID ≠ default from nodes.1), sameNode nodes.2]
  | firstSession id =>
    simp only [act, Table.first_eq_lookup (show id ≠ default from sessions.1), sameSession sessions.2]
  | findNodes => exact absurd nodes parts.ne_empty
  | findSessions => exact absurd sessions parts.ne_empty
  | createNode row =>
    have created := create_isSome (sameNode nodes)
    simp only [act]
    cases choice.dbFails with
    | true => rfl
    | false =>
      cases own : w.nodes.create row <;> cases other : w'.nodes.create row <;> simp_all
  | createSession session =>
    have created := create_isSome (sameSession sessions)
    simp only [act]
    cases choice.dbFails with
    | true => rfl
    | false =>
      cases own : w.sessions.create session <;> cases other : w'.sessions.create session <;> simp_all
  | connectTo addr => simp only [act, fresh, fresh']
  | updateNode | saveNode | saveSession | deleteSession =>
    simp only [act]
    split <;> rfl
  | _ => rfl

/-- What an operation does to the rows of the call depends on nothing else. -/
theorem World.part_inside (parts : (call.parts config).Nonempty) (nodes : op.NodesWithin (call.parts config))
    (sessions : op.SessionsWithin (call.parts config)) (fresh : w.manager = Ssh.newManager)
    (fresh' : w'.manager = Ssh.newManager) (alike : Pool.Alike (World.part config) (call.parts config) w w') :
    Pool.Alike (World.part config) (call.parts config) (w.handle call choice op).2 (w'.handle call choice op).2 := by
  have event : w.event call choice op = w'.event call choice op := by
    rw [World.event, World.event, World.reply_inside call choice parts nodes sessions fresh fresh' alike]
  have history {part : Part} (member : part ∈ call.parts config)
      (before : w.history config part = w'.history config part) :
      (w.handle call choice op).2.history config part = (w'.handle call choice op).2.history config part := by
    rw [World.history_handle call choice member, World.history_handle call choice member, event, before]
  intro part member
  have before := alike part member
  cases part with
  | node nodeID =>
    refine Prod.ext ?_ (history member (congrArg Prod.snd before))
    exact (w.lookup_handle ..).trans ((congrArg₂ (Event.rowAfter · nodeID ·) event (congrArg Prod.fst before)).trans
      (w'.lookup_handle ..).symm)
  | session id =>
    refine Prod.ext ?_ (history member (congrArg Prod.snd before))
    exact (w.sessions_handle ..).trans ((congrArg₂ (Event.sessionAfter · id ·) event (congrArg Prod.fst before)).trans
      (w'.sessions_handle ..).symm)

end Operations

/-! ## Runs -/

theorem confined (config : Config) : (crowd config).Confined (World.part config) (Call.parts config)
    (fun w => w.manager = Ssh.newManager) Call.Named
    (fun call op => op.NodesWithin (call.parts config) ∧ op.SessionsWithin (call.parts config)) Found where
  programs call named := program_within call named
  keeps call choice op w _ fresh :=
    ⟨⟨act_readsOwn choice w op, w.act_foundById choice op⟩, World.handle_manager call choice fresh op⟩
  outside call choice _ _ within _ _ other := World.part_outside call choice within.1 within.2 other
  inside call choice _ _ _ parts within fresh fresh' alike :=
    ⟨World.reply_inside call choice parts within.1 within.2 fresh fresh' alike,
      World.part_inside call choice parts within.1 within.2 fresh fresh' alike⟩

/-- Serve a call that has ended once more, with the same choices. -/
def again (config : Config) (w : World) (ended : Call × List Choice) : World :=
  (serve config { call := ended.1, choices := fun i => ended.2.getD i {} } w).1

/-- The calls that work on rows, one after the other. -/
def inSequence (config : Config) (ended : List (Call × List Choice)) (w : World) : World :=
  (ended.filter fun ended => (ended.1.parts config).Nonempty).foldl (again config) w

/-- A call that ends with some choices is served with them. -/
theorem run_of_replay {α : Type} (step : Step) {choices : List Choice} {program : Prog α} {w after : World} {i : ℕ}
    {result : α} (same : ∀ j, step.choices (i + j) = choices.getD j {})
    (ended : program.replay (World.handle step.call) choices w = (.done result, after)) :
    ∃ j, program.run step.handle (w, i) = (result, after, j) := by
  induction choices generalizing program w i with
  | nil =>
    cases ended
    exact ⟨i, rfl⟩
  | cons choice rest ih =>
    cases program with
    | done value =>
      cases ended
      exact ⟨i, rfl⟩
    | ask op next =>
      have now : step.choices i = choice := same 0
      rw [run_ask, show step.handle op (w, i) =
        ((w.handle step.call choice op).1, (w.handle step.call choice op).2, i + 1) by
        rw [← now]; rfl]
      refine ih (fun j => ?_) ended
      rw [Nat.add_assoc, Nat.add_comm 1 j]
      exact same (j + 1)

theorem again_of_alone {config : Config} {w after : World} {ended : Call × List Choice}
    (alone : (crowd config).alone w ended = some after) : again config w ended = after := by
  obtain ⟨call, choices⟩ := ended
  unfold Pool.alone at alone
  split at alone
  · next result _ replayed =>
    cases alone
    obtain ⟨_, ran⟩ := run_of_replay { call, choices := fun i => choices.getD i {} } (i := 0)
      (fun j => by rw [Nat.zero_add]) replayed
    exact congrArg (·.2.1) ran
  · contradiction

theorem foldl_of_alone {config : Config} {w after : World} {ended : List (Call × List Choice)}
    (serial : ended.foldlM (crowd config).alone w = some after) : ended.foldl (again config) w = after := by
  induction ended generalizing w with
  | nil => exact Option.some.inj serial
  | cons first rest ih =>
    obtain ⟨middle, alone, serial⟩ := Option.bind_eq_some_iff.mp serial
    rw [List.foldl_cons, again_of_alone alone]
    exact ih serial

/-- While no two calls in progress work on one row, every row that none of them works on, and the history of the calls
that did, are as if these calls had been served one after the other. -/
theorem rows_serializable (config : Config) {w : World} (fresh : w.manager = Ssh.newManager)
    {actions : List (Action ℕ Call Choice)} {state : Snapshot operations ℕ Call (Except Panic Unit) World}
    (ran : (crowd config).Ran (Pool.Separate (Call.parts config) Call.Named) (unoccupied w) actions state) (part : Part)
    (free : ∀ worker call program, state.active worker = some (call, program) → part ∉ call.parts config) :
    state.shared.part config part = (inSequence config (Pool.recorded actions).ended w).part config part := by
  obtain ⟨after, isolated⟩ := ran.isolated (confined config) (fun _ => rfl) fresh
  have sequence : inSequence config (Pool.recorded actions).ended w = after := foldl_of_alone isolated.serial
  rw [sequence]
  exact isolated.rest part free

namespace Sample

/-- The report of another node. -/
def otherReport : Yanic.Node where
  nodeinfo := some { nodeID := "c04a00f2e9d3", hostname := "shed", addresses := ["2001:db8::3"] }

/-- The next operations of a worker of the crowd, all of them at one time. -/
def proceed (worker count : ℕ) (time : Time) : List (Action ℕ Call Choice) :=
  List.replicate count (.advance worker { time })

/-- A node is edited while another one is learnt. -/
def twoCalls : Snapshot operations ℕ Call (Except Panic Unit) World where
  shared := world [row]
  active := Function.update (Function.update (fun _ => none) 0
    (some (.message (edit "cellar"), Call.program config (.message (edit "cellar"))))) 1
    (some (.report otherReport, Call.program config (.report otherReport)))

def starts : List (Action ℕ Call Choice) := [.start 0 (.message (edit "cellar")), .start 1 (.report otherReport)]

def proceeds : List (Action ℕ Call Choice) :=
  proceed 0 3 60 ++ proceed 1 4 61 ++ proceed 0 5 62 ++ proceed 1 4 63 ++ [.finish 1, .finish 0]

theorem twoCalls_separate : (crowd config).Ran (Pool.Separate (Call.parts config) Call.Named) (unoccupied (world [row]))
    starts twoCalls := by
  have apart : Disjoint ((Call.message (edit "cellar")).parts config) ((Call.report otherReport).parts config) := by
    decide +kernel
  have named : (Call.report otherReport).Named := by
    rintro _ ⟨⟩
    decide
  refine (Pool.Ran.nil.snoc ⟨trivial, ?_⟩ rfl).snoc ⟨named, ?_⟩ rfl
  · intro other busy program active
    simp only [unoccupied, Function.update_apply] at active
    split at active
    · cases active
      exact apart
    · contradiction
  · intro other busy program active
    contradiction

end Sample

theorem rows_serializable_twoCalls :
    (Pool.recorded (Sample.starts ++ Sample.proceeds)).ended.map Prod.fst =
      [.report Sample.otherReport, .message (Sample.edit "cellar")] ∧
    ∃ state : Snapshot operations ℕ Call (Except Panic Unit) World, (∀ worker, state.active worker = none) ∧
      ∀ part, state.shared.part Sample.config part = (inSequence Sample.config
        (Pool.recorded (Sample.starts ++ Sample.proceeds)).ended (Sample.world [Sample.row])).part
        Sample.config part := by
  have checked : ((crowd Sample.config).run (fun _ => false) (fun _ _ _ _ => true) Sample.twoCalls Sample.proceeds).any
      (fun state => (state.active 0).isNone && (state.active 1).isNone) = true := by decide +kernel
  obtain ⟨state, replayed, done⟩ := (Option.any_eq_true ..).mp checked
  obtain ⟨first, second⟩ := Bool.and_eq_true_iff.mp done
  have ran := Sample.twoCalls_separate.append_run (fun _ _ => Pool.separate_other) replayed
  have few : ∀ action ∈ Sample.proceeds, action.worker < 2 := by decide
  have idle (worker : ℕ) : state.active worker = none := by
    match worker with
    | 0 => exact Option.isNone_iff_eq_none.mp first
    | 1 => exact Option.isNone_iff_eq_none.mp second
    | worker + 2 =>
      refine Pool.run_unnamed replayed fun action member same => ?_
      have := few action member
      omega
  refine ⟨rfl, state, idle, fun part => rows_serializable Sample.config rfl ran part fun worker _ _ active => ?_⟩
  rw [idle] at active
  contradiction

end FreifunkManager
