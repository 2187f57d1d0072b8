import FreifunkManager.Proofs.Edits
import FreifunkManager.Proofs.OwnSession

/-! # Replies tell the truth

Any database call of a handler may fail. What a client is told is what happened all the same: `true` if its row was
written or deleted, a session if the row of the session is there, and `false` if nothing has changed but the time
at which the session was seen (`serve_truthful`).
-/

namespace FreifunkManager

open Effects Program Store

/-- What a client is answered. -/
def Event.reply? : Event → Option Body
  | ⟨_, .answer _ body, _, _⟩ => some body
  | _ => none

def Session.unseen (session : Session) : Session := { session with lastseen := none }

/-- The sessions are as before, except for the time at which one of them was seen. -/
structure SeenOnly (id : UUID) (before after : Table Session.sessionID) : Prop where
  others : ∀ other, other ≠ id → after.lookup other = before.lookup other
  own : (after.lookup id).map Session.unseen = (before.lookup id).map Session.unseen

/-- The row was written or deleted as the message asks. -/
inductive Done (config : Config) (msg : Message) (before after : World) : Prop
  | node (subject : msg.subject = MessageType.node) (node : Node) (decoded : config.decodeNode msg.body = some node)
    (written : after.nodes.lookup node.nodeID = some ((before.rowOf node.nodeID).edit node))
  | settings (subject : msg.subject = MessageType.settings) (setting : Session) (lastseen : Option Time)
    (decoded : config.decodeSession msg.body = some setting)
    (written : after.sessions.lookup msg.session = some { setting with sessionID := msg.session, lastseen })
  | logout (subject : msg.subject = MessageType.logout) (deleted : after.sessions.lookup msg.session = none)

/-- The replies of a message are right about what it did. -/
structure Truthful (config : Config) (msg : Message) (before after : World) (events : List Event) : Prop where
  one : (events.filterMap Event.reply?).length ≤ 1
  accepted : .bool true ∈ events.filterMap Event.reply? → Done config msg before after
  loggedIn : ∀ session, .session session ∈ events.filterMap Event.reply? →
    session.sessionID = msg.session ∧ ∃ row, after.sessions.lookup msg.session = some row
  refused : .bool false ∈ events.filterMap Event.reply? →
    after.nodes = before.nodes ∧ SeenOnly msg.session before.sessions after.sessions
  broadcast_iff : (∃ node, node ∈ events.filterMap Event.broadcast) ↔
    msg.subject = MessageType.node ∧ .bool true ∈ events.filterMap Event.reply?

theorem SeenOnly.refl (id : UUID) (table : Table Session.sessionID) : SeenOnly id table table := ⟨fun _ _ => rfl, rfl⟩

/-- Write the row of a session as it is, but seen at another time. -/
theorem SeenOnly.touch {id : UUID} {before table : Table Session.sessionID} (same : SeenOnly id before table)
    {session touched : Session} (found : table.lookup id = some session) (unseen : touched.unseen = session.unseen) :
    SeenOnly id before (table.save touched) := by
  have ids := congrArg Session.sessionID unseen
  have own : touched.sessionID = id :=
    (show touched.sessionID = session.sessionID from ids).trans (Table.lookup_key found)
  constructor
  · intro other different
    rw [Table.lookup_save, own, if_neg (Ne.symm different), same.others other different]
  · rw [Table.lookup_save, own, if_pos rfl, ← same.own, found, Option.map_some, Option.map_some, unseen]

/-- One reply, and no broadcast. -/
theorem Truthful.ofReply {config : Config} {msg : Message} {before after : World} {events : List Event} {body : Body}
    (replies : events.filterMap Event.reply? = [body]) (broadcasts : events.filterMap Event.broadcast = [])
    (accepted : body = .bool true → msg.subject ≠ MessageType.node ∧ Done config msg before after)
    (loggedIn : ∀ session, body = .session session →
      session.sessionID = msg.session ∧ ∃ row, after.sessions.lookup msg.session = some row)
    (refused : body = .bool false → after.nodes = before.nodes ∧ SeenOnly msg.session before.sessions after.sessions) :
    Truthful config msg before after events := by
  constructor
  · rw [replies]
    exact le_rfl
  · rw [replies, List.mem_singleton]
    exact fun same => (accepted same.symm).2
  · intro session
    rw [replies, List.mem_singleton]
    exact fun same => loggedIn session same.symm
  · rw [replies, List.mem_singleton]
    exact fun same => refused same.symm
  · rw [replies, broadcasts, List.mem_singleton]
    constructor
    · rintro ⟨node, member⟩
      exact absurd member List.not_mem_nil
    · rintro ⟨subject, same⟩
      exact absurd subject (accepted same.symm).1

section Forms

variable {config : Config} {msg : Message} {before after : World} {events : List Event}

theorem Truthful.ofSession {session : Session} (replies : events.filterMap Event.reply? = [.session session])
    (broadcasts : events.filterMap Event.broadcast = []) (own : session.sessionID = msg.session)
    (there : ∃ row, after.sessions.lookup msg.session = some row) : Truthful config msg before after events :=
  .ofReply replies broadcasts nofun (fun _ same => Body.session.inj same ▸ ⟨own, there⟩) nofun

theorem Truthful.ofRefusal (replies : events.filterMap Event.reply? = [.bool false])
    (broadcasts : events.filterMap Event.broadcast = []) (nodes : after.nodes = before.nodes)
    (sessions : SeenOnly msg.session before.sessions after.sessions) : Truthful config msg before after events :=
  .ofReply replies broadcasts nofun nofun fun _ => ⟨nodes, sessions⟩

end Forms

theorem Truthful.silent {config : Config} {msg : Message} {before after : World} {events : List Event}
    (replies : events.filterMap Event.reply? = []) (broadcasts : events.filterMap Event.broadcast = []) :
    Truthful config msg before after events := by
  constructor <;> simp [replies, broadcasts]

section Handlers

variable (config : Config) (step : Step) (msg : Message) {before w : World}

/-- Nothing has happened yet, except that the session may have been seen. -/
structure Pending (msg : Message) (before w : World) : Prop where
  nodes : w.nodes = before.nodes
  sessions : SeenOnly msg.session before.sessions w.sessions
  replies : w.log.filterMap Event.reply? = []
  broadcasts : w.log.filterMap Event.broadcast = []

/-- Reading leaves everything as it is. -/
theorem Pending.reads (pending : Pending msg before w) (op : Op) (nodes : op.writesNodes = false)
    (sessions : op.writesSessions = false) (choice : Choice)
    (silent : (w.event step.call choice op).reply? = none ∧ (w.event step.call choice op).broadcast = none) :
    Pending msg before (w.handle step.call choice op).2 where
  nodes := (w.act_nodes choice nodes).trans pending.nodes
  sessions := by
    rw [World.handle_eq]
    exact (w.act_sessions choice sessions).symm ▸ pending.sessions
  replies := by rw [World.handle_log, List.filterMap_cons_none silent.1, pending.replies]
  broadcasts := by rw [World.handle_log, List.filterMap_cons_none silent.2, pending.broadcasts]

/-- The reply of no ends a message that did nothing. -/
theorem refuse_truthful (pending : Pending msg before w) :
    (perform (.answer msg.subject (.bool false))).Along (S := operations) step.Moves
      (fun _ after => Truthful config msg before after after.log) w := by
  rintro _ _ ⟨i, rfl, rfl⟩
  exact .ofRefusal (congrArg (_ :: ·) pending.replies) pending.broadcasts pending.nodes pending.sessions

/-- A session that is read is there. -/
theorem firstSession_found {id : UUID} (named : id ≠ UUID.nil) {choice : Choice} {session : Session}
    (read : some session = (w.act choice (.firstSession id)).1) : w.sessions.lookup id = some session := by
  have first : w.sessions.first id = some session := (Option.ite_none_left_eq_some.mp read.symm).2
  rwa [Table.first_eq_lookup named] at first

theorem saveSession_nodes (session : Session) (choice : Choice) :
    (w.act choice (.saveSession session)).2.nodes = w.nodes :=
  w.act_nodes choice rfl

theorem saveSession_sessions (session : Session) (choice : Choice) : (w.act choice (.saveSession session)).2.sessions =
    if (w.act choice (.saveSession session)).1 then w.sessions.save session else w.sessions := by
  unfold World.act
  cases choice.dbFails <;> rfl

/-- The row of a session after it was touched, or an attempt at it. -/
theorem SeenOnly.act {table : Table Session.sessionID} (same : SeenOnly msg.session table w.sessions)
    {session touched : Session} (found : w.sessions.lookup msg.session = some session)
    (unseen : touched.unseen = session.unseen) (choice : Choice) :
    SeenOnly msg.session table (w.act choice (.saveSession touched)).2.sessions := by
  rw [saveSession_sessions]
  split
  · exact same.touch found unseen
  · exact same

theorem Pending.touch (pending : Pending msg before w) {session touched : Session} (choice : Choice)
    (found : w.sessions.lookup msg.session = some session) (unseen : touched.unseen = session.unseen) :
    Pending msg before (w.handle step.call choice (.saveSession touched)).2 where
  nodes := (saveSession_nodes ..).trans pending.nodes
  sessions := pending.sessions.act msg found unseen choice
  replies := pending.replies
  broadcasts := pending.broadcasts

/-- The row is there whether it could be touched or not. -/
theorem touched_there {session touched : Session} (found : w.sessions.lookup msg.session = some session)
    (own : touched.sessionID = msg.session) (choice : Choice) :
    ∃ row, (w.handle step.call choice (.saveSession touched)).2.sessions.lookup msg.session = some row := by
  change ∃ row, (w.act choice (.saveSession touched)).2.sessions.lookup msg.session = some row
  rw [saveSession_sessions]
  split
  · exact ⟨touched, (Table.lookup_save ..).trans (if_pos own)⟩
  · exact ⟨session, found⟩

theorem createSession_cases (session : Session) (choice : Choice) :
    (w.act choice (.createSession session)).1 = true ∧
      (w.act choice (.createSession session)).2.sessions.lookup session.sessionID = some session ∨
    (w.act choice (.createSession session)).1 = false ∧ (w.act choice (.createSession session)).2 = w := by
  rw [w.act_createSession choice]
  cases created : if choice.dbFails then none else w.sessions.create session with
  | none => exact .inr ⟨rfl, rfl⟩
  | some sessions =>
    have there := (Table.create_eq_some (Option.ite_none_left_eq_some.mp created).2).2 session.sessionID
    exact .inl ⟨rfl, there.trans (if_pos rfl)⟩

theorem isLoggedIn_pending (pending : Pending msg before w) : (isLoggedIn msg).Along (S := operations) step.Moves
    (fun found after => Pending msg before after ∧
      ∀ session, found = some session → msg.session ≠ UUID.nil ∧ session.sessionID = msg.session) w := by
  unfold isLoggedIn
  split
  · exact ⟨pending, nofun⟩
  · next named =>
    rintro found _ ⟨i, read, rfl⟩
    have asked := pending.reads step msg (.firstSession msg.session) rfl rfl (step.choices i) ⟨rfl, rfl⟩
    cases found with
    | none => exact ⟨asked, nofun⟩
    | some session =>
      have there := firstSession_found named read
      rintro now _ ⟨j, rfl, rfl⟩
      have timed := asked.reads step msg (.now .isLoggedIn) rfl rfl (step.choices j) ⟨rfl, rfl⟩
      rintro saved _ ⟨k, rfl, rfl⟩
      refine ⟨timed.touch step msg (step.choices k) there rfl, ?_⟩
      rintro _ ⟨⟩
      have own := Table.lookup_key there
      exact ⟨named, own⟩

theorem settingsHandler_truthful (subject : msg.subject = MessageType.settings) (pending : Pending msg before w) :
    (settingsHandler config msg).Along (S := operations) step.Moves
      (fun _ after => Truthful config msg before after after.log) w := by
  apply along_bind.mpr
  apply (isLoggedIn_pending step msg pending).mono
  rintro (_ | session) after ⟨pending, own⟩
  · exact refuse_truthful config step msg pending
  · dsimp only
    split
    · next setting decoded =>
      have id := (own session rfl).2
      rw [id]
      rintro saved _ ⟨i, same, rfl⟩ _ _ ⟨j, rfl, rfl⟩
      have sessions := saveSession_sessions
          (w := after) { setting with sessionID := msg.session, lastseen := session.lastseen }
        (step.choices i)
      rw [← same] at sessions
      refine Truthful.ofReply (congrArg (_ :: ·) pending.replies) pending.broadcasts ?_ nofun ?_
      · rintro ⟨⟩
        refine ⟨by rw [subject]; decide, .settings subject setting session.lastseen decoded ?_⟩
        exact (congrArg (Table.lookup · msg.session) sessions).trans ((Table.lookup_save ..).trans (if_pos rfl))
      · rintro ⟨⟩
        exact ⟨(saveSession_nodes ..).trans pending.nodes, sessions.symm ▸ pending.sessions⟩
    · exact refuse_truthful config step msg pending

theorem logoutHandler_truthful (subject : msg.subject = MessageType.logout) (pending : Pending msg before w) :
    (logoutHandler msg).Along (S := operations) step.Moves
    (fun _ after => Truthful config msg before after after.log) w := by
  unfold logoutHandler
  split
  · exact .silent pending.replies pending.broadcasts
  · next named =>
    rintro found _ ⟨i, read, rfl⟩
    have asked := pending.reads step msg (.firstSession msg.session) rfl rfl (step.choices i) ⟨rfl, rfl⟩
    cases found with
    | none => exact refuse_truthful config step msg asked
    | some session =>
      have own : session.sessionID = msg.session := Table.lookup_key (firstSession_found named read)
      change (do
        let deleted ← perform (.deleteSession session.sessionID)
        perform (.answer msg.subject (.bool deleted)) : Prog Unit).Along _ _ _
      rw [own]
      generalize (w.handle step.call (step.choices i) (.firstSession msg.session)).2 = after at asked
      rintro deleted _ ⟨j, same, rfl⟩ _ _ ⟨k, rfl, rfl⟩
      have sessions : (after.act (step.choices j) (.deleteSession msg.session)).2.sessions =
          if deleted then after.sessions.delete msg.session else after.sessions := by
        rw [same]
        unfold World.act
        cases (step.choices j).dbFails <;> rfl
      refine Truthful.ofReply (congrArg (_ :: ·) asked.replies) asked.broadcasts ?_ nofun ?_
      · rintro ⟨⟩
        refine ⟨by rw [subject]; decide, .logout subject ?_⟩
        exact (congrArg (Table.lookup · msg.session) sessions).trans
          ((Table.lookup_delete ..).trans (if_pos (.inr rfl)))
      · rintro ⟨⟩
        have nodes := after.act_nodes (step.choices j)
            (show (Op.deleteSession msg.session).writesNodes = false from rfl)
        exact ⟨nodes.trans asked.nodes, sessions.symm ▸ asked.sessions⟩

theorem loginHandler_truthful (pending : Pending msg before w) :
    (loginHandler config msg).Along (S := operations) step.Moves
      (fun _ after => Truthful config msg before after after.log) w := by
  by_cases named : msg.session = UUID.nil
  · rw [loginHandler, if_pos named]
    exact .silent pending.replies pending.broadcasts
  · rw [loginHandler_eq config named]
    rintro found _ ⟨i, read, rfl⟩
    have asked := pending.reads step msg (.firstSession msg.session) rfl rfl (step.choices i) ⟨rfl, rfl⟩
    cases found with
    | some session =>
      have there := firstSession_found named read
      rintro _ _ ⟨j, rfl, rfl⟩ now _ ⟨k, rfl, rfl⟩ saved _ ⟨l, rfl, rfl⟩
      have own : session.sessionID = msg.session := Table.lookup_key there
      refine .ofSession (congrArg (_ :: ·) asked.replies) asked.broadcasts own ?_
      apply touched_there step msg
      · exact there
      · exact own
    | none =>
      change Program.Along _ _ (loginUnknown config msg) _
      by_cases right : msg.body = .string config.secret
      · rw [loginUnknown_accepts right]
        rintro now _ ⟨j, rfl, rfl⟩ created _ ⟨k, same, rfl⟩
        have timed := asked.reads step msg (.now .login) rfl rfl (step.choices j) ⟨rfl, rfl⟩
        generalize (World.handle step.call (step.choices j) (.now .login) (w.handle step.call (step.choices i)
          (.firstSession msg.session)).2).2 = later at timed same ⊢
        rcases createSession_cases (w := later) { sessionID := msg.session, lastseen := some (step.choices j).time }
          (step.choices k) with ⟨ok, there⟩ | ⟨failed, nothing⟩
        · rw [show created = true from same.trans ok]
          rintro _ _ ⟨l, rfl, rfl⟩
          exact .ofSession (congrArg (_ :: ·) timed.replies) timed.broadcasts rfl ⟨_, there⟩
        · rw [show created = false from same.trans failed]
          rintro _ _ ⟨l, rfl, rfl⟩
          have sessions := timed.sessions
          rw [← congrArg World.sessions nothing] at sessions
          exact .ofRefusal (congrArg (_ :: ·) timed.replies) timed.broadcasts
            ((congrArg World.nodes nothing).trans timed.nodes) sessions
      · rw [loginUnknown_refuses right]
        exact refuse_truthful config step msg asked

/-- An edit concerns the sessions only when it finds out who sends it. -/
theorem nodeHandler_sessions (pending : Pending msg before w) :
    (nodeHandler config msg).Along (S := operations) step.Moves
      (fun _ after => SeenOnly msg.session before.sessions after.sessions) w := by
  apply along_bind.mpr
  apply (isLoggedIn_pending step msg pending).mono
  rintro found after ⟨pending, -⟩
  refine (Along.of_satisfies (edited_unconcerned found) (fun w => SeenOnly msg.session before.sessions w.sessions) ?_
    pending.sessions).mono fun _ _ ended => ended.2
  rintro op w _ _ unconcerned same ⟨i, rfl, rfl⟩
  have reads : op.writesSessions = false := by cases op <;> first | rfl | contradiction
  exact ⟨trivial, (w.act_sessions (step.choices i) reads).symm ▸ same⟩

/-- The operation answers yes or no, if it answers. -/
def YesOrNo : Op → Prop
  | .answer _ body => ∃ value, body = .bool value
  | _ => True

theorem nodeHandler_yesOrNo : Only YesOrNo (nodeHandler config msg) := by
  have checks : Only YesOrNo (isLoggedIn msg) := (isLoggedIn_asks msg).weaken fun op asks => by
    cases op <;> trivial
  have answer (value : Bool) : Only YesOrNo (perform (.answer msg.subject (.bool value))) := only_perform ⟨value, rfl⟩
  have lists (node : Node) : Only YesOrNo (updateFromList config node) :=
    ((updateFromList_keeps config node).weaken fun op lists => by cases op <;> trivial).mono
      fun _ _ => trivial
  refine checks.bind fun found => ?_
  split
  · exact (answer false).bind fun _ => only_done ()
  · split
    · exact answer false
    · next node _ =>
      split
      · exact (answer false).bind fun _ => only_done ()
      · refine Only.bind (Only.bind (only_perform trivial) fun found => ?_) fun saved => (answer saved).bind fun _ => ?_
        · cases found <;> exact only_perform trivial
        · cases saved with
          | false => trivial
          | true => exact (lists node).bind fun _ => only_perform trivial

end Handlers

/-- The answers of yes or no are replies, and all replies if every reply is such an answer. -/
theorem replies_eq {events : List Event} (yesOrNo : ∀ e ∈ events, YesOrNo e.op) :
    events.filterMap Event.reply? = (events.filterMap Event.answered).map Body.bool := by
  induction events with
  | nil => rfl
  | cons e rest ih =>
    obtain ⟨first, yesOrNo⟩ := List.forall_mem_cons.mp yesOrNo
    have rest := ih yesOrNo
    rcases e with ⟨call, op, reply, time⟩
    cases op with
    | answer subject body =>
      obtain ⟨value, rfl⟩ := first
      exact congrArg (Body.bool value :: ·) rest
    | _ => exact rest

/-- The log before a message does not matter. -/
theorem Truthful.withLog {config : Config} {msg : Message} {before after : World} {events : List Event}
    (truthful : Truthful config msg before after events) (log : List Event) :
    Truthful config msg before (after.withLog log) events where
  one := truthful.one
  accepted answered := by
    cases truthful.accepted answered with
    | node subject node decoded written => exact .node subject node decoded written
    | settings subject setting lastseen decoded written => exact .settings subject setting lastseen decoded written
    | logout subject deleted => exact .logout subject deleted
  loggedIn := truthful.loggedIn
  refused := truthful.refused
  broadcast_iff := truthful.broadcast_iff

section Serve

variable (config : Config) {step : Step} {msg : Message}

theorem message_truthful (message : step.call = .message msg) {w : World}
    (along : (handleMessage config msg).Along (S := operations) step.Moves
      (fun _ after => Truthful config msg w after after.log) (w.withLog [])) :
    Truthful config msg w (serve config step w).1 ((serve config step w).1.since w) := by
  have alone := message_moves config step message (fun after => Truthful config msg w after after.log) along
  rw [serve_since, serve_log]
  exact alone.withLog _

theorem pending_start (w : World) : Pending msg w (w.withLog []) := ⟨rfl, .refl .., rfl, rfl⟩

theorem node_truthful (message : step.call = .message msg) (subject : msg.subject = MessageType.node) (w : World) :
    Truthful config msg w (serve config step w).1 ((serve config step w).1.since w) := by
  have handler : handleMessage config msg = nodeHandler config msg := by
    unfold handleMessage
    rw [subject]
    rfl
  have sessions : SeenOnly msg.session w.sessions (serve config step w).1.sessions := by
    rw [serve_log]
    refine message_moves config step message (fun after => SeenOnly msg.session w.sessions after.sessions) ?_
    exact handler ▸ nodeHandler_sessions config step msg (pending_start w)
  have yesOrNo : ∀ e ∈ (serve config step w).1.since w, YesOrNo e.op := by
    rw [serve_since]
    refine message_moves config step message (fun after => ∀ e ∈ after.log, YesOrNo e.op) ?_
    exact handler ▸ along_events step (nodeHandler_yesOrNo config msg) _ (fun _ yes => yes) (List.forall_mem_nil _)
  have replies := replies_eq yesOrNo
  cases serve_edited config message subject w with
  | refused nodes answers broadcasts =>
    rw [answers] at replies
    exact .ofRefusal replies broadcasts nodes sessions
  | saved node report listed updated decoded named stored answers lists broadcasts =>
    rw [answers] at replies
    constructor
    · rw [replies]
      exact le_rfl
    · exact fun _ => .node subject node decoded ((stored node.nodeID).trans (if_pos rfl))
    · simp [replies]
    · simp [replies]
    · simp [replies, broadcasts, subject]

/-- Whichever database calls fail, the replies to a message are right about what it did. -/
theorem serve_truthful (message : step.call = .message msg)
    (handled : msg.subject ∈ [MessageType.node, MessageType.settings, MessageType.logout, MessageType.login])
    (w : World) :
    Truthful config msg w (serve config step w).1 ((serve config step w).1.since w) := by
  simp only [List.mem_cons, List.not_mem_nil, or_false] at handled
  rcases handled with node | settings | logout | login
  · exact node_truthful config message node w
  · apply message_truthful config message
    unfold handleMessage
    rw [settings]
    exact settingsHandler_truthful config step msg settings (pending_start w)
  · apply message_truthful config message
    unfold handleMessage
    rw [logout]
    exact logoutHandler_truthful config step msg logout (pending_start w)
  · apply message_truthful config message
    unfold handleMessage
    rw [login]
    exact loginHandler_truthful config step msg (pending_start w)

/-- An edit whose save fails, by a session that is logged in. -/
theorem serve_truthful_failing :
    let step : Step := { call := .message (Sample.edit "cellar"), choices := fun i => { dbFails := i = 4 } }
    Truthful Sample.config (Sample.edit "cellar") (Sample.world [Sample.row])
      (serve Sample.config step (Sample.world [Sample.row])).1
      ((serve Sample.config step (Sample.world [Sample.row])).1.since (Sample.world [Sample.row])) :=
  serve_truthful Sample.config rfl (by simp [Sample.edit]) (Sample.world [Sample.row])

end Serve

end FreifunkManager
