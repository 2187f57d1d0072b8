import FreifunkManager.Proofs.Serving

/-! # Sessions and their own messages

A message reads and writes the row of its own session only, and no row at all if it has no session id. This
does not depend on the database: it holds of what the handlers ask for (`handleMessage_own`).
-/

namespace FreifunkManager

open Effects Program Store

section Unconcerned

variable {config : Config} {msg : Message}

theorem plain_unconcerned {α : Type} {program : Prog α} (plain : Only Plain program) :
    Only (fun op => op.onSessions = false) program :=
  plain.weaken fun op plain => by cases op <;> first | rfl | contradiction

theorem answer_unconcerned (body : Body) :
    Only (fun op => op.onSessions = false) (perform (.answer msg.subject body)) := only_perform rfl

theorem edit_unconcerned (node : Node) :
    Only (fun op => op.onSessions = false) (saveEdit node >>= announceEdit config msg node) := by
  have reads : Only (fun op => op.onSessions = false) (perform (.firstNode node.nodeID)) := only_perform rfl
  refine Only.bind (reads.bind fun found => ?_) fun saved => (announceEdit_only config msg node saved).weaken ?_
  · cases found <;> exact only_perform rfl
  · intro op announces
    cases op <;> first | rfl | contradiction

/-- The rest of an edit, when it is known who sends it. -/
theorem edited_unconcerned (found : Option Session) : Only (fun op => op.onSessions = false) (do
    if found.isNone then
      perform (.answer msg.subject (.bool false))
      return
    match config.decodeNode msg.body with
    | none => perform (.answer msg.subject (.bool false))
    | some node =>
      if node.nodeID = "" then
        perform (.answer msg.subject (.bool false))
        return
      let saved ← saveEdit node
      announceEdit config msg node saved) := by
  split
  · exact (answer_unconcerned _).bind fun _ => only_done ()
  · split
    · exact answer_unconcerned _
    · next node _ =>
      split
      · exact (answer_unconcerned _).bind fun _ => only_done ()
      · exact edit_unconcerned node

end Unconcerned

/-! ## What messages ask for -/

/-- The operation concerns no other session than this one, and none at all if the id is nil. -/
def OwnSession (id : UUID) : Op → Prop
  | .firstSession other | .deleteSession other => id ≠ UUID.nil ∧ other = id
  | .saveSession session | .createSession session => id ≠ UUID.nil ∧ session.sessionID = id
  | .findSessions => False
  | _ => True

theorem OwnSession.unconcerned {op : Op} (own : OwnSession UUID.nil op) : op.onSessions = false := by
  cases op with
  | firstSession | deleteSession | saveSession | createSession => exact absurd rfl own.1
  | findSessions => contradiction
  | _ => rfl

/-- A session that is found has the id that it was looked up by. -/
def FoundById : (op : Op) → op.Reply → Prop
  | .firstSession id, reply => id ≠ UUID.nil → ∀ session, reply = some session → session.sessionID = id
  | _, _ => True

section Own

variable {config : Config} {msg : Message}

/-- The program keeps to the session of the message. -/
abbrev OwnOnly {α : Type} (msg : Message) (wanted : α → Prop) (program : Prog α) : Prop :=
  program.Satisfies (S := operations) (OwnSession msg.session) FoundById wanted

theorem own_of_unconcerned {program : Prog Unit} (only : Only (fun op => op.onSessions = false) program) :
    OwnOnly msg (fun _ => True) program := by
  refine (Satisfies.assuming only fun _ _ _ => trivial).weaken fun op unconcerned => ?_
  cases op <;> trivial

theorem isLoggedIn_own : OwnOnly msg
    (fun found => ∀ session, found = some session → msg.session ≠ UUID.nil ∧ session.sessionID = msg.session)
    (isLoggedIn msg) := by
  unfold isLoggedIn
  split
  · exact fun _ _ => by contradiction
  · next named =>
    refine ⟨⟨named, rfl⟩, fun found foundById => ?_⟩
    cases found with
    | none => exact fun _ _ => by contradiction
    | some session =>
      have own := foundById named session rfl
      exact ⟨trivial, fun _ _ => ⟨⟨named, own⟩, fun _ _ _ same => by cases same; exact ⟨named, own⟩⟩⟩

theorem loginHandler_own : OwnOnly msg (fun _ => True) (loginHandler config msg) := by
  have answer (body : Body) : OwnOnly msg (fun _ => True) (perform (.answer msg.subject body)) :=
    own_of_unconcerned (answer_unconcerned body)
  by_cases named : msg.session = UUID.nil
  · rw [loginHandler, if_pos named]
    trivial
  · rw [loginHandler_eq config named]
    refine ⟨⟨named, rfl⟩, fun found foundById => ?_⟩
    cases found with
    | some session =>
      exact ⟨trivial, fun _ _ => ⟨trivial, fun _ _ => ⟨⟨named, foundById named session rfl⟩, fun _ _ => trivial⟩⟩⟩
    | none =>
      change OwnOnly msg (fun _ => True) (loginUnknown config msg)
      by_cases right : msg.body = .string config.secret
      · rw [loginUnknown_accepts right]
        refine ⟨trivial, fun now _ => ⟨⟨named, rfl⟩, fun created _ => ?_⟩⟩
        cases created <;> exact answer _
      · rw [loginUnknown_refuses right]
        exact answer _

/-- A handler that only asks who is logged in. -/
theorem asking_own {rest : Option Session → Prog Unit}
    (unconcern : ∀ found, Only (fun op => op.onSessions = false) (rest found)) :
    OwnOnly msg (fun _ => True) (isLoggedIn msg >>= rest) :=
  satisfies_bind.mpr (isLoggedIn_own.mono fun found _ => own_of_unconcerned (unconcern found))

theorem settingsHandler_own : OwnOnly msg (fun _ => True) (settingsHandler config msg) := by
  refine satisfies_bind.mpr (isLoggedIn_own.mono fun found own => ?_)
  cases found with
  | none => exact own_of_unconcerned (answer_unconcerned _)
  | some session =>
    dsimp only
    split
    · exact ⟨own session rfl, fun saved _ => own_of_unconcerned (answer_unconcerned _)⟩
    · exact own_of_unconcerned (answer_unconcerned _)

theorem logoutHandler_own : OwnOnly msg (fun _ => True) (logoutHandler msg) := by
  unfold logoutHandler
  split
  · trivial
  · next named =>
    refine ⟨⟨named, rfl⟩, fun found foundById => ?_⟩
    cases found with
    | none => exact own_of_unconcerned (answer_unconcerned _)
    | some session =>
      exact ⟨⟨named, foundById named session rfl⟩, fun deleted _ => own_of_unconcerned (answer_unconcerned _)⟩

/-- Whatever a message says, it keeps to its own session. -/
theorem handleMessage_own (config : Config) (msg : Message) :
    OwnOnly msg (fun _ => True) (handleMessage config msg) := by
  unfold handleMessage
  split_ifs
  · exact own_of_unconcerned (plain_unconcerned (connectHandler_plain config))
  · exact loginHandler_own
  · refine asking_own fun found => ?_
    cases found <;> exact answer_unconcerned _
  · exact settingsHandler_own
  · exact logoutHandler_own
  · exact asking_own edited_unconcerned
  · trivial

end Own

/-! ## What messages do -/

namespace World

variable (choice : Choice) (w : World)

theorem act_foundById (op : Op) : FoundById op (w.act choice op).1 := by
  cases op with
  | firstSession id =>
    intro named session found
    have first : w.sessions.first id = some session := (Option.ite_none_left_eq_some.mp found).2
    rw [Table.first_eq_lookup named] at first
    exact Table.lookup_key first
  | _ => trivial

/-- The rows of other sessions stay as they are, and so does a row with the nil id. -/
theorem act_session {id other : UUID} {op : Op} (own : OwnSession id op) (others : other ≠ id ∨ other = UUID.nil) :
    (w.act choice op).2.sessions.lookup other = w.sessions.lookup other := by
  have different {key : UUID} (named : id ≠ UUID.nil) (same : key = id) : key ≠ other := by
    rintro rfl
    exact others.elim (· same) fun blank => named (same.symm.trans blank)
  cases op with
  | saveSession session =>
    simp only [act]
    split
    · rfl
    · rw [Table.lookup_save, if_neg (different own.1 own.2)]
  | createSession session =>
    simp only [act]
    split
    · next sessions created =>
      rw [(Table.create_eq_some (Option.ite_none_left_eq_some.mp created).2).2, if_neg (different own.1 own.2)]
    · rfl
  | deleteSession key =>
    simp only [act]
    split
    · rfl
    · rw [Table.lookup_delete, if_neg]
      exact not_or.mpr ⟨own.2.symm ▸ own.1, different own.1 own.2⟩
  | findSessions => contradiction
  | _ => rw [w.act_sessions choice rfl]

end World

section Serve

variable (config : Config) {step : Step} {msg : Message}

theorem message_own (message : step.call = .message msg) : OwnOnly msg (fun _ => True) (step.call.program config) := by
  rw [message]
  exact satisfies_bind.mpr ((handleMessage_own config msg).mono fun _ _ => trivial)

/-- A message leaves the rows of other sessions as they are, whether the database works or not. -/
theorem serve_others (message : step.call = .message msg) (w : World) {id : UUID}
    (others : id ≠ msg.session ∨ id = UUID.nil) :
    (serve config step w).1.sessions.lookup id = w.sessions.lookup id :=
  serve_keeps config step (message_own config message) (fun after => after.sessions.lookup id = w.sessions.lookup id)
    (fun op _ current own same => ⟨current.act_foundById _ op, (current.act_session _ own others).trans same⟩) rfl

/-- Other calls leave all sessions as they are. -/
theorem serve_sessions (other : ∀ msg, step.call ≠ .message msg) (w : World) :
    (serve config step w).1.sessions = w.sessions := by
  have reads : Only (fun op => op.writesSessions = false) (step.call.program config) := by
    cases called : step.call with
    | report n =>
      refine insertNode_satisfies (fun _ => rfl) (fun _ => rfl) (fun _ _ _ op _ refreshes => ?_)
        fun _ _ op _ learns => ?_ <;>
        cases op <;> first | rfl | contradiction
    | message msg => exact absurd called (other msg)
    | ping =>
      refine Only.bind (sendPing_only.weaken fun op pings => ?_) fun _ => only_done _
      cases op <;> first | rfl | contradiction
  exact serve_keeps config step reads (fun after => after.sessions = w.sessions)
    (fun op _ current reads same => ⟨trivial, (current.act_sessions _ reads).trans same⟩) rfl

/-- A message without a session id reads and writes no session. -/
theorem serve_nil (message : step.call = .message msg) (unnamed : msg.session = UUID.nil) (w : World) :
    ∀ e ∈ (serve config step w).1.since w, e.op.onSessions = false := by
  obtain ⟨events, grown, own⟩ := serve_grows config step (message_own config message)
    (fun op _ current => current.act_foundById _ op) w
  rw [World.since_eq grown]
  intro e member
  have own := (own e member).2
  rw [unnamed] at own
  exact own.unconcerned

end Serve

end FreifunkManager
