import FreifunkManager.Proofs.OwnSession

/-! # The logged-in sessions

Abstractly, the sessions table is a partial map from session ids to ping flags, and a message changes it at
its own session only (`LoggedIn.receive`). The handlers read and rewrite whole rows; `sessions_refine` shows
that this comes to the same, whatever the messages are.
-/

namespace FreifunkManager

open Effects Program Store

/-! ## The map of logged-in sessions -/

/-- The ping flag that a body sets, false if there is none. -/
def Json.ping (body : Json) : Bool :=
  match body.field "ping" with
  | some (.bool value) => value
  | _ => false

/-- A decoded body has the ping flag that is in it. -/
def DecodesPing (config : Config) : Prop :=
  ∀ body setting, config.decodeSession body = some setting → setting.ping = body.ping

abbrev Sessions := Table Session.sessionID

/-- The flag of a session after its message, by the one before; there is none if it is not logged in. -/
def flagAfter (config : Config) (msg : Message) (before : Option Bool) : Option Bool :=
  if msg.subject = MessageType.login then
    match before, msg.body with
    | none, .string secret => if secret = config.secret then some false else none
    | _, _ => before
  else if msg.subject = MessageType.settings then
    match before, config.decodeSession msg.body with
    | some _, some _ => some msg.body.ping
    | _, _ => before
  else if msg.subject = MessageType.logout then none
  else before

section FlagAfter

variable (config : Config) {msg : Message} (before : Option Bool)

theorem flagAfter_login (subject : msg.subject = MessageType.login) : flagAfter config msg before =
    match before, msg.body with
    | none, .string secret => if secret = config.secret then some false else none
    | _, _ => before := if_pos subject

theorem flagAfter_settings (subject : msg.subject = MessageType.settings) : flagAfter config msg before =
    match before, config.decodeSession msg.body with
    | some _, some _ => some msg.body.ping
    | _, _ => before := by
  unfold flagAfter
  rw [if_neg (by rw [subject]; decide), if_pos subject]

theorem flagAfter_logout (subject : msg.subject = MessageType.logout) : flagAfter config msg before = none := by
  unfold flagAfter
  rw [if_neg (by rw [subject]; decide), if_neg (by rw [subject]; decide), if_pos subject]

theorem flagAfter_other (notLogin : msg.subject ≠ MessageType.login) (notSettings : msg.subject ≠ MessageType.settings)
    (notLogout : msg.subject ≠ MessageType.logout) : flagAfter config msg before = before := by
  unfold flagAfter
  rw [if_neg notLogin, if_neg notSettings, if_neg notLogout]

end FlagAfter

/-- The sessions that are logged in, each with its ping flag. -/
abbrev LoggedIn := UUID → Option Bool

/-- What a message is meant to do to the sessions. -/
def LoggedIn.receive (config : Config) (sessions : LoggedIn) (msg : Message) : LoggedIn :=
  if msg.session = UUID.nil then sessions
  else Function.update sessions msg.session (flagAfter config msg (sessions msg.session))

/-- The flags in the sessions table. -/
def flags (table : Sessions) : LoggedIn := fun id => (table.lookup id).map Session.ping

/-! ## The handlers -/

/-- How an operation moves the sessions when the database works. -/
def SessionMoves : (op : Op) → Sessions → op.Reply → Sessions → Prop
  | .firstSession id, table, reply, after => reply = table.first id ∧ after = table
  | .saveSession session, table, _, after => after = table.save session
  | .createSession session, table, _, after => table.create session = some after ∨
      table.create session = none ∧ after = table
  | .deleteSession id, table, _, after => after = table.delete id
  | _, table, _, after => after = table

theorem sessionMoves_conform {step : Step} (works : step.Works) (op : Op) (i : ℕ) (w : World) :
    SessionMoves op w.sessions (w.handle step.call (step.choices i) op).1
      (w.handle step.call (step.choices i) op).2.sessions := by
  have works := works i
  cases op with
  | createSession session =>
    simp only [SessionMoves, World.handle, World.act, works]
    cases created : w.sessions.create session with
    | none => exact .inr ⟨rfl, rfl⟩
    | some sessions => exact .inl rfl
  | createNode row =>
    simp only [SessionMoves, World.handle, World.act, works]
    cases created : w.nodes.create row <;> rfl
  | _ => simp [SessionMoves, World.handle, World.act, works]

/-- The row of the sender has the flag that is meant. -/
def Handled (config : Config) (msg : Message) (table after : Sessions) : Prop :=
  flags after msg.session = flagAfter config msg (flags table msg.session)

section Handlers

variable {config : Config} {msg : Message} {table : Sessions}

/-- Programs that make no statement about sessions leave the table alone. -/
theorem unconcerned {α : Type} {program : Prog α} (only : Only (fun op => op.onSessions = false) program)
    (table : Sessions) : program.Along (S := operations) SessionMoves (fun _ after => after = table) table := by
  refine (Along.of_satisfies only (· = table) (fun op current reply after asks same moved => ⟨trivial, ?_⟩) rfl).mono
    fun _ _ ended => ended.2
  cases op <;> first | exact Eq.trans moved same | contradiction

/-- The table after a session was looked up, and its row touched if there is one. -/
def Touched (id : UUID) (table : Sessions) (found : Option Session) (after : Sessions) : Prop :=
  match table.lookup id with
  | none => found = none ∧ after = table
  | some session => ∃ time, found = some { session with lastseen := time } ∧
      after = table.save { session with lastseen := time }

theorem save_handled {session : Session} (own : session.sessionID = msg.session)
    (meant : flagAfter config msg (flags table msg.session) = some session.ping) :
    Handled config msg table (table.save session) := by
  rw [Handled, meant, flags, Table.lookup_save, if_pos own, Option.map_some]

theorem touched_handled {found : Option Session} {after : Sessions} (touched : Touched msg.session table found after)
    (stays : ∀ before, flagAfter config msg before = before) : Handled config msg table after := by
  unfold Touched at touched
  split at touched
  · obtain ⟨_, rfl⟩ := touched
    exact (stays _).symm
  · next session there =>
    obtain ⟨time, _, rfl⟩ := touched
    exact save_handled (show session.sessionID = msg.session from Table.lookup_key there)
      (by rw [stays, flags, there, Option.map_some])

theorem isLoggedIn_along (named : msg.session ≠ UUID.nil) :
    (isLoggedIn msg).Along (S := operations) SessionMoves (Touched msg.session table) table := by
  rw [isLoggedIn, if_neg named]
  rintro _ after ⟨rfl, same⟩
  rw [same, Table.first_eq_lookup named]
  cases there : table.lookup msg.session with
  | none =>
    change Touched msg.session table none table
    rw [Touched, there]
    exact ⟨rfl, rfl⟩
  | some session =>
    intro time middle still saved after moved
    change Touched msg.session table (some _) after
    rw [show after = middle.save _ from moved, show middle = table from still, Touched, there]
    exact ⟨_, rfl, rfl⟩

/-- A handler that only needs to know who is logged in. -/
theorem asking_handled {rest : Option Session → Prog Unit} (named : msg.session ≠ UUID.nil)
    (stays : ∀ before, flagAfter config msg before = before)
    (unconcern : ∀ found, Only (fun op => op.onSessions = false) (rest found)) :
    (isLoggedIn msg >>= rest).Along (S := operations) SessionMoves (fun _ => Handled config msg table) table := by
  refine along_bind.mpr ((isLoggedIn_along named).mono fun found after touched => ?_)
  refine (unconcerned (unconcern found) after).mono fun _ last same => ?_
  rw [same]
  exact touched_handled touched stays

/-- A message of a session without a row that leaves the table alone. -/
private theorem absent_handled (absent : table.lookup msg.session = none) (stays : flagAfter config msg none = none) :
    Handled config msg table table := by
  rw [Handled, flags, absent, Option.map_none, stays]

theorem settingsHandler_handled (decodes : DecodesPing config) (named : msg.session ≠ UUID.nil)
    (subject : msg.subject = MessageType.settings) :
    (settingsHandler config msg).Along (S := operations) SessionMoves (fun _ => Handled config msg table) table := by
  refine along_bind.mpr ((isLoggedIn_along named).mono fun found after touched => ?_)
  unfold Touched at touched
  split at touched
  · next absent =>
    obtain ⟨rfl, rfl⟩ := touched
    refine (unconcerned (answer_unconcerned _) after).mono fun _ last same => ?_
    rw [same]
    exact absent_handled absent (by rw [flagAfter_settings config none subject])
  · next session there =>
    obtain ⟨time, rfl, rfl⟩ := touched
    have own : session.sessionID = msg.session := Table.lookup_key there
    dsimp only
    split
    · next setting decoded =>
      intro _ after saved _ last same
      change Handled config msg table last
      rw [show last = after from same, show after = _ from saved]
      rw [Handled, flags, Table.lookup_save, if_pos own, flagAfter_settings config _ subject, flags, there, decoded]
      exact congrArg some (decodes _ setting decoded)
    · next undecoded =>
      refine (unconcerned (answer_unconcerned _) _).mono fun _ last same => ?_
      rw [same]
      exact save_handled own (by rw [flagAfter_settings config _ subject, flags, there, undecoded]; rfl)

theorem loginHandler_handled (named : msg.session ≠ UUID.nil) (subject : msg.subject = MessageType.login) :
    (loginHandler config msg).Along (S := operations) SessionMoves (fun _ => Handled config msg table) table := by
  rw [loginHandler_eq config named]
  rintro _ after ⟨rfl, same⟩
  rw [same, Table.first_eq_lookup named]
  cases there : table.lookup msg.session with
  | some session =>
    intro _ answered still time middle same _ after saved
    change Handled config msg table after
    rw [show after = _ from saved, show middle = answered from same, show answered = table from still]
    exact save_handled (show session.sessionID = msg.session from Table.lookup_key there)
      (by rw [flagAfter_login config _ subject, flags, there]; rfl)
  | none =>
    change Along (S := operations) SessionMoves _ (loginUnknown config msg) table
    by_cases right : msg.body = .string config.secret
    · rw [loginUnknown_accepts right]
      intro time middle still reply after created
      rw [show middle = table from still] at created
      have new : Handled config msg table after := by
        rcases created with created | ⟨taken, _⟩
        · rw [Handled, flags, (Table.create_eq_some created).2, if_pos rfl, flagAfter_login config _ subject, flags,
            there, right]
          exact (if_pos rfl).symm
        · exact absurd there (Table.create_eq_none.mp taken)
      have answers (body : Body) : (perform (.answer msg.subject body)).Along (S := operations) SessionMoves
          (fun _ => Handled config msg table) after :=
        (unconcerned (answer_unconcerned _) after).mono fun _ last same => by rwa [same]
      cases reply <;> exact answers _
    · rw [loginUnknown_refuses right]
      refine (unconcerned (answer_unconcerned _) table).mono fun _ last same => ?_
      rw [same]
      refine absent_handled there ?_
      rw [flagAfter_login config _ subject]
      cases sent : msg.body with
      | string secret => exact if_neg fun (same : secret = config.secret) => right (same ▸ sent)
      | _ => rfl

theorem logoutHandler_handled (named : msg.session ≠ UUID.nil) (subject : msg.subject = MessageType.logout) :
    (logoutHandler msg).Along (S := operations) SessionMoves (fun _ => Handled config msg table) table := by
  rw [logoutHandler, if_neg named]
  rintro _ after ⟨rfl, same⟩
  rw [same, Table.first_eq_lookup named]
  cases there : table.lookup msg.session with
  | none =>
    refine (unconcerned (answer_unconcerned _) table).mono fun _ last same => ?_
    rw [same]
    exact absent_handled there (flagAfter_logout config none subject)
  | some session =>
    have own : session.sessionID = msg.session := Table.lookup_key there
    intro _ after deleted _ last same
    change Handled config msg table last
    rw [show last = after from same, show after = _ from deleted, own]
    rw [Handled, flags, Table.lookup_delete, if_pos (.inr rfl), flagAfter_logout config _ subject, Option.map_none]

/-- A message with a session id. -/
theorem handleMessage_handled (decodes : DecodesPing config) (named : msg.session ≠ UUID.nil) :
    (handleMessage config msg).Along (S := operations) SessionMoves (fun _ => Handled config msg table) table := by
  have stays (other : msg.subject ≠ MessageType.login ∧ msg.subject ≠ MessageType.settings ∧
      msg.subject ≠ MessageType.logout) (before : Option Bool) : flagAfter config msg before = before :=
    flagAfter_other config before other.1 other.2.1 other.2.2
  have leaves {program : Prog Unit} (only : Only (fun op => op.onSessions = false) program)
      (stays : ∀ before, flagAfter config msg before = before) :
      program.Along (S := operations) SessionMoves (fun _ => Handled config msg table) table :=
    (unconcerned only table).mono fun _ last same => same ▸ (stays _).symm
  unfold handleMessage
  split_ifs with connect login authStatus settings logout node
  · exact leaves (plain_unconcerned (connectHandler_plain config)) (stays (by rw [connect]; decide))
  · exact loginHandler_handled named login
  · refine asking_handled named (stays (by rw [authStatus]; decide)) fun found => ?_
    cases found <;> exact answer_unconcerned _
  · exact settingsHandler_handled decodes named settings
  · exact logoutHandler_handled named logout
  · exact asking_handled named (stays (by rw [node]; decide)) edited_unconcerned
  · exact leaves (only_done ()) (stays ⟨login, settings, logout⟩)

end Handlers

/-! ## Runs of messages -/

/-- The messages of a run, each with the choices of its operations. -/
def messageSteps (history : List (Message × (ℕ → Choice))) : List Step :=
  history.map fun (msg, choices) => { call := .message msg, choices }

section Runs

variable {config : Config}

/-- One message changes the sessions as it is meant to. -/
theorem serve_handled (decodes : DecodesPing config) {step : Step} {msg : Message} (message : step.call = .message msg)
    (works : step.Works) (w : World) :
    flags (serve config step w).1.sessions = (flags w.sessions).receive config msg := by
  rw [LoggedIn.receive]
  split
  · next unnamed =>
    funext id
    rw [flags, serve_others config message w (or_iff_not_imp_left.mpr fun same => (not_not.mp same).trans unnamed),
      flags]
  · next named =>
    have handled := message_along config step message World.sessions SessionMoves (sessionMoves_conform works) (w := w)
      (handleMessage_handled decodes named)
    funext id
    by_cases same : id = msg.session
    · rw [same, handled, Function.update_self]
    · rw [Function.update_of_ne same, flags, serve_others config message w (.inl same), flags]

/-- The sessions after a run of messages. -/
theorem serveAll_handled (decodes : DecodesPing config) (history : List (Message × (ℕ → Choice)))
    (works : ∀ step ∈ messageSteps history, step.Works) (w : World) :
    flags (serveAll config (messageSteps history) w).sessions =
      (history.map Prod.fst).foldl (LoggedIn.receive config) (flags w.sessions) := by
  induction history generalizing w with
  | nil => rfl
  | cons first rest ih =>
    obtain ⟨works, restWorks⟩ := List.forall_mem_cons.mp works
    rw [List.map_cons, List.foldl_cons, ← serve_handled decodes rfl works w, ← ih restWorks]
    exact congrArg (flags ∘ World.sessions) (serveAll_cons config _ _ (serve_message config _ rfl w))

end Runs

/-! ## Pings -/

/-- The session that is sent the result of a ping. -/
def Event.pinged (e : Event) : Option UUID :=
  match e.op with
  | .sendSession id => some id
  | _ => none

/-- How an operation moves the sessions that have been sent a ping. -/
def PingMoves : (op : Op) → Sessions × List UUID → op.Reply → Sessions × List UUID → Prop
  | .findSessions, view, reply, after => reply = view.1.rows ∧ after = view
  | .sendSession id, view, _, after => after = (view.1, id :: view.2)
  | _, _, _, _ => True

theorem sendPing_along (table : Sessions) (sent : List UUID) :
    sendPing.Along (S := operations) PingMoves
      (fun _ after => after.2 = ((table.rows.filter Session.ping).map Session.sessionID).reverse ++ sent)
      (table, sent) := by
  rintro rows _ ⟨rfl, rfl⟩
  change Along (S := operations) PingMoves _ (table.rows.forM fun session => do
    if session.ping then perform (.sendSession session.sessionID)) (table, sent)
  generalize table.rows = rows
  induction rows generalizing sent with
  | nil => rfl
  | cons session rest ih =>
    change Along (S := operations) PingMoves _ ((if session.ping then perform (.sendSession session.sessionID)
      else pure ()) >>= fun _ => rest.forM _) _
    cases wants : session.ping with
    | false =>
      rw [List.filter_cons_of_neg (by rw [wants]; exact Bool.false_ne_true)]
      exact ih sent
    | true =>
      rw [List.filter_cons_of_pos wants, List.map_cons, List.reverse_cons, List.append_assoc]
      rintro _ _ rfl
      exact ih (session.sessionID :: sent)

/-- The sessions that are sent a ping are those with the flag, once each. -/
theorem serve_pinged (config : Config) {step : Step} (ping : step.call = .ping) (works : step.Works) (w : World) :
    ((serve config step w).1.since w).filterMap Event.pinged =
      ((w.sessions.rows.filter Session.ping).map Session.sessionID).reverse := by
  have grows : Only (fun _ => True) (step.call.program config) := by
    rw [ping]
    exact Only.bind (sendPing_only.weaken fun _ _ => trivial) fun _ => only_done _
  obtain ⟨events, grown, _⟩ := serve_grows config step grows (fun _ _ _ => trivial) w
  have along : (step.call.program config).Along (S := operations) PingMoves (fun _ after => after.2 =
      ((w.sessions.rows.filter Session.ping).map Session.sessionID).reverse ++ w.log.filterMap Event.pinged)
      (w.sessions, w.log.filterMap Event.pinged) := by
    rw [ping]
    exact along_bind.mpr ((sendPing_along _ _).mono fun _ _ ended => ended)
  obtain ⟨_, sent, _⟩ := serve_along config step (fun w => (w.sessions, w.log.filterMap Event.pinged)) PingMoves
    (fun op i w => by
      have works := works i
      cases op <;> simp [PingMoves, World.handle, World.act, works, Event.pinged, List.filterMap_cons]) along
  rw [grown, List.filterMap_append] at sent
  rw [World.since_eq grown]
  exact List.append_cancel_right sent

theorem flags_eq_true {table : Sessions} {id : UUID} :
    flags table id = some true ↔ id ∈ (table.rows.filter Session.ping).map Session.sessionID := by
  rw [flags, Option.map_eq_some_iff, List.mem_map]
  refine exists_congr fun session => ?_
  rw [Table.lookup_eq_some, List.mem_filter, and_assoc, and_assoc, and_comm (a := session.ping = true)]

/-- After every run of messages, the sessions table is the map of logged-in sessions. The next message touches no
other session and nothing at all without an id, and a ping goes to the sessions with the flag. -/
theorem sessions_refine (config : Config) (decodes : DecodesPing config) (history : List (Message × (ℕ → Choice)))
    (works : ∀ step ∈ messageSteps history, step.Works) (w : World) :
    let after := serveAll config (messageSteps history) w
    let sessions := (history.map Prod.fst).foldl (LoggedIn.receive config) (flags w.sessions)
    flags after.sessions = sessions ∧
      (∀ (step : Step) (msg : Message), step.call = .message msg → step.Works →
        (∀ id, id ≠ msg.session ∨ id = UUID.nil →
          (serve config step after).1.sessions.lookup id = after.sessions.lookup id) ∧
        (msg.session = UUID.nil → ∀ e ∈ (serve config step after).1.since after, e.op.onSessions = false)) ∧
      ∀ step : Step, step.call = .ping → step.Works →
        ∀ id, (∃ e ∈ (serve config step after).1.since after, e.op = .sendSession id) ↔ sessions id = some true := by
  intro after sessions
  have same : flags after.sessions = sessions := serveAll_handled decodes history works w
  refine ⟨same, fun step msg message works => ?_, fun step ping works id => ?_⟩
  · exact ⟨fun _ => serve_others config message after, fun unnamed => serve_nil config message unnamed after⟩
  · rw [← same, flags_eq_true, ← List.mem_reverse, ← serve_pinged config ping works after, List.mem_filterMap]
    refine exists_congr fun e => and_congr_right fun _ => ?_
    unfold Event.pinged
    constructor
    · intro sends
      rw [sends]
    · intro pinged
      split at pinged
      · next sends => rw [sends, Option.some.inj pinged]
      · contradiction

theorem Sample.decodesPing : DecodesPing Sample.config := by
  intro body setting decoded
  cases body with
  | null => cases decoded; rfl
  | object fields =>
    unfold Json.ping
    dsimp only [Sample.config] at decoded
    split at decoded <;> first | contradiction | (next found => cases decoded; rw [found])
  | _ => contradiction

/-- A client logs in and asks for pings, and another one without a session id tries to log out. -/
def newSession : List Message :=
  [{ session := 2, subject := MessageType.login, body := .string "swordfish" },
    { session := 2, subject := MessageType.settings, body := .object [("ping", .bool true)] },
    { session := UUID.nil, subject := MessageType.logout }]

theorem sessions_refine_newSession : flags (serveAll Sample.config
    (messageSteps (newSession.map (·, fun _ => {}))) (Sample.world [])).sessions 2 = some true := by
  have works : ∀ step ∈ messageSteps (newSession.map (·, fun _ => {})), step.Works := by
    intro step member
    obtain ⟨entry, sent, rfl⟩ := List.mem_map.mp member
    obtain ⟨msg, _, rfl⟩ := List.mem_map.mp sent
    exact fun _ => rfl
  exact (congrFun (sessions_refine Sample.config Sample.decodesPing _ works _).1 2).trans (by decide +kernel)

end FreifunkManager
