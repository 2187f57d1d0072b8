import FreifunkManager.Model.Login
import FreifunkManager.Proofs.Replies
import FreifunkManager.Proofs.Sessions
import FreifunkManager.Store.Copies

/-! # A page knows its session

To a page, its session is the flag of the pings, or nothing if it is not logged in. The flag in the sessions table is
the original of this, the page has a copy, and the answers are the updates. `page_agrees` is about every run with any
number of connections; the requests of other sessions, reports and pings go on at the same time.
-/

namespace FreifunkManager.Login

open Effects Program Store Copies

namespace Page

/-- What a page takes its session to be. -/
def flag (page : Page) : Option Bool := if page.isLogin then some (page.settings.getD false) else none

/-- Take the next answer. -/
def take (page : Page) (answer : Request × Body) : Page := page.answered answer.1 answer.2

end Page

/-- What an answer makes of the flag. -/
def told (request : Request) (body : Body) (before : Option Bool) : Option Bool :=
  match request with
  | .login _ => if truthy body then some (ping body) else before
  | .logout => if truthy body then none else before
  | .settings copySettings => if truthy body then before.map fun _ => copySettings else before
  | .authStatus => if truthy body then some (ping body) else none
  | .connect | .node _ => before

theorem answered_flag (page : Page) (request : Request) (body : Body) :
    (page.answered request body).flag = told request body page.flag := by
  cases request with
  | connect | node => rfl
  | login | logout | authStatus =>
    simp only [Page.answered, told]
    split <;> rfl
  | settings copySettings =>
    simp only [Page.answered, told]
    cases truthy body <;> cases logged : page.isLogin <;> simp [Page.flag, logged]

/-- A page that takes itself to be logged out stays so, or is told how it is whatever it was. -/
theorem told_none (request : Request) (body : Body) : told request body none = none ∨
    ∀ before, told request body before = told request body none := by
  cases request with
  | login =>
    simp only [told]
    cases truthy body with
    | false => exact .inl rfl
    | true => exact .inr fun _ => rfl
  | logout => exact .inl (ite_self _)
  | settings => exact .inl (ite_self _)
  | authStatus => exact .inr fun _ => rfl
  | connect | node => exact .inl rfl

/-! ## What is answered -/

/-- How an operation moves the answers, newest first, by the sessions when the database works. -/
def ReplyMoves : (op : Op) → Sessions × List Body → op.Reply → Sessions × List Body → Prop
  | .firstSession id, view, reply, after => reply = view.1.first id ∧ after = view
  | .createSession session, view, reply, after => reply = (view.1.create session).isSome ∧ after.2 = view.2
  | .saveSession _, view, reply, after => reply = true ∧ after.2 = view.2
  | .deleteSession _, view, reply, after => reply = true ∧ after.2 = view.2
  | .answer _ body, view, _, after => after.2 = body :: view.2
  | _, view, _, after => after = view

theorem replies_eq (before after : World) :
    replies before after = ((after.since before).filterMap FreifunkManager.Event.reply?).reverse := by
  refine congrArg List.reverse (congrArg (List.filterMap · _) (funext fun e => ?_))
  obtain ⟨_, op, _, _⟩ := e
  cases op <;> rfl

theorem replyMoves_conform {step : Step} (works : step.Works) (op : Op) (i : ℕ) (w : World) :
    ReplyMoves op (w.sessions, w.log.filterMap FreifunkManager.Event.reply?) (w.handle step.call (step.choices i) op).1
      ((w.handle step.call (step.choices i) op).2.sessions,
        (w.handle step.call (step.choices i) op).2.log.filterMap FreifunkManager.Event.reply?) := by
  have works := works i
  cases op with
  | createSession session =>
    simp only [ReplyMoves, World.handle, World.act, works]
    cases w.sessions.create session <;> exact ⟨rfl, rfl⟩
  | createNode row =>
    simp only [ReplyMoves, World.handle, World.act, works]
    cases w.nodes.create row <;> rfl
  | _ => simp [ReplyMoves, World.handle, World.act, works, List.filterMap_cons, FreifunkManager.Event.reply?]

/-- The only answer to a message is right about the flag before and after it. -/
def Informs (config : Config) (request : Request) (msg : Message) (table : Sessions) (past bodies : List Body) : Prop :=
  ∃ body, bodies = body :: past ∧
    told request body (flags table msg.session) = flagAfter config msg (flags table msg.session)

section Handlers

variable {config : Config} {msg : Message} {table : Sessions} {past : List Body} {request : Request}

/-- The last answer of a handler. -/
theorem answer_informs {subject : String} {body : Body} {view : Sessions × List Body} (same : view.2 = past)
    (right : told request body (flags table msg.session) = flagAfter config msg (flags table msg.session)) :
    (perform (.answer subject body)).Along (S := operations) ReplyMoves
      (fun _ after => Informs config request msg table past after.2) view := by
  intro _ after answered
  exact ⟨body, same ▸ answered, right⟩

theorem isLoggedIn_replies (named : msg.session ≠ UUID.nil) :
    (isLoggedIn msg).Along (S := operations) ReplyMoves
      (fun found after => found.map Session.ping = flags table msg.session ∧ after.2 = past) (table, past) := by
  rw [isLoggedIn, if_neg named]
  rintro _ _ ⟨rfl, rfl⟩
  rw [Table.first_eq_lookup named]
  cases there : table.lookup msg.session with
  | none => exact ⟨by rw [flags, there, Option.map_none], rfl⟩
  | some session =>
    rintro time _ rfl saved after ⟨rfl, same⟩
    exact ⟨by rw [flags, there, Option.map_some]; rfl, same⟩

theorem authStatus_informs (named : msg.session ≠ UUID.nil) (subject : msg.subject = MessageType.authStatus) :
    (authStatusHandler msg).Along (S := operations) ReplyMoves
      (fun _ after => Informs config .authStatus msg table past after.2) (table, past) := by
  have stays : flagAfter config msg (flags table msg.session) = flags table msg.session :=
    flagAfter_other config _ (by rw [subject]; decide) (by rw [subject]; decide) (by rw [subject]; decide)
  refine along_bind.mpr ((isLoggedIn_replies named).mono fun found view known => ?_)
  obtain ⟨flag, same⟩ := known
  cases found with
  | none =>
    refine answer_informs same ?_
    rw [stays, ← flag]
    rfl
  | some session =>
    refine answer_informs same ?_
    rw [stays, ← flag]
    rfl

theorem settings_informs {copySettings : Bool} (named : msg.session ≠ UUID.nil)
    (subject : msg.subject = MessageType.settings) (body : msg.body = (Request.settings copySettings).body) :
    (settingsHandler config msg).Along (S := operations) ReplyMoves
      (fun _ after => Informs config (.settings copySettings) msg table past after.2) (table, past) := by
  have meant := flagAfter_settings config (flags table msg.session) subject
  have chosen : msg.body.ping = copySettings := by
    rw [body]
    rfl
  refine along_bind.mpr ((isLoggedIn_replies named).mono fun found view known => ?_)
  obtain ⟨flag, same⟩ := known
  rw [← flag] at meant
  cases found with
  | none => exact answer_informs same (by rw [← flag, meant]; rfl)
  | some session =>
    dsimp only
    split
    · next setting decoded =>
      rintro _ after ⟨rfl, still⟩
      refine answer_informs (still.trans same) ?_
      rw [← flag, meant, decoded, Option.map_some]
      exact congrArg some chosen.symm
    · next undecoded =>
      refine answer_informs same ?_
      rw [← flag, meant, undecoded]
      rfl

theorem logout_informs (named : msg.session ≠ UUID.nil) (subject : msg.subject = MessageType.logout) :
    (logoutHandler msg).Along (S := operations) ReplyMoves
      (fun _ after => Informs config .logout msg table past after.2) (table, past) := by
  have meant := flagAfter_logout config (flags table msg.session) subject
  rw [logoutHandler, if_neg named]
  rintro _ _ ⟨rfl, rfl⟩
  rw [Table.first_eq_lookup named]
  cases there : table.lookup msg.session with
  | none =>
    refine answer_informs rfl ?_
    rw [meant, flags, there]
    rfl
  | some session =>
    rintro _ after ⟨rfl, same⟩
    exact answer_informs same meant.symm

theorem login_informs (named : msg.session ≠ UUID.nil) (subject : msg.subject = MessageType.login)
    (secret : Option String) :
    (loginHandler config msg).Along (S := operations) ReplyMoves
      (fun _ after => Informs config (.login secret) msg table past after.2) (table, past) := by
  have meant := flagAfter_login config (flags table msg.session) subject
  rw [loginHandler_eq config named]
  rintro _ _ ⟨rfl, rfl⟩
  rw [Table.first_eq_lookup named]
  cases there : table.lookup msg.session with
  | some session =>
    have flag : flags table msg.session = some session.ping := by rw [flags, there, Option.map_some]
    rw [flag] at meant
    rintro _ answered new time _ rfl _ after ⟨rfl, same⟩
    exact ⟨.session session, same.trans new, by rw [flag, meant]; rfl⟩
  | none =>
    have flag : flags table msg.session = none := by rw [flags, there, Option.map_none]
    rw [flag] at meant
    change Along (S := operations) ReplyMoves _ (loginUnknown config msg) (table, past)
    by_cases right : msg.body = .string config.secret
    · rw [loginUnknown_accepts right]
      rw [right] at meant
      rintro time _ rfl _ after ⟨rfl, same⟩
      cases created : table.create { sessionID := msg.session, lastseen := some time } with
      | none => exact absurd there (Table.create_eq_none.mp created)
      | some _ =>
        refine answer_informs same ?_
        rw [flag, meant]
        exact (if_pos rfl).symm
    · rw [loginUnknown_refuses right]
      refine answer_informs rfl ?_
      rw [flag, meant]
      cases sent : msg.body with
      | string text => exact (if_neg fun same => right (sent.trans (congrArg Json.string same))).symm
      | _ => rfl

end Handlers

/-! ## What a request does to the page -/

/-- The page has the flag of the session, or takes itself to be logged out. -/
def Safe (server : Option Bool) (page : Page) : Prop := page.flag = none ∨ page.flag = server

def Right (server : Option Bool) (page : Page) : Prop := page.flag = server

theorem foldl_take_flag (answers : List (Request × Body)) (page : Page) :
    (answers.foldl Page.take page).flag = answers.foldl (fun flag answer => told answer.1 answer.2 flag) page.flag := by
  induction answers generalizing page with
  | nil => rfl
  | cons answer rest ih => rw [List.foldl_cons, ih, List.foldl_cons, Page.take, answered_flag]

/-- Answers that leave the flag alone or take it away. -/
theorem foldl_told {request : Request} {bodies : List Body} (mild : ∀ body ∈ bodies, ∀ before,
    told request body before = none ∨ told request body before = before) (flag : Option Bool) :
    (bodies.map (request, ·)).foldl (fun flag answer => told answer.1 answer.2 flag) flag = none ∨
      (bodies.map (request, ·)).foldl (fun flag answer => told answer.1 answer.2 flag) flag = flag := by
  induction bodies generalizing flag with
  | nil => exact .inr rfl
  | cons body rest ih =>
    obtain ⟨first, mild⟩ := List.forall_mem_cons.mp mild
    rcases first flag with lost | same
    · have later := ih mild none
      rw [or_self] at later
      exact .inl (by rw [List.map_cons, List.foldl_cons, lost, later])
    · rw [List.map_cons, List.foldl_cons, same]
      exact ih mild flag

namespace Request

/-- The requests whose answers change the flag. -/
def asks : Request → Bool
  | .login _ | .logout | .settings _ | .authStatus => true
  | .connect | .node _ => false

theorem told_of_not_asks {request : Request} (aside : request.asks = false) (body : Body) (before : Option Bool) :
    told request body before = before := by
  cases request <;> first | rfl | contradiction

theorem subject_of_not_asks {request : Request} (aside : request.asks = false) :
    request.subject ≠ MessageType.login ∧ request.subject ≠ MessageType.settings ∧
      request.subject ≠ MessageType.logout := by
  cases request with
  | connect =>
    change MessageType.connect ≠ _ ∧ MessageType.connect ≠ _ ∧ MessageType.connect ≠ _
    decide
  | node =>
    change MessageType.node ≠ _ ∧ MessageType.node ≠ _ ∧ MessageType.node ≠ _
    decide
  | _ => contradiction

/-- A refusal. -/
theorem told_refused (request : Request) (before : Option Bool) :
    told request (.bool false) before = none ∨ told request (.bool false) before = before := by
  cases request with
  | authStatus => exact .inl rfl
  | _ => exact .inr rfl

end Request

section Serve

variable {config : Config} {session : UUID} {request : Request} {step : Step}

/-- A request of a session is answered once, and rightly. -/
theorem serve_informs (decodes : DecodesPing config) (named : session ≠ UUID.nil) (asks : request.asks = true)
    (call : step.call = .message (request.message session)) (works : step.Works) (w : World) :
    ∃ body, replies w (serve config step w).1 = [body] ∧
      told request body (flags w.sessions session) = flags (serve config step w).1.sessions session := by
  have handled : flags (serve config step w).1.sessions session =
      flagAfter config (request.message session) (flags w.sessions session) := by
    rw [serve_handled decodes call works, LoggedIn.receive,
      if_neg (show (request.message session).session ≠ _ from named)]
    exact Function.update_self ..
  have along : (handleMessage config (request.message session)).Along (S := operations) ReplyMoves
      (fun _ after => Informs config request (request.message session) w.sessions [] after.2) (w.sessions, []) := by
    unfold handleMessage
    cases request with
    | login secret => exact login_informs named rfl secret
    | logout => exact logout_informs named rfl
    | settings copySettings => exact settings_informs named rfl rfl
    | authStatus => exact authStatus_informs named rfl
    | connect | node => contradiction
  have alone := message_along config step call
      (fun w => (w.sessions, w.log.filterMap FreifunkManager.Event.reply?)) ReplyMoves
    (replyMoves_conform works) (w := w.withLog []) along
  obtain ⟨body, one, right⟩ := alone
  refine ⟨body, ?_, right.trans handled.symm⟩
  rw [replies_eq, serve_since]
  exact congrArg List.reverse one

/-- What is not asked for does not change the flag. -/
theorem serve_aside (decodes : DecodesPing config) {msg : Message} (call : step.call = .message msg)
    (works : step.Works)
    (aside : msg.session = session → msg.subject ≠ MessageType.login ∧ msg.subject ≠ MessageType.settings ∧
      msg.subject ≠ MessageType.logout) (w : World) :
    flags (serve config step w).1.sessions session = flags w.sessions session := by
  rw [serve_handled decodes call works, LoggedIn.receive]
  split
  · rfl
  · by_cases own : session = msg.session
    · obtain ⟨login, settings, logout⟩ := aside own.symm
      rw [← own, Function.update_self, flagAfter_other config _ login settings logout]
    · exact Function.update_of_ne own ..

/-- A request that comes before the session of the connection is known is refused, if it is answered at all. -/
theorem unknown_refused (asks : request.asks = true)
    (call : step.call = .message (request.message UUID.nil)) (w : World) :
    ∀ body ∈ replies w (serve config step w).1, body = .bool false := by
  rw [replies_eq, serve_since]
  have fine : ∀ e ∈ (serve config step (w.withLog [])).1.log, ∀ body, e.reply? = some body → body = .bool false := by
    refine message_moves config step call
      (fun after => ∀ e ∈ after.log, ∀ body, e.reply? = some body → body = .bool false) ?_
    have refuses (subject : String) : (perform (.answer subject (.bool false))).Along (S := operations) step.Moves
        (fun _ after => ∀ e ∈ after.log, ∀ body, e.reply? = some body → body = .bool false) (w.withLog []) := by
      rintro _ _ ⟨i, rfl, rfl⟩
      refine List.forall_mem_cons.mpr ⟨?_, List.forall_mem_nil _⟩
      rintro _ ⟨⟩
      rfl
    cases request with
    | login secret => exact List.forall_mem_nil _
    | logout => exact List.forall_mem_nil _
    | settings copySettings => exact refuses _
    | authStatus => exact refuses _
    | connect | node => contradiction
  intro body member
  obtain ⟨e, present, answered⟩ := List.mem_filterMap.mp (List.mem_reverse.mp member)
  exact fine e present body answered

end Serve

section Conveys

variable {config : Config} {session : UUID} {request : Request} {step : Step} {w : World}

/-- The answers to a request and what it does to the session go together. -/
theorem handled_right (decodes : DecodesPing config) (named : session ≠ UUID.nil)
    (call : step.call = .message (request.message session)) (works : step.Works) :
    Conveys Page.take ((replies w (serve config step w).1).map (request, ·)) (Right (flags w.sessions session))
      (Right (flags (serve config step w).1.sessions session)) := by
  intro page right
  rw [Right, foldl_take_flag, show page.flag = _ from right]
  cases asks : request.asks with
  | true =>
    obtain ⟨body, one, told⟩ := serve_informs decodes named asks call works w
    rw [one]
    exact told
  | false =>
    have same : flags (serve config step w).1.sessions session = flags w.sessions session :=
      serve_aside decodes call works (fun _ => Request.subject_of_not_asks asks) w
    rw [same]
    induction replies w (serve config step w).1 with
    | nil => rfl
    | cons body rest ih =>
      rw [List.map_cons, List.foldl_cons, Request.told_of_not_asks asks]
      exact ih

theorem handled_safe (decodes : DecodesPing config) (named : session ≠ UUID.nil)
    (call : step.call = .message (request.message session)) (works : step.Works) :
    Conveys Page.take ((replies w (serve config step w).1).map (request, ·)) (Safe (flags w.sessions session))
      (Safe (flags (serve config step w).1.sessions session)) := by
  rintro page (unaware | right)
  · cases asks : request.asks with
    | true =>
      obtain ⟨body, one, right⟩ := serve_informs decodes named asks call works w
      rw [Safe, foldl_take_flag, one, unaware]
      rcases told_none request body with stays | whatever
      · exact .inl stays
      · exact .inr ((whatever _).symm.trans right)
    | false =>
      left
      rw [foldl_take_flag, unaware]
      have mild : ∀ body ∈ replies w (serve config step w).1, ∀ before, told request body before = none ∨
          told request body before = before := fun body _ before => .inr (Request.told_of_not_asks asks body before)
      exact (or_self _).mp (foldl_told mild none)
  · exact .inr (handled_right decodes named call works page right)

/-- The answer to `authStatus` puts every page right. -/
theorem authStatus_restores (decodes : DecodesPing config) (named : session ≠ UUID.nil)
    (call : step.call = .message (Request.authStatus.message session)) (works : step.Works) :
    Restores Page.take ((replies w (serve config step w).1).map (Request.authStatus, ·))
      (Right (flags (serve config step w).1.sessions session)) := by
  intro page _
  obtain ⟨body, one, right⟩ := serve_informs decodes named rfl call works w
  rw [Right, foldl_take_flag, one]
  exact right

/-- Before the session of the connection is known, a page is at most told that it is logged out. -/
theorem unknown_safe (decodes : DecodesPing config) (named : session ≠ UUID.nil)
    (call : step.call = .message (request.message UUID.nil)) (works : step.Works) :
    Conveys Page.take ((replies w (serve config step w).1).map (request, ·)) (Safe (flags w.sessions session))
      (Safe (flags (serve config step w).1.sessions session)) := by
  intro page safe
  have same : flags (serve config step w).1.sessions session = flags w.sessions session :=
    serve_aside decodes call works (fun own => absurd own.symm named) w
  have mild : ∀ body ∈ replies w (serve config step w).1, ∀ before, told request body before = none ∨
      told request body before = before := by
    intro body member before
    cases asks : request.asks with
    | true =>
      rw [unknown_refused asks call w body member]
      exact Request.told_refused request before
    | false => exact .inr (Request.told_of_not_asks asks body before)
  rw [same, Safe, foldl_take_flag]
  rcases foldl_told mild page.flag with lost | kept
  · exact .inl lost
  · rw [kept]
    exact safe

/-- Before the session of the connection is known, the answer to `authStatus` is that there is no login. -/
theorem unknown_restores (call : step.call = .message (Request.authStatus.message UUID.nil)) (server : Option Bool) :
    Restores Page.take ((replies w (serve config step w).1).map (Request.authStatus, ·)) (Safe server) := by
  have one : (serve config step (w.withLog [])).1.log.filterMap FreifunkManager.Event.reply? = [.bool false] := by
    refine message_moves config step call
      (fun after => after.log.filterMap FreifunkManager.Event.reply? = [.bool false]) ?_
    rintro _ _ ⟨i, rfl, rfl⟩
    rfl
  intro page _
  rw [Safe, foldl_take_flag, replies_eq, serve_since, one]
  exact .inl rfl

end Conveys

/-! ## Runs -/

/-- What goes on besides the page: the database works, and no other page uses the session to log in or out. -/
def Event.Fine (session : UUID) : Event → Prop
  | .handle _ _ choices => ∀ i, (choices i).dbFails = false
  | .other step => step.Works ∧ ∀ msg, step.call = .message msg → msg.session = session →
      msg.subject ≠ MessageType.login ∧ msg.subject ≠ MessageType.settings ∧ msg.subject ≠ MessageType.logout
  | _ => True

/-- The session of the connection is known when a request is handled. -/
def Event.known : Event → Bool
  | .handle _ known _ => known
  | _ => true

/-- On a connection, the page is told about its session or has yet to ask. -/
def Told (right : Option Bool → Page → Prop) (session : UUID) (s : State) : Prop :=
  s.connected = true → .authStatus ∈ s.requests ∨
  CaughtUp Page.take s.page s.answers (right (flags s.world.sessions session))

/-- What a page takes its session to be is all that counts. -/
structure OnFlags (right : Option Bool → Page → Prop) : Prop where
  congr : ∀ server page other, page.flag = other.flag → right server page → right server other

theorem safe_onFlags : OnFlags Safe := ⟨fun _ _ _ same safe => safe.imp same.symm.trans same.symm.trans⟩

theorem right_onFlags : OnFlags Right := ⟨fun _ _ _ same right => same.symm.trans right⟩

section Run

variable {config : Config} {session : UUID} {right : Option Bool → Page → Prop} {s after : State}

theorem told_of_page (onFlags : OnFlags right) {page : Page} (same : s.page.flag = page.flag)
    (told : Told right session s) :
    Told right session { s with page } := by
  intro connected
  refine (told connected).imp_right (CaughtUp.change (fun page other => page.flag = other.flag) ?_ ?_ same)
  · intro answer page other alike
    rw [Page.take, Page.take, answered_flag, answered_flag, alike]
  · exact fun page other alike => onFlags.congr _ page other alike

theorem told_of_ask (request : Request) (told : Told right session s) : Told right session (s.ask request) :=
  fun connected => (told connected).imp_left (List.mem_append_left _)

theorem told_of_world {world : World} (same : flags world.sessions session = flags s.world.sessions session)
    (told : Told right session s) : Told right session { s with world } := by
  intro connected
  rw [same]
  exact told connected

theorem told_of_handle {i : ℕ} {request : Request} {known : Bool} {choices : ℕ → Choice}
    (asked : s.requests[i]? = some request)
    (conveys : Conveys Page.take
      ((replies s.world (s.handle config session i request known choices).world).map (request, ·))
      (right (flags s.world.sessions session))
      (right (flags (s.handle config session i request known choices).world.sessions session)))
    (restores : request = .authStatus → Restores Page.take
      ((replies s.world (s.handle config session i request known choices).world).map (request, ·))
      (right (flags (s.handle config session i request known choices).world.sessions session)))
    (told : Told right session s) : Told right session (s.handle config session i request known choices) := by
  intro connected
  by_cases authStatus : request = .authStatus
  · exact .inr ((restores authStatus).caughtUp s.page s.answers)
  · refine (told connected).imp (fun waits => ?_) fun caughtUp => caughtUp.send conveys
    obtain ⟨j, here⟩ := List.mem_iff_getElem?.mp waits
    have elsewhere : i ≠ j := fun same => authStatus (Option.some.inj (asked.symm.trans (same ▸ here)))
    exact List.mem_eraseIdx_iff_getElem?.mpr ⟨j, elsewhere.symm, here⟩

theorem told_of_close (requests : List Request) :
    Told right session { s with connected := false, requests, answers := [] } := nofun

theorem told_of_open :
    Told right session { (s.ask .authStatus).ask .connect with connected := true } :=
  fun _ => .inl (List.mem_append_left _ (List.mem_append_right _ List.mem_cons_self))

/-- The answers to every request keep the page right, whether the session is known or not. -/
def Answered (config : Config) (session : UUID) (right : Option Bool → Page → Prop) (known : Bool) : Prop :=
  ∀ (request : Request) (step : Step) (w : World),
    step.call = .message (request.message (if known then session else UUID.nil)) → step.Works →
    Conveys Page.take ((replies w (serve config step w).1).map (request, ·)) (right (flags w.sessions session))
      (right (flags (serve config step w).1.sessions session)) ∧
    (request = .authStatus → Restores Page.take ((replies w (serve config step w).1).map (request, ·))
      (right (flags (serve config step w).1.sessions session)))

theorem right_answered (decodes : DecodesPing config) (named : session ≠ UUID.nil) :
    Answered config session Right true := by
  refine fun request step w call works => ⟨handled_right decodes named call works, ?_⟩
  rintro rfl
  exact authStatus_restores decodes named call works

theorem safe_answered (decodes : DecodesPing config) (named : session ≠ UUID.nil) (known : Bool) :
    Answered config session Safe known := by
  intro request step w call works
  cases known with
  | true =>
    refine ⟨handled_safe decodes named call works, ?_⟩
    rintro rfl page _
    exact .inr (authStatus_restores decodes named call works page trivial)
  | false =>
    refine ⟨unknown_safe decodes named call works, ?_⟩
    rintro rfl
    exact unknown_restores call _

theorem told_step (onFlags : OnFlags right) (decodes : DecodesPing config) {event : Event} (fine : event.Fine session)
    (answered : Answered config session right event.known) (told : Told right session s)
    (stepped : s.step config session event = some after) : Told right session after := by
  cases event with
  | loginTyping | login | updateSettings =>
    cases stepped
    exact told_of_page onFlags rfl (by first | exact told_of_ask _ told | exact told)
  | logout | sendnode =>
    cases stepped
    exact told_of_ask _ told
  | render =>
    cases stepped
    refine told_of_page onFlags ?_ told
    unfold Page.render
    split <;> rfl
  | onopen =>
    obtain ⟨_, same⟩ := Option.ite_none_left_eq_some.mp stepped
    cases same
    exact told_of_open
  | onclose stays =>
    cases stepped
    exact told_of_close _
  | handle i known choices =>
    simp only [State.step] at stepped
    split at stepped
    · next request asked =>
      obtain ⟨_, same⟩ := Option.ite_none_right_eq_some.mp stepped
      cases same
      obtain ⟨conveys, restores⟩ := answered request
        { call := .message (request.message (if known then session else UUID.nil)), choices } s.world rfl fine
      exact told_of_handle asked conveys restores told
    · contradiction
  | onmessage =>
    simp only [State.step] at stepped
    split at stepped
    · contradiction
    · next request body rest arrives =>
      cases stepped
      intro connected
      have caughtUp := told connected
      rw [arrives] at caughtUp
      exact caughtUp
  | other step =>
    obtain ⟨works, aside⟩ := fine
    simp only [State.step] at stepped
    split at stepped
    · next served =>
      cases stepped
      have same : flags (serve config step s.world).1.sessions session = flags s.world.sessions session := by
        cases call : step.call with
        | message msg => exact serve_aside decodes call works (aside msg call) s.world
        | _ => rw [serve_sessions config (fun msg message => nomatch call.symm.trans message) s.world]
      rw [served] at same
      exact told_of_world same told
    · contradiction

theorem told_run (onFlags : OnFlags right) (decodes : DecodesPing config) {events : List Event}
    (fine : ∀ event ∈ events, event.Fine session)
    (answered : ∀ event ∈ events, Answered config session right event.known)
    (told : Told right session s) (ran : s.run config session events = some after) : Told right session after := by
  induction events generalizing s with
  | nil =>
    cases ran
    exact told
  | cons event rest ih =>
    obtain ⟨next, stepped, ran⟩ := Option.bind_eq_some_iff.mp ran
    obtain ⟨first, fine⟩ := List.forall_mem_cons.mp fine
    obtain ⟨right, answered⟩ := List.forall_mem_cons.mp answered
    exact ih fine answered (told_step onFlags decodes first right told stepped) ran

/-- A page that takes itself to be logged in has settings. -/
def Page.Furnished (page : Page) : Prop := page.isLogin = true → page.settings.isSome = true

theorem Page.Furnished.answered {page : Page} (furnished : page.Furnished) (request : Request) (body : Body) :
    (page.answered request body).Furnished := by
  cases request with
  | connect | node => exact furnished
  | _ =>
    simp only [Page.answered]
    split <;> simp_all [Page.Furnished]

theorem Page.Furnished.foldl {page : Page} (furnished : page.Furnished) (answers : List (Request × Body)) :
    (answers.foldl Page.take page).Furnished := by
  induction answers generalizing page with
  | nil => exact furnished
  | cons answer rest ih => exact ih (furnished.answered answer.1 answer.2)

theorem Page.Furnished.checked {page : Page} (furnished : page.Furnished) {ping : Bool} (flag : page.flag = some ping) :
    page.render.checked = ping := by
  unfold Page.flag at flag
  split at flag
  · next logged =>
    obtain ⟨settings, there⟩ := Option.isSome_iff_exists.mp (furnished logged)
    rw [there] at flag
    simpa [Page.render, there] using flag
  · contradiction

theorem furnished_step {event : Event} (furnished : s.page.Furnished)
    (stepped : s.step config session event = some after) :
    after.page.Furnished := by
  cases event with
  | loginTyping | login | logout | updateSettings | sendnode | onclose =>
    cases stepped
    exact furnished
  | render =>
    cases stepped
    unfold Page.render
    split <;> exact furnished
  | onopen =>
    obtain ⟨_, same⟩ := Option.ite_none_left_eq_some.mp stepped
    cases same
    exact furnished
  | handle i known choices =>
    simp only [State.step] at stepped
    split at stepped
    · obtain ⟨_, same⟩ := Option.ite_none_right_eq_some.mp stepped
      cases same
      exact furnished
    · contradiction
  | onmessage =>
    simp only [State.step] at stepped
    split at stepped
    · contradiction
    · cases stepped
      exact furnished.answered _ _
  | other step =>
    simp only [State.step] at stepped
    split at stepped
    · cases stepped
      exact furnished
    · contradiction

theorem furnished_run {events : List Event} (furnished : s.page.Furnished)
    (ran : s.run config session events = some after) : after.page.Furnished := by
  induction events generalizing s with
  | nil =>
    cases ran
    exact furnished
  | cons event rest ih =>
    obtain ⟨next, stepped, ran⟩ := Option.bind_eq_some_iff.mp ran
    exact ih (furnished_step furnished stepped) ran

end Run

theorem told_start (right : Option Bool → Page → Prop) (session : UUID) (w : World) :
    Told right session { world := w } := fun connected => absurd connected Bool.false_ne_true

theorem furnished_start (w : World) : (State.page { world := w }).Furnished :=
  fun loggedIn => absurd loggedIn Bool.false_ne_true

/-- Whatever the page asks for and however often the connection is lost: once its question about the session is
answered, a page that takes itself to be logged in is, with the flag that its checkbox shows. It knows of every login
if the session of the connection is known whenever a request is handled. -/
theorem page_agrees (config : Config) (decodes : DecodesPing config) {session : UUID}
    (named : session ≠ UUID.nil) (w : World)
    {events : List Event} (fine : ∀ event ∈ events, event.Fine session) {s : State}
    (ran : State.run config session { world := w } events = some s) (connected : s.connected = true)
    (asked : .authStatus ∉ s.requests) :
    let page := s.answers.foldl Page.take s.page
    (∀ ping, page.flag = some ping → flags s.world.sessions session = some ping ∧ page.render.checked = ping) ∧
      ((∀ event ∈ events, event.known = true) → page.flag = flags s.world.sessions session) := by
  intro page
  have furnished : page.Furnished := (furnished_run (furnished_start w) ran).foldl s.answers
  refine ⟨fun ping flag => ⟨?_, furnished.checked flag⟩, fun known => ?_⟩
  · have told := told_run safe_onFlags decodes fine (fun event _ => safe_answered decodes named event.known)
        (told_start _ session w) ran
    rcases (told connected).resolve_left asked with none | same
    · exact absurd (none.symm.trans flag) nofun
    · exact same.symm.trans flag
  · have told := told_run right_onFlags decodes fine
      (fun event member => known event member ▸ right_answered decodes named) (told_start _ session w) ran
    exact (told connected).resolve_left asked

/-- A page logs in and wants pings, and its connection is lost before it hears that it gets them. -/
def Sample.interrupted : List Event :=
  [.onopen, .handle 0 true fun _ => {}, .onmessage, .loginTyping "swordfish", .login,
    .handle 1 true fun _ => {}, .onmessage,
    .updateSettings true, .handle 1 true fun _ => {}, .onclose fun _ => true, .onopen, .handle 1 true fun _ => {}]

theorem page_agrees_interrupted : ∃ s, State.run Sample.config 1 { world := {} } Sample.interrupted = some s ∧
    (s.answers.foldl Page.take s.page).flag = flags s.world.sessions 1 := by
  have runs : (State.run Sample.config 1 { world := {} } Sample.interrupted).map
      (fun s => (s.connected, s.requests.map Request.subject)) = some (true, ["connect", "connect"]) := by
      decide +kernel
  obtain ⟨s, ran, view⟩ := Option.map_eq_some_iff.mp runs
  obtain ⟨connected, subjects⟩ := Prod.ext_iff.mp view
  have asked : .authStatus ∉ s.requests := by
    intro member
    have listed : "auth_status" ∈ s.requests.map Request.subject := List.mem_map_of_mem member
    rw [show s.requests.map Request.subject = _ from subjects] at listed
    exact absurd listed (by decide)
  have fine : ∀ event ∈ Sample.interrupted, event.Fine 1 := by simp [Sample.interrupted, Event.Fine]
  have known : ∀ event ∈ Sample.interrupted, event.known = true := by simp [Sample.interrupted, Event.known]
  exact ⟨s, ran, (page_agrees Sample.config Sample.decodesPing (by decide) {} fine ran connected asked).2 known⟩

end FreifunkManager.Login
