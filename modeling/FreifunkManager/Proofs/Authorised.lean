import FreifunkManager.Effects.Knowledge
import FreifunkManager.Proofs.Programs
import FreifunkManager.Proofs.Worlds

/-! # Who may act

Nothing happens for a session that has not logged in with the secret: no row is written for one of its messages, no
answer says anything but no, and no result of a ping is sent to it. This holds however many messages are handled at once
and whichever statements fail. It says less than what holds of one message after the other: a logout that comes between
the two statements of a check is undone by the second, so that a session may stay logged in.
-/

namespace FreifunkManager

open Effects Program Store

/-- The message asks for a login with the secret. -/
structure Message.LogsIn (config : Config) (msg : Message) : Prop where
  subject : msg.subject = MessageType.login
  body : msg.body = .string config.secret

/-- A session got its row from its own login. -/
inductive Event.LogsIn (config : Config) : Event → UUID → Prop
  | login {msg : Message} {session : Session} (time : Time) (asked : msg.LogsIn config)
      (own : session.sessionID = msg.session) :
      Event.LogsIn config ⟨.message msg, .createSession session, true, time⟩ msg.session

/-- The session was there at the beginning, or has logged in since. -/
def Authorised (config : Config) (initial : Table Session.sessionID) (log : List Event) (session : UUID) : Prop :=
  (initial.lookup session).isSome ∨ ∃ e ∈ log, e.LogsIn config session

/-- The session that a call is for. -/
def Call.session : Call → Option UUID
  | .message msg => some msg.session
  | .report _ | .ping => none

/-- The session for which an operation changes something, or to which it tells something. -/
def Op.actsFor (call : Call) : Op → Option UUID
  | .saveNode _ | .createNode _ | .sendNode _ | .saveSession _ | .deleteSession _ => call.session
  | .answer _ body => if body = .bool false then none else call.session
  | .sendSession session => some session
  | _ => none

/-- A check is for a session of its own, a row is written for a session that is known, or new for a login. -/
def Op.Proper (config : Config) (call : Call) (known : UUID → Prop) : Op → Prop
  | .firstSession session => session ≠ UUID.nil
  | .saveSession session => known session.sessionID
  | .createSession session => ∃ msg, call = .message msg ∧ msg.LogsIn config ∧ session.sessionID = msg.session
  | _ => True

/-- What may be asked for when some sessions are known to be authorised. -/
def Mandate (config : Config) (call : Call) (known : UUID → Prop) (op : Op) : Prop :=
  (∀ session, op.actsFor call = some session → known session) ∧ op.Proper config call known

/-- The sessions that a reply vouches for. -/
def Op.vouches : (op : Op) → op.Reply → UUID → Prop
  | .firstSession asked, some row, session => session = asked ∨ session = row.sessionID
  | .createSession row, true, session => session = row.sessionID
  | .findSessions, rows, session => ∃ row ∈ rows, row.sessionID = session
  | _, _, _ => False

theorem actsFor_refusal (call : Call) (subject : String) : (Op.answer subject (.bool false)).actsFor call = none := by
  simp [Op.actsFor]

/-! ## Programs -/

/-- The operations of the answer to a new client, who needs no login. -/
def ForAnyone : Op → Prop
  | .now _ | .findNodes | .listNode _ | .write .. => True
  | _ => False

/-- The operations that have nothing to do with sessions. -/
def Outside : Op → Prop
  | .firstSession _ | .saveSession _ | .createSession _ | .deleteSession _ | .findSessions | .sendSession _ => False
  | _ => True

section Programs

variable {config : Config} {call : Call} {known : UUID → Prop}

theorem mandate_outside {op : Op} (outside : Outside op)
    (sure : ∀ session, call.session = some session → known session) :
    Mandate config call known op := by
  refine ⟨fun session acts => ?_, ?_⟩
  · cases op with
    | saveNode | createNode | sendNode => exact sure session acts
    | answer subject body => exact sure session (Option.ite_none_left_eq_some.mp acts).2
    | saveSession | deleteSession | sendSession => exact outside.elim
    | _ => contradiction
  · cases op with
    | firstSession | saveSession | createSession => exact outside.elim
    | _ => trivial

/-- A report has nothing to do with sessions. -/
theorem insertNode_outside (config : Config) (n : Yanic.Node) : Only Outside (insertNode config n).run := by
  refine insertNode_satisfies (fun _ => trivial) (fun _ => trivial) (fun nodeinfo now row op _ asked => ?_)
    fun nodeinfo now op _ asked => ?_
  · cases op <;> first | exact asked | trivial
  · cases op <;> first | exact asked | trivial

theorem report_backed (n : Yanic.Node) :
    (Call.program config (.report n)).Backed (Mandate config (.report n)) Op.vouches (fun _ _ => True) known := by
  refine (Backed.of_satisfies (insertNode_outside config n) fun more op _ outside => ?_).mono fun _ _ _ _ => trivial
  refine mandate_outside outside fun session some => ?_
  contradiction

theorem ping_backed : (Call.program config .ping).Backed (Mandate config .ping) Op.vouches (fun _ _ => True) known := by
  refine backed_bind.mpr ⟨⟨fun _ acts => ?_, trivial⟩, fun rows => ?_⟩
  · contradiction
  · have each (rest : List Session) (listed : ∀ row ∈ rest, row ∈ rows) : Only
        (fun op => ∃ row ∈ rows, op = .sendSession row.sessionID)
        (rest.forM fun session => if session.ping then perform (.sendSession session.sessionID) else pure ()) := by
      induction rest with
      | nil => trivial
      | cons row rest ih =>
        obtain ⟨here, later⟩ := List.forall_mem_cons.mp listed
        refine Only.bind ?_ fun _ => ih later
        dsimp only
        split
        · exact only_perform ⟨row, here, rfl⟩
        · trivial
    refine (Backed.of_satisfies (each rows fun _ => id) fun more op grown asked => ?_).mono fun _ _ _ _ => trivial
    obtain ⟨row, member, rfl⟩ := asked
    exact ⟨fun session acts => grown session (.inr ⟨row, member, Option.some.inj acts⟩), trivial⟩

variable {msg : Message}

/-- A message may do everything that has nothing to do with sessions once its own is known. -/
theorem Backed.outside {α : Type} {program : Prog α} (only : Only Outside program) (sure : known msg.session) :
    program.Backed (Mandate config (.message msg)) Op.vouches (fun _ _ => True) known := by
  refine (Backed.of_satisfies only fun more op grown outside => ?_).mono fun _ _ _ _ => trivial
  exact mandate_outside outside fun session own => grown session (Option.some.inj own ▸ sure)

theorem refuse_backed (subject : String) : (perform (.answer subject (.bool false))).Backed
    (Mandate config (.message msg)) Op.vouches (fun _ _ => True) known :=
  ⟨⟨fun session acts => absurd (acts.symm.trans (actsFor_refusal _ subject)) (Option.some_ne_none session), trivial⟩,
    fun _ => trivial⟩

theorem isLoggedIn_backed : (isLoggedIn msg).Backed (Mandate config (.message msg)) Op.vouches
    (fun found more => ∀ session, found = some session → more msg.session ∧ more session.sessionID) known := by
  unfold isLoggedIn
  split
  · exact fun _ none => absurd none nofun
  · next named =>
    refine ⟨⟨fun _ acts => ?_, named⟩, fun found => ?_⟩
    · contradiction
    · cases found with
      | none => exact fun _ none => absurd none nofun
      | some session =>
        refine ⟨⟨fun _ acts => ?_, trivial⟩, fun now => ⟨⟨fun id acts => ?_, ?_⟩, fun saved => ?_⟩⟩
        · contradiction
        · rw [← Option.some.inj acts]
          exact .inl (.inr (.inl rfl))
        · exact .inl (.inr (.inr rfl))
        · rintro _ ⟨⟩
          exact ⟨.inl (.inl (.inr (.inl rfl))), .inl (.inl (.inr (.inr rfl)))⟩

theorem nodeHandler_backed : (nodeHandler config msg).Backed (Mandate config (.message msg)) Op.vouches
    (fun _ _ => True)
    known := by
  refine backed_bind.mpr (isLoggedIn_backed.mono fun found more _ shown => ?_)
  cases found with
  | none => exact backed_bind.mpr ((refuse_backed _).mono fun _ _ _ _ => trivial)
  | some session =>
    have sure := (shown session rfl).1
    dsimp only [Option.isNone]
    split
    · contradiction
    · split
      · exact refuse_backed _
      · split
        · exact backed_bind.mpr ((refuse_backed _).mono fun _ _ _ _ => trivial)
        · next node decoded named =>
          refine Backed.outside (Only.bind ?_ fun saved => ?_) sure
          · refine (only_perform trivial).bind fun found => ?_
            cases found <;> exact only_perform trivial
          · refine (announceEdit_only config msg node saved).weaken fun op announces => ?_
            cases op <;> first | exact announces | trivial

theorem authStatusHandler_backed : (authStatusHandler msg).Backed (Mandate config (.message msg)) Op.vouches
    (fun _ _ => True) known := by
  refine backed_bind.mpr (isLoggedIn_backed.mono fun found more _ shown => ?_)
  cases found with
  | none => exact refuse_backed _
  | some session => exact Backed.outside (only_perform trivial) (shown session rfl).1

theorem settingsHandler_backed : (settingsHandler config msg).Backed (Mandate config (.message msg)) Op.vouches
    (fun _ _ => True) known := by
  refine backed_bind.mpr (isLoggedIn_backed.mono fun found more _ shown => ?_)
  cases found with
  | none => exact refuse_backed _
  | some session =>
    obtain ⟨sure, own⟩ := shown session rfl
    dsimp only
    split
    · refine ⟨⟨fun id acts => Option.some.inj acts ▸ sure, own⟩, fun saved => ?_⟩
      exact Backed.outside (only_perform trivial) (.inl sure)
    · exact refuse_backed _

theorem logoutHandler_backed : (logoutHandler msg).Backed (Mandate config (.message msg)) Op.vouches
    (fun _ _ => True) known := by
  unfold logoutHandler
  split
  · trivial
  · next named =>
    refine ⟨⟨fun _ acts => ?_, named⟩, fun found => ?_⟩
    · contradiction
    · cases found with
      | none => exact refuse_backed _
      | some session =>
        refine ⟨⟨fun id acts => Option.some.inj acts ▸ .inr (.inl rfl), trivial⟩, fun deleted => ?_⟩
        exact Backed.outside (only_perform trivial) (.inl (.inr (.inl rfl)))

theorem loginHandler_backed (subject : msg.subject = MessageType.login) : (loginHandler config msg).Backed
    (Mandate config (.message msg)) Op.vouches (fun _ _ => True) known := by
  unfold loginHandler
  split
  · trivial
  · next named =>
    refine ⟨⟨fun _ acts => ?_, named⟩, fun found => ?_⟩
    · contradiction
    · cases found with
      | some session =>
        have sure : known msg.session ∨ Op.vouches (.firstSession msg.session) (some session) msg.session :=
          .inr (.inl rfl)
        refine ⟨mandate_outside trivial fun id own => Option.some.inj own ▸ sure, fun _ => ?_⟩
        refine ⟨mandate_outside trivial fun id own => Option.some.inj own ▸ .inl sure, fun now => ?_⟩
        exact ⟨⟨fun id acts => Option.some.inj acts ▸ .inl (.inl sure), .inl (.inl (.inr (.inr rfl)))⟩,
          fun _ => trivial⟩
      | none =>
        dsimp only
        split
        · next secret body =>
          split
          · next same =>
            have asked : msg.LogsIn config := ⟨subject, same ▸ body⟩
            refine ⟨⟨fun _ acts => ?_, trivial⟩,
              fun now => ⟨⟨fun _ acts => ?_, msg, rfl, asked, rfl⟩, fun created => ?_⟩⟩
            · contradiction
            · contradiction
            · cases created with
              | true => exact Backed.outside (only_perform trivial) (.inr rfl)
              | false => exact refuse_backed _
          · exact refuse_backed _
        · exact refuse_backed _

theorem connectHandler_forAnyone : Only ForAnyone (connectHandler config) := by
  refine (only_perform trivial).bind fun nodes => (Only.forM nodes fun row => ?_).bind fun _ =>
    (only_perform trivial).bind fun _ => only_perform trivial
  refine (only_perform trivial).bind fun now => ?_
  split
  · trivial
  · refine Only.bind ?_ fun _ => only_perform trivial
    refine ((updateFromList_keeps config _).weaken fun op lists => ?_).mono fun _ _ => trivial
    cases op <;> first | exact lists | trivial

theorem connectHandler_backed : (connectHandler config).Backed (Mandate config (.message msg)) Op.vouches
    (fun _ _ => True)
    known := by
  refine (Backed.of_satisfies connectHandler_forAnyone fun more op _ anyone => ⟨fun session acts => ?_, ?_⟩).mono
    fun _ _ _ _ => trivial
  · cases op <;> first | exact anyone.elim | contradiction
  · cases op <;> first | exact anyone.elim | trivial

theorem handleMessage_backed : (handleMessage config msg).Backed (Mandate config (.message msg)) Op.vouches
    (fun _ _ => True) known := by
  unfold handleMessage
  split
  · exact connectHandler_backed
  · split
    · next login => exact loginHandler_backed login
    · split
      · exact authStatusHandler_backed
      · split
        · exact settingsHandler_backed
        · split
          · exact logoutHandler_backed
          · split
            · exact nodeHandler_backed
            · trivial

theorem program_backed (config : Config) (call : Call) : (call.program config).Backed (Mandate config call) Op.vouches
    (fun _ _ => True) known := by
  cases call with
  | report n => exact report_backed n
  | message msg => exact backed_bind.mpr (handleMessage_backed.mono fun _ _ _ _ => trivial)
  | ping => exact ping_backed

end Programs

/-! ## Runs -/

/-- Who has a row was authorised, and so was everyone for whom something happened. -/
structure Lawful (config : Config) (initial : Table Session.sessionID) (w : World) : Prop where
  rows : ∀ session, (w.sessions.lookup session).isSome → Authorised config initial w.log session
  acts : ∀ e past, e :: past <:+ w.log → ∀ session, e.op.actsFor e.call = some session →
    Authorised config initial past session

section Runs

variable {config : Config} {initial : Table Session.sessionID}

theorem Authorised.later {log more : List Event} {session : UUID} (authorised : Authorised config initial log session)
    (grown : log <:+ more) : Authorised config initial more session :=
  authorised.imp_right fun ⟨e, member, login⟩ => ⟨e, grown.subset member, login⟩

/-- A session that could be created has logged in. -/
theorem logsIn_of_created {call : Call} {row : Session} (choice : Choice) (w : World)
    (asked : ∃ msg, call = .message msg ∧ msg.LogsIn config ∧ row.sessionID = msg.session)
    (created : (w.act choice (.createSession row)).1 = true) :
    Authorised config initial (w.handle call choice (.createSession row)).2.log row.sessionID := by
  obtain ⟨msg, rfl, login, own⟩ := asked
  have event : w.event (.message msg) choice (.createSession row) =
      ⟨.message msg, .createSession row, true, choice.time⟩ :=
    congrArg (Event.mk (.message msg) (.createSession row) · choice.time) created
  refine .inr ⟨w.event (.message msg) choice (.createSession row), List.mem_cons_self, ?_⟩
  rw [event, own]
  exact .login choice.time login own

variable {call : Call} {known : UUID → Prop} {op : Op} {choice : Choice} {w : World}

theorem Lawful.rows_handle (lawful : Lawful config initial w) (mandate : Mandate config call known op)
    (sure : ∀ session, known session → Authorised config initial w.log session) (session : UUID)
    (there : ((w.handle call choice op).2.sessions.lookup session).isSome) :
    Authorised config initial (w.handle call choice op).2.log session := by
  have before (there : (w.sessions.lookup session).isSome) :
      Authorised config initial (w.handle call choice op).2.log session :=
    (lawful.rows session there).later (List.suffix_cons ..)
  change ((w.act choice op).2.sessions.lookup session).isSome at there
  by_cases reads : op.writesSessions = false
  · exact before (w.act_sessions choice reads ▸ there)
  cases op with
  | saveSession row =>
    simp only [World.act] at there
    split at there
    · exact before there
    · rw [Table.lookup_save] at there
      split at there
      · next same => exact same ▸ (sure _ mandate.2).later (List.suffix_cons ..)
      · exact before there
  | createSession row =>
    cases created : (w.act choice (.createSession row)).1 with
    | true =>
      by_cases same : row.sessionID = session
      · exact same ▸ logsIn_of_created choice w mandate.2 created
      · refine before ?_
        rw [w.act_createSession choice] at there created
        split at there
        · next sessions made =>
          rwa [(Table.create_eq_some (Option.ite_none_left_eq_some.mp made).2).2, if_neg same] at there
        · exact there
    | false =>
      refine before ?_
      rw [w.act_createSession choice] at there created
      split at there
      · next sessions made =>
        rw [made] at created
        contradiction
      · exact there
  | deleteSession key =>
    simp only [World.act] at there
    split at there
    · exact before there
    · rw [Table.lookup_delete] at there
      split at there
      · contradiction
      · exact before there
  | _ => exact absurd rfl reads

theorem Lawful.vouches_handle (lawful : Lawful config initial w) (mandate : Mandate config call known op)
    (session : UUID) (shown : op.vouches (w.handle call choice op).1 session) :
    Authorised config initial (w.handle call choice op).2.log session := by
  have before (there : (w.sessions.lookup session).isSome) :
      Authorised config initial (w.handle call choice op).2.log session :=
    (lawful.rows session there).later (List.suffix_cons ..)
  cases op with
  | firstSession asked =>
    rw [World.handle_eq] at shown
    dsimp only at shown
    cases found : (w.act choice (.firstSession asked)).1 with
    | none =>
      rw [found] at shown
      exact shown.elim
    | some row =>
      rw [found] at shown
      have first : w.sessions.first asked = some row := (Option.ite_none_left_eq_some.mp found).2
      rw [Table.first_eq_lookup mandate.2] at first
      refine before ?_
      rcases shown with rfl | rfl
      · rw [first]
        rfl
      · rw [Table.lookup_key first, first]
        rfl
  | createSession row =>
    cases created : (w.act choice (.createSession row)).1 with
    | true =>
      rw [World.handle_eq, created] at shown
      exact (show session = row.sessionID from shown) ▸ logsIn_of_created choice w mandate.2 created
    | false =>
      rw [World.handle_eq, created] at shown
      exact shown.elim
  | findSessions =>
    obtain ⟨row, member, rfl⟩ := shown
    have listed : row ∈ w.sessions.rows := by
      change row ∈ if choice.dbFails then [] else w.sessions.rows at member
      split at member
      · contradiction
      · exact member
    refine before ?_
    rw [Table.lookup_eq_some.mpr ⟨listed, rfl⟩]
    rfl
  | _ => exact shown.elim

theorem Lawful.handle (lawful : Lawful config initial w) (mandate : Mandate config call known op)
    (sure : ∀ session, known session → Authorised config initial w.log session) :
    Lawful config initial (w.handle call choice op).2 where
  rows := lawful.rows_handle mandate sure
  acts e past happened session acts := by
    rcases List.suffix_cons_iff.mp happened with now | earlier
    · cases now
      exact sure session (mandate.1 session acts)
    · exact lawful.acts e past earlier session acts

/-- The state of a run from one in which nothing has happened. -/
theorem lawful_run {w : World} (fresh : w.log = []) {s : Snapshot operations ℕ Call (Except Panic Unit) World}
    (reached : (crowd config).Reachable (Pool.Admits (fun _ => True) fun _ _ _ _ => True) (unoccupied w) s) :
    Lawful config w.sessions s.shared := by
  have keeps : (crowd config).Keeps (Lawful config w.sessions)
      (fun session current => Authorised config w.sessions current.log session) (fun _ _ _ _ => True) (Mandate config)
      Op.vouches := by
    intro known call choice op current sure lawful mandate _
    exact ⟨lawful.handle mandate sure, fun session authorised => authorised.later (List.suffix_cons ..),
      lawful.vouches_handle mandate⟩
  refine reached.backed keeps (fun call _ => program_backed config call) ?_ fun _ => rfl
  change Lawful config w.sessions w
  refine ⟨fun session there => .inl there, fun e past happened => ?_⟩
  rw [fresh] at happened
  exact absurd (List.suffix_nil.mp happened) (List.cons_ne_nil e past)

end Runs

/-- Whatever happens for a session happens after it has logged in with the secret. -/
theorem acts_authorised (config : Config) {w : World} (fresh : w.log = [])
    {s : Snapshot operations ℕ Call (Except Panic Unit) World}
    (reached : (crowd config).Reachable (Pool.Admits (fun _ => True) fun _ _ _ _ => True) (unoccupied w) s)
    {e : Event} {past : List Event} (happened : e :: past <:+ s.shared.log) {session : UUID}
    (acts : e.op.actsFor e.call = some session) : Authorised config w.sessions past session :=
  (lawful_run fresh reached).acts e past happened session acts

namespace Sample

def login : Message := { session := 2, subject := MessageType.login, body := .string "swordfish" }

/-- A session logs in, and a message of it is handled before the answer to its login was given. -/
def loginAndEdit : List (Action ℕ Call Choice) :=
  [.start 0 (.message login), .advance 0 {}, .advance 0 {}, .start 1 (.message { edit "cellar" with session := 2 }),
    .advance 0 {}] ++ List.replicate 5 (.advance 1 {})

end Sample

theorem acts_authorised_loginAndEdit : ∃ s e past,
    (crowd Sample.config).run (fun _ => true) (fun _ _ _ _ => true) (unoccupied (Sample.world [Sample.row]))
      Sample.loginAndEdit = some s ∧
    e :: past <:+ s.shared.log ∧ e.op.actsFor e.call = some 2 ∧
    Authorised Sample.config (Sample.world [Sample.row]).sessions past 2 := by
  have runs : ((crowd Sample.config).run (fun _ => true) (fun _ _ _ _ => true) (unoccupied (Sample.world [Sample.row]))
      Sample.loginAndEdit).map (fun s => s.shared.log.head?.map fun e => e.op.actsFor e.call) =
      some (some (some 2)) := by
    decide +kernel
  obtain ⟨s, replayed, view⟩ := Option.map_eq_some_iff.mp runs
  obtain ⟨e, first, acts⟩ := Option.map_eq_some_iff.mp view
  obtain ⟨past, log⟩ := List.head?_eq_some_iff.mp first
  have happened : e :: past <:+ s.shared.log := log ▸ List.suffix_rfl
  exact ⟨s, e, past, replayed, happened, acts, acts_authorised Sample.config rfl
    (.of_run replayed (fun _ _ => trivial) fun _ _ _ _ _ => trivial) happened acts⟩

end FreifunkManager
