import FreifunkManager.Proofs.OwnSession

/-! # Strangers

A stranger is a session that is not logged in and never sends the secret. Its messages are answered, but
they leave the world as it is (`serve_stranger`), and other calls do not read the log, so a run goes the
same without them.
-/

namespace FreifunkManager

open Effects Program Store

/-! ## The messages of a stranger -/

/-- The operation reads a list or the row of this session, or it answers. -/
def Harmless (id : UUID) : Op → Prop
  | .firstSession other => id ≠ UUID.nil ∧ other = id
  | op => Plain op

/-- No session is found. -/
def NotFound : (op : Op) → op.Reply → Prop
  | .firstSession _, reply => reply = none
  | _, _ => True

theorem Harmless.of_plain {id : UUID} {op : Op} (plain : Plain op) : Harmless id op := by
  cases op <;> first | exact plain | contradiction

section Refused

variable {config : Config} {msg : Message}

/-- The program does no harm when the sender is not logged in. -/
abbrev Refused {α : Type} (msg : Message) (wanted : α → Prop) (program : Prog α) : Prop :=
  program.Satisfies (S := operations) (Harmless msg.session) NotFound wanted

theorem answer_refused (body : Body) : Refused msg (fun _ => True) (perform (.answer msg.subject body)) :=
  ⟨trivial, fun _ _ => trivial⟩

theorem isLoggedIn_refused : Refused msg (· = none) (isLoggedIn msg) := by
  unfold isLoggedIn
  split
  · rfl
  · next named =>
    refine ⟨⟨named, rfl⟩, fun found missing => ?_⟩
    rw [show found = none from missing]
    rfl

/-- A handler that only asks who is logged in, and refuses if nobody is. -/
theorem asking_refused {rest : Option Session → Prog Unit} (refuses : Refused msg (fun _ => True) (rest none)) :
    Refused msg (fun _ => True) (isLoggedIn msg >>= rest) :=
  satisfies_bind.mpr (isLoggedIn_refused.mono fun _ missing => missing ▸ refuses)

theorem loginHandler_refused (wrong : msg.body ≠ .string config.secret) :
    Refused msg (fun _ => True) (loginHandler config msg) := by
  by_cases named : msg.session = UUID.nil
  · rw [loginHandler, if_pos named]
    trivial
  · rw [loginHandler_eq config named]
    refine ⟨⟨named, rfl⟩, fun found missing => ?_⟩
    rw [show found = none from missing]
    change Refused msg (fun _ => True) (loginUnknown config msg)
    rw [loginUnknown_refuses wrong]
    exact answer_refused _

theorem logoutHandler_refused : Refused msg (fun _ => True) (logoutHandler msg) := by
  unfold logoutHandler
  split
  · trivial
  · next named =>
    refine ⟨⟨named, rfl⟩, fun found missing => ?_⟩
    rw [show found = none from missing]
    exact answer_refused _

/-- A message of a session without a row does no harm, unless it is a login with the secret. -/
theorem handleMessage_refused (wrong : msg.subject = MessageType.login → msg.body ≠ .string config.secret) :
    Refused msg (fun _ => True) (handleMessage config msg) := by
  unfold handleMessage
  split_ifs with _ login
  · exact (Satisfies.assuming (connectHandler_plain config) fun _ _ _ => trivial).weaken fun _ => Harmless.of_plain
  · exact loginHandler_refused (wrong login)
  · exact asking_refused (answer_refused _)
  · exact asking_refused (answer_refused _)
  · exact logoutHandler_refused
  · exact asking_refused (satisfies_bind.mpr ⟨trivial, fun _ _ => trivial⟩)
  · trivial

end Refused

theorem World.act_harmless (choice : Choice) (w : World) {id : UUID} {op : Op} (harmless : Harmless id op)
    (absent : w.sessions.lookup id = none) : NotFound op (w.act choice op).1 ∧ (w.act choice op).2 = w := by
  cases op with
  | firstSession other =>
    obtain ⟨named, rfl⟩ := harmless
    refine ⟨?_, rfl⟩
    change (if choice.dbFails then none else w.sessions.first other) = none
    rw [Table.first_eq_lookup named, absent, ite_self]
  | now | findNodes | listNode | answer | write => exact ⟨trivial, rfl⟩
  | _ => contradiction

/-- The messages of this session are not logins with the secret. -/
def NeverSendsSecret (config : Config) (s : UUID) (steps : List Step) : Prop :=
  ∀ step ∈ steps, ∀ msg, step.call = .message msg → msg.session = s → msg.subject = MessageType.login →
    msg.body ≠ .string config.secret

/-- A message of a stranger is answered, and that is all. -/
theorem serve_stranger (config : Config) {step : Step} {msg : Message} (message : step.call = .message msg)
    (wrong : msg.subject = MessageType.login → msg.body ≠ .string config.secret) {w : World}
    (absent : w.sessions.lookup msg.session = none) :
    ∃ events, (serve config step w).1 = w.withLog (events ++ w.log) ∧
      ∀ e ∈ events, e.call = step.call ∧ Harmless msg.session e.op := by
  have refused : Refused msg (fun _ => True) (step.call.program config) := by
    rw [message]
    exact satisfies_bind.mpr ((handleMessage_refused wrong).mono fun _ _ => trivial)
  refine serve_keeps config step refused (fun after => ∃ events, after = w.withLog (events ++ w.log) ∧
    ∀ e ∈ events, e.call = step.call ∧ Harmless msg.session e.op) ?_ ⟨[], rfl, List.forall_mem_nil _⟩
  rintro op i after harmless ⟨events, rfl, own⟩
  obtain ⟨missing, same⟩ := World.act_harmless (step.choices i) (w.withLog (events ++ w.log)) harmless absent
  refine ⟨missing, World.event step.call (step.choices i) (w.withLog (events ++ w.log)) op :: events, ?_, ?_⟩
  · rw [World.handle_eq, same]
    rfl
  · exact List.forall_mem_cons.mpr ⟨⟨rfl, harmless⟩, own⟩

/-! ## Runs without a stranger -/

/-- The call is a message of this session. -/
def Call.sentBy (s : UUID) : Call → Bool
  | .message msg => msg.session = s
  | _ => false

theorem Call.sentBy_eq_true {s : UUID} {call : Call} :
    call.sentBy s = true ↔ ∃ msg, call = .message msg ∧ msg.session = s := by
  cases call <;> simp [sentBy]

/-- The nodes that were sent to all clients. -/
def broadcasts (log : List Event) : List Node :=
  log.filterMap fun e => match e.op with
    | .sendNode node => some node
    | _ => none

def Op.replies : Op → Bool
  | .answer .. | .write .. => true
  | _ => false

/-- What a session was answered. -/
def repliesTo (s : UUID) (log : List Event) : List Op :=
  ((log.filter fun e => e.call.sentBy s).map Event.op).filter Op.replies

/-- The worlds of two runs, one of them without the messages of a session. -/
structure AlikeWithout (s : UUID) (a b : World) : Prop where
  same : b = a.withLog b.log
  others : a.log.filter (!·.call.sentBy s) = b.log.filter (!·.call.sentBy s)
  sent : broadcasts a.log = broadcasts b.log

theorem AlikeWithout.stranger {s : UUID} {a b : World} (alike : AlikeWithout s a b) {events : List Event}
    (own : ∀ e ∈ events, e.call.sentBy s = true ∧ Harmless s e.op) :
    AlikeWithout s (a.withLog (events ++ a.log)) b where
  same := alike.same
  others := by
    have none : events.filter (!·.call.sentBy s) = [] :=
      List.filter_eq_nil_iff.mpr fun e member => by simp [(own e member).1]
    change (events ++ a.log).filter _ = _
    rw [List.filter_append, none, List.nil_append, alike.others]
  sent := by
    have none : broadcasts events = [] := by
      refine List.filterMap_eq_nil_iff.mpr fun e member => ?_
      have harmless := (own e member).2
      split
      · next node sends =>
        rw [sends] at harmless
        contradiction
      · rfl
    change broadcasts (events ++ a.log) = _
    rw [broadcasts, List.filterMap_append, ← broadcasts, none, List.nil_append, ← alike.sent, broadcasts]

theorem AlikeWithout.step {s : UUID} {a b : World} (alike : AlikeWithout s a b) (after : World) (events : List Event) :
    AlikeWithout s (after.withLog (events ++ a.log)) (after.withLog (events ++ b.log)) where
  same := rfl
  others := by
    change (events ++ a.log).filter _ = (events ++ b.log).filter _
    rw [List.filter_append, List.filter_append, alike.others]
  sent := by
    have sent := alike.sent
    change broadcasts (events ++ a.log) = broadcasts (events ++ b.log)
    unfold broadcasts at sent ⊢
    rw [List.filterMap_append, List.filterMap_append, sent]

/-- The runs with and without the messages of a stranger go alike. -/
theorem serveAll_alike (config : Config) {s : UUID} {steps : List Step} (wrong : NeverSendsSecret config s steps)
    {a b : World} (alike : AlikeWithout s a b) (absent : a.sessions.lookup s = none) :
    AlikeWithout s (serveAll config steps a) (serveAll config (steps.filter (!·.call.sentBy s)) b) := by
  induction steps generalizing a b with
  | nil => exact alike
  | cons step rest ih =>
    obtain ⟨wrong, restWrong⟩ := List.forall_mem_cons.mp wrong
    cases own : step.call.sentBy s with
    | true =>
      obtain ⟨msg, message, rfl⟩ := Call.sentBy_eq_true.mp own
      obtain ⟨events, after, harmless⟩ := serve_stranger config message (wrong msg message rfl) absent
      rw [List.filter_cons_of_neg (by simp [own]), serveAll_cons config step rest (serve_message config step message a),
        after]
      exact ih restWrong (alike.stranger fun e member => ⟨(harmless e member).1 ▸ own, (harmless e member).2⟩) absent
    | false =>
      obtain ⟨after, events, alive, served⟩ := serve_withLog config step a
      have first : serve config step a = (after.withLog (events ++ a.log), alive) := served a.log
      have second : serve config step b = (after.withLog (events ++ b.log), alive) := alike.same ▸ served b.log
      have alike := alike.step after events
      rw [List.filter_cons_of_pos (by simp [own]), serveAll, serveAll, first, second]
      cases alive with
      | false => exact alike
      | true =>
        refine ih restWrong alike ?_
        have still : (serve config step a).1.sessions.lookup s = none := by
          cases called : step.call with
          | message msg =>
            rw [serve_others config called a (.inl fun same => ?_), absent]
            rw [Call.sentBy_eq_true.mpr ⟨msg, called, same.symm⟩] at own
            contradiction
          | _ => rw [serve_sessions config (fun msg same => by rw [called] at same; contradiction) a, absent]
        rwa [first] at still

/-- Without the messages of a stranger, a run leaves the same nodes and sessions, the same nodes were sent to all
clients, and every other session was answered the same. -/
theorem strangers_ignored (config : Config) (s : UUID) (steps : List Step) (w : World)
    (absent : w.sessions.lookup s = none) (wrong : NeverSendsSecret config s steps) :
    let run := serveAll config steps w
    let without := serveAll config (steps.filter (!·.call.sentBy s)) w
    run.nodes = without.nodes ∧ run.sessions = without.sessions ∧ broadcasts run.log = broadcasts without.log ∧
      ∀ other, other ≠ s → repliesTo other run.log = repliesTo other without.log := by
  intro run without
  have alike : AlikeWithout s run without := serveAll_alike config wrong ⟨rfl, rfl, rfl⟩ absent
  refine ⟨by rw [alike.same]; rfl, by rw [alike.same]; rfl, alike.sent, fun other different => ?_⟩
  have visible (log : List Event) : repliesTo other log = repliesTo other (log.filter (!·.call.sentBy s)) := by
    rw [repliesTo, repliesTo, List.filter_filter]
    refine congrArg (fun events => (events.map Event.op).filter Op.replies) (List.filter_congr fun e _ => ?_)
    cases own : e.call.sentBy other with
    | false => rfl
    | true =>
      obtain ⟨msg, message, rfl⟩ := Call.sentBy_eq_true.mp own
      rw [message, Call.sentBy, decide_eq_false different]
      rfl
  rw [visible, alike.others, ← visible]

/-- A stranger tries to log in and to rename a node that is then edited and reported. -/
def strangerSteps : List Step :=
  [.message { session := 7, subject := MessageType.login, body := .string "guess" },
    .message { Sample.edit "mine" with session := 7 }, .message (Sample.edit "cellar"),
    .report (Sample.report "attic")].map fun call => { call, choices := fun _ => { time := 60 } }

theorem strangers_ignored_edit :
    (serveAll Sample.config strangerSteps (Sample.world [Sample.row])).nodes =
      (serveAll Sample.config (strangerSteps.filter (!·.call.sentBy 7)) (Sample.world [Sample.row])).nodes := by
  have wrong : NeverSendsSecret Sample.config 7 strangerSteps := by
    intro step member msg message own login
    simp only [strangerSteps, List.map_cons, List.map_nil, List.mem_cons, List.not_mem_nil, or_false] at member
    rcases member with rfl | rfl | rfl | rfl <;> cases message
    · exact fun same => absurd (Json.string.inj same) (by decide)
    · exact absurd login (by decide)
    · exact absurd login (by decide)
  exact (strangers_ignored Sample.config 7 strangerSteps _ (by decide +kernel) wrong).1

end FreifunkManager
