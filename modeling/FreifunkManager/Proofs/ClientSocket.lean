import FreifunkManager.Model.Socket

/-! # What a client sends first, and in which order

The session of a client is announced once, by the reply to the first `session_init`; the flag for it is never
taken back. So nothing is sent before this reply, but a later socket begins with what its open handler sends.
-/

namespace FreifunkManager.Socket

variable {κ : Type}

section Runs

variable {s s' : State κ}

theorem run_cons {event : Event κ} {rest : List (Event κ)} (ran : run s (event :: rest) = some s') :
    event.Possible s ∧ run (step s event) rest = some s' := by
  rw [run] at ran
  split at ran
  · next possible => exact ⟨possible, ran⟩
  · contradiction

theorem run_append {earlier later : List (Event κ)} (ran : run s (earlier ++ later) = some s') :
    ∃ between, run s earlier = some between ∧ run between later = some s' := by
  induction earlier generalizing s with
  | nil => exact ⟨s, rfl, ran⟩
  | cons event rest ih =>
    obtain ⟨possible, ran⟩ := run_cons ran
    obtain ⟨between, first, second⟩ := ih ran
    refine ⟨between, ?_, second⟩
    rw [run, if_pos possible, first]

end Runs

/-! ## The first message -/

/-- The message answers the server's question for the session. -/
def Transmission.Identifies (t : Transmission) (connectionID : Option UUID) : Prop :=
  t.msg.subject = "session_init" ∧ connectionID.isSome ∧ t.msg.id = connectionID

def Transmission.isOn (socket : ℕ) (t : Transmission) : Bool := t.socket = socket

/-- Every socket begins with the reply to `session_init`. -/
def State.IdentifiesFirst (s : State κ) : Prop :=
  ∀ socket t, (s.sent.filter (Transmission.isOn socket)).head? = some t → t.Identifies s.connectionID

/-- No socket opens after a `session_init` was handled. -/
def NeverReopens (events : List (Event κ)) : Prop :=
  ∀ earlier event later, events = earlier ++ event :: later → event.isOpen → ¬ earlier.any Event.isSessionInit

section First

variable {s s' s'' : State κ}

theorem waits_eq_false {subject : String} : s.waits subject = false ↔
    s.readyState = .opened ∧ (s.sessionInit = true ∨ subject = "session_init") := by
  rw [State.waits, Bool.or_eq_false_iff, Bool.and_eq_false_iff, bne_eq_false_iff_eq, bne_eq_false_iff_eq,
    Bool.not_eq_false']

/-- Between the two states other messages than `session_init` were sent, or put among those that wait. -/
structure Sends (s s' : State κ) : Prop where
  connectionID : s'.connectionID = s.connectionID
  socket : s'.socket = s.socket
  readyState : s'.readyState = s.readyState
  sessionInit : s'.sessionInit = s.sessionInit
  query : ∀ entry ∈ s'.query, entry ∈ s.query ∨ entry.obj.subject ≠ "session_init"
  sent : ∃ added, s'.sent = s.sent ++ added ∧ (∀ t ∈ added, t.socket = s.socket ∧ t.msg.subject ≠ "session_init") ∧
    (added ≠ [] → s.readyState = .opened ∧ s.sessionInit = true)

theorem sends_refl : Sends s s where
  connectionID := rfl
  socket := rfl
  readyState := rfl
  sessionInit := rfl
  query _ member := .inl member
  sent := ⟨[], (List.append_nil _).symm, List.forall_mem_nil _, fun some => absurd rfl some⟩

theorem Sends.trans (first : Sends s s') (second : Sends s' s'') : Sends s s'' where
  connectionID := second.connectionID.trans first.connectionID
  socket := second.socket.trans first.socket
  readyState := second.readyState.trans first.readyState
  sessionInit := second.sessionInit.trans first.sessionInit
  query entry member := by
    rcases second.query entry member with before | plain
    · exact first.query entry before
    · exact .inr plain
  sent := by
    obtain ⟨added, grown, plain, ready⟩ := first.sent
    obtain ⟨added', grown', plain', ready'⟩ := second.sent
    rw [first.socket] at plain'
    rw [first.readyState, first.sessionInit] at ready'
    refine ⟨added ++ added', by rw [grown', grown, List.append_assoc], ?_, ?_⟩
    · intro t member
      rcases List.mem_append.mp member with early | late
      · exact plain t early
      · exact plain' t late
    · intro some
      by_cases none : added = []
      · apply ready'
        rwa [none, List.nil_append] at some
      · exact ready none

theorem correctMSG_subject (obj : Msg) (newUUID : UUID) : (correctMSG obj newUUID).subject = obj.subject := by
  unfold correctMSG
  split <;> rfl

theorem sends_sendjson {obj : Msg} (plain : obj.subject ≠ "session_init") (callback : Option κ) (call : Option ℕ)
    (newUUID : UUID) : Sends s (s.sendjson obj callback call newUUID) where
  connectionID := s.sendjson_connectionID ..
  socket := s.sendjson_socket ..
  readyState := s.sendjson_readyState ..
  sessionInit := s.sendjson_sessionInit ..
  query entry member := by
    rw [s.sendjson_query] at member
    split at member
    · rcases List.mem_append.mp member with before | new
      · exact .inl before
      · rw [List.mem_singleton.mp new]
        exact .inr plain
    · exact .inl member
  sent := by
    rw [s.sendjson_sent]
    split
    · exact sends_refl.sent
    · next ready =>
      obtain ⟨isOpen, announced⟩ := waits_eq_false.mp (Bool.eq_false_of_not_eq_true ready)
      refine ⟨_, rfl, ?_, fun _ => ⟨isOpen, announced.resolve_right plain⟩⟩
      intro t new
      rw [List.mem_singleton.mp new]
      exact ⟨rfl, (correctMSG_subject obj newUUID).trans_ne plain⟩

theorem sends_call {obj : Msg} (plain : obj.subject ≠ "session_init") (callback : Option κ) (newUUID : UUID) :
    Sends s (s.call obj callback newUUID) := by
  have counted : Sends s { s with calls := s.calls + 1 } :=
    ⟨rfl, rfl, rfl, rfl, sends_refl.query, sends_refl.sent⟩
  exact counted.trans (sends_sendjson plain _ _ _)

theorem sends_onopen (newUUID newUUID' : UUID) : Sends s (s.onopen newUUID newUUID') :=
  (sends_call (by decide) _ _).trans (sends_call (by decide) _ _)

theorem sends_retry (plain : ∀ entry ∈ s.query, entry.obj.subject ≠ "session_init") (newUUID : UUID) :
    Sends s (s.retry newUUID) := by
  unfold State.retry
  cases last : s.query.getLast? with
  | none => exact sends_refl
  | some entry =>
    have taken : Sends s { s with query := s.query.dropLast } :=
      ⟨rfl, rfl, rfl, rfl, fun _ member => .inl (List.dropLast_subset _ member), sends_refl.sent⟩
    exact taken.trans (sends_sendjson (plain entry (List.mem_of_getLast? last)) _ _ _)

/-- The transmissions so far are on this socket or on earlier ones. -/
structure Numbered (s : State κ) : Prop where
  atMost : ∀ t ∈ s.sent, t.socket ≤ s.socket
  connecting : s.readyState = .connecting → ∀ t ∈ s.sent, t.socket < s.socket
  query : ∀ entry ∈ s.query, entry.obj.subject ≠ "session_init"

theorem Sends.numbered (sends : Sends s s') (numbered : Numbered s) : Numbered s' where
  atMost := by
    obtain ⟨added, grown, plain, _⟩ := sends.sent
    rw [grown, sends.socket]
    intro t member
    rcases List.mem_append.mp member with before | new
    · exact numbered.atMost t before
    · exact (plain t new).1.le
  connecting := by
    obtain ⟨added, grown, _, ready⟩ := sends.sent
    rw [grown, sends.socket, sends.readyState]
    intro connecting
    have nothing : added = [] := by
      by_contra some
      exact absurd (connecting.symm.trans (ready some).1) (by decide)
    rw [nothing, List.append_nil]
    exact numbered.connecting connecting
  query entry member := by
    rcases sends.query entry member with before | plain
    · exact numbered.query entry before
    · exact plain

/-- The reply to `session_init` is sent at once. -/
theorem onmessage_asked {msg : Msg} (isOpen : s.readyState = .opened) (asked : msg.subject = "session_init")
    (newUUID : UUID) :
    s.onmessage msg newUUID = { s with
      connectionID := some (s.connectionID.getD newUUID)
      sessionInit := true
      sent := s.sent ++ [⟨s.socket, { msg with id := some (s.connectionID.getD newUUID) }, none⟩] } := by
  simp [State.onmessage, State.sendjson, State.waits, correctMSG, isOpen, asked]

theorem sends_onmessage {msg : Msg} (other : msg.subject ≠ "session_init") (newUUID : UUID) :
    Sends s (s.onmessage msg newUUID) := by
  rw [State.onmessage, if_neg other]
  split
  · exact ⟨rfl, rfl, rfl, rfl, sends_refl.query, sends_refl.sent⟩
  · exact sends_refl

/-- What an event does: it sends messages on an open socket, opens one, answers `session_init`, or changes the
state of the socket. -/
inductive Does (s : State κ) : Event κ → State κ → Prop
  | sends {event : Event κ} {s' : State κ} (silent : event.isOpen = false ∧ event.isSessionInit = false)
      (sends : Sends s s') : Does s event s'
  | opens {event : Event κ} {s' : State κ} (connecting : s.readyState = .connecting) (opens : event.isOpen = true)
      (other : event.isSessionInit = false) (sends : Sends { s with readyState := .opened } s') : Does s event s'
  | answers {event : Event κ} (isOpen : s.readyState = .opened) (asked : event.isSessionInit = true) {reply : Msg}
      {newUUID : UUID} (subject : reply.subject = "session_init") (id : reply.id = some (s.connectionID.getD newUUID)) :
      Does s event { s with
        connectionID := some (s.connectionID.getD newUUID)
        sessionInit := true
        sent := s.sent ++ [⟨s.socket, reply, none⟩] }
  | closes {event : Event κ} {readyState : ReadyState} (silent : event.isOpen = false ∧ event.isSessionInit = false)
      (other : readyState ≠ .connecting ∧ readyState ≠ .opened) : Does s event { s with readyState }
  | connects {event : Event κ} (silent : event.isOpen = false ∧ event.isSessionInit = false) : Does s event s.connect

theorem does_step (plain : ∀ entry ∈ s.query, entry.obj.subject ≠ "session_init") {event : Event κ}
    (possible : event.Possible s) : Does s event (step s event) := by
  cases event with
  | sendjson obj callback newUUID => exact .sends ⟨rfl, rfl⟩ (sends_call possible _ _)
  | opened newUUID newUUID' => exact .opens possible rfl rfl (sends_onopen _ _)
  | message msg newUUID =>
    by_cases asked : msg.subject = "session_init"
    · have asks : (Event.message msg newUUID : Event κ).isSessionInit = true := decide_eq_true asked
      rw [step, onmessage_asked possible asked]
      exact .answers possible asks asked rfl
    · exact .sends ⟨rfl, decide_eq_false asked⟩ (sends_onmessage asked _)
  | closing => exact .closes ⟨rfl, rfl⟩ ⟨by decide, by decide⟩
  | error =>
    apply Does.closes ⟨rfl, rfl⟩
    split <;> decide
  | closed => exact .closes ⟨rfl, rfl⟩ ⟨by decide, by decide⟩
  | reconnect => exact .connects ⟨rfl, rfl⟩
  | retry newUUID => exact .sends ⟨rfl, rfl⟩ (sends_retry plain _)

theorem Does.numbered {event : Event κ} (does : Does s event s') (numbered : Numbered s) : Numbered s' := by
  have elsewhere (readyState : ReadyState) (other : readyState ≠ .connecting) : Numbered { s with readyState } :=
    ⟨numbered.atMost, fun connecting => absurd connecting other, numbered.query⟩
  cases does with
  | sends _ sends => exact sends.numbered numbered
  | opens _ _ _ sends => exact sends.numbered (elsewhere .opened (by decide))
  | answers isOpen =>
    constructor
    · intro t member
      rcases List.mem_append.mp member with before | new
      · exact numbered.atMost t before
      · rw [List.mem_singleton.mp new]
    · intro connecting
      exact absurd (connecting.symm.trans isOpen) (by decide)
    · exact numbered.query
  | closes _ other => exact elsewhere _ other.1
  | connects =>
    constructor
    · exact fun t member => (numbered.atMost t member).trans (Nat.le_succ _)
    · exact fun _ t member => Nat.lt_succ_of_le (numbered.atMost t member)
    · exact numbered.query

theorem numbered_initial (stored : Option UUID) : Numbered (initial stored : State κ) :=
  ⟨List.forall_mem_nil _, fun _ => List.forall_mem_nil _, List.forall_mem_nil _⟩

theorem Does.sessionInit {event : Event κ} (does : Does s event s') :
    s'.sessionInit = (s.sessionInit || event.isSessionInit) := by
  cases does with
  | sends silent sends => rw [sends.sessionInit, silent.2, Bool.or_false]
  | opens _ _ other sends => rw [sends.sessionInit, other, Bool.or_false]
  | answers _ asked => rw [asked, Bool.or_true]
  | closes silent => rw [silent.2, Bool.or_false]
  | connects silent => rw [silent.2, Bool.or_false, State.connect]

theorem Does.grows {event : Event κ} (does : Does s event s') : ∃ added, s'.sent = s.sent ++ added := by
  cases does with
  | sends _ sends => exact ⟨_, sends.sent.choose_spec.1⟩
  | opens _ _ _ sends => exact ⟨_, sends.sent.choose_spec.1⟩
  | answers => exact ⟨_, rfl⟩
  | closes => exact ⟨[], (List.append_nil _).symm⟩
  | connects => exact ⟨[], (List.append_nil _).symm⟩

/-- What a run does with these. -/
theorem run_does {events : List (Event κ)} (numbered : Numbered s) (ran : run s events = some s') :
    Numbered s' ∧ s'.sessionInit = (s.sessionInit || events.any Event.isSessionInit) ∧
      ∃ added, s'.sent = s.sent ++ added := by
  induction events generalizing s with
  | nil =>
    cases ran
    exact ⟨numbered, (Bool.or_false _).symm, [], (List.append_nil _).symm⟩
  | cons event rest ih =>
    obtain ⟨possible, ran⟩ := run_cons ran
    have does := does_step numbered.query possible
    obtain ⟨after, flag, added, grown⟩ := ih (does.numbered numbered) ran
    obtain ⟨first, began⟩ := does.grows
    refine ⟨after, ?_, first ++ added, ?_⟩
    · rw [flag, does.sessionInit, List.any_cons, Bool.or_assoc]
    · rw [grown, began, List.append_assoc]

/-- Only one socket was used so far, and it was used properly. -/
structure Announced (s : State κ) : Prop where
  silent : s.sessionInit = false → s.sent = []
  first : s.sessionInit = true → ∃ first rest, s.sent = first :: rest ∧ first.Identifies s.connectionID
  same : ∀ t ∈ s.sent, ∀ t' ∈ s.sent, t.socket = t'.socket
  here : s.sessionInit = true → s.readyState = .opened → ∀ t ∈ s.sent, t.socket = s.socket

theorem Sends.announced (sends : Sends s s') (announced : Announced s) : Announced s' := by
  obtain ⟨added, grown, plain, ready⟩ := sends.sent
  have here (t : Transmission) (member : t ∈ s'.sent) (isOpen : s.readyState = .opened) (flag : s.sessionInit = true) :
      t.socket = s.socket := by
    rw [grown] at member
    rcases List.mem_append.mp member with before | new
    · exact announced.here flag isOpen t before
    · exact (plain t new).1
  constructor
  · intro flag
    rw [sends.sessionInit] at flag
    have nothing : added = [] := by
      by_contra some
      exact absurd (flag.symm.trans (ready some).2) (by decide)
    rw [grown, nothing, List.append_nil]
    exact announced.silent flag
  · intro flag
    rw [sends.sessionInit] at flag
    obtain ⟨first, rest, began, identifies⟩ := announced.first flag
    rw [grown, began, sends.connectionID]
    exact ⟨first, rest ++ added, rfl, identifies⟩
  · intro t member t' member'
    by_cases nothing : added = []
    · rw [grown, nothing, List.append_nil] at member member'
      exact announced.same t member t' member'
    · obtain ⟨isOpen, flag⟩ := ready nothing
      exact (here t member isOpen flag).trans (here t' member' isOpen flag).symm
  · intro flag isOpen t member
    rw [sends.socket]
    exact here t member (sends.readyState.symm.trans isOpen) (sends.sessionInit.symm.trans flag)

theorem Does.announced {event : Event κ} (does : Does s event s') (announced : Announced s)
    (fine : event.isOpen = true → s.sessionInit = false) : Announced s' := by
  cases does with
  | sends _ sends => exact sends.announced announced
  | opens _ opens _ sends =>
    apply sends.announced
    exact ⟨announced.silent, announced.first, announced.same,
      fun flag => absurd ((fine opens).symm.trans flag) (by decide)⟩
  | @answers isOpen asked reply newUUID subject id =>
    have here : ∀ t ∈ s.sent ++ [⟨s.socket, reply, none⟩], t.socket = s.socket := by
      intro t member
      rcases List.mem_append.mp member with before | new
      · cases flag : s.sessionInit with
        | true => exact announced.here flag isOpen t before
        | false =>
          rw [announced.silent flag] at before
          exact absurd before (List.not_mem_nil)
      · rw [List.mem_singleton.mp new]
    constructor
    · intro flag
      contradiction
    · intro _
      cases flag : s.sessionInit with
      | true =>
        obtain ⟨first, rest, began, subject, known, id⟩ := announced.first flag
        obtain ⟨connectionID, same⟩ := Option.isSome_iff_exists.mp known
        refine ⟨first, rest ++ [_], by rw [began]; rfl, subject, rfl, ?_⟩
        rw [id, same, Option.getD_some]
      | false =>
        rw [announced.silent flag]
        exact ⟨_, [], rfl, subject, rfl, id⟩
    · exact fun t member t' member' => (here t member).trans (here t' member').symm
    · exact fun _ _ => here
  | closes _ other =>
    exact ⟨announced.silent, announced.first, announced.same, fun _ isOpen => absurd isOpen other.2⟩
  | connects =>
    exact ⟨announced.silent, announced.first, announced.same, fun _ isOpen => nomatch isOpen⟩

theorem run_announced {events : List (Event κ)} (numbered : Numbered s) (announced : Announced s)
    (fine : ∀ earlier event later, events = earlier ++ event :: later → event.isOpen = true →
      (s.sessionInit || earlier.any Event.isSessionInit) = false)
    (ran : run s events = some s') : Announced s' := by
  induction events generalizing s with
  | nil =>
    cases ran
    exact announced
  | cons event rest ih =>
    obtain ⟨possible, ran⟩ := run_cons ran
    have does := does_step numbered.query possible
    have begins (opens : event.isOpen = true) : s.sessionInit = false := by
      have first := fine [] event rest rfl opens
      rwa [List.any_nil, Bool.or_false] at first
    apply ih (does.numbered numbered) (does.announced announced begins) _ ran
    intro earlier next later split opens
    have before := fine (event :: earlier) next later (by rw [split]; rfl) opens
    rw [does.sessionInit, Bool.or_assoc]
    exact before

theorem Announced.identifiesFirst (announced : Announced s) : s.IdentifiesFirst := by
  intro socket t head
  have member := List.mem_filter.mp (List.mem_of_head? head)
  cases flag : s.sessionInit with
  | false =>
    rw [announced.silent flag] at member
    exact absurd member.1 (List.not_mem_nil)
  | true =>
    obtain ⟨first, rest, began, identifies⟩ := announced.first flag
    have own : first.socket = socket := by
      rw [announced.same first (began ▸ .head _) t member.1]
      exact of_decide_eq_true member.2
    rw [began, List.filter_cons_of_pos (show first.isOn socket = true from decide_eq_true own), List.head?_cons] at head
    cases head
    exact identifies

/-- A socket that opens when the session was announced on an earlier one begins with `auth_status`. -/
theorem onopen_sent (flag : s.sessionInit = true) (isOpen : s.readyState = .opened) (newUUID newUUID' : UUID) :
    ∃ t rest, (s.onopen newUUID newUUID').sent = s.sent ++ t :: rest ∧ t.socket = s.socket ∧
    t.msg.subject = "auth_status" := by
  have ready (s : State κ) (flag : s.sessionInit = true) (isOpen : s.readyState = .opened) (subject : String) :
      s.waits subject = false := waits_eq_false.mpr ⟨isOpen, .inl flag⟩
  refine ⟨⟨s.socket, ⟨some newUUID, "auth_status", .null⟩, some s.calls⟩,
    [⟨s.socket, ⟨some newUUID', "connect", .null⟩, some (s.calls + 1)⟩], ?_, rfl, rfl⟩
  simp [State.onopen, State.call, ready, flag, isOpen, correctMSG]

/-- Every socket begins with the reply to `session_init` if and only if no socket opens after the first of them. -/
theorem identifiesFirst_iff (stored : Option UUID) {events : List (Event κ)}
    (ran : run (initial stored) events = some s) :
    s.IdentifiesFirst ↔ NeverReopens events := by
  constructor
  · intro identifies earlier event later split opens asked
    rw [split] at ran
    obtain ⟨between, first, second⟩ := run_append ran
    obtain ⟨possible, rest⟩ := run_cons second
    obtain ⟨numbered, flag, -⟩ := run_does (numbered_initial stored) first
    have announced : between.sessionInit = true := by rw [flag, asked, Bool.or_true]
    obtain ⟨-, -, added, grown⟩ := run_does ((does_step numbered.query possible).numbered numbered) rest
    cases event with
    | opened newUUID newUUID' =>
      have connecting : between.readyState = .connecting := possible
      obtain ⟨t, more, sent, socket, subject⟩ :=
        onopen_sent (s := { between with readyState := .opened }) announced rfl newUUID newUUID'
      have unused : between.sent.filter (Transmission.isOn between.socket) = [] := by
        rw [List.filter_eq_nil_iff]
        intro t member
        exact fun same => (numbered.connecting connecting t member).ne (of_decide_eq_true same)
      have head : (s.sent.filter (Transmission.isOn between.socket)).head? = some t := by
        rw [grown, show (step between (.opened newUUID newUUID')).sent = between.sent ++ t :: more from sent,
          List.append_assoc, List.filter_append, unused, List.nil_append, List.cons_append,
          List.filter_cons_of_pos (show t.isOn between.socket = true from decide_eq_true socket), List.head?_cons]
      have replied := (identifies between.socket t head).1
      rw [subject] at replied
      exact absurd replied (by decide)
    | _ => contradiction
  · intro never
    apply Announced.identifiesFirst
    apply run_announced (numbered_initial stored) _ _ ran
    · exact ⟨fun _ => rfl, fun flag => (nomatch flag), List.forall_mem_nil _, fun flag => (nomatch flag)⟩
    · intro earlier event later split opens
      rw [show (initial stored : State κ).sessionInit = false from rfl, Bool.false_or]
      exact Bool.eq_false_of_not_eq_true (never earlier event later split opens)

/-- The session is announced, and what waited is sent. -/
def firstConnection : List (Event Unit) :=
  [.opened 1 2, .message { subject := "session_init" } 3, .retry 4, .retry 5]

theorem identifiesFirst_firstConnection : ∃ s, run (initial (some 7)) firstConnection = some s ∧ s.sent.length = 3 ∧
    s.IdentifiesFirst := by
  obtain ⟨s, ran⟩ := Option.isSome_iff_exists.mp (by decide : (run (initial (some 7)) firstConnection).isSome = true)
  have sent : ((run (initial (some 7)) firstConnection).any (·.sent.length = 3)) = true := by decide
  rw [ran] at sent
  refine ⟨s, ran, of_decide_eq_true sent, (identifiesFirst_iff (some 7) ran).mpr ?_⟩
  intro earlier event later split opens
  cases earlier with
  | nil => exact Bool.false_ne_true
  | cons first earlier =>
    have once : (firstConnection.tail.all (!·.isOpen)) = true := by decide
    have rest : firstConnection.tail = earlier ++ event :: later := congrArg List.tail split
    rw [rest, List.all_append, List.all_cons, opens] at once
    simp at once

/-- The client connects again. -/
def reconnection : List (Event Unit) := firstConnection ++ [.closed, .reconnect, .opened 8 9]

/-- The new socket begins with `auth_status`. -/
theorem reconnection_not_identified : ∃ s, run (initial (some 7)) reconnection = some s ∧ ¬ s.IdentifiesFirst := by
  obtain ⟨s, ran⟩ := Option.isSome_iff_exists.mp (by decide : (run (initial (some 7)) reconnection).isSome = true)
  have begins : ((run (initial (some 7)) reconnection).any fun s =>
      (s.sent.filter (Transmission.isOn 1)).head?.any (·.msg.subject = "auth_status")) = true := by decide
  rw [ran, Option.any_some] at begins
  refine ⟨s, ran, fun identifies => ?_⟩
  cases head : (s.sent.filter (Transmission.isOn 1)).head? with
  | none =>
    rw [head] at begins
    contradiction
  | some t =>
    rw [head, Option.any_some] at begins
    exact absurd ((of_decide_eq_true begins).symm.trans (identifies 1 t head).1) (by decide)

end First

end FreifunkManager.Socket
