import FreifunkManager.Proofs.ClientSocket
import FreifunkManager.Store.WaitingLine

/-! # The order of the messages of a client

The messages of a client form a waiting line: a message is sent at once or waits, and the timer takes the one
that was put last.
-/

namespace FreifunkManager.Socket

open Store

variable {κ : Type} {s s' : State κ}

/-- The calls of `sendjson`, without the replies to `session_init`. -/
def State.line (s : State κ) : WaitingLine where
  waiting := s.query.filterMap (·.call)
  sent := s.sent.filterMap (·.call)
  count := s.calls

/-- The messages were sent in the order in which they were given to `sendjson`. -/
def State.InOrder (s : State κ) : Prop := (s.sent.filterMap (·.call)).Pairwise (· < ·)

/-- If the timer can send a message, it takes the one of the latest call. -/
def State.TakesLatest (s : State κ) : Prop :=
  s.readyState = .opened → s.sessionInit = true → ∀ entry call, s.query.getLast? = some entry → entry.call = some call →
    call + 1 = s.calls

/-- Whenever the timer sends a message in a run, it is the one of the latest call. -/
def TakesLatest (s : State κ) (events : List (Event κ)) : Prop :=
  ∀ earlier newUUID later between, events = earlier ++ .retry newUUID :: later → run s earlier = some between →
    between.TakesLatest

/-- Every message that waits is one of a call. -/
structure Ordinary (s : State κ) : Prop where
  subject : ∀ entry ∈ s.query, entry.obj.subject ≠ "session_init"
  call : ∀ entry ∈ s.query, entry.call.isSome

/-- A call comes to the line. -/
theorem call_line (obj : Msg) (callback : Option κ) (newUUID : UUID) :
    s.line.Step (s.call obj callback newUUID).line := by
  have waits : State.waits { s with calls := s.calls + 1 } obj.subject = s.waits obj.subject := rfl
  cases waiting : s.waits obj.subject with
  | true =>
    have moved : (s.call obj callback newUUID).line =
        { s.line with waiting := s.line.waiting ++ [s.line.count], count := s.line.count + 1 } := by
      simp [State.call, State.line, waits, waiting]
    rw [moved]
    exact .wait
  | false =>
    have moved : (s.call obj callback newUUID).line =
        { s.line with sent := s.line.sent ++ [s.line.count], count := s.line.count + 1 } := by
      simp [State.call, State.line, waits, waiting]
    rw [moved]
    exact .pass

theorem call_ordinary (ordinary : Ordinary s) {obj : Msg} (plain : obj.subject ≠ "session_init") (callback : Option κ)
    (newUUID : UUID) : Ordinary (s.call obj callback newUUID) := by
  have waits : State.waits { s with calls := s.calls + 1 } obj.subject = s.waits obj.subject := rfl
  constructor <;> rw [State.call, State.sendjson_query, waits] <;> split
  · exact List.forall_mem_append.mpr ⟨ordinary.subject, List.forall_mem_singleton.mpr plain⟩
  · exact ordinary.subject
  · exact List.forall_mem_append.mpr ⟨ordinary.call, List.forall_mem_singleton.mpr rfl⟩
  · exact ordinary.call

theorem Ordinary.of_query (ordinary : Ordinary s) (same : s'.query = s.query) : Ordinary s' :=
  ⟨same ▸ ordinary.subject, same ▸ ordinary.call⟩

theorem line_last (ordinary : Ordinary s) {entry : QueryEntry κ} (last : s.query.getLast? = some entry) :
    ∃ call, entry.call = some call ∧ s.line.waiting.getLast? = some call ∧
      s.line.waiting.dropLast = s.query.dropLast.filterMap (·.call) := by
  obtain ⟨call, numbered⟩ := Option.isSome_iff_exists.mp (ordinary.call entry (List.mem_of_getLast? last))
  have split : s.line.waiting = s.query.dropLast.filterMap (·.call) ++ [call] := by
    rw [State.line, ← List.dropLast_append_getLast? _ last, List.filterMap_append, List.dropLast_concat]
    simp [numbered]
  refine ⟨call, numbered, ?_, ?_⟩
  · rw [split, List.getLast?_concat]
  · rw [split, List.dropLast_concat]

section Retry

variable {entry : QueryEntry κ} (last : s.query.getLast? = some entry) (newUUID : UUID)

include last

theorem retry_eq : s.retry newUUID =
    { s with query := s.query.dropLast }.sendjson entry.obj entry.callback entry.call newUUID := by
  rw [State.retry, last]

theorem retry_calls : (s.retry newUUID).calls = s.calls := by
  rw [retry_eq last, State.sendjson_calls]

/-- A message that cannot be sent yet is put back. -/
theorem retry_waits (waits : s.waits entry.obj.subject = true) :
    (s.retry newUUID).query = s.query ∧ (s.retry newUUID).sent = s.sent := by
  have same : State.waits { s with query := s.query.dropLast } entry.obj.subject = true := waits
  rw [retry_eq last, State.sendjson_query, State.sendjson_sent, if_pos same, if_pos same]
  exact ⟨List.dropLast_append_getLast? _ last, rfl⟩

theorem retry_sends (ready : s.waits entry.obj.subject = false) :
    (s.retry newUUID).query = s.query.dropLast ∧
      (s.retry newUUID).sent.filterMap (·.call) = s.sent.filterMap (·.call) ++ entry.call.toList := by
  have same : ¬ State.waits { s with query := s.query.dropLast } entry.obj.subject = true := by
    rw [show State.waits { s with query := s.query.dropLast } entry.obj.subject = false from ready]
    exact Bool.false_ne_true
  rw [retry_eq last, State.sendjson_query, State.sendjson_sent, if_neg same, if_neg same, List.filterMap_append]
  refine ⟨rfl, ?_⟩
  cases entry.call <;> rfl

end Retry

/-- The timer does nothing, or takes the last message of the line. -/
theorem retry_line (kept : s.line.Kept) (ordinary : Ordinary s) (newUUID : UUID) :
    (s.retry newUUID).line.Kept ∧ Ordinary (s.retry newUUID) ∧
      ((s.retry newUUID).InOrder ↔ s.InOrder ∧ s.TakesLatest) := by
  cases last : s.query.getLast? with
  | none =>
    have nothing : s.TakesLatest := by
      intro _ _ entry call some
      rw [last] at some
      contradiction
    rw [State.retry, last]
    exact ⟨kept, ordinary, (and_iff_left nothing).symm⟩
  | some entry =>
    obtain ⟨call, numbered, lastCall, others⟩ := line_last ordinary last
    cases waiting : s.waits entry.obj.subject with
    | true =>
      obtain ⟨query, sent⟩ := retry_waits last newUUID waiting
      have line : (s.retry newUUID).line = s.line := by
        rw [State.line, State.line, query, sent, retry_calls last]
      have notReady : s.TakesLatest := by
        intro isOpen announced
        exact absurd (waits_eq_false.mpr ⟨isOpen, .inl announced⟩) (by rw [waiting]; decide)
      refine ⟨line ▸ kept, ordinary.of_query query, ?_⟩
      rw [State.InOrder, sent]
      exact (and_iff_left notReady).symm
    | false =>
      obtain ⟨query, sent⟩ := retry_sends last newUUID waiting
      obtain ⟨isOpen, announced⟩ := waits_eq_false.mp waiting
      have taken : (s.retry newUUID).line = s.line.take call := by
        rw [State.line, query, sent, numbered, retry_calls last, WaitingLine.take, others]
        rfl
      have latest : s.TakesLatest ↔ call + 1 = s.line.count := by
        constructor
        · have plain := ordinary.subject entry (List.mem_of_getLast? last)
          exact fun latest => latest isOpen (announced.resolve_right plain) entry call last numbered
        · intro same _ _ entry' call' last' numbered'
          obtain rfl : entry = entry' := Option.some.inj (last.symm.trans last')
          obtain rfl : call = call' := Option.some.inj (numbered.symm.trans numbered')
          exact same
      have order := kept.take_inOrder lastCall
      rw [← taken, ← latest] at order
      refine ⟨taken ▸ kept.take lastCall, ?_, order⟩
      constructor <;> rw [query]
      · exact fun other member => ordinary.subject other (List.dropLast_subset _ member)
      · exact fun other member => ordinary.call other (List.dropLast_subset _ member)

/-- What an event does to the order. -/
theorem step_inOrder (kept : s.line.Kept) (ordinary : Ordinary s) {event : Event κ} (possible : event.Possible s) :
    (step s event).line.Kept ∧ Ordinary (step s event) ∧
      ((step s event).InOrder ↔ s.InOrder ∧ ∀ newUUID, event = .retry newUUID → s.TakesLatest) := by
  have unmoved {after : State κ} (query : after.query = s.query)
      (sent : after.sent.filterMap (·.call) = s.sent.filterMap (·.call)) (calls : after.calls = s.calls)
      (other : ∀ newUUID, event ≠ .retry newUUID) : after.line.Kept ∧ Ordinary after ∧
        (after.InOrder ↔ s.InOrder ∧ ∀ newUUID, event = .retry newUUID → s.TakesLatest) := by
    have line : after.line = s.line := by rw [State.line, State.line, query, sent, calls]
    refine ⟨line ▸ kept, ordinary.of_query query, ?_⟩
    rw [State.InOrder, sent]
    exact (and_iff_left fun newUUID same => absurd same (other newUUID)).symm
  cases event with
  | sendjson obj callback newUUID =>
    have moves := call_line (s := s) obj callback newUUID
    refine ⟨kept.step moves, call_ordinary ordinary possible _ _, (kept.step_inOrder moves).trans ?_⟩
    exact (and_iff_left (by simp)).symm
  | opened newUUID newUUID' =>
    let opened : State κ := { s with readyState := .opened }
    have first := call_line (s := opened) { subject := "auth_status" } none newUUID
    have second := call_line (s := opened.call { subject := "auth_status" } none newUUID)
        { subject := "connect" } none newUUID'
    have between : (opened.call { subject := "auth_status" } none newUUID).line.Kept := WaitingLine.Kept.step kept first
    refine ⟨between.step second, ?_, ?_⟩
    · have isOpen : Ordinary opened := ordinary.of_query rfl
      have begun : Ordinary (opened.call { subject := "auth_status" } none newUUID) :=
        call_ordinary isOpen (by decide) _ _
      exact call_ordinary begun (by decide) _ _
    · apply ((between.step_inOrder second).trans (WaitingLine.Kept.step_inOrder kept first)).trans
      exact (and_iff_left (by simp)).symm
  | message msg newUUID =>
    change (s.onmessage msg newUUID).line.Kept ∧ Ordinary (s.onmessage msg newUUID) ∧
      ((s.onmessage msg newUUID).InOrder ↔ _)
    by_cases asked : msg.subject = "session_init"
    · rw [onmessage_asked possible asked]
      refine unmoved ?_ ?_ ?_ (by simp)
      · rfl
      · simp
      · rfl
    · rw [State.onmessage, if_neg asked]
      split <;> refine unmoved ?_ ?_ ?_ (by simp) <;> rfl
  | closing => refine unmoved ?_ ?_ ?_ (by simp) <;> rfl
  | error => refine unmoved ?_ ?_ ?_ (by simp) <;> rfl
  | closed => refine unmoved ?_ ?_ ?_ (by simp) <;> rfl
  | reconnect => refine unmoved ?_ ?_ ?_ (by simp) <;> rfl
  | retry newUUID =>
    obtain ⟨kept, ordinary, order⟩ := retry_line kept ordinary newUUID
    refine ⟨kept, ordinary, order.trans (and_congr_right fun _ => ?_)⟩
    exact ⟨fun latest _ _ => latest, fun latest => latest newUUID rfl⟩

theorem takesLatest_cons {event : Event κ} {rest : List (Event κ)} (possible : event.Possible s) :
    TakesLatest s (event :: rest) ↔
      (∀ newUUID, event = .retry newUUID → s.TakesLatest) ∧ TakesLatest (step s event) rest := by
  constructor
  · intro latest
    constructor
    · rintro newUUID rfl
      exact latest [] newUUID rest s rfl rfl
    · intro earlier newUUID later between split ran
      apply latest (event :: earlier) newUUID later between (by rw [split]; rfl)
      rwa [run, if_pos possible]
  · rintro ⟨first, others⟩ earlier newUUID later between split ran
    cases earlier with
    | nil =>
      obtain ⟨rfl, -⟩ := List.cons.inj split
      cases ran
      exact first newUUID rfl
    | cons _ earlier =>
      obtain ⟨rfl, tail⟩ := List.cons.inj split
      exact others earlier newUUID later between tail (run_cons ran).2

theorem run_inOrder_iff {events : List (Event κ)} (kept : s.line.Kept) (ordinary : Ordinary s)
    (ran : run s events = some s') : s'.InOrder ↔ s.InOrder ∧ TakesLatest s events := by
  induction events generalizing s with
  | nil =>
    cases ran
    apply (and_iff_left _).symm
    intro earlier newUUID later between split
    exact absurd split.symm (by simp)
  | cons event rest ih =>
    obtain ⟨possible, ran⟩ := run_cons ran
    obtain ⟨kept, ordinary, order⟩ := step_inOrder kept ordinary possible
    rw [ih kept ordinary ran, order, takesLatest_cons possible, and_assoc]

/-- The messages of a client are sent in the order of the calls if and only if, whenever the timer sends one, no
other call was made while it waited. -/
theorem inOrder_iff (stored : Option UUID) {events : List (Event κ)} (ran : run (initial stored) events = some s) :
    s.InOrder ↔ TakesLatest (initial stored) events := by
  have ordinary : Ordinary (initial stored : State κ) := ⟨List.forall_mem_nil _, List.forall_mem_nil _⟩
  have kept : (initial stored : State κ).line.Kept := WaitingLine.kept_empty
  apply (run_inOrder_iff kept ordinary ran).trans
  exact and_iff_right .nil

/-- The client logs in as soon as one of the two first messages was sent. -/
def loginEarly : List (Event Unit) :=
  [.opened 1 2, .message { subject := "session_init" } 3, .retry 4, .sendjson { subject := "login" } none 5]

theorem inOrder_loginEarly : ∃ s, run (initial (some 7)) loginEarly = some s ∧ s.sent.length = 3 ∧ s.InOrder := by
  obtain ⟨s, ran⟩ := Option.isSome_iff_exists.mp (by decide : (run (initial (some 7)) loginEarly).isSome = true)
  have sent : ((run (initial (some 7)) loginEarly).any (·.sent.length = 3)) = true := by decide
  rw [ran] at sent
  refine ⟨s, ran, of_decide_eq_true sent, (inOrder_iff (some 7) ran).mpr ?_⟩
  refine (takesLatest_cons (by decide)).mpr ⟨fun _ same => (by cases same), ?_⟩
  refine (takesLatest_cons (by decide)).mpr ⟨fun _ same => (by cases same), ?_⟩
  apply (takesLatest_cons (by decide)).mpr
  constructor
  · rintro newUUID - - - entry call last numbered
    cases last
    cases numbered
    rfl
  · refine (takesLatest_cons (by decide)).mpr ⟨fun _ same => (by cases same), ?_⟩
    intro earlier newUUID later between split
    exact absurd split.symm (by simp)

/-- Two edits of a node that are made while the connection is down. -/
def editsOffline : List (Event Unit) :=
  firstConnection ++ [.closed,
    .sendjson { subject := "node", body := .string "first" } none 8,
    .sendjson { subject := "node", body := .string "second" } none 9,
    .reconnect, .opened 10 11, .retry 12, .retry 13]

/-- The later one is sent first, so that the server keeps the earlier one. -/
theorem editsOffline_reversed : ∃ s, run (initial (some 7)) editsOffline = some s ∧
    (s.sent.filter (·.msg.subject = "node")).map (·.call) = [some 3, some 2] ∧ ¬ s.InOrder := by
  obtain ⟨s, ran⟩ := Option.isSome_iff_exists.mp (by decide : (run (initial (some 7)) editsOffline).isSome = true)
  have reversed : ((run (initial (some 7)) editsOffline).any fun s =>
      (s.sent.filter (·.msg.subject = "node")).map (·.call) = [some 3, some 2] ∧
        ¬ (s.sent.filterMap (·.call)).Pairwise (· < ·)) = true := by decide
  rw [ran, Option.any_some] at reversed
  have both := of_decide_eq_true reversed
  exact ⟨s, ran, both.1, both.2⟩

end FreifunkManager.Socket
