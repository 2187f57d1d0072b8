import FreifunkManager.Proofs.MessageOrder

/-! # What waits is sent

As long as the socket stays open after the session was announced, every tick of the timer sends one of the messages that
wait, the last one first, and everything else that the client says meanwhile is sent at once. So what was said while the
connection was down is sent after as many ticks as there were messages.
-/

namespace FreifunkManager.Socket

open Store

variable {κ : Type} {s t : State κ}

/-- The socket does not begin to close. -/
def Event.keepsOpen : Event κ → Bool
  | .closing | .error | .closed => false
  | _ => true

def Event.isRetry : Event κ → Bool
  | .retry _ => true
  | _ => false

/-- The message of this entry was sent, with an id. -/
def Transmission.Carries (sent : Transmission) (entry : QueryEntry κ) : Prop :=
  sent.call = entry.call ∧ ∃ newUUID, sent.msg = correctMSG entry.obj newUUID

/-- Messages are sent at once. -/
def State.Ready (s : State κ) : Prop := s.readyState = .opened ∧ s.sessionInit = true

/-- What became of the messages that waited, and that this socket was used. -/
structure Drains (s : State κ) (ticks : ℕ) (t : State κ) : Prop where
  ready : t.Ready
  ordinary : Ordinary t
  line : s.line.Served ticks t.line
  query : t.query = s.query.take (s.query.length - ticks)
  carried : ∀ entry ∈ s.query.drop (s.query.length - ticks), ∃ sent ∈ t.sent, sent.Carries entry
  socket : t.socket = s.socket
  added : ∃ added, t.sent = s.sent ++ added ∧ ∀ sent ∈ added, sent.socket = s.socket

theorem State.Ready.sends (ready : s.Ready) (subject : String) : s.waits subject = false :=
  waits_eq_false.mpr ⟨ready.1, .inl ready.2⟩

variable {ticks : ℕ}

/-- Something else is sent. -/
theorem Drains.send (drains : Drains s ticks t) {after : State κ} {sent : Transmission} (ready : after.Ready)
    (here : after.socket = t.socket) (query : after.query = t.query) (grown : after.sent = t.sent ++ [sent])
    (socket : sent.socket = t.socket) (line : s.line.Served ticks after.line) : Drains s ticks after where
  ready := ready
  ordinary := drains.ordinary.of_query query
  line := line
  query := query.trans drains.query
  carried entry member := by
    obtain ⟨early, found, carries⟩ := drains.carried entry member
    exact ⟨early, grown ▸ List.mem_append_left _ found, carries⟩
  socket := here.trans drains.socket
  added := by
    obtain ⟨added, before, onSocket⟩ := drains.added
    refine ⟨added ++ [sent], by rw [grown, before, List.append_assoc], ?_⟩
    exact List.forall_mem_append.mpr ⟨onSocket, List.forall_mem_singleton.mpr (socket.trans drains.socket)⟩

theorem Drains.call (drains : Drains s ticks t) (obj : Msg) (callback : Option κ) (newUUID : UUID) :
    Drains s ticks (t.call obj callback newUUID) := by
  have waits : State.waits { t with calls := t.calls + 1 } obj.subject = false := drains.ready.sends obj.subject
  have passed : (t.call obj callback newUUID).line =
      { t.line with sent := t.line.sent ++ [t.line.count], count := t.line.count + 1 } := by
    simp [State.call, State.line, waits]
  have grown : (t.call obj callback newUUID).sent = t.sent ++ [⟨t.socket, correctMSG obj newUUID, some t.calls⟩] := by
    simp [State.call, waits]
  refine drains.send ?_ ?_ ?_ grown rfl (passed ▸ drains.line.pass)
  · simpa [State.Ready, State.call] using drains.ready
  · simp [State.call]
  · simp [State.call, waits]

theorem Drains.retry (kept : s.line.Kept) (drains : Drains s ticks t) (newUUID : UUID) :
    Drains s (ticks + 1) (t.retry newUUID) := by
  cases last : t.query.getLast? with
  | none =>
    have empty : t.query = [] := List.getLast?_eq_none_iff.mp last
    have beyond : s.query.take (s.query.length - ticks) = s.query.take (s.query.length - (ticks + 1)) ∧
        s.query.drop (s.query.length - (ticks + 1)) = s.query.drop (s.query.length - ticks) := by
      rcases List.take_eq_nil_iff.mp (drains.query.symm.trans empty) with all | none
      · rw [show s.query.length - (ticks + 1) = s.query.length - ticks by omega]
        exact ⟨rfl, rfl⟩
      · simp [none]
    rw [State.retry, last]
    refine { drains with line := drains.line.idle ?_, query := drains.query.trans beyond.1, carried := ?_ }
    · rw [State.line, empty, List.filterMap_nil]
    · rw [beyond.2]
      exact drains.carried
  | some entry =>
    obtain ⟨call, numbered, lastCall, others⟩ := line_last drains.ordinary last
    have sends := drains.ready.sends entry.obj.subject
    obtain ⟨query, sent⟩ := retry_sends last newUUID sends
    have taken : (t.retry newUUID).line = t.line.take call := by
      rw [State.line, query, sent, numbered, retry_calls last, WaitingLine.take, others]
      rfl
    have same : State.waits { t with query := t.query.dropLast } entry.obj.subject = false := sends
    have grown : (t.retry newUUID).sent = t.sent ++ [⟨t.socket, correctMSG entry.obj newUUID, entry.call⟩] := by
      rw [retry_eq last, State.sendjson_sent, same]
      rfl
    have here : (t.retry newUUID).socket = t.socket := by
      rw [retry_eq last, State.sendjson_socket]
    -- the entry is the one at the end of what the earlier ticks left
    have left : t.query.dropLast ++ [entry] = s.query.take (s.query.length - ticks) := by
      rw [List.dropLast_append_getLast? _ last, drains.query]
    have some : s.query.length - ticks = t.query.dropLast.length + 1 := by
      have counted := congrArg List.length left
      rw [List.length_append, List.length_singleton, List.length_take_of_le (Nat.sub_le ..)] at counted
      exact counted.symm
    have fewer : s.query.length - (ticks + 1) = t.query.dropLast.length := by omega
    have split : s.query = t.query.dropLast ++ entry :: s.query.drop (s.query.length - ticks) := by
      conv_lhs => rw [← List.take_append_drop (s.query.length - ticks) s.query, ← left, List.append_assoc]
      rfl
    constructor
    · refine ⟨?_, ?_⟩
      · rw [retry_eq last, State.sendjson_readyState]
        exact drains.ready.1
      · rw [retry_eq last, State.sendjson_sessionInit]
        exact drains.ready.2
    · constructor <;> rw [query]
      · exact fun other member => drains.ordinary.subject other (List.dropLast_subset _ member)
      · exact fun other member => drains.ordinary.call other (List.dropLast_subset _ member)
    · exact taken ▸ drains.line.take kept lastCall
    · rw [query, fewer]
      conv_rhs => rw [split]
      rw [List.take_left]
    · rw [fewer]
      intro other member
      rw [split, List.drop_left] at member
      rcases List.mem_cons.mp member with rfl | before
      · exact ⟨_, grown ▸ List.mem_append_right _ (List.mem_singleton_self _), rfl, newUUID, rfl⟩
      · obtain ⟨early, found, carries⟩ := drains.carried other before
        exact ⟨early, grown ▸ List.mem_append_left _ found, carries⟩
    · exact here.trans drains.socket
    · obtain ⟨added, before, onSocket⟩ := drains.added
      refine ⟨added ++ [_], by rw [grown, before, List.append_assoc], ?_⟩
      exact List.forall_mem_append.mpr ⟨onSocket, List.forall_mem_singleton.mpr drains.socket⟩

theorem Drains.step (kept : s.line.Kept) (drains : Drains s ticks t) {event : Event κ} (possible : event.Possible t)
    (keepsOpen : event.keepsOpen = true) : Drains s (ticks + [event].countP Event.isRetry) (step t event) := by
  obtain ⟨isOpen, announced⟩ := drains.ready
  cases event with
  | sendjson obj callback newUUID => exact drains.call obj callback newUUID
  | opened => exact absurd (isOpen.symm.trans possible) (by decide)
  | message msg newUUID =>
    change Drains s ticks (t.onmessage msg newUUID)
    by_cases asked : msg.subject = "session_init"
    · rw [onmessage_asked isOpen asked]
      refine drains.send ⟨isOpen, rfl⟩ rfl rfl rfl rfl ?_
      have same : State.line { t with
          connectionID := some (t.connectionID.getD newUUID)
          sessionInit := true
          sent := t.sent ++ [⟨t.socket, { msg with id := some (t.connectionID.getD newUUID) }, none⟩] } = t.line := by
        simp [State.line]
      exact same ▸ drains.line
    · rw [State.onmessage, if_neg asked]
      split
      · exact { drains with ordinary := drains.ordinary.of_query rfl }
      · exact drains
  | closing | error | closed => contradiction
  | reconnect => exact absurd (isOpen.symm.trans possible) (by decide)
  | retry newUUID => exact drains.retry kept newUUID

theorem Drains.run (kept : s.line.Kept) (drains : Drains s ticks t) {events : List (Event κ)} {after : State κ}
    (undisturbed : ∀ event ∈ events, event.keepsOpen = true) (ran : run t events = some after) :
    Drains s (ticks + events.countP Event.isRetry) after := by
  induction events generalizing t ticks with
  | nil =>
    cases ran
    exact drains
  | cons event rest ih =>
    obtain ⟨possible, ran⟩ := run_cons ran
    obtain ⟨first, others⟩ := List.forall_mem_cons.mp undisturbed
    have next := ih (drains.step kept possible first) others ran
    rwa [Nat.add_assoc, ← List.countP_append, List.singleton_append] at next

end FreifunkManager.Socket
