import FreifunkManager.Model.Dispatch
import Mathlib.Data.List.Nodup

/-! # No message of a client is lost

Whatever is passed to `sendjson` waits, or was handed to the socket, and a callback runs on the answer to its own
message only. The invariant ties the line of waiting messages to what was sent and to the table of callbacks. Its
one difficult step is a message that leaves the line, be it new or one that the timer takes.
-/

namespace FreifunkManager.Socket.Client

variable {κ φ : Type}

section Kept

variable (c : Client κ φ)

/-- Where the object of a call waits. -/
def waiting (call : Option ℕ) : List (QueryEntry (ℕ × κ)) := c.state.query.filter (·.call = call)

/-- What was handed to the socket for a call. -/
def handed (call : Option ℕ) : List Transmission := c.state.sent.filter (·.call = call)

/-- The object waits once, together with its callback, or was handed to the socket once. -/
def Once (n : ℕ) (obj : Msg) (callback : Option κ) : Prop :=
  (c.waiting (some n) = [⟨callback.map (n, ·), obj, some n⟩] ∧ c.handed (some n) = []) ∨
    (c.waiting (some n) = [] ∧
      ∃ socket newUUID, c.handed (some n) = [⟨socket, correctMSG obj newUUID, some n⟩])

structure NothingLost : Prop where
  once : ∀ n obj callback, c.passed[n]? = some (obj, callback) → c.Once n obj callback
  replies : ((c.waiting none).map (·.obj) ++ (c.handed none).map (·.msg)).Perm c.replies
  registered : ∀ id n msgFunc, c.state.eventMSGID id = some (n, msgFunc) →
    (∃ obj, c.passed[n]? = some (obj, some msgFunc)) ∧ ∃ t ∈ c.handed (some n), t.msg.id = some id
  atMostOnce : (c.ran.map (·.call)).Nodup
  own : ∀ answer ∈ c.ran, (∃ obj, c.passed[answer.call]? = some (obj, some answer.msgFunc)) ∧
    ∃ msg, c.received[answer.message]? = some msg ∧ msg.id.isSome ∧
      ∃ t ∈ c.handed (some answer.call), t.msg.id = msg.id
  notDispatched : ∀ answer ∈ c.ran, ∀ handler ∈ c.dispatched, handler.2 ≠ answer.message

/-- What holds beside that, which the next step rests on. -/
structure Sound : Prop extends NothingLost c where
  counted : c.passed.length = c.state.calls
  unused : ∀ n, c.state.calls ≤ n → c.waiting (some n) = [] ∧ c.handed (some n) = []
  unnumbered : ∀ entry ∈ c.waiting none, entry.callback = none ∧ entry.obj.id.isSome
  spent : ∀ answer ∈ c.ran, ∀ id msgFunc, c.state.eventMSGID id ≠ some (answer.call, msgFunc)
  heard : ∀ handler ∈ c.dispatched, handler.2 < c.received.length

end Kept

variable {c : Client κ φ}

theorem getElem?_append_some {α : Type} {list : List α} {n : ℕ} {value : α} (there : list[n]? = some value)
    (more : List α) : (list ++ more)[n]? = some value :=
  List.getElem?_append_left (List.getElem?_eq_some_iff.mp there).1 ▸ there

/-- An object is put in the line. -/
def enqueue (c : Client κ φ) (entry : QueryEntry (ℕ × κ)) : Client κ φ :=
  { c with state := { c.state with query := c.state.query ++ [entry] } }

/-- An object is handed to the socket, and its callback is registered. -/
def hand (c : Client κ φ) (entry : QueryEntry (ℕ × κ)) (newUUID : UUID) : Client κ φ :=
  let obj := correctMSG entry.obj newUUID
  { c with state := { c.state with
      sent := c.state.sent ++ [⟨c.state.socket, obj, entry.call⟩]
      eventMSGID := entry.callback.elim c.state.eventMSGID fun _ =>
        Function.update c.state.eventMSGID (obj.id.getD newUUID) entry.callback } }

/-- An object that has left the line is passed to `sendjson`. -/
def deliver (c : Client κ φ) (entry : QueryEntry (ℕ × κ)) (newUUID : UUID) : Client κ φ :=
  { c with state := c.state.sendjson entry.obj entry.callback entry.call newUUID }

theorem deliver_eq (entry : QueryEntry (ℕ × κ)) (newUUID : UUID) :
    c.deliver entry newUUID = if c.state.waits entry.obj.subject then c.enqueue entry else c.hand entry newUUID := by
  unfold deliver State.sendjson
  split <;> rfl

theorem enqueue_waiting (entry : QueryEntry (ℕ × κ)) (call : Option ℕ) :
    (c.enqueue entry).waiting call = c.waiting call ++ if entry.call = call then [entry] else [] := by
  unfold waiting enqueue
  simp only [List.filter_append, List.filter_cons, List.filter_nil, decide_eq_true_eq]

theorem hand_handed (entry : QueryEntry (ℕ × κ)) (newUUID : UUID) (call : Option ℕ) :
    (c.hand entry newUUID).handed call =
      c.handed call ++
        if entry.call = call then [⟨c.state.socket, correctMSG entry.obj newUUID, entry.call⟩] else [] := by
  unfold handed hand
  simp only [List.filter_append, List.filter_cons, List.filter_nil, decide_eq_true_eq]

theorem correctMSG_id (obj : Msg) (newUUID : UUID) :
    (correctMSG obj newUUID).id = some ((correctMSG obj newUUID).id.getD newUUID) := by
  unfold correctMSG
  cases named : obj.id with
  | none => rfl
  | some id => simp [named]

theorem correctMSG_named {obj : Msg} (named : obj.id.isSome) (newUUID : UUID) : correctMSG obj newUUID = obj := by
  rw [correctMSG, if_neg]
  rw [Option.isNone_iff_eq_none]
  exact Option.isSome_iff_ne_none.mp named

theorem hand_registered {entry : QueryEntry (ℕ × κ)} {newUUID id : UUID} {known : ℕ × κ}
    (found : (c.hand entry newUUID).state.eventMSGID id = some known) :
    c.state.eventMSGID id = some known ∨
      entry.callback = some known ∧ (correctMSG entry.obj newUUID).id = some id := by
  cases given : entry.callback with
  | none =>
    unfold hand at found
    simp only [given, Option.elim_none] at found
    exact .inl found
  | some callback =>
    unfold hand at found
    simp only [given, Option.elim_some] at found
    by_cases own : id = (correctMSG entry.obj newUUID).id.getD newUUID
    · rw [own, Function.update_self] at found
      exact .inr ⟨found, own ▸ correctMSG_id _ _⟩
    · rw [Function.update_of_ne own] at found
      exact .inl found

/-- The object at the end of the line is there once, and was not sent yet. -/
theorem Sound.last {entry : QueryEntry (ℕ × κ)} (sound : (c.enqueue entry).Sound) {n : ℕ} (call : entry.call = some n) :
    c.waiting (some n) = [] ∧ c.handed (some n) = [] ∧
      ∃ callback, c.passed[n]? = some (entry.obj, callback) ∧ entry.callback = callback.map (n, ·) := by
  have waits : (c.enqueue entry).waiting (some n) = c.waiting (some n) ++ [entry] := by
    rw [enqueue_waiting, if_pos call]
  have numbered : n < c.passed.length := by
    by_contra beyond
    have none := (sound.unused n (by rw [← sound.counted]; exact Nat.le_of_not_lt beyond)).1
    rw [waits] at none
    exact absurd none (List.append_ne_nil_of_right_ne_nil _ (List.cons_ne_nil _ _))
  obtain ⟨⟨obj, callback⟩, passed⟩ : ∃ given, c.passed[n]? = some given :=
    ⟨_, List.getElem?_eq_getElem numbered⟩
  rcases sound.once n obj callback passed with ⟨once, unsent⟩ | ⟨none, _⟩
  · rw [waits] at once
    obtain ⟨before, same⟩ := List.append_eq_singleton_iff.mp once |>.resolve_right (by simp)
    cases same
    exact ⟨before, unsent, callback, passed, rfl⟩
  · rw [waits] at none
    exact absurd none (List.append_ne_nil_of_right_ne_nil _ (List.cons_ne_nil _ _))

/-- A callback that waits belongs to the call that its message belongs to. -/
theorem Sound.callback {entry : QueryEntry (ℕ × κ)} (sound : (c.enqueue entry).Sound) {n : ℕ} {msgFunc : κ}
    (callback : entry.callback = some (n, msgFunc)) :
    entry.call = some n ∧ c.passed[n]? = some (entry.obj, some msgFunc) := by
  cases call : entry.call with
  | none =>
    have silent := (sound.unnumbered entry (by rw [enqueue_waiting, if_pos call]; simp)).1
    rw [silent] at callback
    contradiction
  | some m =>
    obtain ⟨_, _, given, passed, registered⟩ := sound.last call
    rw [registered] at callback
    obtain ⟨func, rfl, same⟩ := Option.map_eq_some_iff.mp callback
    cases same
    exact ⟨rfl, passed⟩

theorem mem_hand_handed {entry : QueryEntry (ℕ × κ)} {newUUID : UUID} {call : Option ℕ} {t : Transmission}
    (member : t ∈ c.handed call) : t ∈ (c.hand entry newUUID).handed call := by
  rw [hand_handed]
  exact List.mem_append_left _ member

/-- The object at the end of the line may be sent instead. -/
theorem Sound.hand {entry : QueryEntry (ℕ × κ)} (sound : (c.enqueue entry).Sound) (newUUID : UUID) :
    (c.hand entry newUUID).Sound where
  once n obj callback passed := by
    have once := sound.once n obj callback passed
    unfold Once at once ⊢
    rw [enqueue_waiting] at once
    rw [hand_handed]
    by_cases call : entry.call = some n
    · obtain ⟨gone, unsent, given, passed', registered⟩ := sound.last call
      obtain rfl : entry.obj = obj := congrArg Prod.fst (Option.some.inj (passed'.symm.trans passed))
      rw [if_pos call, unsent, call]
      exact .inr ⟨gone, _, _, rfl⟩
    · rw [if_neg call, List.append_nil] at once
      rw [if_neg call, List.append_nil]
      exact once
  replies := by
    have replies := sound.replies
    rw [enqueue_waiting] at replies
    rw [hand_handed]
    by_cases call : entry.call = none
    · have named := (sound.unnumbered entry (by rw [enqueue_waiting, if_pos call]; simp)).2
      rw [if_pos call, correctMSG_named named]
      rw [if_pos call] at replies
      simp only [List.map_append, List.map_cons, List.map_nil, List.append_assoc] at replies ⊢
      exact (List.Perm.append_left _ List.perm_append_comm).trans replies
    · rw [if_neg call, List.append_nil] at replies
      rw [if_neg call, List.append_nil]
      exact replies
  registered id n msgFunc found := by
    rcases hand_registered found with before | ⟨callback, named⟩
    · obtain ⟨passed, t, sent, named⟩ := sound.registered id n msgFunc before
      exact ⟨passed, t, mem_hand_handed sent, named⟩
    · obtain ⟨call, passed⟩ := sound.callback callback
      refine ⟨⟨_, passed⟩, ⟨c.state.socket, _, entry.call⟩, ?_, named⟩
      rw [hand_handed, if_pos call]
      exact List.mem_append_right _ (.head _)
  atMostOnce := sound.atMostOnce
  own answer member := by
    obtain ⟨passed, msg, received, named, t, sent, same⟩ := sound.own answer member
    exact ⟨passed, msg, received, named, t, mem_hand_handed sent, same⟩
  notDispatched := sound.notDispatched
  counted := sound.counted
  unused n beyond := by
    obtain ⟨gone, unsent⟩ := sound.unused n beyond
    rw [enqueue_waiting] at gone
    have call : entry.call ≠ some n := by
      intro call
      rw [if_pos call] at gone
      exact absurd gone (List.append_ne_nil_of_right_ne_nil _ (List.cons_ne_nil _ _))
    refine ⟨(List.append_eq_nil_iff.mp gone).1, ?_⟩
    rw [hand_handed, if_neg call, List.append_nil]
    exact unsent
  unnumbered other member := by
    apply sound.unnumbered other
    rw [enqueue_waiting]
    exact List.mem_append_left _ member
  spent answer member id msgFunc found := by
    rcases hand_registered found with before | ⟨callback, _⟩
    · exact sound.spent answer member id msgFunc before
    · have unsent := (sound.last (sound.callback callback).1).2.1
      -- a callback that ran was registered, so its message had left the line before
      obtain ⟨_, _, _, _, t, sent, _⟩ := sound.own answer member
      change t ∈ c.handed (some answer.call) at sent
      rw [unsent] at sent
      contradiction
  heard := sound.heard

theorem Sound.deliver {entry : QueryEntry (ℕ × κ)} (sound : (c.enqueue entry).Sound) (newUUID : UUID) :
    (c.deliver entry newUUID).Sound := by
  rw [deliver_eq]
  split
  · exact sound
  · exact sound.hand newUUID

/-- The rest of the state plays no part. -/
theorem Sound.elsewhere (sound : c.Sound) (connectionID : Option UUID) (socket : ℕ) (readyState : ReadyState)
    (sessionInit : Bool) (eventTo : String → List φ) :
    { c with
      state := { c.state with connectionID, socket, readyState, sessionInit }
      eventTo }.Sound :=
  ⟨⟨sound.once, sound.replies, sound.registered, sound.atMostOnce, sound.own, sound.notDispatched⟩, sound.counted,
    sound.unused, sound.unnumbered, sound.spent, sound.heard⟩

/-! ## Calls of `sendjson` -/

theorem Sound.sendjson (sound : c.Sound) (call : Call κ) : (c.sendjson call).Sound := by
  obtain ⟨obj, callback, newUUID⟩ := call
  let c' : Client κ φ :=
    { c with state := { c.state with calls := c.state.calls + 1 }, passed := c.passed ++ [(obj, callback)] }
  let entry : QueryEntry (ℕ × κ) := ⟨callback.map (c.state.calls, ·), obj, some c.state.calls⟩
  have other {n : ℕ} (different : n ≠ c.state.calls) : (c'.enqueue entry).waiting (some n) = c.waiting (some n) := by
    rw [enqueue_waiting, if_neg (fun same => different (Option.some.inj same).symm), List.append_nil]
    rfl
  have counted : (c.passed ++ [(obj, callback)]).length = c.state.calls + 1 := by
    rw [List.length_append, sound.counted, List.length_singleton]
  have earlier (n : ℕ) (given : Msg × Option κ) (passed : c.passed[n]? = some given) :
      (c.passed ++ [(obj, callback)])[n]? = some given := getElem?_append_some passed _
  have enqueued : (c'.enqueue entry).Sound := {
    once := by
      intro n obj' callback' passed
      obtain ⟨below, _⟩ := List.getElem?_eq_some_iff.mp passed
      rcases Nat.lt_succ_iff_lt_or_eq.mp (counted ▸ below) with before | rfl
      · have once := sound.once n obj' callback' (by rwa [← List.getElem?_append_left (sound.counted ▸ before)])
        unfold Once
        rw [other before.ne]
        exact once
      · have new : (obj, callback) = (obj', callback') := by
          change (c.passed ++ [(obj, callback)])[c.state.calls]? = _ at passed
          rw [← sound.counted, List.getElem?_concat_length] at passed
          exact Option.some.inj passed
        cases new
        obtain ⟨nothing, unsent⟩ := sound.unused c.state.calls le_rfl
        refine .inl ⟨?_, unsent⟩
        rw [enqueue_waiting, if_pos rfl, show c'.waiting (some c.state.calls) = [] from nothing]
        rfl
    replies := by
      rw [enqueue_waiting, if_neg (Option.some_ne_none _), List.append_nil]
      exact sound.replies
    registered := by
      intro id n msgFunc found
      obtain ⟨⟨obj', passed⟩, sent⟩ := sound.registered id n msgFunc found
      exact ⟨⟨obj', earlier _ _ passed⟩, sent⟩
    atMostOnce := sound.atMostOnce
    own := by
      intro answer member
      obtain ⟨⟨obj', passed⟩, sent⟩ := sound.own answer member
      exact ⟨⟨obj', earlier _ _ passed⟩, sent⟩
    notDispatched := sound.notDispatched
    counted := counted
    unused := by
      intro n beyond
      rw [other (Nat.ne_of_gt beyond)]
      exact sound.unused n (Nat.le_of_succ_le beyond)
    unnumbered := by
      rw [enqueue_waiting, if_neg (Option.some_ne_none _), List.append_nil]
      exact sound.unnumbered
    spent := sound.spent
    heard := sound.heard }
  exact enqueued.deliver newUUID

theorem Sound.retry (sound : c.Sound) (newUUID : UUID) : { c with state := c.state.retry newUUID }.Sound := by
  unfold State.retry
  cases last : c.state.query.getLast? with
  | none => exact sound
  | some entry =>
    have enqueued : (enqueue { c with state := { c.state with query := c.state.query.dropLast } } entry) = c := by
      unfold enqueue
      rw [show c.state.query.dropLast ++ [entry] = c.state.query from List.dropLast_append_getLast? _ last]
    exact Sound.deliver (enqueued.symm ▸ sound) newUUID

/-- Between the two states `sendjson` was called. -/
structure Calls (c c' : Client κ φ) : Prop where
  passed (n : ℕ) (given : Msg × Option κ) : c.passed[n]? = some given → c'.passed[n]? = some given
  handed : ∀ call, ∀ t ∈ c.handed call, t ∈ c'.handed call
  ran : c'.ran = c.ran
  received : c'.received = c.received
  dispatched : c'.dispatched = c.dispatched

theorem calls_sendjson (call : Call κ) : Calls c (c.sendjson call) where
  passed n given passed := getElem?_append_some passed _
  handed number t member := by
    obtain ⟨sent, numbered⟩ := List.mem_filter.mp member
    refine List.mem_filter.mpr ⟨?_, numbered⟩
    change t ∈ (c.state.call call.obj (call.callback.map (c.state.calls, ·)) call.newUUID).sent
    rw [State.call, State.sendjson_sent]
    split
    · exact sent
    · exact List.mem_append_left _ sent
  ran := rfl
  received := rfl
  dispatched := rfl

theorem calls_foldl (calls : List (Call κ)) : Calls c (calls.foldl sendjson c) := by
  induction calls generalizing c with
  | nil => exact ⟨fun _ _ passed => passed, fun _ _ member => member, rfl, rfl, rfl⟩
  | cons call rest ih =>
    have first : Calls c (c.sendjson call) := calls_sendjson call
    have later : Calls (c.sendjson call) (rest.foldl sendjson (c.sendjson call)) := ih
    exact ⟨fun n given passed => later.passed n given (first.passed n given passed),
      fun number t member => later.handed number t (first.handed number t member), later.ran.trans first.ran,
      later.received.trans first.received, later.dispatched.trans first.dispatched⟩

theorem Sound.foldl (sound : c.Sound) (calls : List (Call κ)) : (calls.foldl Client.sendjson c).Sound := by
  induction calls generalizing c with
  | nil => exact sound
  | cons call rest ih => exact ih (sound.sendjson call)

/-- Which callbacks ran does not matter to the calls. -/
theorem foldl_ran (ran : List (Answer κ)) (calls : List (Call κ)) :
    calls.foldl sendjson { c with ran } = { calls.foldl sendjson c with ran } := by
  induction calls generalizing c with
  | nil => rfl
  | cons call rest ih => exact ih (c := c.sendjson call)

/-! ## Messages that come in -/

theorem Sound.receive (sound : c.Sound) (msg : Msg) : { c with received := c.received ++ [msg] }.Sound where
  once := sound.once
  replies := sound.replies
  registered := sound.registered
  atMostOnce := sound.atMostOnce
  own answer member := by
    obtain ⟨passed, msg, received, rest⟩ := sound.own answer member
    exact ⟨passed, msg, getElem?_append_some received _, rest⟩
  notDispatched := sound.notDispatched
  counted := sound.counted
  unused := sound.unused
  unnumbered := sound.unnumbered
  spent := sound.spent
  heard handler member := (sound.heard handler member).trans_le (by simp)

/-- The session is sent as any other message, but nothing waits for an answer to it. -/
theorem Sound.asked (sound : c.Sound) (msg : Msg) (newUUID : UUID) :
    { c with
      state := c.state.onmessage { msg with subject := "session_init" } newUUID
      replies := c.replies ++
        [{ msg with subject := "session_init", id := some (c.state.connectionID.getD newUUID) }] }.Sound := by
  let reply : Msg := { msg with subject := "session_init", id := some (c.state.connectionID.getD newUUID) }
  let c' : Client κ φ := { c with
    state := { c.state with connectionID := some (c.state.connectionID.getD newUUID) }
    replies := c.replies ++ [reply] }
  let entry : QueryEntry (ℕ × κ) := ⟨none, reply, none⟩
  have numbered (n : ℕ) : (c'.enqueue entry).waiting (some n) = c.waiting (some n) := by
    rw [enqueue_waiting, if_neg (Option.some_ne_none n).symm, List.append_nil]
    rfl
  have unnumbered : (c'.enqueue entry).waiting none = c.waiting none ++ [entry] := by
    rw [enqueue_waiting, if_pos rfl]
    rfl
  have enqueued : (c'.enqueue entry).Sound := {
    once := by
      intro n obj callback passed
      unfold Once
      rw [numbered]
      exact sound.once n obj callback passed
    replies := by
      rw [unnumbered, List.map_append, List.append_assoc]
      refine (List.Perm.append_left _ List.perm_append_comm).trans ?_
      rw [← List.append_assoc]
      exact sound.replies.append_right _
    registered := sound.registered
    atMostOnce := sound.atMostOnce
    own := sound.own
    notDispatched := sound.notDispatched
    counted := sound.counted
    unused := by
      intro n beyond
      rw [numbered]
      exact sound.unused n beyond
    unnumbered := by
      rw [unnumbered]
      intro other member
      rcases List.mem_append.mp member with before | new
      · exact sound.unnumbered other before
      · rw [List.mem_singleton.mp new]
        exact ⟨rfl, rfl⟩
    spent := sound.spent
    heard := sound.heard }
  have sent := (enqueued.deliver newUUID).elsewhere
  rw [State.onmessage, if_pos rfl]
  exact sent _ _ _ true _

/-- The callback of a message runs on the answer, and is forgotten. -/
theorem Sound.answered (sound : c.Sound) {id : UUID} {call : ℕ} {msgFunc : κ} {message : ℕ} {msg : Msg}
    (passed : ∃ obj, c.passed[call]? = some (obj, some msgFunc))
    (sent : ∃ t ∈ c.handed (some call), t.msg.id = some id) (received : c.received[message]? = some msg)
    (named : msg.id = some id) (first : call ∉ c.ran.map (·.call))
    (only : ∀ handler ∈ c.dispatched, handler.2 ≠ message) :
    { c with
      ran := c.ran ++ [Answer.mk call msgFunc message]
      state := { c.state with eventMSGID := Function.update c.state.eventMSGID id none } }.Sound := by
  have kept (id' : UUID) (known : ℕ × κ) (found : Function.update c.state.eventMSGID id none id' = some known) :
      id' ≠ id ∧ c.state.eventMSGID id' = some known := by
    by_cases same : id' = id
    · rw [same, Function.update_self] at found
      contradiction
    · rw [Function.update_of_ne same] at found
      exact ⟨same, found⟩
  exact {
    once := sound.once
    replies := sound.replies
    registered := by
      intro id' n msgFunc found
      exact sound.registered id' n msgFunc (kept id' _ found).2
    atMostOnce := by
      rw [List.map_append]
      refine List.nodup_append.mpr ⟨sound.atMostOnce, List.nodup_singleton _, ?_⟩
      intro earlier member latest new same
      rw [same, List.mem_singleton.mp new] at member
      exact first member
    own := by
      intro answer member
      rcases List.mem_append.mp member with before | new
      · exact sound.own answer before
      · rw [List.mem_singleton.mp new]
        obtain ⟨t, sent, same⟩ := sent
        exact ⟨passed, msg, received, named ▸ rfl, t, sent, same.trans named.symm⟩
    notDispatched := by
      intro answer member handler dispatched
      rcases List.mem_append.mp member with before | new
      · exact sound.notDispatched answer before handler dispatched
      · rw [List.mem_singleton.mp new]
        exact only handler dispatched
    counted := sound.counted
    unused := sound.unused
    unnumbered := sound.unnumbered
    spent := by
      intro answer member id' msgFunc found
      obtain ⟨other, found⟩ := kept id' _ found
      rcases List.mem_append.mp member with before | new
      · exact sound.spent answer before id' msgFunc found
      · rw [List.mem_singleton.mp new] at found
        -- its message was sent once, so the callback was registered for one id
        obtain ⟨_, t', sent', named'⟩ := sound.registered id' call msgFunc found
        obtain ⟨t, sent, named⟩ := sent
        obtain ⟨obj, passed⟩ := passed
        rcases sound.once call obj _ passed with ⟨_, unsent⟩ | ⟨_, socket, newUUID, once⟩
        · rw [unsent] at sent
          contradiction
        · rw [once] at sent sent'
          rw [List.mem_singleton.mp sent] at named
          rw [List.mem_singleton.mp sent'] at named'
          exact other (Option.some.inj (named'.symm.trans named))
    heard := sound.heard }

theorem Sound.dispatch (sound : c.Sound) (eventFuncs : List φ) {message : ℕ} (heard : message < c.received.length)
    (unanswered : ∀ answer ∈ c.ran, answer.message ≠ message) :
    { c with dispatched := c.dispatched ++ eventFuncs.map (·, message) }.Sound where
  once := sound.once
  replies := sound.replies
  registered := sound.registered
  atMostOnce := sound.atMostOnce
  own := sound.own
  notDispatched answer member handler dispatched := by
    rcases List.mem_append.mp dispatched with before | new
    · exact sound.notDispatched answer member handler before
    · obtain ⟨func, _, rfl⟩ := List.mem_map.mp new
      exact (unanswered answer member).symm
  counted := sound.counted
  unused := sound.unused
  unnumbered := sound.unnumbered
  spent := sound.spent
  heard handler dispatched := by
    rcases List.mem_append.mp dispatched with before | new
    · exact sound.heard handler before
    · obtain ⟨func, _, rfl⟩ := List.mem_map.mp new
      exact heard

theorem Sound.onmessage (sound : c.Sound) (msg : Msg) (newUUID : UUID) (calls : List (Call κ)) :
    (c.onmessage msg newUUID calls).Sound := by
  have received := sound.receive msg
  have earlier (answer : Answer κ) (member : answer ∈ c.ran) : answer.message ≠ c.received.length := by
    obtain ⟨_, _, received, _⟩ := sound.own answer member
    exact (List.getElem?_eq_some_iff.mp received).1.ne
  have latest : c.received.length < (c.received ++ [msg]).length := by simp
  have dispatched : (let eventFuncs := c.eventTo msg.subject
      if eventFuncs.isEmpty then { c with received := c.received ++ [msg] }
      else calls.foldl Client.sendjson
        { c with
          received := c.received ++ [msg]
          dispatched := c.dispatched ++ eventFuncs.map (·, c.received.length) }).Sound := by
    change (if (c.eventTo msg.subject).isEmpty then _ else _ : Client κ φ).Sound
    split
    · exact received
    · exact (received.dispatch _ latest earlier).foldl calls
  unfold Client.onmessage
  split
  · next asks =>
    have asked := received.asked msg newUUID
    rw [← asks] at asked
    exact asked
  · cases named : msg.id with
    | none => exact dispatched
    | some id =>
      cases found : c.state.eventMSGID id with
      | none =>
        simp only [Option.bind_some, found]
        exact dispatched
      | some known =>
        obtain ⟨call, msgFunc⟩ := known
        simp only [Option.bind_some, found]
        let c' : Client κ φ := { c with received := c.received ++ [msg] }
        have more : Calls c' (calls.foldl Client.sendjson c') := calls_foldl calls
        obtain ⟨⟨obj, passed⟩, t, sent, same⟩ := sound.registered id call msgFunc found
        rw [foldl_ran (c := c')]
        rw [← more.ran]
        apply (received.foldl calls).answered
        · exact ⟨obj, more.passed _ _ passed⟩
        · exact ⟨t, more.handed _ t sent, same⟩
        · rw [more.received]
          exact List.getElem?_concat_length
        · exact named
        · rw [more.ran]
          intro before
          obtain ⟨answer, member, rfl⟩ := List.mem_map.mp before
          exact sound.spent answer member id msgFunc found
        · rw [more.dispatched]
          exact fun handler member => (sound.heard handler member).ne

/-! ## Runs -/

theorem Sound.step (sound : c.Sound) (event : Event κ φ) : (c.step event).Sound := by
  cases event with
  | sendjson call => exact sound.sendjson call
  | opened newUUID newUUID' => exact ((sound.elsewhere _ _ .opened _ _).sendjson _).sendjson _
  | message msg newUUID calls => exact sound.onmessage msg newUUID calls
  | closing => exact sound.elsewhere _ _ .closing _ _
  | error => exact sound.elsewhere _ _ _ _ _
  | closed => exact sound.elsewhere _ _ .closed _ _
  | reconnect => exact sound.elsewhere _ _ .connecting _ _
  | retry newUUID => exact sound.retry newUUID
  | setEvent subject func => exact sound.elsewhere _ _ _ _ _
  | addEvent subject func => exact sound.elsewhere _ _ _ _ _
  | delEvent subject => exact sound.elsewhere _ _ _ _ _

theorem sound_initial (stored : Option UUID) : (initial stored : Client κ φ).Sound where
  once n obj callback passed := by contradiction
  replies := .nil
  registered id n msgFunc found := by contradiction
  atMostOnce := .nil
  own := List.forall_mem_nil _
  notDispatched := List.forall_mem_nil _
  counted := rfl
  unused _ _ := ⟨rfl, rfl⟩
  unnumbered := List.forall_mem_nil _
  spent := List.forall_mem_nil _
  heard := List.forall_mem_nil _

theorem run_nothingLost (stored : Option UUID) (events : List (Event κ φ)) :
    ((initial stored).run events).NothingLost := by
  have sound (c : Client κ φ) (begun : c.Sound) : (c.run events).Sound := by
    induction events generalizing c with
    | nil => exact begun
    | cons event rest ih => exact ih (c.step event) (begun.step event)
  exact (sound _ (sound_initial stored)).toNothingLost

end FreifunkManager.Socket.Client
