import FreifunkManager.Model.Socket

/-! # What a client does with the messages it receives

The callback of a message runs on the answer to it, and the handlers of a subject run on the other messages. A
callback is kept with the number of its call of `sendjson`. What a callback or a handler does is not modelled,
except that it may call `sendjson` itself; none of them changes which handlers there are.
-/

namespace FreifunkManager.Socket

/-- A call of `sendjson` with an object of its own. -/
structure Call (κ : Type) where
  obj : Msg
  callback : Option κ
  newUUID : UUID

/-- A callback that ran, and for which of the messages received. -/
structure Answer (κ : Type) where
  call : ℕ
  msgFunc : κ
  message : ℕ

structure Client (κ φ : Type) where
  state : State (ℕ × κ)
  eventTo : String → List φ := fun _ => []
  /-- What `sendjson` was called with, in order. -/
  passed : List (Msg × Option κ) := []
  /-- What the handler of `session_init` called `sendjson` with. -/
  replies : List Msg := []
  received : List Msg := []
  ran : List (Answer κ) := []
  /-- The handlers that ran, each for one of the messages received. -/
  dispatched : List (φ × ℕ) := []

namespace Client

variable {κ φ : Type} (c : Client κ φ)

def sendjson (call : Call κ) : Client κ φ :=
  { c with
    state := c.state.call call.obj (call.callback.map (c.state.calls, ·)) call.newUUID
    passed := c.passed ++ [(call.obj, call.callback)] }

def onopen (newUUID newUUID' : UUID) : Client κ φ :=
  (c.sendjson ⟨{ subject := "auth_status" }, none, newUUID⟩).sendjson ⟨{ subject := "connect" }, none, newUUID'⟩

/-- `calls` are the calls of `sendjson` by the callback or the handlers, if any of them run. -/
def onmessage (msg : Msg) (newUUID : UUID) (calls : List (Call κ)) : Client κ φ :=
  let message := c.received.length
  let c := { c with received := c.received ++ [msg] }
  if msg.subject = "session_init" then
    { c with
      state := c.state.onmessage msg newUUID
      replies := c.replies ++ [{ msg with id := some (c.state.connectionID.getD newUUID) }] }
  else
    match msg.id, msg.id.bind c.state.eventMSGID with
    | some id, some (call, msgFunc) =>
      let c := calls.foldl sendjson { c with ran := c.ran ++ [⟨call, msgFunc, message⟩] }
      { c with state := { c.state with eventMSGID := Function.update c.state.eventMSGID id none } }
    | _, _ =>
      let eventFuncs := c.eventTo msg.subject
      if eventFuncs.isEmpty then c
      else calls.foldl sendjson { c with dispatched := c.dispatched ++ eventFuncs.map (·, message) }

def setEvent (subject : String) (func : φ) : Client κ φ :=
  { c with eventTo := Function.update c.eventTo subject [func] }

def addEvent (subject : String) (func : φ) : Client κ φ :=
  { c with eventTo := Function.update c.eventTo subject (c.eventTo subject ++ [func]) }

/-- The handler that was added last is the one that goes. -/
def delEvent (subject : String) : Client κ φ :=
  { c with eventTo := Function.update c.eventTo subject (c.eventTo subject).dropLast }

/-- What happens to a client. -/
inductive Event (κ φ : Type) where
  | sendjson (call : Call κ)
  | opened (newUUID newUUID' : UUID)
  | message (msg : Msg) (newUUID : UUID) (calls : List (Call κ))
  | closing
  | error
  | closed
  | reconnect
  | retry (newUUID : UUID)
  | setEvent (subject : String) (func : φ)
  | addEvent (subject : String) (func : φ)
  | delEvent (subject : String)

def step : Event κ φ → Client κ φ
  | .sendjson call => c.sendjson call
  | .opened newUUID newUUID' => { c with state := { c.state with readyState := .opened } }.onopen newUUID newUUID'
  | .message msg newUUID calls => c.onmessage msg newUUID calls
  | .closing => { c with state := { c.state with readyState := .closing } }
  | .error => { c with state := c.state.onerror }
  | .closed => { c with state := c.state.onclose }
  | .reconnect => { c with state := c.state.connect }
  | .retry newUUID => { c with state := c.state.retry newUUID }
  | .setEvent subject func => c.setEvent subject func
  | .addEvent subject func => c.addEvent subject func
  | .delEvent subject => c.delEvent subject

/-- The client after its scripts were loaded, with what is in the local storage. -/
def initial (stored : Option UUID) : Client κ φ := { state := Socket.initial stored }

def run : List (Event κ φ) → Client κ φ := List.foldl step c

/-! ## The connection alone -/

/-- Calls of `sendjson` from the number `n` on. -/
def Event.calls : ℕ → List (Call κ) → List (Socket.Event (ℕ × κ))
  | _, [] => []
  | n, call :: rest => .sendjson call.obj (call.callback.map (n, ·)) call.newUUID :: calls (n + 1) rest

/-- What an event is for the connection. -/
def plain : Event κ φ → List (Socket.Event (ℕ × κ))
  | .sendjson call => Event.calls c.state.calls [call]
  | .opened newUUID newUUID' => [.opened newUUID newUUID']
  | .message msg newUUID calls =>
    if msg.subject = "session_init" then [.message msg newUUID]
    else if (msg.id.bind c.state.eventMSGID).isSome then Event.calls c.state.calls calls ++ [.message msg newUUID]
    else if (c.eventTo msg.subject).isEmpty then [.message msg newUUID]
    else .message msg newUUID :: Event.calls c.state.calls calls
  | .closing => [.closing]
  | .error => [.error]
  | .closed => [.closed]
  | .reconnect => [.reconnect]
  | .retry newUUID => [.retry newUUID]
  | .setEvent .. | .addEvent .. | .delEvent _ => []

variable {c}

theorem foldl_sendjson_state (calls : List (Call κ)) :
    (calls.foldl sendjson c).state = (Event.calls c.state.calls calls).foldl Socket.step c.state := by
  induction calls generalizing c with
  | nil => rfl
  | cons call rest ih =>
    have next : (c.sendjson call).state.calls = c.state.calls + 1 := State.sendjson_calls ..
    rw [List.foldl_cons, ih, next]
    rfl

/-- To the connection a message is nothing but its id, unless it asks for the session. -/
theorem onmessage_eq_self {s : State (ℕ × κ)} {msg : Msg} (other : msg.subject ≠ "session_init")
    (unknown : msg.id.bind s.eventMSGID = none) (newUUID : UUID) : s.onmessage msg newUUID = s := by
  rw [State.onmessage, if_neg other]
  cases named : msg.id with
  | none => rfl
  | some id =>
    rw [named] at unknown
    have nothing : Function.update s.eventMSGID id none = s.eventMSGID := Function.update_eq_self_iff.mpr unknown.symm
    change { s with eventMSGID := Function.update s.eventMSGID id none } = s
    rw [nothing]

/-- With its callbacks and handlers the connection does what it does without them. -/
theorem step_state (event : Event κ φ) : (c.step event).state = (c.plain event).foldl Socket.step c.state := by
  cases event with
  | message msg newUUID calls =>
    by_cases asks : msg.subject = "session_init"
    · simp only [step, plain, onmessage, asks, if_pos, List.foldl_cons, List.foldl_nil, Socket.step]
    · cases named : msg.id with
      | none =>
        have same : c.state.onmessage msg newUUID = c.state := onmessage_eq_self asks (by rw [named]; rfl) _
        simp only [step, plain, onmessage, asks, named, Option.bind_none, if_false, Option.isSome_none,
          Bool.false_eq_true]
        split
        · exact same.symm
        · rw [foldl_sendjson_state, List.foldl_cons, Socket.step, same]
      | some id =>
        cases found : c.state.eventMSGID id with
        | none =>
          have same : c.state.onmessage msg newUUID = c.state := onmessage_eq_self asks (by rw [named]; exact found) _
          simp only [step, plain, onmessage, asks, named, Option.bind_some, found, if_false, Option.isSome_none,
            Bool.false_eq_true]
          split
          · exact same.symm
          · rw [foldl_sendjson_state, List.foldl_cons, Socket.step, same]
        | some known =>
          simp only [step, plain, onmessage, asks, named, Option.bind_some, found, if_false, Option.isSome_some,
            if_true, List.foldl_append, List.foldl_cons, List.foldl_nil, Socket.step, State.onmessage]
          rw [foldl_sendjson_state]
  | _ => rfl

end Client

end FreifunkManager.Socket
