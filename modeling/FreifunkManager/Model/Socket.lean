import FreifunkManager.Model.Operations
import Mathlib.Logic.Function.Basic

/-! # The connection of a client

The client has one WebSocket at a time and opens the next one some time after the last was closed. A message
waits in `query` until the socket is open and the session was announced; a timer takes the waiting messages
out again, the latest first. What callbacks do is not modelled, except that they may send messages as every
other part of the client. What the server receives is in `sent`, in order.
-/

namespace FreifunkManager.Socket

/-- A message of a client or of the server; an id that was not given yet is `none`. -/
structure Msg where
  id : Option UUID := none
  subject : String
  body : Json := .null

/-- The value of `readyState`. -/
inductive ReadyState where
  | connecting | opened | closing | closed
deriving DecidableEq

/-- A message that waits; `call` numbers the calls of `sendjson` by everyone but the handler of `session_init`. -/
structure QueryEntry (κ : Type) where
  callback : Option κ
  obj : Msg
  call : Option ℕ

/-- A message on a WebSocket. -/
structure Transmission where
  socket : ℕ
  msg : Msg
  call : Option ℕ

structure State (κ : Type) where
  /-- The session of the client, which is kept in the local storage. -/
  connectionID : Option UUID
  /-- How many WebSockets there were before the present one. -/
  socket : ℕ := 0
  readyState : ReadyState := .connecting
  sessionInit : Bool := false
  query : List (QueryEntry κ) := []
  eventMSGID : UUID → Option κ := fun _ => none
  calls : ℕ := 0
  sent : List Transmission := []

variable {κ : Type}

def correctMSG (obj : Msg) (newUUID : UUID) : Msg :=
  if obj.id.isNone then { obj with id := some newUUID } else obj

namespace State

variable (s : State κ)

/-- A message of this subject would wait. -/
def waits (subject : String) : Bool :=
  s.readyState != .opened || (!s.sessionInit && subject != "session_init")

def sendjson (obj : Msg) (callback : Option κ) (call : Option ℕ) (newUUID : UUID) : State κ :=
  if s.waits obj.subject then { s with query := s.query ++ [{ callback, obj, call }] }
  else
    let obj := correctMSG obj newUUID
    { s with
      sent := s.sent ++ [{ socket := s.socket, msg := obj, call }]
      eventMSGID := callback.elim s.eventMSGID fun _ => Function.update s.eventMSGID (obj.id.getD newUUID) callback }

section Sendjson

variable (obj : Msg) (callback : Option κ) (call : Option ℕ) (newUUID : UUID)

@[simp] theorem sendjson_connectionID : (s.sendjson obj callback call newUUID).connectionID = s.connectionID := by
  unfold sendjson
  split <;> rfl

@[simp] theorem sendjson_socket : (s.sendjson obj callback call newUUID).socket = s.socket := by
  unfold sendjson
  split <;> rfl

@[simp] theorem sendjson_readyState : (s.sendjson obj callback call newUUID).readyState = s.readyState := by
  unfold sendjson
  split <;> rfl

@[simp] theorem sendjson_sessionInit : (s.sendjson obj callback call newUUID).sessionInit = s.sessionInit := by
  unfold sendjson
  split <;> rfl

@[simp] theorem sendjson_calls : (s.sendjson obj callback call newUUID).calls = s.calls := by
  unfold sendjson
  split <;> rfl

@[simp] theorem sendjson_query : (s.sendjson obj callback call newUUID).query =
    if s.waits obj.subject then s.query ++ [⟨callback, obj, call⟩] else s.query := by
  unfold sendjson
  split <;> rfl

@[simp] theorem sendjson_sent : (s.sendjson obj callback call newUUID).sent =
    if s.waits obj.subject then s.sent
    else s.sent ++ [{ socket := s.socket, msg := correctMSG obj newUUID, call }] := by
  unfold sendjson
  split <;> rfl

end Sendjson

/-- A call of `sendjson` gets the next number. -/
def call (obj : Msg) (callback : Option κ) (newUUID : UUID) : State κ :=
  { s with calls := s.calls + 1 }.sendjson obj callback (some s.calls) newUUID

def onopen (newUUID newUUID' : UUID) : State κ :=
  (s.call { subject := "auth_status" } none newUUID).call { subject := "connect" } none newUUID'

def onerror : State κ :=
  { s with readyState := if s.readyState = .closed then .closed else .closing }

def onmessage (msg : Msg) (newUUID : UUID) : State κ :=
  if msg.subject = "session_init" then
    let connectionID := s.connectionID.getD newUUID
    let s := { s with connectionID := some connectionID }
    { s.sendjson { msg with id := some connectionID } none none newUUID with sessionInit := true }
  else
    match msg.id with
    | some id => { s with eventMSGID := Function.update s.eventMSGID id none }
    | none => s

def onclose : State κ := { s with readyState := .closed }

def connect : State κ := { s with socket := s.socket + 1, readyState := .connecting }

/-- The timer takes the message that was put last. -/
def retry (newUUID : UUID) : State κ :=
  match s.query.getLast? with
  | some entry =>
    { s with query := s.query.dropLast }.sendjson entry.obj entry.callback entry.call newUUID
  | none => s

end State

/-- What happens to a client; new ids are given from outside. -/
inductive Event (κ : Type) where
  | sendjson (obj : Msg) (callback : Option κ) (newUUID : UUID)
  | opened (newUUID newUUID' : UUID)
  | message (msg : Msg) (newUUID : UUID)
  /-- The closing handshake begins. -/
  | closing
  | error
  | closed
  /-- The timer after a close. -/
  | reconnect
  | retry (newUUID : UUID)

namespace Event

/-- The browser opens a socket that is connecting, delivers messages on an open one, and closes it once. The
views of the client never send a `session_init`. -/
def Possible (s : State κ) : Event κ → Prop
  | .sendjson obj .. => obj.subject ≠ "session_init"
  | .opened .. => s.readyState = .connecting
  | .message .. => s.readyState = .opened
  | .closing => s.readyState = .connecting ∨ s.readyState = .opened
  | .error | .retry _ => True
  | .closed => s.readyState ≠ .closed
  | .reconnect => s.readyState = .closed

instance (s : State κ) : (event : Event κ) → Decidable (event.Possible s)
  | .sendjson obj .. => inferInstanceAs (Decidable (obj.subject ≠ _))
  | .opened .. => inferInstanceAs (Decidable (s.readyState = _))
  | .message .. => inferInstanceAs (Decidable (s.readyState = _))
  | .closing => inferInstanceAs (Decidable (_ ∨ _))
  | .error => inferInstanceAs (Decidable True)
  | .retry _ => inferInstanceAs (Decidable True)
  | .closed => inferInstanceAs (Decidable (s.readyState ≠ _))
  | .reconnect => inferInstanceAs (Decidable (s.readyState = _))

/-- The message with which the server asks for the session. -/
def isSessionInit : Event κ → Bool
  | .message msg _ => msg.subject = "session_init"
  | _ => false

def isOpen : Event κ → Bool
  | .opened .. => true
  | _ => false

end Event

def step (s : State κ) : Event κ → State κ
  | .sendjson obj callback newUUID => s.call obj callback newUUID
  | .opened newUUID newUUID' => { s with readyState := .opened }.onopen newUUID newUUID'
  | .message msg newUUID => s.onmessage msg newUUID
  | .closing => { s with readyState := .closing }
  | .error => s.onerror
  | .closed => s.onclose
  | .reconnect => s.connect
  | .retry newUUID => s.retry newUUID

/-- The client after its scripts were loaded, with what is in the local storage. -/
def initial (stored : Option UUID) : State κ := { connectionID := stored }

/-- A run from a state; `none` if the browser cannot do this. -/
def run (s : State κ) : List (Event κ) → Option (State κ)
  | [] => some s
  | event :: rest => if event.Possible s then run (step s event) rest else none

end FreifunkManager.Socket
