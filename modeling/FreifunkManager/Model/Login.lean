import FreifunkManager.Model.System

/-! # A page and its session

The menu of a page shows whether the session is logged in, and the settings show the flag of the pings. Both are kept
by the page itself, which changes them when its requests are answered. Requests may wait in the page and overtake each
other, but answers come in the order in which they were given. A connection may be lost with everything on it; on
the next one the page asks for its state. When the server gets to know the session of a connection is decided outside;
a request that it handles before has no session.
-/

namespace FreifunkManager.Login

/-- What a page asks the server for. `settings` carries the flag that was chosen. -/
inductive Request where
  | login (secret : Option String)
  | logout
  | settings (ping : Bool)
  | authStatus
  | connect
  | node (body : Json)

namespace Request

def subject : Request → String
  | .login _ => MessageType.login
  | .logout => MessageType.logout
  | .settings _ => MessageType.settings
  | .authStatus => MessageType.authStatus
  | .connect => MessageType.connect
  | .node _ => MessageType.node

def body : Request → Json
  | .login (some secret) => .string secret
  | .settings ping => .object [("ping", .bool ping)]
  | .node body => body
  | _ => .null

def message (session : UUID) (request : Request) : Message where
  session := session
  subject := request.subject
  body := request.body

end Request

/-- What counts as true in a condition. -/
def truthy : Body → Bool
  | .bool value => value
  | _ => true

/-- The flag in a body that is taken for the settings. -/
def ping : Body → Bool
  | .session session => session.ping
  | _ => false

structure Page where
  /-- What is typed for the secret. -/
  loginInput : Option String := none
  isLogin : Bool := false
  /-- The flag in the settings of the store, which are undefined at first. -/
  settings : Option Bool := none
  /-- The checkbox of the settings. -/
  checked : Bool := false
deriving DecidableEq

namespace Page

variable (page : Page)

/-- The callback of a request, or for `authStatus` the handler of its subject. -/
def answered (request : Request) (body : Body) : Page :=
  match request with
  | .login _ => if truthy body then { page with settings := some (ping body), isLogin := true } else page
  | .logout => if truthy body then { page with isLogin := false } else page
  | .settings copySettings => if truthy body then { page with settings := some copySettings } else page
  | .authStatus =>
    if truthy body then { page with settings := some (ping body), isLogin := true } else { page with isLogin := false }
  | .connect | .node _ => page

/-- `SettingsView.render`. -/
def render : Page :=
  match page.settings with
  | some ping => { page with checked := ping }
  | none => page

end Page

structure State where
  world : World
  page : Page := {}
  connected : Bool := false
  /-- Not handled yet; any of them may be next. -/
  requests : List Request := []
  /-- On the way to the page, in order. -/
  answers : List (Request × Body) := []

inductive Event where
  | loginTyping (value : String)
  | login
  | logout
  /-- The checkbox of the settings is set. -/
  | updateSettings (checked : Bool)
  | sendnode (body : Json)
  | render
  | onopen
  /-- What is on the connection is lost; the requests that still wait in the page stay. -/
  | onclose (stays : ℕ → Bool)
  /-- The server handles a request, with the session if it is known already. -/
  | handle (i : ℕ) (known : Bool) (choices : ℕ → Choice)
  /-- The next answer arrives. -/
  | onmessage
  /-- The server handles another call. -/
  | other (step : Step)

/-- What a client was answered in the course of a call. -/
def replies (before after : World) : List Body :=
  ((after.log.take (after.log.length - before.log.length)).filterMap fun e =>
    match e.op with
    | .answer _ body => some body
    | _ => none).reverse

section Run

variable (config : Config) (session : UUID)

def State.ask (s : State) (request : Request) : State := { s with requests := s.requests ++ [request] }

/-- The server handles one of the requests. -/
def State.handle (s : State) (i : ℕ) (request : Request) (known : Bool) (choices : ℕ → Choice) : State :=
  let msg := request.message (if known then session else UUID.nil)
  let (after, _) := serve config { call := .message msg, choices } s.world
  { s with
    world := after
    requests := s.requests.eraseIdx i
    answers := s.answers ++ (replies s.world after).map (request, ·) }

def State.step (s : State) : Event → Option State
  | .loginTyping value => some { s with page := { s.page with loginInput := some value } }
  | .login => some { s.ask (.login s.page.loginInput) with page := { s.page with loginInput := some "" } }
  | .logout => some (s.ask .logout)
  | .updateSettings checked => some { s.ask (.settings checked) with page := { s.page with checked } }
  | .sendnode body => some (s.ask (.node body))
  | .render => some { s with page := s.page.render }
  | .onopen => if s.connected then none else some { (s.ask .authStatus).ask .connect with connected := true }
  | .onclose stays =>
    let requests := (s.requests.zipIdx.filter fun entry => stays entry.2).map Prod.fst
    some { s with connected := false, requests, answers := [] }
  | .handle i known choices =>
    match s.requests[i]? with
    | some request => if s.connected then some (s.handle config session i request known choices) else none
    | none => none
  | .onmessage =>
    match s.answers with
    | [] => none
    | (request, body) :: rest => some { s with page := s.page.answered request body, answers := rest }
  | .other step =>
    match serve config step s.world with
    | (after, true) => some { s with world := after }
    | (_, false) => none

def State.run (s : State) : List Event → Option State
  | [] => some s
  | event :: rest => (s.step config session event).bind fun next => next.run rest

end Run

end FreifunkManager.Login
