import FreifunkManager.Model.Operations

/-! # Handling the messages of clients

A client has a session id of its own choice; a session is logged in when it has a row. The handlers
guard the nil id, which is the blank key of the sessions table. Errors that are only logged are left
out.
-/

namespace FreifunkManager

open Effects

namespace MessageType

def connect := "connect"
def login := "login"
def authStatus := "auth_status"
def settings := "settings"
def logout := "logout"
def channelsWifi24 := "channels_wifi24"
def channelsWifi5 := "channels_wifi5"
def node := "node"

end MessageType

variable (config : Config) (msg : Message)

def isLoggedIn : Prog (Option Session) := do
  if msg.session = UUID.nil then return none
  match ← perform (.firstSession msg.session) with
  | some session =>
    let session := { session with lastseen := some (← perform (.now .isLoggedIn)) }
    let _ ← perform (.saveSession session)
    return some session
  | none => return none

def loginHandler : Prog Unit := do
  if msg.session = UUID.nil then return
  match ← perform (.firstSession msg.session) with
  | some session =>
    perform (.answer msg.subject (.session session))
    let session := { session with lastseen := some (← perform (.now .login)) }
    let _ ← perform (.saveSession session)
  | none =>
    match msg.body with
    | .string secret =>
      if config.secret = secret then
        let session : Session := { sessionID := msg.session, lastseen := some (← perform (.now .login)) }
        if ← perform (.createSession session) then perform (.answer msg.subject (.session session))
        else perform (.answer msg.subject (.bool false))
      else perform (.answer msg.subject (.bool false))
    | _ => perform (.answer msg.subject (.bool false))

def authStatusHandler : Prog Unit := do
  match ← isLoggedIn msg with
  | some sess => perform (.answer msg.subject (.session sess))
  | none => perform (.answer msg.subject (.bool false))

def settingsHandler : Prog Unit := do
  match ← isLoggedIn msg with
  | some session =>
    match config.decodeSession msg.body with
    | some setting =>
      let setting := { setting with sessionID := session.sessionID, lastseen := session.lastseen }
      let saved ← perform (.saveSession setting)
      perform (.answer msg.subject (.bool saved))
    | none => perform (.answer msg.subject (.bool false))
  | none => perform (.answer msg.subject (.bool false))

def logoutHandler : Prog Unit := do
  if msg.session = UUID.nil then return
  match ← perform (.firstSession msg.session) with
  | some session =>
    let deleted ← perform (.deleteSession session.sessionID)
    perform (.answer msg.subject (.bool deleted))
  | none => perform (.answer msg.subject (.bool false))

/-- `Node.Update` with the latest report of the node; the clock is read if there is one. -/
def updateFromList (node : Node) : Prog Node := do
  match ← perform (.listNode node.nodeID) with
  | some nodeRespondd =>
    return node.update (some nodeRespondd) config.ipPrefix (← perform (.now .update))
  | none => return node

/-- A row with the settings of a node. -/
def Row.edit (row : Row) (node : Node) : Row :=
  { row with hostname := node.hostname, owner := node.owner, wireless := node.wireless, location := node.location }

/-- Save the edited settings in the row of the node, or make one. -/
def saveEdit (node : Node) : Prog Bool := do
  match ← perform (.firstNode node.nodeID) with
  | some originNode => perform (.saveNode (originNode.edit node))
  | none => perform (.createNode (Row.edit { nodeID := node.nodeID } node))

/-- Answer whether the edit was saved, and send the node to all clients if it was. -/
def announceEdit (node : Node) (saved : Bool) : Prog Unit := do
  perform (.answer msg.subject (.bool saved))
  if !saved then return
  let node ← updateFromList config node
  perform (.sendNode node)

def nodeHandler : Prog Unit := do
  if (← isLoggedIn msg).isNone then
    perform (.answer msg.subject (.bool false))
    return
  match config.decodeNode msg.body with
  | none => perform (.answer msg.subject (.bool false))
  | some node =>
    if node.nodeID = "" then
      perform (.answer msg.subject (.bool false))
      return
    let saved ← saveEdit node
    announceEdit config msg node saved

/-- One node of the answer to a new client, unless it is filtered. -/
def connectNode (row : Row) : Prog Unit := do
  let node := row.node
  if node.timeFilter config.blacklistFor (← perform (.now .timeFilter)) then return
  let node ← updateFromList config node
  perform (.write MessageType.node (.node node))

def connectHandler : Prog Unit := do
  let nodes ← perform .findNodes
  nodes.forM (connectNode config)
  perform (.write MessageType.channelsWifi24 (.channels wifi24Channels))
  perform (.write MessageType.channelsWifi5 (.channels wifi5Channels))

/-- The handler of a message by its subject; other messages are only logged. -/
def handleMessage : Prog Unit :=
  if msg.subject = MessageType.connect then connectHandler config
  else if msg.subject = MessageType.login then loginHandler config msg
  else if msg.subject = MessageType.authStatus then authStatusHandler msg
  else if msg.subject = MessageType.settings then settingsHandler config msg
  else if msg.subject = MessageType.logout then logoutHandler msg
  else if msg.subject = MessageType.node then nodeHandler config msg
  else return

/-- Send the result of a ping to the sessions that want it. -/
def sendPing : Prog Unit := do
  let sessions ← perform .findSessions
  sessions.forM fun session => do
    if session.ping then perform (.sendSession session.sessionID)

end FreifunkManager
