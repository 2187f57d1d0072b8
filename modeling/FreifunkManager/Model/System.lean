import FreifunkManager.Effects.Workers
import FreifunkManager.Model.InsertNode
import FreifunkManager.Model.Websocket
import FreifunkManager.Store.Table
import Mathlib.Data.String.Basic
import Mathlib.Order.Fin.Basic

/-! # The running manager

The database, the state of the SSH manager and a log of all operations, which serves as history.
Reports are handled one after the other by one worker, messages by another; the two interleave at
single operations (`pool`). `serve` runs a call without interruption. The time of an operation,
whether the database works, and what nodes and the collector of reports answer, is decided outside.
-/

namespace FreifunkManager

open Effects Store

/-- What is handled: a report that came in, a message of a client, or the result of a ping round. -/
inductive Call where
  | report (node : Yanic.Node)
  | message (msg : Message)
  | ping

/-- What the environment decides about one operation. -/
structure Choice where
  time : Time := 0
  dbFails : Bool := false
  /-- The latest report of the node that is looked up. -/
  listed : Option Yanic.Node := none
  dial : Option String := none
  handshake : Option String := none
  sessionFails : Bool := false
  output : Option String := some ""

/-- An operation that happened, on behalf of a call. -/
structure Event where
  call : Call
  op : Op
  reply : op.Reply
  time : Time

/-- The shared state; the latest event comes first. -/
structure World where
  nodes : Table Row.nodeID := .empty
  sessions : Table Session.sessionID := .empty
  manager : Ssh.Manager := Ssh.newManager
  log : List Event := []

/-- Write the named columns. -/
def Columns.apply (columns : Columns) (row : Row) : Row :=
  match columns with
  | .observed address lastseen => { row with address := address, lastseen := some lastseen }
  | .blacklist time => { row with blacklist := some time }

theorem Columns.apply_nodeID (columns : Columns) (row : Row) : (columns.apply row).nodeID = row.nodeID := by
  cases columns <;> rfl

@[simp] theorem Columns.apply_settings (columns : Columns) (row : Row) :
    (columns.apply row).settings = row.settings := by
  cases columns <;> rfl

namespace World

/-- The reply to an operation and its effect, without the log. -/
def act (choice : Choice) (op : Op) (w : World) : op.Reply × World :=
  match op with
  | .now _ => (choice.time, w)
  | .firstNode nodeID => (if choice.dbFails then none else w.nodes.first nodeID, w)
  | .updateNode nodeID columns =>
    if choice.dbFails then (false, w)
    else (true, { w with nodes := w.nodes.modify nodeID columns.apply columns.apply_nodeID })
  | .saveNode row =>
    if choice.dbFails then (false, w) else (true, { w with nodes := w.nodes.save row })
  | .createNode row =>
    match if choice.dbFails then none else w.nodes.create row with
    | some nodes => (true, { w with nodes })
    | none => (false, w)
  | .findNodes => (if choice.dbFails then [] else w.nodes.rows, w)
  | .firstSession sessionID => (if choice.dbFails then none else w.sessions.first sessionID, w)
  | .saveSession session =>
    if choice.dbFails then (false, w) else (true, { w with sessions := w.sessions.save session })
  | .createSession session =>
    match if choice.dbFails then none else w.sessions.create session with
    | some sessions => (true, { w with sessions })
    | none => (false, w)
  | .deleteSession sessionID =>
    if choice.dbFails then (false, w) else (true, { w with sessions := w.sessions.delete sessionID })
  | .findSessions => (if choice.dbFails then [] else w.sessions.rows, w)
  | .listNode _ => (choice.listed, w)
  | .connectTo addr =>
    let (manager, connection) := w.manager.connectTo addr
      { started := choice.time, dial := choice.dial, handshake := choice.handshake }
    (connection.err, { w with manager })
  | .newSession => (!choice.sessionFails, w)
  | .runCommand _ => (choice.output, w)
  | .sendNode _ | .sendSession _ | .answer .. | .write .. => ((), w)

/-- Act and write the operation to the log. -/
def handle (call : Call) (choice : Choice) : Handler operations World := fun op w =>
  let (reply, after) := w.act choice op
  (reply, { after with log := { call, op, reply, time := choice.time } :: w.log })

end World

def Call.program (config : Config) : Call → Prog (Except Panic Unit)
  | .report node => (insertNode config node).run
  | .message msg => .ok <$> handleMessage config msg
  | .ping => .ok <$> sendPing

inductive Worker where
  | reporter | handler
deriving DecidableEq

/-- Two workers on the shared state. A panic ends the process. -/
def pool (config : Config) : Pool operations Worker Call (Except Panic Unit) Choice World where
  program := Call.program config
  accepts
    | .reporter, .report _ => true
    | .handler, .message _ => true
    | _, _ => false
  handle := World.handle
  survives result := result.isOk

/-- Any number of workers on the shared state, each of which takes any call. -/
def crowd (config : Config) : Pool operations ℕ Call (Except Panic Unit) Choice World where
  program := Call.program config
  accepts _ _ := true
  handle := World.handle
  survives result := result.isOk

/-- No worker of the crowd handles anything. -/
def unoccupied (world : World) : Snapshot operations ℕ Call (Except Panic Unit) World :=
  { shared := world, active := fun _ => none }

/-- Nothing is being handled. -/
def idle (world : World) : Snapshot operations Worker Call (Except Panic Unit) World :=
  { shared := world, active := fun _ => none }

/-! ## One call at a time -/

/-- A call with the choices of its operations, in their order. -/
structure Step where
  call : Call
  choices : ℕ → Choice

/-- Each operation takes the next choice. -/
def Step.handle (step : Step) : Handler operations (World × ℕ) := fun op (w, i) =>
  let (reply, after) := w.handle step.call (step.choices i) op
  (reply, after, i + 1)

/-- Run a call to its end; the world after it, and whether the process survived. -/
def serve (config : Config) (step : Step) (w : World) : World × Bool :=
  let (result, after, _) := (step.call.program config).run step.handle (w, 0)
  (after, result.isOk)

/-- Run calls one after the other. -/
def serveAll (config : Config) : List Step → World → World
  | [], w => w
  | step :: rest, w =>
    match serve config step w with
    | (after, true) => serveAll config rest after
    | (after, false) => after

/-! ## Samples, for runs on concrete inputs -/

namespace Sample

/-- A text in a body, empty if it is absent. -/
def text (body : Json) (name : String) : String :=
  match body.field name with
  | some (.string text) => text
  | _ => ""

/-- Bodies are decoded as far as the samples use them. -/
def config : Config where
  secret := "swordfish"
  ipPrefix := "2001:db8:"
  blacklistFor := 3600
  decodeNode
    | .object fields =>
      let body := Json.object fields
      some { nodeID := text body "node_id", hostname := text body "hostname", owner := text body "owner" }
    | _ => none
  decodeSession
    | .object fields =>
      match (Json.object fields).field "ping" with
      | none | some .null => some {}
      | some (.bool ping) => some { ping }
      | some _ => none
    | .null => some {}
    | _ => none

/-- The row of a node that was learnt some time ago. -/
def row : Row := { nodeID := "f81a67a5e9c1", hostname := "attic", lastseen := some 0, address := "2001:db8::1" }

def report (hostname : String) : Yanic.Node where
  nodeinfo := some { nodeID := "f81a67a5e9c1", hostname, addresses := ["fe80::1", "2001:db8::2"] }

/-- An edit by the session that is logged in. -/
def edit (hostname : String) : Message where
  session := 1
  subject := MessageType.node
  body := .object [("node_id", .string "f81a67a5e9c1"), ("hostname", .string hostname)]

/-- One client is logged in. -/
def world (rows : List Row) : World where
  nodes := rows.foldl Table.save .empty
  sessions := Table.empty.save { sessionID := 1 }

/-- The next operations of a worker, all of them at one time. -/
def advance (worker : Worker) (count : ℕ) (time : Time) : List (Action Worker Call Choice) :=
  List.replicate count (.advance worker { time })

/-- An edit, and after it a report of the node, which is reached and updated. -/
def editThenReport : List (Action Worker Call Choice) :=
  [.start .handler (.message (edit "cellar"))] ++ advance .handler 8 60 ++
    [.finish .handler, .start .reporter (.report (report "attic"))] ++ advance .reporter 13 61 ++ [.finish .reporter]

end Sample

end FreifunkManager
