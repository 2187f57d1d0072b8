import FreifunkManager.Effects.Program
import FreifunkManager.Model.Node
import Mathlib.Control.Monad.Basic

/-! # What the handlers do to the world

The operations that the report handler and the message handlers ask for: the statements of the
object mapper, one each, the clock, the connections to nodes, and messages to clients. Everything
between two operations is a pure function of the replies. A handler that dereferences a nil pointer
panics, which is its result.
-/

namespace FreifunkManager

open Effects

abbrev UUID := Fin (2 ^ 128)

instance UUID.neZero : NeZero (2 ^ 128) := ⟨by decide⟩

/-- `uuid.Nil`, the blank key of a session. -/
def UUID.nil : UUID := 0

structure Session where
  sessionID : UUID := UUID.nil
  lastseen : Option Time := none
  ping : Bool := false
deriving DecidableEq, Inhabited

inductive Json where
  | null
  | bool (value : Bool)
  | number (value : Binary64)
  | string (value : String)
  | array (items : List Json)
  | object (fields : List (String × Json))

/-- The field of an object that `mapstructure` takes for a name: its own, or else the first that differs
in case only. -/
def Json.field (name : String) : Json → Option Json
  | .object fields => fields.lookup name <|> ((fields.find? fun field => field.1.toLower = name).map Prod.snd)
  | _ => none

/-- A message of a client. -/
structure Message where
  session : UUID
  subject : String
  body : Json := .null

/-- What the server sends as the body of a message. -/
inductive Body where
  | bool (value : Bool)
  | session (session : Session)
  | node (node : Node)
  | channels (channels : List UInt32)
deriving DecidableEq

/-- What an `Update` of named columns writes. -/
inductive Columns where
  | observed (address : String) (lastseen : Time)
  | blacklist (time : Time)
deriving DecidableEq

/-- The place in the source where the clock is read. -/
inductive Clock where
  | insertNode | update | timeFilter | isLoggedIn | login
deriving DecidableEq

inductive Op where
  | now (clock : Clock)
  | firstNode (nodeID : String)
  | updateNode (nodeID : String) (columns : Columns)
  | saveNode (row : Row)
  | createNode (row : Row)
  | findNodes
  | firstSession (sessionID : UUID)
  | saveSession (session : Session)
  | createSession (session : Session)
  | deleteSession (sessionID : UUID)
  | findSessions
  /-- Look a node up in the list of the latest reports. -/
  | listNode (nodeID : String)
  | connectTo (addr : TCPAddr)
  | newSession
  | runCommand (cmd : String)
  /-- Send a node to all clients. -/
  | sendNode (node : Node)
  /-- Send the result of a ping to a session. -/
  | sendSession (sessionID : UUID)
  | answer (subject : String) (body : Body)
  | write (subject : String) (body : Body)
deriving DecidableEq

/-- Statements that change the database tell whether they succeeded; a failed read and a row that is
not there are both `none`. -/
@[reducible] def Op.Reply : Op → Type
  | .now _ => Time
  | .firstNode _ => Option Row
  | .updateNode .. | .saveNode _ | .createNode _ => Bool
  | .findNodes => List Row
  | .firstSession _ => Option Session
  | .saveSession _ | .createSession _ | .deleteSession _ => Bool
  | .findSessions => List Session
  | .listNode _ => Option Yanic.Node
  | .connectTo _ => Option String
  | .newSession => Bool
  | .runCommand _ => Option String
  | .sendNode _ | .sendSession _ | .answer .. | .write .. => Unit

abbrev operations : Signature := ⟨Op, Op.Reply⟩

abbrev Prog := Program operations

/-- The use of a nil pointer. -/
inductive Panic where
  | nilSession
deriving DecidableEq

/-- Code that may panic. -/
abbrev Go := ExceptT Panic Prog

/-- Ask for one operation. -/
def perform (op : Op) : Prog op.Reply := Program.perform (S := operations) op

structure Config where
  secret : String
  ipPrefix : String
  blacklistFor : Duration
  /-- `mapstructure.Decode` into a node. -/
  decodeNode : Json → Option Node
  /-- `mapstructure.Decode` into a session. -/
  decodeSession : Json → Option Session

end FreifunkManager
