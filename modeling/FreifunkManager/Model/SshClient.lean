import FreifunkManager.Effects.Histories
import FreifunkManager.Model.SshUpdate

/-! # Sessions and connections, and their deferred calls

The SSH code in full: what it asks of the SSH library, the errors that it returns, and the deferred
calls that close sessions and connections. Where the library makes no session it returns a nil
pointer next to the error, and a method of a nil pointer panics. `Model.SshUpdate` is this code
without what is deferred.
-/

namespace FreifunkManager.Client

open Effects

/-- What the code asks of the library; errors are texts. A command has captured output. -/
inductive Op where
  | connectTo (addr : TCPAddr)
  | newSession
  | runCommand (cmd : String)
  | closeSession
  | closeClient
deriving DecidableEq

@[reducible] def Op.Reply : Op → Type
  | .connectTo _ => Option String
  | .newSession => Option String
  | .runCommand _ => Except String String
  | .closeSession | .closeClient => Unit

abbrev operations : Signature := ⟨Op, Op.Reply⟩

abbrev Prog := Program operations

abbrev Go := ExceptT Panic Prog

abbrev Deferring := ExceptT Panic (StateT Bool Prog)

def perform (op : Op) : Prog op.Reply := Program.perform (S := operations) op

/-! ## Sessions -/

/-- A pointer to a session. -/
inductive Session where
  | nil | made
deriving DecidableEq

/-- The session with the error, of which one is nil. -/
def newSession : Go (Session × Option String) := do
  match ← perform .newSession with
  | none => return (.made, none)
  | some err => return (.nil, some err)

namespace Session

def run (session : Session) (cmd : String) : Go (Except String String) :=
  match session with
  | .nil => throw .nilSession
  | .made => perform (.runCommand cmd)

def close (session : Session) : Go Unit :=
  match session with
  | .nil => throw .nilSession
  | .made => perform .closeSession

end Session

def closeClient : Go Unit := perform .closeClient

def execute (cmd : String) : Go (Option String) := do
  let (session, _) ← newSession
  deferring session.close do
    match ← session.run cmd with
    | .error err => return some err
    | .ok _ => return none

def run (cmd : String) : Go (String × Option String) := do
  let (session, err) ← newSession
  deferring session.close do
    if let some err := err then return ("", some err)
    match ← session.run cmd with
    | .error err => return ("", some err)
    | .ok output => return (output, none)

def executeOn (addr : TCPAddr) (cmd : String) : Go (Option String) := do
  if let some err ← perform (.connectTo addr) then return some err
  deferring closeClient (execute cmd)

def runOn (addr : TCPAddr) (cmd : String) : Go (String × Option String) := do
  if let some err ← perform (.connectTo addr) then return ("", some err)
  deferring closeClient (run cmd)

/-! ## The update -/

def later {α : Type} (code : Go α) : Deferring α := ExceptT.mk (StateT.lift code.run)

/-- Run a command without regard to its error. -/
def push (cmd : String) : Go Unit := do let _ ← execute cmd

section Update

variable (n : Node)

/-- The settings of one radio; whether it could be asked for. -/
def pushRadio (probe : String) (txPower txPowerRespondd channel channelRespondd : UInt32) :
    Deferring Bool := do
  let (result, err) ← later (run probe)
  if err.isSome then return false
  let radio := Ssh.sshResultToString result
  let ch := getChannel channel
  whenever (radio != "") do
    whenever ch.isSome do
      whenever (txPower != txPowerRespondd) do
        later (push (txPowerCommand radio txPower))
      whenever (channel != channelRespondd) do
        later (push (channelCommand radio channel))
        set true
    whenever (n.hostname != n.hostnameRespondd) do
      later (push (ssidCommand radio n.hostname))
  return true

def pushRadio24 : Deferring Bool :=
  pushRadio n radio24Command n.wireless.txPower24 n.wirelessRespondd.txPower24 n.wireless.channel24
    n.wirelessRespondd.channel24

def pushRadio5 : Deferring Bool :=
  pushRadio n radio5Command n.wireless.txPower5 n.wirelessRespondd.txPower5 n.wireless.channel5
    n.wirelessRespondd.channel5

def pushRadios : Deferring Unit := do
  if ← pushRadio24 n then
    let _ ← pushRadio5 n

def pushAll : Go Unit := do
  whenever (n.hostname != n.hostnameRespondd) do push (hostnameCommand n.hostname)
  whenever (n.owner != n.ownerRespondd) do push (contactCommand n.owner)
  whenever (!locationEqual n.location n.locationRespondd) do push (locationCommand n.location)
  deferringIf (push wifiCommand) (pushRadios n)

def sshUpdate : Go Bool := do
  if (← perform (.connectTo n.getAddress)).isSome then return false
  deferring closeClient (pushAll n)
  return true

end Update

end FreifunkManager.Client
