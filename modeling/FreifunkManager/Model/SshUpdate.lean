import FreifunkManager.Model.Operations
import FreifunkManager.Model.Manager

/-! # Writing settings to a node over SSH

The command texts and the order in which `SSHUpdate` runs them. Every command has its own session,
and a session that cannot be made is used all the same, which panics. The restart of the radios is
deferred: it happens after everything else, a panic included.
-/

namespace FreifunkManager

open Effects

namespace Ssh

def execute (cmd : String) : Go Unit := do
  if ← perform .newSession then
    let _ ← perform (.runCommand cmd)
  else throw .nilSession

/-- The output of a command, unless it failed. -/
def run (cmd : String) : Go (Option String) := do
  if ← perform .newSession then perform (.runCommand cmd)
  else throw .nilSession

/-- The result of `Connect` and `Run` together; `none` stands for the error of either. -/
def runOn (addr : TCPAddr) (cmd : String) : Go (Option String) := do
  if (← perform (.connectTo addr)).isSome then return none
  run cmd

/-- The result without its last byte; what is printed is ASCII, so this is its last character. -/
def sshResultToString (result : String) : String := String.ofList result.toList.dropLast

end Ssh

/-! ## The commands -/

def hostnameCommand (hostname : String) : String :=
  "\n\t\t\tuci set system.@system[0].hostname='" ++ hostname ++
  "';\n\t\t\tuci commit; echo $(uci get system.@system[0].hostname) > /proc/sys/kernel/hostname;"

def contactCommand (owner : String) : String :=
  "\n\t\t\tuci set gluon-node-info.@owner[0].contact='" ++ owner ++
  "';\n\t\t\tuci commit gluon-node-info;"

def locationCommand (location : Location) : String :=
  "\n\t\t\tuci set gluon-node-info.@location[0].latitude='" ++ location.latitude.decimal ++
  "';\n\t\t\tuci set gluon-node-info.@location[0].longitude='" ++ location.longitude.decimal ++
  "';\n\t\t\tuci set gluon-node-info.@location[0].share_location=1;\n\t\t\tuci commit gluon-node-info;"

/-- Ask for the radio whose hardware mode contains a letter. -/
def radioCommand (mode : String) : String :=
  "\n\t\tif [ \"$(uci get wireless.radio0.hwmode | grep -c " ++ mode ++
  ")\" -ne 0 ]; then\n\t\t\techo \"radio0\";\n\t\telif [ \"$(uci get wireless.radio1.hwmode | grep -c " ++
  mode ++ ")\" -ne 0 ]; then\n\t\t\techo \"radio1\";\n\t\tfi;"

def radio24Command : String := radioCommand "g"

def radio5Command : String := radioCommand "a"

def txPowerCommand (radio : String) (txPower : UInt32) : String :=
  "\n\t\t\t\t\tuci set wireless." ++ radio ++ ".txpower='" ++ toString txPower.toNat ++
  "';\n\t\t\t\t\tuci commit wireless;"

def channelCommand (radio : String) (channel : UInt32) : String :=
  "\n\t\t\t\t\tuci set wireless." ++ radio ++ ".channel='" ++ toString channel.toNat ++
  "';\n\t\t\t\t\tuci commit wireless;"

def ssidCommand (radio : String) (hostname : String) : String :=
  "\n\t\t\t\tuci set wireless.priv_" ++ radio ++ ".ssid='offline-" ++ hostname ++
  "';\n\t\t\t\tuci commit wireless;"

def wifiCommand : String := "wifi"

/-! ## The update -/

/-- The body of a function with a deferred call: the flag that decides about the call survives a
panic. -/
abbrev Deferring := ExceptT Panic (StateT Bool Prog)

namespace Deferring

def lift {α : Type} (code : Go α) : Deferring α := ExceptT.mk (StateT.lift code.run)

/-- Set the flag. -/
def arm : Deferring Unit := set true

/-- Run the body, then the deferred call if it is wanted, then go on with the result of the body. -/
def finally_ {α : Type} (body : Deferring α) (deferred : Go Unit) : Go α := do
  let (result, armed) ← body.run.run false
  if armed then deferred
  ExceptT.mk (pure result)

end Deferring

/-- An `if` without `else`. -/
def whenever {m : Type → Type} [Monad m] (condition : Bool) (code : m Unit) : m Unit :=
  if condition then code else pure ()

namespace Node

variable (n : Node)

def pushHostname : Go Unit :=
  whenever (n.hostname != n.hostnameRespondd) do Ssh.execute (hostnameCommand n.hostname)

def pushOwner : Go Unit :=
  whenever (n.owner != n.ownerRespondd) do Ssh.execute (contactCommand n.owner)

def pushLocation : Go Unit :=
  whenever (!locationEqual n.location n.locationRespondd) do Ssh.execute (locationCommand n.location)

/-- The settings of one radio: ask for its name, then push the power and the channel if the channel is
permitted, and the name of the offline network. Whether the radio could be asked for. -/
def pushRadio (probe : String) (txPower txPowerRespondd channel channelRespondd : UInt32) :
    Deferring Bool := do
  let some result ← Deferring.lift (Ssh.run probe) | return false
  let radio := Ssh.sshResultToString result
  let ch := getChannel channel
  whenever (radio != "") do
    whenever ch.isSome do
      whenever (txPower != txPowerRespondd) do
        Deferring.lift (Ssh.execute (txPowerCommand radio txPower))
      whenever (channel != channelRespondd) do
        Deferring.lift (Ssh.execute (channelCommand radio channel))
        Deferring.arm
    whenever (n.hostname != n.hostnameRespondd) do
      Deferring.lift (Ssh.execute (ssidCommand radio n.hostname))
  return true

def pushRadio24 : Deferring Bool :=
  n.pushRadio radio24Command n.wireless.txPower24 n.wirelessRespondd.txPower24 n.wireless.channel24
    n.wirelessRespondd.channel24

def pushRadio5 : Deferring Bool :=
  n.pushRadio radio5Command n.wireless.txPower5 n.wirelessRespondd.txPower5 n.wireless.channel5
    n.wirelessRespondd.channel5

def pushRadios : Deferring Unit := do
  if ← n.pushRadio24 then
    let _ ← n.pushRadio5

/-- Push every setting that differs from the reported one; whether the node could be reached. -/
def sshUpdate : Go Bool := do
  if (← perform (.connectTo n.getAddress)).isSome then return false
  n.pushHostname
  n.pushOwner
  n.pushLocation
  n.pushRadios.finally_ (Ssh.execute wifiCommand)
  return true

end Node

end FreifunkManager
