import FreifunkManager.Model.SshUpdate
import FreifunkManager.Shell.Reader
import Mathlib.Logic.Function.Basic

/-! # The device at the other end

An ideal node: a configuration of option values, and two radios on the air, one for each band. It
runs command texts as its shell reads them. Of these, `uci set` writes an option and `wifi` puts the
configured channels on the air; no other command changes a setting, and neither does one with
an expansion or a redirection. Its report states every option as it was written.
-/

namespace FreifunkManager

open Effects

inductive Radio where
  | radio0 | radio1
deriving DecidableEq

def Radio.name : Radio → String
  | .radio0 => "radio0"
  | .radio1 => "radio1"

def Radio.other : Radio → Radio
  | .radio0 => .radio1
  | .radio1 => .radio0

structure Device where
  nodeID : String
  addresses : List String
  uci : String → String
  /-- The radio of the 2.4 GHz band; the other one is of the 5 GHz band. -/
  radio24 : Radio
  /-- The frequencies in use. -/
  onAir : Radio → UInt32

namespace Device

def hostnameKey := "system.@system[0].hostname"
def contactKey := "gluon-node-info.@owner[0].contact"
def latitudeKey := "gluon-node-info.@location[0].latitude"
def longitudeKey := "gluon-node-info.@location[0].longitude"
def altitudeKey := "gluon-node-info.@location[0].altitude"
def txPowerKey (radio : Radio) := "wireless." ++ radio.name ++ ".txpower"
def channelKey (radio : Radio) := "wireless." ++ radio.name ++ ".channel"

variable (d : Device)

def radio5 : Radio := d.radio24.other

def write (key value : String) : Device := { d with uci := Function.update d.uci key value }

@[simp] theorem write_uci_self (key value : String) : (d.write key value).uci key = value :=
  Function.update_self ..

theorem write_uci_of_ne {key other : String} (value : String) (different : other ≠ key) :
    (d.write key value).uci other = d.uci other := Function.update_of_ne different ..

/-- The argument of `uci set`; one without an equals sign is an error. -/
def set (assignment : List Char) : Device :=
  if '=' ∈ assignment then
    d.write (String.ofList (assignment.takeWhile (· ≠ '=')))
      (String.ofList (assignment.dropWhile (· ≠ '=')).tail)
  else d

/-- A numeric option; anything but digits, such as `auto`, is no number. -/
def readNumber (text : String) : UInt32 :=
  if text.toList.all Char.isDigit then UInt32.ofNat (Nat.ofDigitChars 10 text.toList 0) else 0

/-- Put the configured channels on the air; a setting that is no channel changes nothing. -/
def wifi : Device :=
  { d with onAir := fun radio =>
      match channelList.lookup (readNumber (d.uci (channelKey radio))) with
      | some channel => channel.frequency
      | none => d.onAir radio }

/-- Run a simple command. -/
def invoke (command : List Shell.Token) : Device :=
  match command.mapM Shell.Token.chars? with
  | some [program, action, assignment] =>
    if program = "uci".toList ∧ action = "set".toList then d.set assignment else d
  | some [program] => if program = "wifi".toList then d.wifi else d
  | _ => d

/-- Run a command text. -/
def execute (cmd : String) : Option String × Device :=
  if cmd = radio24Command then (some (d.radio24.name ++ "\n"), d)
  else if cmd = radio5Command then (some (d.radio5.name ++ "\n"), d)
  else match Shell.read cmd with
  | some list => (some "", list.foldl invoke d)
  | none => (none, d)

/-- The device during an SSH session in which nothing fails but the shell. -/
def handle : Handler operations Device := fun op d =>
  match op with
  | .connectTo _ => (none, d)
  | .newSession => (true, d)
  | .runCommand cmd => d.execute cmd
  | .now _ => (0, d)
  | .firstNode _ | .firstSession _ | .listNode _ => (none, d)
  | .updateNode .. | .saveNode _ | .createNode _ => (false, d)
  | .saveSession _ | .createSession _ | .deleteSession _ => (false, d)
  | .findNodes | .findSessions => ([], d)
  | .sendNode _ | .sendSession _ | .answer .. | .write .. => ((), d)

/-- The report of the device. -/
def report : Yanic.Node where
  nodeinfo := some {
    nodeID := d.nodeID
    hostname := d.uci hostnameKey
    addresses := d.addresses
    owner := some { contact := d.uci contactKey }
    location := some {
      latitude := (Binary64.parse (d.uci latitudeKey)).getD .zero
      longitude := (Binary64.parse (d.uci longitudeKey)).getD .zero
      altitude := (Binary64.parse (d.uci altitudeKey)).getD .zero }
    wireless := some {
      txPower24 := readNumber (d.uci (txPowerKey d.radio24))
      txPower5 := readNumber (d.uci (txPowerKey d.radio5)) } }
  statistics := some { wireless := [⟨d.onAir .radio0⟩, ⟨d.onAir .radio1⟩] }

/-- The device as it is before an update: what is on the air is what is configured, each radio in its
own band. -/
structure Settled : Prop where
  configured : d.wifi.onAir = d.onAir
  band24 : ¬ d.onAir d.radio24 > freqThreashold
  band5 : d.onAir d.radio5 > freqThreashold

/-- The device after an update that reaches it. -/
def push (n : Node) : Device := (n.sshUpdate.run.run handle d).2

end Device

end FreifunkManager
