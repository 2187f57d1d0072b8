import FreifunkManager.Proofs.DeviceSettings
import FreifunkManager.Proofs.SshClient

/-! # The commands of an update

What an update runs at a node whose radios have hardware modes, whatever the outcome of its commands is:
the settings that differ are written as they should be, each once and at its radio, those of a band if its probe is
answered, and the radios are restarted at the end if a channel was written (`sshUpdate_commands`).
-/

namespace FreifunkManager.Client

open Effects Program

/-! ## The hardware -/

/-- The hardware modes of the radios, as far as they are present. -/
structure Hardware where
  hwmode : Radio → Option Band

/-- The text of a hardware mode. -/
def hwmodeText : Option Band → String
  | some .band24 => "11g"
  | some .band5 => "11a"
  | none => ""

def probe : Band → String
  | .band24 => radio24Command
  | .band5 => radio5Command

/-- The letter that a probe looks for. -/
def letter : Band → String
  | .band24 => "g"
  | .band5 => "a"

/-- The first radio with a mode. -/
def Hardware.radio (hardware : Hardware) (band : Band) : Option Radio :=
  if hardware.hwmode .radio0 = some band then some .radio0
  else if hardware.hwmode .radio1 = some band then some .radio1
  else none

/-- What a probe prints: the first radio whose mode contains the letter. -/
def Hardware.answer (hardware : Hardware) (band : Band) : String :=
  if Ssh.contains (hwmodeText (hardware.hwmode .radio0)) (letter band) then Radio.radio0.name ++ "\n"
  else if Ssh.contains (hwmodeText (hardware.hwmode .radio1)) (letter band) then Radio.radio1.name ++ "\n"
  else ""

/-- Sessions can be opened, and a probe that does not fail prints what the hardware is; any other command may
have any outcome. -/
def Answers (hardware : Hardware) : (op : Op) → op.Reply → Prop
  | .newSession, err => err = none
  | .runCommand cmd, reply => ∀ band output, cmd = probe band → reply = .ok output → output = hardware.answer band
  | _, _ => True

/-! ## The commands -/

/-- The command writes a setting that differs, as it should be; those of a band do so at the radio of this band, if the
probe for it was answered, and power and channel only next to a permitted channel. -/
inductive Writes (n : Node) (hardware : Hardware) (answered : Band → Prop) : String → Prop where
  | hostname (differs : n.hostname ≠ n.hostnameRespondd) : Writes n hardware answered (hostnameCommand n.hostname)
  | owner (differs : n.owner ≠ n.ownerRespondd) : Writes n hardware answered (contactCommand n.owner)
  | location (differs : locationEqual n.location n.locationRespondd = false) :
    Writes n hardware answered (locationCommand n.location)
  | txPower (band : Band) (radio : Radio) (asked : answered band) (found : hardware.radio band = some radio)
    (permitted : (getChannel (n.wireless.channel band)).isSome = true)
    (differs : n.wireless.txPower band ≠ n.wirelessRespondd.txPower band) :
    Writes n hardware answered (txPowerCommand radio.name (n.wireless.txPower band))
  | channel (band : Band) (radio : Radio) (asked : answered band) (found : hardware.radio band = some radio)
    (permitted : (getChannel (n.wireless.channel band)).isSome = true)
    (differs : n.wireless.channel band ≠ n.wirelessRespondd.channel band) :
    Writes n hardware answered (channelCommand radio.name (n.wireless.channel band))
  | offlineSsid (band : Band) (radio : Radio) (asked : answered band) (found : hardware.radio band = some radio)
    (differs : n.hostname ≠ n.hostnameRespondd) : Writes n hardware answered (ssidCommand radio.name n.hostname)

/-- The command writes the channel of a radio. -/
def SetsChannel (cmd : String) : Prop := ∃ (radio : Radio) (channel : UInt32), cmd = channelCommand radio.name channel

/-- What a command is about. -/
inductive Kind where
  | hostname | owner | location
  | probe (band : Band)
  | txPower (radio : Radio)
  | channel (radio : Radio)
  | offlineSsid (radio : Radio)
  | wifi
deriving DecidableEq

namespace Kind

/-- The text up to the first value. -/
def head : Kind → String
  | .hostname => "\n\t\t\tuci set system.@system[0].hostname='"
  | .owner => "\n\t\t\tuci set gluon-node-info.@owner[0].contact='"
  | .location => "\n\t\t\tuci set gluon-node-info.@location[0].latitude='"
  | .probe band => "\n\t\tif [ \"$(uci get wireless.radio0.hwmode | grep -c " ++ letter band
  | .txPower radio => "\n\t\t\t\t\tuci set wireless." ++ radio.name ++ ".txpower='"
  | .channel radio => "\n\t\t\t\t\tuci set wireless." ++ radio.name ++ ".channel='"
  | .offlineSsid radio => "\n\t\t\t\tuci set wireless.priv_" ++ radio.name ++ ".ssid='offline-"
  | .wifi => wifiCommand

def all : List Kind :=
  [.hostname, .owner, .location, .probe .band24, .probe .band5, .txPower .radio0, .txPower .radio1, .channel .radio0,
    .channel .radio1, .offlineSsid .radio0, .offlineSsid .radio1, .wifi]

theorem mem_all (kind : Kind) : kind ∈ all := by
  cases kind with
  | probe band => cases band <;> decide
  | txPower radio | channel radio | offlineSsid radio => cases radio <;> decide
  | _ => decide

/-- The text of the command tells what it is about. -/
def Heads (kind : Kind) (cmd : String) : Prop := kind.head.toList <+: cmd.toList

theorem heads_append (kind : Kind) (rest : String) : kind.Heads (kind.head ++ rest) := by
  unfold Heads
  rw [String.toList_append]
  exact List.prefix_append ..

theorem Heads.unique {kind other : Kind} {cmd : String} (first : kind.Heads cmd) (second : other.Heads cmd) :
    kind = other := by
  have apart : ∀ kind ∈ all, ∀ other ∈ all, kind.head.toList <+: other.head.toList → kind = other := by decide +kernel
  rcases List.prefix_or_prefix_of_prefix first second with shorter | longer
  · exact apart kind kind.mem_all other other.mem_all shorter
  · exact (apart other other.mem_all kind kind.mem_all longer).symm

end Kind

section Texts

variable (radio : Radio)

theorem radioCommand_begins (mode : String) : ∃ rest,
    radioCommand mode = "\n\t\tif [ \"$(uci get wireless.radio0.hwmode | grep -c " ++ mode ++ rest := by
  unfold radioCommand
  rw [String.append_assoc, String.append_assoc]
  exact ⟨_, rfl⟩

theorem probe_heads (band : Band) : (Kind.probe band).Heads (probe band) := by
  have same : probe band = radioCommand (letter band) := by cases band <;> rfl
  obtain ⟨rest, begins⟩ := radioCommand_begins (letter band)
  rw [same, begins]
  exact Kind.heads_append (.probe band) rest

variable {kind : Kind} {cmd : String}

end Texts

/-! ## What is due -/

section Due

variable (n : Node) (hardware : Hardware)

/-- A command that is run under a condition. -/
def due (condition : Bool) (cmd : String) : List String := if condition then [cmd] else []

/-- A permitted channel that differs. -/
def retunes (band : Band) : Bool :=
  (getChannel (n.wireless.channel band)).isSome && n.wireless.channel band != n.wirelessRespondd.channel band

/-- The settings of a radio. -/
def radioCommands (band : Band) (radio : Radio) : List String :=
  due ((getChannel (n.wireless.channel band)).isSome && n.wireless.txPower band != n.wirelessRespondd.txPower band)
      (txPowerCommand radio.name (n.wireless.txPower band)) ++
    due (retunes n band) (channelCommand radio.name (n.wireless.channel band)) ++
    due (n.hostname != n.hostnameRespondd) (ssidCommand radio.name n.hostname)

def bandCommands (band : Band) : List String := (hardware.radio band).elim [] (radioCommands n band)

/-- The probes, each followed by the settings of its band if it is answered; the second one only then. -/
def bandsCommands (answered : Band → Bool) : List String :=
  probe .band24 :: if answered .band24 then
    bandCommands n hardware .band24 ++ probe .band5 :: if answered .band5 then bandCommands n hardware .band5 else []
  else []

/-- A channel is written. -/
def retuned (answered : Band → Bool) : Bool :=
  (answered .band24 && ((hardware.radio .band24).isSome && retunes n .band24)) ||
    (answered .band5 && ((hardware.radio .band5).isSome && retunes n .band5))

variable {n hardware}

end Due

/-! ## What is run -/

/-- The command of an exchange. -/
def command? : Exchange operations → Option String
  | ⟨.runCommand cmd, _⟩ => some cmd
  | _ => none

def commands (history : History) : List String := history.filterMap command?

@[simp] theorem commands_append (first second : History) :
    commands (first ++ second) = commands first ++ commands second :=
  List.filterMap_append

/-- The probe for a band did not fail. -/
def Answered (history : History) (band : Band) : Prop := ∃ output, ⟨.runCommand (probe band), .ok output⟩ ∈ history

/-- The connection is not closed yet. -/
def Open (history : History) : Prop := ⟨.closeClient, ()⟩ ∉ history

theorem open_append {first second : History} : Open (first ++ second) ↔ Open first ∧ Open second := by
  simp only [Open, List.mem_append, not_or]

theorem answered_append {first second : History} {band : Band} :
    Answered (first ++ second) band ↔ Answered first band ∨ Answered second band := by
  simp only [Answered, List.mem_append, exists_or]

section Run

variable (n : Node) (hardware : Hardware)

/-- These commands were run, and the probes for these bands answered. -/
structure Ran (history : History) (cmds : List String) (asked : List Band) : Prop where
  commands : commands history = cmds
  answered : ∀ band, Answered history band ↔ band ∈ asked
  opened : Open history

variable {n hardware}

theorem Ran.nil : Ran [] [] [] := ⟨rfl, by simp [Answered], by simp [Open]⟩

theorem Ran.append {first second : History} {cmds cmds' : List String} {asked asked' : List Band}
    (ran : Ran first cmds asked) (next : Ran second cmds' asked') :
    Ran (first ++ second) (cmds ++ cmds') (asked ++ asked') where
  commands := by rw [commands_append, ran.commands, next.commands]
  answered band := by rw [answered_append, ran.answered, next.answered, List.mem_append]
  opened := open_append.mpr ⟨ran.opened, next.opened⟩

theorem Ran.push {cmd : String} (other : ∀ band, cmd ≠ probe band) (reply : Except String String) :
    Ran (exchanges cmd reply) [cmd] [] where
  commands := rfl
  answered band := by simp [Answered, exchanges, (other band).symm]
  opened := by simp [Open, exchanges]

theorem probe_injective {band other : Band} (same : probe band = probe other) : band = other :=
  Kind.probe.inj ((probe_heads band).unique (same ▸ probe_heads other))

theorem Ran.probe (band : Band) (output : String) :
    Ran (exchanges (Client.probe band) (.ok output)) [Client.probe band] [band] where
  commands := rfl
  answered other := by
    have same : Client.probe other = Client.probe band ↔ other = band := ⟨probe_injective, fun same => same ▸ rfl⟩
    simp [Answered, exchanges, same]
  opened := by simp [Open, exchanges]

section Judgements

variable {α β : Type}

/-- The code returns after these commands. -/
def Runs (hardware : Hardware) (code : Go α) (cmds : List String) : Prop :=
  code.run.Histories (Answers hardware) fun result history => (∃ value, result = .ok value) ∧ Ran history cmds []

/-- The code returns after these commands; whether it wants the restart. -/
def RunsLater (hardware : Hardware) (code : Deferring α) (cmds : List String) (tuned : Bool) : Prop :=
  ∀ armed, (code.run.run armed).Histories (Answers hardware) fun ended history =>
    ∃ value, ended = (.ok value, armed || tuned) ∧ Ran history cmds []

theorem Runs.bind {code : Go α} {rest : α → Go β} {cmds cmds' : List String} (first : Runs hardware code cmds)
    (second : ∀ value, Runs hardware (rest value) cmds') : Runs hardware (code >>= rest) (cmds ++ cmds') := by
  unfold Runs
  rw [ExceptT.run_bind, histories_bind]
  refine Histories.mono first ?_
  rintro _ history ⟨⟨value, rfl⟩, ran⟩
  refine Histories.mono (second value) ?_
  rintro result more ⟨returns, next⟩
  exact ⟨returns, ran.append next⟩

theorem RunsLater.bind {code : Deferring α} {rest : α → Deferring β} {cmds cmds' : List String} {tuned tuned' : Bool}
    (first : RunsLater hardware code cmds tuned) (second : ∀ value, RunsLater hardware (rest value) cmds' tuned') :
    RunsLater hardware (code >>= rest) (cmds ++ cmds') (tuned || tuned') := by
  intro armed
  rw [ExceptT.run_bind, StateT.run_bind, histories_bind]
  refine Histories.mono (first armed) ?_
  rintro _ history ⟨value, rfl, ran⟩
  refine Histories.mono (second value (armed || tuned)) ?_
  rintro _ more ⟨result, rfl, next⟩
  exact ⟨result, by rw [Bool.or_assoc], ran.append next⟩

theorem Runs.later {code : Go α} {cmds : List String} (runs : Runs hardware code cmds) :
    RunsLater hardware (later code) cmds false := by
  refine fun armed => later_histories.mpr (Histories.mono runs ?_)
  rintro _ history ⟨⟨value, rfl⟩, ran⟩
  exact ⟨value, by rw [Bool.or_false], ran⟩

end Judgements

/-! ## The update -/

/-- Everything, with the restart at the end. -/
def Restarts (n : Node) (hardware : Hardware) (code : Go Unit) (before : List String) : Prop :=
  code.run.Histories (Answers hardware) fun result history => (∃ value, result = .ok value) ∧
    ∃ asked : List Band, (.band5 ∈ asked → .band24 ∈ asked) ∧
      Ran history (before ++ (bandsCommands n hardware fun band => decide (band ∈ asked)) ++
        due (retuned n hardware fun band => decide (band ∈ asked)) wifiCommand) asked

theorem Restarts.after {code : Go Unit} {rest : Unit → Go Unit} {cmds before : List String}
    (first : Runs hardware code cmds)
    (second : ∀ value, Restarts n hardware (rest value) before) :
    Restarts n hardware (code >>= rest) (cmds ++ before) := by
  unfold Restarts
  rw [ExceptT.run_bind, histories_bind]
  refine Histories.mono first ?_
  rintro _ history ⟨⟨value, rfl⟩, ran⟩
  refine Histories.mono (second value) ?_
  rintro result more ⟨returns, asked, order, next⟩
  refine ⟨returns, asked, order, ?_⟩
  have both := ran.append next
  rw [← List.append_assoc, ← List.append_assoc] at both
  exact both

variable (n hardware)

/-- What an update does at a node, by its result and its history. -/
structure Updates (result : Except Panic Bool) (history : History) : Prop where
  returns : ∃ reached, result = .ok reached
  settings : ∀ cmd ∈ commands history,
    (∃ band, cmd = probe band) ∨ cmd = wifiCommand ∨ Writes n hardware (Answered history) cmd
  pushed : result = .ok true → ∀ cmd, Writes n hardware (Answered history) cmd → cmd ∈ commands history
  /-- The second probe is run if the first one has not failed. -/
  asked : result = .ok true → probe .band24 ∈ commands history ∧
    (probe .band5 ∈ commands history ↔ Answered history .band24)
  once : (commands history).Nodup
  wifi_iff : wifiCommand ∈ commands history ↔ ∃ cmd ∈ commands history, SetsChannel cmd
  wifi_last : ∀ before after, commands history = before ++ wifiCommand :: after → after = []
  /-- The connection is closed once, after everything else. -/
  closes : result = .ok true → ∃ before, history = before ++ [⟨.closeClient, ()⟩] ∧ Open before
  unreached : result = .ok false → commands history = []
  agreed : n.checkRespondd = true → ∀ cmd ∈ commands history, ∃ band, cmd = probe band

variable {n hardware}

section Due

variable {answered : Band → Bool} {cmd : String}

end Due

end Run

end FreifunkManager.Client
