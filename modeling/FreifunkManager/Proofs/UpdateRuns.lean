import FreifunkManager.Model.SshUpdate

/-! # An update as a sequence of commands

What is at the other end of a connection answers command texts and changes with them. Where sessions can be
made, an update is a sequence of command texts, each of them run or left out by a comparison of one setting
with the reported one; the two commands that ask for a radio decide about the rest.
-/

namespace FreifunkManager

open Effects

/-- The other end of a connection: what a command text answers there, and what it does. -/
structure Remote (σ : Type) where
  answer : String → σ → Option String × σ

/-- Whether the channel of a radio is to be changed, which restarts the radios. -/
def retunes (channel channelRespondd : UInt32) : Bool := (getChannel channel).isSome && channel != channelRespondd

namespace Remote

variable {σ : Type} (remote : Remote σ)

/-- Run a command text if a condition holds. -/
def pushIf (condition : Bool) (cmd : String) (s : σ) : σ := if condition then (remote.answer cmd s).2 else s

/-- The settings of a radio whose name is known. -/
def pushRadio (n : Node) (radio : String) (txPower txPowerRespondd channel channelRespondd : UInt32) (s : σ) : σ :=
  let s := remote.pushIf ((getChannel channel).isSome && txPower != txPowerRespondd) (txPowerCommand radio txPower) s
  let s := remote.pushIf (retunes channel channelRespondd) (channelCommand radio channel) s
  remote.pushIf (n.hostname != n.hostnameRespondd) (ssidCommand radio n.hostname) s

/-- Ask for a radio and push its settings, if there is one: whether it could be asked for, and whether its channel
was changed. -/
def updateRadio (n : Node) (probe : String) (txPower txPowerRespondd channel channelRespondd : UInt32) (s : σ) :
    Bool × Bool × σ :=
  match remote.answer probe s with
  | (none, s) => (false, false, s)
  | (some result, s) =>
    let radio := Ssh.sshResultToString result
    if radio = "" then (true, false, s)
    else (true, retunes channel channelRespondd,
      remote.pushRadio n radio txPower txPowerRespondd channel channelRespondd s)

def updateRadio24 (n : Node) : σ → Bool × Bool × σ :=
  remote.updateRadio n radio24Command n.wireless.txPower24 n.wirelessRespondd.txPower24 n.wireless.channel24
    n.wirelessRespondd.channel24

def updateRadio5 (n : Node) : σ → Bool × Bool × σ :=
  remote.updateRadio n radio5Command n.wireless.txPower5 n.wirelessRespondd.txPower5 n.wireless.channel5
    n.wirelessRespondd.channel5

def updateRadios (n : Node) (s : σ) : σ :=
  match remote.updateRadio24 n s with
  | (false, armed, s) => remote.pushIf armed wifiCommand s
  | (true, armed, s) =>
    let (_, armed5, s) := remote.updateRadio5 n s
    remote.pushIf (armed || armed5) wifiCommand s

/-- The whole update. -/
def update (n : Node) (s : σ) : σ :=
  let s := remote.pushIf (n.hostname != n.hostnameRespondd) (hostnameCommand n.hostname) s
  let s := remote.pushIf (n.owner != n.ownerRespondd) (contactCommand n.owner) s
  let s := remote.pushIf (!locationEqual n.location n.locationRespondd) (locationCommand n.location) s
  remote.updateRadios n s

end Remote

/-! ## Code that runs to its end -/

section Does

variable {σ α β : Type} {handler : Handler operations σ} {s s' s'' : σ}

/-- The code runs without a panic from one state to another. -/
def Does (handler : Handler operations σ) (code : Go α) (value : α) (s s' : σ) : Prop :=
  code.run.run handler s = (.ok value, s')

theorem Does.bind {code : Go α} {rest : α → Go β} {value : α} {result : β} (first : Does handler code value s s')
    (second : Does handler (rest value) result s' s'') : Does handler (code >>= rest) result s s'' := by
  rw [Does, ExceptT.run_bind, Program.run_bind, first]
  exact second

theorem Does.after {code : Go α} {value : α} (does : Does handler code value s s') : (code.run.run handler s).2 = s' :=
  congrArg Prod.snd does

/-- The same with the flag of a deferred call. -/
def DoesDeferring (handler : Handler operations σ) (code : Deferring α) (value : α) (armed : Bool) (s : σ)
    (armed' : Bool) (s' : σ) : Prop := (code.run.run armed).run handler s = ((.ok value, armed'), s')

theorem DoesDeferring.bind {code : Deferring α} {rest : α → Deferring β} {value : α} {result : β}
    {armed armed' armed'' : Bool} (first : DoesDeferring handler code value armed s armed' s')
    (second : DoesDeferring handler (rest value) result armed' s' armed'' s'') :
    DoesDeferring handler (code >>= rest) result armed s armed'' s'' := by
  rw [DoesDeferring, ExceptT.run_bind, StateT.run_bind, Program.run_bind, first]
  exact second

theorem DoesDeferring.lift {code : Go α} {value : α} {armed : Bool} (does : Does handler code value s s') :
    DoesDeferring handler (Deferring.lift code) value armed s armed s' := by
  rw [DoesDeferring, Deferring.lift, ExceptT.run_mk, StateT.run_lift, Program.run_bind, does]
  rfl

theorem DoesDeferring.finally_ {body : Deferring α} {value : α} {armed : Bool} {deferred : Go Unit}
    (does : DoesDeferring handler body value false s armed s')
    (last : if armed = true then Does handler deferred () s' s'' else s' = s'') :
    Does handler (body.finally_ deferred) value s s'' := by
  have first : Does handler (liftM (body.run.run false) : Go (Except Panic α × Bool)) (.ok value, armed) s s' := by
    rw [Does]
    exact (Program.run_bind ..).trans (congrArg (fun result => (Except.ok result.1, result.2)) does)
  refine first.bind ?_
  cases armed with
  | false => exact (show s' = s'' from last) ▸ rfl
  | true => exact Does.bind last rfl

end Does

/-! ## The update of a node -/

/-- Sessions can be made, and commands do what they do at the other end. -/
structure Remote.Serves {σ : Type} (remote : Remote σ) (handler : Handler operations σ) : Prop where
  sessions : ∀ s, (handler .newSession s).1 = true
  commands : ∀ cmd s, handler (.runCommand cmd) (handler .newSession s).2 = remote.answer cmd s

section Update

variable {σ : Type} {remote : Remote σ} {handler : Handler operations σ}

namespace Remote.Serves

variable (serves : remote.Serves handler)

include serves

theorem run (cmd : String) (s : σ) :
    Does handler (Ssh.run cmd) (remote.answer cmd s).1 s (remote.answer cmd s).2 := by
  have made : Does handler (perform .newSession : Go Bool) true s (handler .newSession s).2 :=
    congrArg (fun made => (Except.ok made, _)) (serves.sessions s)
  refine made.bind ?_
  rw [← serves.commands cmd s]
  exact rfl

theorem execute (cmd : String) (s : σ) : Does handler (Ssh.execute cmd) () s (remote.answer cmd s).2 := by
  have made : Does handler (perform .newSession : Go Bool) true s (handler .newSession s).2 :=
    congrArg (fun made => (Except.ok made, _)) (serves.sessions s)
  refine made.bind ?_
  rw [← serves.commands cmd s]
  exact rfl

theorem pushIf (condition : Bool) (cmd : String) (s : σ) :
    Does handler (whenever condition (Ssh.execute cmd)) () s (remote.pushIf condition cmd s) := by
  cases condition with
  | false => exact rfl
  | true => exact serves.execute cmd s

theorem pushLater (armed condition : Bool) (cmd : String) (s : σ) :
    DoesDeferring handler (whenever condition (Deferring.lift (Ssh.execute cmd))) () armed s armed
      (remote.pushIf condition cmd s) := by
  cases condition with
  | false => exact rfl
  | true => exact .lift (serves.execute cmd s)

theorem retune (armed condition : Bool) (cmd : String) (s : σ) :
    DoesDeferring handler (whenever condition do Deferring.lift (Ssh.execute cmd); Deferring.arm) () armed s
      (armed || condition) (remote.pushIf condition cmd s) := by
  cases condition with
  | false =>
    rw [Bool.or_false]
    exact rfl
  | true =>
    rw [Bool.or_true]
    exact (DoesDeferring.lift (serves.execute cmd s)).bind rfl

theorem updateRadio (n : Node) (probe : String) (txPower txPowerRespondd channel channelRespondd : UInt32)
    (armed : Bool) (s : σ) :
    let after := remote.updateRadio n probe txPower txPowerRespondd channel channelRespondd s
    DoesDeferring handler (n.pushRadio probe txPower txPowerRespondd channel channelRespondd) after.1 armed s
      (armed || after.2.1) after.2.2 := by
  intro after
  refine DoesDeferring.bind (.lift (serves.run probe s)) ?_
  have answered : after = match remote.answer probe s with
    | (none, s) => (false, false, s)
    | (some result, s) =>
      if Ssh.sshResultToString result = "" then (true, false, s)
      else (true, retunes channel channelRespondd, remote.pushRadio n (Ssh.sshResultToString result) txPower
        txPowerRespondd channel channelRespondd s) := rfl
  rcases reply : remote.answer probe s with ⟨_ | result, asked⟩ <;> rw [answered, reply] <;> dsimp only
  · rw [Bool.or_false]
    exact rfl
  · by_cases silent : Ssh.sshResultToString result = ""
    · rw [if_pos silent, silent, Bool.or_false]
      exact rfl
    · rw [if_neg silent, bne_iff_ne.mpr silent]
      have permitted : DoesDeferring handler
          (whenever (getChannel channel).isSome do
            whenever (txPower != txPowerRespondd) do
              Deferring.lift (Ssh.execute (txPowerCommand (Ssh.sshResultToString result) txPower))
            whenever (channel != channelRespondd) do
              Deferring.lift (Ssh.execute (channelCommand (Ssh.sshResultToString result) channel))
              Deferring.arm) () armed asked (armed || retunes channel channelRespondd)
          (remote.pushIf (retunes channel channelRespondd) (channelCommand (Ssh.sshResultToString result) channel)
            (remote.pushIf ((getChannel channel).isSome && txPower != txPowerRespondd)
              (txPowerCommand (Ssh.sshResultToString result) txPower) asked)) := by
        unfold retunes
        cases (getChannel channel).isSome with
        | false =>
          rw [Bool.false_and, Bool.false_and, Bool.or_false]
          exact rfl
        | true =>
          rw [Bool.true_and, Bool.true_and]
          exact (serves.pushLater armed _ _ _).bind (serves.retune armed _ _ _)
      exact (permitted.bind (serves.pushLater _ _ _ _)).bind rfl

/-- The radios of a node, and the restart if a channel was changed. -/
theorem updateRadios (n : Node) (s : σ) :
    Does handler (n.pushRadios.finally_ (Ssh.execute wifiCommand)) () s (remote.updateRadios n s) := by
  have restart (armed : Bool) (s : σ) : if armed = true then
      Does handler (Ssh.execute wifiCommand) () s (remote.pushIf armed wifiCommand s)
      else s = remote.pushIf armed wifiCommand s := by
    cases armed with
    | false => exact rfl
    | true => exact serves.execute wifiCommand s
  have radio24 := serves.updateRadio n radio24Command n.wireless.txPower24 n.wirelessRespondd.txPower24
    n.wireless.channel24 n.wirelessRespondd.channel24 false s
  have split : remote.updateRadios n s = match remote.updateRadio24 n s with
    | (false, armed, s) => remote.pushIf armed wifiCommand s
    | (true, armed, s) =>
      let (_, armed5, s) := remote.updateRadio5 n s
      remote.pushIf (armed || armed5) wifiCommand s := rfl
  rw [split]
  rcases first : remote.updateRadio24 n s with ⟨_ | _, armed, after24⟩ <;>
    rw [show remote.updateRadio n radio24Command _ _ _ _ s = _ from first] at radio24 <;>
    dsimp only [Bool.false_or] at radio24 ⊢
  · have body : DoesDeferring handler n.pushRadios () false s armed after24 := DoesDeferring.bind radio24 (by exact rfl)
    exact body.finally_ (restart armed after24)
  · have radio5 := serves.updateRadio n radio5Command n.wireless.txPower5 n.wirelessRespondd.txPower5
      n.wireless.channel5 n.wirelessRespondd.channel5 armed after24
    have body : DoesDeferring handler n.pushRadios () false s (armed || (remote.updateRadio5 n after24).2.1)
        (remote.updateRadio5 n after24).2.2 := DoesDeferring.bind radio24 (DoesDeferring.bind radio5 (by exact rfl))
    exact body.finally_ (restart _ _)

end Remote.Serves

/-- An update that finds a connection goes as its commands do at the other end. -/
theorem does_update (serves : remote.Serves handler) (n : Node) {s connected : σ}
    (connects : handler (.connectTo n.getAddress) s = (none, connected)) :
    Does handler n.sshUpdate true s (remote.update n connected) := by
  have reached : Does handler (perform (.connectTo n.getAddress) : Go (Option String)) none s connected :=
    congrArg (Prod.map Except.ok id) connects
  refine reached.bind ((serves.pushIf _ _ _).bind ((serves.pushIf _ _ _).bind ((serves.pushIf _ _ _).bind
    ((serves.updateRadios n _).bind ?_))))
  exact rfl

end Update

end FreifunkManager
