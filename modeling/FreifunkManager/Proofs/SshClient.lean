import FreifunkManager.Model.SshClient

/-! # The SSH code in full and in short

Without the deferred calls that close sessions and connections, and without the texts of the errors, the SSH code is
the one that the handler of reports uses (`lowers_sshUpdate`, `lowers_runOn`).
-/

namespace FreifunkManager.Client

open Effects Program

/-- What the library does as seen by the handler of reports; closing is not seen. -/
def lower : (op : Op) → FreifunkManager.Prog op.Reply
  | .connectTo addr => FreifunkManager.perform (.connectTo addr)
  | .newSession => do return if ← FreifunkManager.perform .newSession then none else some ""
  | .runCommand cmd => do return (← FreifunkManager.perform (.runCommand cmd)).elim (.error "") .ok
  | .closeSession | .closeClient => return

variable {α β : Type}

/-- The code is the other one as seen by the handler of reports. -/
def Lowers (code : Go α) (low : FreifunkManager.Go α) : Prop := code.run.translate lower = low.run

theorem Lowers.bind {code : Go α} {low : FreifunkManager.Go α} {rest : α → Go β} {lowRest : α → FreifunkManager.Go β}
    (first : Lowers code low) (second : ∀ value, Lowers (rest value) (lowRest value)) :
    Lowers (code >>= rest) (low >>= lowRest) := by
  unfold Lowers at *
  rw [ExceptT.run_bind, ExceptT.run_bind, translate_bind, first]
  congr 1
  funext result
  cases result with
  | ok value => exact second value
  | error panic => rfl

theorem Lowers.pure (value : α) : Lowers (pure value) (pure value) := rfl

theorem translate_map (f : α → β) (code : Go α) :
    (f <$> code).run.translate lower = Except.map f <$> code.run.translate lower := by
  rw [ExceptT.run_map, map_eq_pure_bind, translate_bind, map_eq_pure_bind]
  rfl

theorem lowers_whenever {code : Go Unit} {low : FreifunkManager.Go Unit} (condition : Bool) (lowers : Lowers code low) :
    Lowers (whenever condition code) (whenever condition low) := by
  cases condition with
  | true => exact lowers
  | false => exact .pure ()

theorem lowers_connectTo (addr : TCPAddr) : Lowers (perform (.connectTo addr) : Go (Option String))
    (FreifunkManager.perform (.connectTo addr) : FreifunkManager.Go (Option String)) := rfl

/-- The result of a command with its error. -/
def raise : Option String → String × Option String
  | some output => (output, none)
  | none => ("", some "")

theorem lowers_run (cmd : String) : Lowers (run cmd) (raise <$> Ssh.run cmd) := by
  change Program.ask _ _ = Program.ask _ _
  congr 1
  funext made
  cases made with
  | false => rfl
  | true =>
    change Program.ask _ _ = Program.ask _ _
    congr 1
    funext output
    cases output <;> rfl

theorem lowers_push (cmd : String) : Lowers (push cmd) (Ssh.execute cmd) := by
  change Program.ask _ _ = Program.ask _ _
  congr 1
  funext made
  cases made with
  | false => rfl
  | true =>
    change Program.ask _ _ = Program.ask _ _
    congr 1
    funext output
    cases output <;> rfl

/-- Closing a connection is not seen. -/
theorem translate_deferring (code : Go α) :
    (deferring closeClient code).run.translate lower = code.run.translate lower := by
  have unseen (result : Except Panic α) :
      (ExceptT.run (do closeClient; ExceptT.mk (pure result) : Go α)).translate lower =
      .done result := rfl
  change ((Except.ok <$> code.run : Prog (Except Panic (Except Panic α))) >>= _).translate lower = _
  rw [translate_bind, map_eq_pure_bind, translate_bind, Program.bind_assoc]
  exact (congrArg _ (funext unseen)).trans (bind_done _)

/-- The same with the flag of a deferred call. -/
def LowersLater (code : Deferring α) (low : FreifunkManager.Deferring α) : Prop :=
  ∀ armed, (code.run.run armed).translate lower = low.run.run armed

theorem LowersLater.bind {code : Deferring α} {low : FreifunkManager.Deferring α} {rest : α → Deferring β}
    {lowRest : α → FreifunkManager.Deferring β} (first : LowersLater code low)
    (second : ∀ value, LowersLater (rest value) (lowRest value)) : LowersLater (code >>= rest) (low >>= lowRest) := by
  intro armed
  rw [ExceptT.run_bind, ExceptT.run_bind, StateT.run_bind, StateT.run_bind, translate_bind, first armed]
  congr 1
  funext ⟨result, armed⟩
  cases result with
  | ok value => exact second value armed
  | error panic => rfl

theorem LowersLater.pure (value : α) : LowersLater (pure value) (pure value) := fun _ => rfl

theorem lowersLater_whenever {code : Deferring Unit} {low : FreifunkManager.Deferring Unit} (condition : Bool)
    (lowers : LowersLater code low) : LowersLater (whenever condition code) (whenever condition low) := by
  cases condition with
  | true => exact lowers
  | false => exact .pure ()

theorem Lowers.later {code : Go α} {low : FreifunkManager.Go α} (lowers : Lowers code low) :
    LowersLater (later code) (Deferring.lift low) := by
  intro armed
  unfold Lowers at lowers
  unfold Client.later Deferring.lift
  rw [ExceptT.run_mk, ExceptT.run_mk, StateT.run_lift, StateT.run_lift, translate_bind, lowers]
  rfl

theorem lowersLater_arm : LowersLater (set true) Deferring.arm := fun _ => rfl

theorem Lowers.deferringIf {deferred : Go Unit} {lowDeferred : FreifunkManager.Go Unit} {body : Deferring α}
    {low : FreifunkManager.Deferring α} (last : Lowers deferred lowDeferred) (lowers : LowersLater body low) :
    Lowers (deferringIf deferred body) (low.finally_ lowDeferred) := by
  refine Lowers.bind ?_ fun ⟨result, armed⟩ => ?_
  · unfold Lowers
    change (Except.ok <$> body.run.run false : Prog _).translate lower = (Except.ok <$> low.run.run false)
    rw [map_eq_pure_bind, translate_bind, lowers false, map_eq_pure_bind]
    rfl
  · cases armed with
    | true => exact last.bind fun _ => rfl
    | false => exact rfl

/-- What follows a command goes on with its output. -/
theorem LowersLater.run (cmd : String) {rest : String × Option String → Deferring α}
    {lowRest : Option String → FreifunkManager.Deferring α}
    (second : ∀ output, LowersLater (rest (raise output)) (lowRest output)) :
    LowersLater (later (Client.run cmd) >>= rest) (Deferring.lift (Ssh.run cmd) >>= lowRest) := by
  intro armed
  have ran : (Client.run cmd).run.translate lower = Except.map raise <$> (Ssh.run cmd).run :=
    (lowers_run cmd).trans (ExceptT.run_map ..)
  have first : ((Client.later (Client.run cmd)).run.run armed).translate lower =
      (Prod.map (Except.map raise) id) <$> (Deferring.lift (Ssh.run cmd)).run.run armed := by
    unfold Client.later Deferring.lift
    rw [ExceptT.run_mk, ExceptT.run_mk, StateT.run_lift, StateT.run_lift, translate_bind, ran]
    simp only [map_eq_pure_bind, Program.bind_assoc]
    rfl
  rw [ExceptT.run_bind, ExceptT.run_bind, StateT.run_bind, StateT.run_bind, translate_bind, first, map_eq_pure_bind,
    Program.bind_assoc]
  congr 1
  funext ⟨result, armed⟩
  cases result with
  | ok output => exact second output armed
  | error panic => rfl

section Update

variable (n : Node)

theorem lowers_pushRadio (probe : String) (txPower txPowerRespondd channel channelRespondd : UInt32) :
    LowersLater (pushRadio n probe txPower txPowerRespondd channel channelRespondd)
      (n.pushRadio probe txPower txPowerRespondd channel channelRespondd) := by
  have pushed (condition : Bool) (cmd : String) : LowersLater (whenever condition do later (push cmd))
      (whenever condition do Deferring.lift (Ssh.execute cmd)) := lowersLater_whenever condition (lowers_push cmd).later
  refine .run probe fun output => ?_
  cases output with
  | none => exact .pure false
  | some result =>
    refine LowersLater.bind (lowersLater_whenever _ ?_) fun _ => .pure true
    refine LowersLater.bind (lowersLater_whenever _ ?_) fun _ => pushed _ _
    exact (pushed _ _).bind fun _ => lowersLater_whenever _ ((lowers_push _).later.bind fun _ => lowersLater_arm)

theorem lowers_pushRadios : LowersLater (pushRadios n) n.pushRadios := by
  refine (lowers_pushRadio n _ _ _ _ _).bind fun asked => ?_
  cases asked with
  | false => exact .pure ()
  | true => exact (lowers_pushRadio n _ _ _ _ _).bind fun _ => .pure ()

/-- The update in full is the update that the handler of reports uses. -/
theorem lowers_sshUpdate : Lowers (sshUpdate n) n.sshUpdate := by
  refine (lowers_connectTo _).bind fun err => ?_
  cases err with
  | some err => exact .pure false
  | none =>
    have pushed (condition : Bool) (cmd : String) : Lowers (whenever condition do push cmd)
        (whenever condition do Ssh.execute cmd) := lowers_whenever condition (lowers_push cmd)
    have all : Lowers (pushAll n) (do
        n.pushHostname
        n.pushOwner
        n.pushLocation
        n.pushRadios.finally_ (Ssh.execute wifiCommand)) :=
      (pushed _ _).bind fun _ => (pushed _ _).bind fun _ => (pushed _ _).bind fun _ =>
        (lowers_push wifiCommand).deferringIf (lowers_pushRadios n)
    have closed : Lowers (deferring closeClient (pushAll n)) _ := (translate_deferring _).trans all
    have whole := closed.bind fun _ => Lowers.pure true
    simp only [LawfulMonad.bind_assoc] at whole
    exact whole

/-- The output of a command, unless there is an error. -/
def output? (result : String × Option String) : Option String := if result.2.isSome then none else some result.1

theorem lowers_runOn (addr : TCPAddr) (cmd : String) : Lowers (output? <$> runOn addr cmd) (Ssh.runOn addr cmd) := by
  have outputs : output? ∘ raise = id := by
    funext output
    cases output <;> rfl
  have forgets : Lowers (output? <$> run cmd) (Ssh.run cmd) := by
    unfold Lowers
    rw [translate_map, lowers_run cmd, ← ExceptT.run_map, ← comp_map, outputs, id_map]
  unfold runOn Ssh.runOn
  rw [map_bind]
  refine (lowers_connectTo addr).bind fun err => ?_
  cases err with
  | some err => exact .pure none
  | none =>
    change (output? <$> deferring closeClient (run cmd)).run.translate lower = (Ssh.run cmd).run
    rw [translate_map, translate_deferring, ← translate_map]
    exact forgets

end Update

/-! ## Histories -/

abbrev History := List (Exchange operations)

section Histories

variable {promised : (op : Op) → op.Reply → Prop}

/-- The session is opened, the command is run, and the session is closed. -/
def exchanges (cmd : String) (reply : Except String String) : History :=
  [⟨.newSession, none⟩, ⟨.runCommand cmd, reply⟩, ⟨.closeSession, ()⟩]

theorem execute_histories (cmd : String)
    {wanted : Except Panic (Option String) → History → Prop}
    (opened : promised .newSession none → ∀ reply, promised (.runCommand cmd) reply →
      wanted (.ok (match reply with | .error err => some err | .ok _ => none)) (exchanges cmd reply))
    (lost : ∀ err, promised .newSession (some err) → wanted (.error .nilSession) [⟨.newSession, some err⟩]) :
    (execute cmd).run.Histories promised wanted := by
  intro err made
  cases err with
  | some err => exact lost err made
  | none =>
    intro reply kept
    cases reply with
    | error err => exact fun _ _ => opened made _ kept
    | ok output => exact fun _ _ => opened made _ kept

theorem run_histories (cmd : String)
    {wanted : Except Panic (String × Option String) → History → Prop}
    (opened : promised .newSession none → ∀ reply, promised (.runCommand cmd) reply →
      wanted (.ok (match reply with | .error err => ("", some err) | .ok output => (output, none)))
      (exchanges cmd reply))
    (lost : ∀ err, promised .newSession (some err) → wanted (.error .nilSession) [⟨.newSession, some err⟩]) :
    (run cmd).run.Histories promised wanted := by
  intro err made
  cases err with
  | some err => exact lost err made
  | none =>
    intro reply kept
    cases reply with
    | error err => exact fun _ _ => opened made _ kept
    | ok output => exact fun _ _ => opened made _ kept

theorem later_histories {code : Go α} {armed : Bool} {wanted : Except Panic α × Bool → History → Prop} :
    ((later code).run.run armed).Histories (S := operations) promised wanted ↔
      code.run.Histories (S := operations) promised fun result history => wanted (result, armed) history := by
  unfold later
  rw [ExceptT.run_mk, StateT.run_lift, histories_bind]
  refine iff_of_eq (congrArg _ (funext fun result => funext fun history => ?_))
  change wanted (result, armed) (history ++ []) = _
  rw [List.append_nil]

theorem deferring_histories {code : Go α} {wanted : Except Panic α → History → Prop} :
    (deferring closeClient code).run.Histories (S := operations) promised wanted ↔
    code.run.Histories (S := operations) promised
      fun result history => promised .closeClient () → wanted result (history ++ [⟨.closeClient, ()⟩]) := by
  change ((Except.ok <$> code.run : Prog (Except Panic (Except Panic α))) >>= _).Histories _ _ ↔ _
  rw [map_eq_pure_bind, Program.bind_assoc, histories_bind]
  constructor
  · exact fun ends => ends.mono fun result history closed kept => closed () kept
  · exact fun ends => ends.mono fun result history closed _ kept => closed kept

theorem deferringIf_histories {deferred : Go Unit} {body : Deferring α} {wanted : Except Panic α → History → Prop} :
    (deferringIf deferred body).run.Histories (S := operations) promised wanted ↔
      (body.run.run false).Histories (S := operations) promised fun ended history =>
        if ended.2 then deferred.run.Histories (S := operations) promised fun last more =>
          wanted (last.bind fun _ => ended.1) (history ++ more)
        else wanted ended.1 history := by
  change ((Except.ok <$> body.run.run false : Prog _) >>= _).Histories _ _ ↔ _
  rw [map_eq_pure_bind, Program.bind_assoc, histories_bind]
  refine iff_of_eq (congrArg _ (funext fun ⟨result, armed⟩ => funext fun history => propext ?_))
  cases armed with
  | false =>
    change wanted result (history ++ []) ↔ wanted result history
    rw [List.append_nil]
  | true =>
    change (deferred.run >>= _).Histories _ _ ↔ _
    rw [histories_bind]
    refine iff_of_eq (congrArg _ (funext fun last => funext fun more => ?_))
    cases last with
    | ok value =>
      change wanted result (history ++ (more ++ [])) = wanted result (history ++ more)
      rw [List.append_nil]
    | error panic =>
      change wanted (.error panic) (history ++ (more ++ [])) = wanted (.error panic) (history ++ more)
      rw [List.append_nil]

end Histories

end FreifunkManager.Client
