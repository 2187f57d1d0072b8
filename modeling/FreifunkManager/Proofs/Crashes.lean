import FreifunkManager.Effects.Crashes
import FreifunkManager.Proofs.Programs
import FreifunkManager.Proofs.Worlds

/-! # What stops the process

A session that cannot be opened on a connection to a node makes the handling of a report panic, which ends the process.
Nothing else does: neither failing statements, connections or commands, nor any report or message.
-/

namespace FreifunkManager

open Effects Program

/-- No session could be opened. -/
def Unopened : (op : Op) → op.Reply → Prop
  | .newSession, opened => opened = false
  | _, _ => False

/-- The code panics. -/
def Panics {α : Type} (result : Except Panic α) : Prop := result.isOk = false

/-- The code panics if and only if it cannot open a session. -/
abbrev Opens {α : Type} (code : Go α) : Prop := Brittle (S := operations) Unopened Panics code.run

section Opens

variable {α β : Type}

theorem Opens.bind {code : Go α} {rest : α → Go β} (first : Opens code) (second : ∀ value, Opens (rest value)) :
    Opens (code >>= rest) := by
  unfold Opens
  rw [ExceptT.run_bind]
  refine brittle_bind first (fun result panics => ?_) fun result returns => ?_
  · cases result with
    | ok value => exact Bool.noConfusion panics
    | error panic => exact rfl
  · cases result with
    | ok value => exact second value
    | error panic => exact absurd rfl returns

theorem opens_pure (value : α) : Opens (pure value : Go α) := Bool.noConfusion

theorem opens_perform {op : Op} (other : ∀ reply, ¬ Unopened op reply) : Opens (perform op : Go op.Reply) :=
  fun reply => ⟨fun wrong => absurd wrong (other reply), fun _ => Bool.noConfusion⟩

theorem Opens.whenever {code : Go Unit} (condition : Bool) (opens : Opens code) : Opens (whenever condition code) := by
  cases condition with
  | true => exact opens
  | false => exact opens_pure ()

/-- Ask for a session first. -/
theorem Opens.session {rest : Go α} (opens : Opens rest) :
    Opens (do if ← perform .newSession then rest else throw .nilSession) := by
  intro opened
  cases opened with
  | true => exact ⟨fun wrong => Bool.noConfusion wrong, fun _ => opens⟩
  | false => exact ⟨fun _ => rfl, fun fine => absurd rfl fine⟩

theorem execute_opens (cmd : String) : Opens (Ssh.execute cmd) :=
  .session ((opens_perform fun _ => id).bind fun _ => opens_pure ())

theorem run_opens (cmd : String) : Opens (Ssh.run cmd) := .session (opens_perform fun _ => id)

theorem runOn_opens (addr : TCPAddr) (cmd : String) : Opens (Ssh.runOn addr cmd) := by
  refine (opens_perform fun _ => id).bind fun err => ?_
  cases err with
  | some err => exact opens_pure none
  | none => exact run_opens cmd

/-- The same for code with a deferred call. -/
def OpensLater (code : Deferring α) : Prop :=
  ∀ armed, Brittle (S := operations) Unopened (fun ended => Panics ended.1) (code.run.run armed)

theorem OpensLater.bind {code : Deferring α} {rest : α → Deferring β} (first : OpensLater code)
    (second : ∀ value, OpensLater (rest value)) : OpensLater (code >>= rest) := by
  intro armed
  rw [ExceptT.run_bind, StateT.run_bind]
  refine brittle_bind (first armed) (fun ⟨result, armed⟩ panics => ?_) fun ⟨result, armed⟩ returns => ?_
  · cases result with
    | ok value => exact Bool.noConfusion panics
    | error panic => exact rfl
  · cases result with
    | ok value => exact second value armed
    | error panic => exact absurd rfl returns

theorem opensLater_pure (value : α) : OpensLater (pure value) := fun _ => Bool.noConfusion

theorem opensLater_arm : OpensLater Deferring.arm := fun _ => Bool.noConfusion

theorem Opens.later {code : Go α} (opens : Opens code) : OpensLater (Deferring.lift code) :=
  fun _ => brittle_bind opens (fun _ panics => panics) fun _ returns => returns

theorem OpensLater.whenever {code : Deferring Unit} (condition : Bool) (opens : OpensLater code) :
    OpensLater (whenever condition code) := by
  cases condition with
  | true => exact opens
  | false => exact opensLater_pure ()

/-- The deferred call may be the one that panics; the panic of the body goes on after it. -/
theorem OpensLater.finally_ {body : Deferring α} {deferred : Go Unit} (opens : OpensLater body)
    (last : Opens deferred) :
    Opens (body.finally_ deferred) := by
  have first : Brittle (S := operations) Unopened
      (fun result => ∀ pair : Except Panic α × Bool, result = Except.ok pair → Panics pair.1)
      (ExceptT.run (liftM (body.run.run false) : Go (Except Panic α × Bool))) := by
    refine brittle_bind (opens false) (fun pair panics => ?_) fun pair returns => ?_
    · rintro _ ⟨⟩
      exact panics
    · exact fun all => returns (all pair rfl)
  change Opens (liftM (body.run.run false) >>= _)
  unfold Opens
  rw [ExceptT.run_bind]
  refine brittle_bind first (fun result panics => ?_) fun result returns => ?_
  · rcases result with panic | ⟨result, armed⟩
    · exact rfl
    · have panicked := panics _ rfl
      cases armed with
      | false => exact panicked
      | true =>
        change Doomed Panics (ExceptT.run (m := Prog) (deferred >>= fun _ => ExceptT.mk (pure result)))
        rw [ExceptT.run_bind]
        refine satisfies_bind.mpr (doomed_of_forall _ fun last => ?_)
        cases last with
        | ok _ => exact panicked
        | error panic => exact rfl
  · rcases result with panic | ⟨result, armed⟩
    · exact absurd (fun _ same => by contradiction) returns
    · have returned : ¬ Panics result := fun panics => returns fun pair same => by cases same; exact panics
      have same : Opens (ExceptT.mk (pure result) : Go α) := returned
      cases armed with
      | false => exact same
      | true => exact last.bind fun _ => same

end Opens

/-! ## Reports and messages -/

section Programs

variable {config : Config}

theorem pushRadio_opens (n : Node) (probe : String) (txPower txPowerRespondd channel channelRespondd : UInt32) :
    OpensLater (n.pushRadio probe txPower txPowerRespondd channel channelRespondd) := by
  have executes (cmd : String) : OpensLater (Deferring.lift (Ssh.execute cmd)) := (execute_opens cmd).later
  refine (run_opens probe).later.bind fun result => ?_
  cases result with
  | none => exact opensLater_pure false
  | some result =>
    refine .bind (.whenever _ (.bind (.whenever _ (.bind (.whenever _ (executes _)) fun _ => .whenever _ ?_)) fun _ =>
      .whenever _ (executes _))) fun _ => opensLater_pure true
    exact (executes _).bind fun _ => opensLater_arm

theorem pushRadios_opens (n : Node) : OpensLater n.pushRadios := by
  refine OpensLater.bind (pushRadio_opens n _ _ _ _ _) fun asked => ?_
  cases asked with
  | false => exact opensLater_pure ()
  | true => exact OpensLater.bind (pushRadio_opens n _ _ _ _ _) fun _ => opensLater_pure ()

theorem sshUpdate_opens (n : Node) : Opens n.sshUpdate := by
  refine (opens_perform fun _ => id).bind fun err => ?_
  cases err with
  | some err => exact opens_pure false
  | none =>
    refine .bind (.whenever _ (execute_opens _)) fun _ => .bind (.whenever _ (execute_opens _)) fun _ =>
      .bind (.whenever _ (execute_opens _)) fun _ => .bind ?_ fun _ => opens_pure true
    exact (pushRadios_opens n).finally_ (execute_opens wifiCommand)

theorem refreshKnown_opens (now : Time) (lNode : Node) : Opens (refreshKnown config now lNode) := by
  rw [refreshKnown_eq]
  refine (opens_perform fun _ => id).bind fun _ => (opens_perform fun _ => id).bind fun checked => ?_
  split
  · exact opens_pure ()
  · refine Opens.bind ?_ fun reached => ?_
    · unfold Node.pushDifferences
      split
      · exact opens_pure true
      · exact sshUpdate_opens _
    · cases reached with
      | true => exact opens_perform fun _ => id
      | false => exact (opens_perform fun _ => id).bind fun _ => opens_pure ()

theorem register_opens (node : Node) (now : Time) : Opens (node.register now) := by
  refine (runOn_opens _ _).bind fun result => (opens_perform fun _ => id).bind fun created => ?_
  generalize (if result.isNone then node.blacklisted now else node) = built
  split
  · exact opens_perform fun _ => id
  · exact opens_pure ()

theorem insertNode_opens (n : Yanic.Node) : Opens (insertNode config n) := by
  unfold insertNode
  split
  · refine (opens_perform fun _ => id).bind fun now => (opens_perform fun _ => id).bind fun found => ?_
    cases found with
    | some row => exact (opens_perform fun _ => id).bind fun updated => refreshKnown_opens now _
    | none =>
      refine (opens_perform fun _ => id).bind fun updated => ?_
      cases newNode n config.ipPrefix updated with
      | some node => exact register_opens node now
      | none => exact opens_pure ()
  · exact opens_pure ()

theorem program_brittle (config : Config) (call : Call) :
    (call.program config).Brittle (S := operations) Unopened Panics := by
  have calm {program : Prog Unit} (only : Only (fun op => ∀ reply, ¬ Unopened op reply) program) :
      (Except.ok <$> program : Prog (Except Panic Unit)).Brittle (S := operations) Unopened Panics :=
    brittle_of_satisfies (satisfies_bind.mpr (only.mono fun _ _ => Bool.noConfusion))
  cases call with
  | report n => exact insertNode_opens n
  | message msg =>
    refine calm (handleMessage_satisfies config msg ?_ (fun _ _ => id) (fun _ _ _ _ _ => id) (fun _ _ _ => id) ?_)
    · intro op aside reply
      cases op <;> first | exact id | exact aside.elim
    · intro node op _ announces reply
      cases op <;> first | exact id | exact announces.elim
  | ping =>
    refine calm (sendPing_only.weaken fun op pings reply => ?_)
    cases op <;> first | exact id | exact pings.elim

end Programs

/-! ## Runs -/

/-- A session could not be opened. -/
def Event.Unopened (e : Event) : Prop := FreifunkManager.Unopened e.op e.reply

/-- In every run, the process ends only after a session could not be opened. After that it only goes on as long as the
report is in progress for which it was asked, and this one ends in a panic, whatever happens. -/
theorem crashes_of_unopened (config : Config) {w : World} (fresh : ∀ e ∈ w.log, ¬ e.Unopened)
    {state : Snapshot operations ℕ Call (Except Panic Unit) World}
    (reached : (crowd config).Reachable (Pool.Admits (fun _ => True) fun _ _ _ _ => True) (unoccupied w) state) :
    (state.halted = true → ∃ e ∈ state.shared.log, e.Unopened) ∧
      ∀ e ∈ state.shared.log, e.Unopened → state.halted = true ∨ ∃ worker program,
        state.active worker = some (e.call, program) ∧
        program.Satisfies (S := operations) (fun _ => True) (fun _ _ => True) (· = .error .nilSession) := by
  have records : (crowd config).Records Unopened fun v call => ∃ e ∈ v.log, e.Unopened ∧ e.call = call := by
    intro call choice op v other
    change (∃ e ∈ v.event call choice op :: v.log, e.Unopened ∧ e.call = other) ↔
      (∃ e ∈ v.log, e.Unopened ∧ e.call = other) ∨ other = call ∧ (v.event call choice op).Unopened
    simp only [List.mem_cons, or_and_right, exists_or, exists_eq_left]
    rw [or_comm, and_comm (b := _ = other), eq_comm (b := other)]
    rfl
  have fragile := reached.crashes records (fun call _ => program_brittle config call)
    (by rintro call ⟨e, member, wrong, _⟩; exact fresh e member wrong) rfl fun _ => rfl
  constructor
  · intro halted
    obtain ⟨_, e, member, wrong, _⟩ := fragile.halted halted
    exact ⟨e, member, wrong⟩
  · intro e member wrong
    refine (fragile.failing e.call ⟨e, member, wrong, rfl⟩).imp_right ?_
    rintro ⟨worker, program, busy, doomed⟩
    refine ⟨worker, program, busy, Satisfies.mono doomed fun result panics => ?_⟩
    rcases result with ⟨⟨⟩⟩ | _
    · rfl
    · contradiction

namespace Sample

/-- A node is found to differ, and no session can be opened to it. -/
def unopened : List (Action ℕ Call Choice) :=
  .start 0 (.report (report "cellar")) :: List.replicate 7 (.advance 0 { time := 60, sessionFails := true })

end Sample

theorem crashes_of_unopened_report : ∃ state : Snapshot operations ℕ Call (Except Panic Unit) World,
    (crowd Sample.config).run (fun _ => true) (fun _ _ _ _ => true)
    (unoccupied (Sample.world [Sample.row])) Sample.unopened =
      some state ∧ state.halted = true ∧ ∃ e ∈ state.shared.log, e.Unopened := by
  have checked : ((crowd Sample.config).run (fun _ => true) (fun _ _ _ _ => true)
      (unoccupied (Sample.world [Sample.row]))
      Sample.unopened).any (·.halted) = true := by decide +kernel
  obtain ⟨state, replayed, halted⟩ := (Option.any_eq_true ..).mp checked
  have crashes := crashes_of_unopened Sample.config (w := Sample.world [Sample.row]) (List.forall_mem_nil _)
    (.of_run replayed (fun _ _ => trivial) fun _ _ _ _ _ => trivial)
  exact ⟨state, replayed, halted, crashes.1 halted⟩

end FreifunkManager
