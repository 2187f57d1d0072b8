import FreifunkManager.Proofs.SshClient

/-! # Sessions that cannot be opened

A session is closed by a deferred call that is set up before the error is looked at, so a connection on which no
session can be opened any more ends in a panic. `returned_iff` tells for every history of outcomes that this is
the only way not to return.
-/

namespace FreifunkManager.Client

open Effects Program

/-- A session was asked for and could not be opened. -/
def Lost (history : History) : Prop := ∃ err, ⟨.newSession, some err⟩ ∈ history

/-- A command failed. -/
def Failed (history : History) : Prop := ∃ cmd err, ⟨.runCommand cmd, .error err⟩ ∈ history

/-- Nothing is promised of the replies. -/
def Anything (op : Op) (_ : op.Reply) : Prop := True

theorem lost_append {first second : History} : Lost (first ++ second) ↔ Lost first ∨ Lost second := by
  simp only [Lost, List.mem_append, exists_or]

theorem not_lost_nil : ¬ Lost [] := by simp [Lost]

/-- The code returns a wanted value, except that it panics if a session cannot be opened. -/
def Survives {α : Type} (code : Go α) (wanted : α → History → Prop) : Prop :=
  code.run.Histories Anything fun result history =>
    (¬ Lost history → ∃ value, result = .ok value ∧ wanted value history) ∧ (Lost history → result = .error .nilSession)

section Survives

variable {α β : Type}

theorem Survives.mono {code : Go α} {wanted weaker : α → History → Prop} (survives : Survives code wanted)
    (weaken : ∀ value history, wanted value history → weaker value history) : Survives code weaker := by
  refine Histories.mono survives fun result history ends => ⟨fun kept => ?_, ends.2⟩
  obtain ⟨value, same, holds⟩ := ends.1 kept
  exact ⟨value, same, weaken value history holds⟩

theorem survives_pure {value : α} {wanted : α → History → Prop} (holds : wanted value []) :
    Survives (pure value) wanted :=
  ⟨fun _ => ⟨value, rfl, holds⟩, fun lost => absurd lost not_lost_nil⟩

/-- Code that returns or not goes on only if it returns. -/
theorem Survives.bind {code : Go α} {rest : α → Go β} {middle : α → History → Prop} {wanted : β → History → Prop}
    (first : Survives code middle) (second : ∀ value history, middle value history →
      Survives (rest value) fun result more => wanted result (history ++ more)) : Survives (code >>= rest) wanted := by
  unfold Survives
  rw [ExceptT.run_bind, histories_bind]
  refine Histories.mono first fun result history ends => ?_
  by_cases lost : Lost history
  · rw [ends.2 lost]
    exact ⟨fun kept => absurd (lost_append.mpr (.inl lost)) kept, fun _ => rfl⟩
  · obtain ⟨value, rfl, holds⟩ := ends.1 lost
    refine Histories.mono (second value history holds) fun result more ends => ?_
    exact ⟨fun kept => ends.1 fun lost => kept (lost_append.mpr (.inr lost)),
      fun either => ends.2 ((lost_append.mp either).resolve_left lost)⟩

theorem survives_whenever {code : Go Unit} (condition : Bool) (survives : Survives code fun _ _ => True) :
    Survives (whenever condition code) fun _ _ => True := by
  cases condition with
  | true => exact survives
  | false => exact survives_pure trivial

theorem survives_connectTo (addr : TCPAddr) :
    Survives (perform (.connectTo addr) : Go (Option String)) fun _ _ => True := by
  intro err _
  refine ⟨fun _ => ⟨err, rfl, trivial⟩, ?_⟩
  rintro ⟨_, member⟩
  simp at member

theorem Survives.deferring {code : Go α} {wanted : α → History → Prop} (survives : Survives code wanted) :
    Survives (deferring closeClient code) fun value history =>
      ∃ inner, history = inner ++ [⟨.closeClient, ()⟩] ∧ wanted value inner := by
  refine deferring_histories.mpr (Histories.mono survives fun result history ends _ => ?_)
  have closing : ¬ Lost [⟨.closeClient, ()⟩] := by simp [Lost]
  rw [lost_append, or_iff_left closing]
  refine ⟨fun kept => ?_, ends.2⟩
  obtain ⟨value, rfl, holds⟩ := ends.1 kept
  exact ⟨value, rfl, history, rfl, holds⟩

theorem survives_execute (cmd : String) :
    Survives (execute cmd) fun err history => err.isSome ↔ Failed history := by
  refine execute_histories cmd (fun _ reply _ => ⟨fun _ => ⟨_, rfl, ?_⟩, fun lost => ?_⟩) fun err _ =>
    ⟨fun kept => ?_, fun _ => rfl⟩
  · cases reply <;> simp [Failed, exchanges]
  · simp [Lost, exchanges] at lost
  · simp [Lost] at kept

theorem survives_run (cmd : String) :
    Survives (run cmd) fun result history => result.2.isSome ↔ Failed history := by
  refine run_histories cmd (fun _ reply _ => ⟨fun _ => ⟨_, rfl, ?_⟩, fun lost => ?_⟩) fun err _ =>
    ⟨fun kept => ?_, fun _ => rfl⟩
  · cases reply <;> simp [Failed, exchanges]
  · simp [Lost, exchanges] at lost
  · simp [Lost] at kept

theorem survives_push (cmd : String) : Survives (push cmd) fun _ _ => True :=
  (survives_execute cmd).bind fun _ _ _ => survives_pure trivial

/-- The same with the flag of a deferred call. -/
def SurvivesLater (code : Deferring α) : Prop :=
  ∀ armed, (code.run.run armed).Histories Anything fun ended history =>
    (¬ Lost history → ∃ value, ended.1 = .ok value) ∧ (Lost history → ended.1 = .error .nilSession)

theorem SurvivesLater.bind {code : Deferring α} {rest : α → Deferring β} (first : SurvivesLater code)
    (second : ∀ value, SurvivesLater (rest value)) : SurvivesLater (code >>= rest) := by
  intro armed
  rw [ExceptT.run_bind, StateT.run_bind, histories_bind]
  refine Histories.mono (first armed) fun ⟨result, armed⟩ history ends => ?_
  by_cases lost : Lost history
  · rw [show result = .error .nilSession from ends.2 lost]
    exact ⟨fun kept => absurd (lost_append.mpr (.inl lost)) kept, fun _ => rfl⟩
  · obtain ⟨value, rfl⟩ := ends.1 lost
    refine Histories.mono (second value armed) fun ended more ends => ?_
    exact ⟨fun kept => ends.1 fun lost => kept (lost_append.mpr (.inr lost)),
      fun either => ends.2 ((lost_append.mp either).resolve_left lost)⟩

theorem survivesLater_pure (value : α) : SurvivesLater (pure value) :=
  fun _ => ⟨fun _ => ⟨value, rfl⟩, fun lost => absurd lost not_lost_nil⟩

theorem survivesLater_arm : SurvivesLater (set true) :=
  fun _ => ⟨fun _ => ⟨_, rfl⟩, fun lost => absurd lost not_lost_nil⟩

theorem survivesLater_whenever {code : Deferring Unit} (condition : Bool) (survives : SurvivesLater code) :
    SurvivesLater (whenever condition code) := by
  cases condition with
  | true => exact survives
  | false => exact survivesLater_pure ()

theorem Survives.later {code : Go α} {wanted : α → History → Prop} (survives : Survives code wanted) :
    SurvivesLater (later code) := by
  exact fun armed => later_histories.mpr (Histories.mono survives fun result history ends =>
    ⟨fun kept => (ends.1 kept).imp fun _ holds => holds.1, ends.2⟩)

/-- The deferred call is made after a panic too, and may panic itself. -/
theorem Survives.deferringIf {deferred : Go Unit} {body : Deferring α} (last : Survives deferred fun _ _ => True)
    (survives : SurvivesLater body) : Survives (deferringIf deferred body) fun _ _ => True := by
  refine deferringIf_histories.mpr (Histories.mono (survives false) fun ⟨result, armed⟩ history ends => ?_)
  cases armed with
  | false => exact ⟨fun kept => (ends.1 kept).imp fun _ same => ⟨same, trivial⟩, ends.2⟩
  | true =>
    refine Histories.mono last fun called more ended => ?_
    rw [lost_append]
    constructor
    · intro kept
      obtain ⟨value, rfl⟩ := ends.1 fun lost => kept (.inl lost)
      obtain ⟨_, rfl, _⟩ := ended.1 fun lost => kept (.inr lost)
      exact ⟨value, rfl, trivial⟩
    · intro lost
      by_cases again : Lost more
      · rw [ended.2 again]
        rfl
      · obtain ⟨_, rfl, _⟩ := ended.1 again
        exact ends.2 (lost.resolve_right again)

end Survives

section Update

variable (n : Node)

theorem survives_pushRadio (probe : String) (txPower txPowerRespondd channel channelRespondd : UInt32) :
    SurvivesLater (pushRadio n probe txPower txPowerRespondd channel channelRespondd) := by
  have pushed (condition : Bool) (cmd : String) : SurvivesLater (whenever condition do later (push cmd)) :=
    survivesLater_whenever condition (survives_push cmd).later
  refine (survives_run probe).later.bind fun ⟨result, err⟩ => ?_
  cases err with
  | some err => exact survivesLater_pure false
  | none =>
    refine SurvivesLater.bind (survivesLater_whenever _ ?_) fun _ => survivesLater_pure true
    refine SurvivesLater.bind (survivesLater_whenever _ ?_) fun _ => pushed _ _
    exact (pushed _ _).bind fun _ => survivesLater_whenever _ ((survives_push _).later.bind fun _ => survivesLater_arm)

theorem survives_pushRadios : SurvivesLater (pushRadios n) := by
  refine (survives_pushRadio n _ _ _ _ _).bind fun asked => ?_
  cases asked with
  | false => exact survivesLater_pure ()
  | true => exact (survives_pushRadio n _ _ _ _ _).bind fun _ => survivesLater_pure ()

theorem survives_pushAll : Survives (pushAll n) fun _ _ => True := by
  have pushed (condition : Bool) (cmd : String) : Survives (whenever condition do push cmd) fun _ _ => True :=
    survives_whenever condition (survives_push cmd)
  exact (pushed _ _).bind fun _ _ _ => (pushed _ _).bind fun _ _ _ => (pushed _ _).bind fun _ _ _ =>
    (survives_push wifiCommand).deferringIf (survives_pushRadios n)

theorem survives_sshUpdate : Survives (sshUpdate n) fun _ _ => True := by
  refine (survives_connectTo n.getAddress).bind fun err _ _ => ?_
  cases err with
  | some err => exact survives_pure trivial
  | none =>
    exact (survives_pushAll n).deferring.mono (fun _ _ _ => trivial) |>.bind fun _ _ _ => survives_pure trivial

end Update

theorem survives_executeOn (addr : TCPAddr) (cmd : String) : Survives (executeOn addr cmd) fun _ _ => True := by
  refine (survives_connectTo addr).bind fun err _ _ => ?_
  cases err with
  | some err => exact survives_pure trivial
  | none => exact (survives_execute cmd).deferring.mono fun _ _ _ => trivial

theorem survives_runOn (addr : TCPAddr) (cmd : String) : Survives (runOn addr cmd) fun _ _ => True := by
  refine (survives_connectTo addr).bind fun err _ _ => ?_
  cases err with
  | some err => exact survives_pure trivial
  | none => exact (survives_run cmd).deferring.mono fun _ _ _ => trivial

/-! ## Returning -/

/-- The code returned, with a value that is right after this history. -/
def Returned {α : Type} (result : Except Panic α) (right : α → Prop) : Prop := ∃ value, result = .ok value ∧ right value

/-- There is an error exactly if the session could not be opened or the command failed. -/
def Tells (history : History) (err : Option String) : Prop := err.isSome ↔ Lost history ∨ Failed history

theorem Survives.returned {α : Type} {code : Go α} {wanted : α → History → Prop} {right : History → α → Prop}
    (survives : Survives code wanted)
    (implies : ∀ value history, ¬ Lost history → wanted value history → right history value) :
    code.run.Histories Anything fun result history => Returned result (right history) ↔ ¬ Lost history := by
  refine Histories.mono survives fun result history ends => ?_
  constructor
  · rintro ⟨value, rfl, _⟩ lost
    exact nomatch ends.2 lost
  · intro kept
    obtain ⟨value, rfl, holds⟩ := ends.1 kept
    exact ⟨value, rfl, implies value history kept holds⟩

theorem tells_of_failed {history : History} {err : Option String} (kept : ¬ Lost history)
    (failed : err.isSome ↔ Failed history) :
    Tells history err := by rw [Tells, or_iff_right kept, failed]

/-- Whatever the outcomes are, the functions that open sessions return as they should if and only if every session
that they ask for can be opened. -/
theorem returned_iff (n : Node) (addr : TCPAddr) (cmd : String) :
    ((execute cmd).run.Histories Anything fun result history =>
      Returned result (Tells history) ↔ ¬ Lost history) ∧
    ((run cmd).run.Histories Anything fun result history =>
      Returned result (fun (_, err) => Tells history err) ↔ ¬ Lost history) ∧
    ((executeOn addr cmd).run.Histories Anything fun result history =>
      Returned result (fun _ => True) ↔ ¬ Lost history) ∧
    ((runOn addr cmd).run.Histories Anything fun result history =>
      Returned result (fun _ => True) ↔ ¬ Lost history) ∧
    ((sshUpdate n).run.Histories Anything fun result history =>
      Returned result (fun _ => True) ↔ ¬ Lost history) := by
  refine ⟨?_, ?_, ?_, ?_, ?_⟩
  · exact (survives_execute cmd).returned fun _ _ => tells_of_failed
  · exact (survives_run cmd).returned fun _ _ => tells_of_failed
  · exact (survives_executeOn addr cmd).returned fun _ _ _ _ => trivial
  · exact (survives_runOn addr cmd).returned fun _ _ _ _ => trivial
  · exact (survives_sshUpdate n).returned fun _ _ _ _ => trivial

/-- The connection breaks after it was made. -/
theorem sshUpdate_panics : ¬ ∀ (n : Node) (addr : TCPAddr) (cmd : String),
    ((execute cmd).run.Histories Anything fun result history => Returned result (Tells history)) ∧
    ((run cmd).run.Histories Anything fun result history => Returned result fun (_, err) => Tells history err) ∧
    ((executeOn addr cmd).run.Histories Anything fun result _ => Returned result fun _ => True) ∧
    ((runOn addr cmd).run.Histories Anything fun result _ => Returned result fun _ => True) ∧
    ((sshUpdate n).run.Histories Anything fun result _ => Returned result fun _ => True) := by
  intro claimed
  have update := (claimed { hostname := "cellar", hostnameRespondd := "attic" } ⟨none, 22⟩ "uptime").2.2.2.2
  obtain ⟨_, panics, _⟩ := update none trivial (some "EOF") trivial () trivial
  exact nomatch panics

end FreifunkManager.Client
