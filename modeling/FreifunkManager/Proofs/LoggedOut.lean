import FreifunkManager.Proofs.Authorised
import FreifunkManager.Proofs.OwnSession

/-! # Logged out

A session that has no row, while none of its messages and no ping round is in progress, stays without a row until it
logs in with the secret, and nothing happens for it until then, however other calls and its own messages interleave. A
message that has found the row before a logout may still bring it back (`logout_undone`).
-/

namespace FreifunkManager

open Effects Program Store

/-- The operation does nothing for this session. -/
structure Op.Spares (id : UUID) (call : Call) (op : Op) : Prop where
  acts : op.actsFor call ≠ some id
  asked : ∀ key, op = .firstSession key → key ≠ UUID.nil
  saves : ∀ session, op = .saveSession session → session.sessionID ≠ id
  creates : ∀ session, op = .createSession session → session.sessionID ≠ id

/-- The call is no login of this session. -/
def Call.Outsider (config : Config) (id : UUID) (call : Call) : Prop :=
  ∀ msg, call = .message msg → msg.session = id → ¬ msg.LogsIn config

/-- The reply does not vouch for the session, and shows what was looked up. -/
def Absent (id : UUID) (op : Op) (reply : op.Reply) : Prop := FoundById op reply ∧ ¬ op.vouches reply id

section Programs

variable {config : Config} {id : UUID} {call : Call}

theorem spares_of_mandate (outsider : call.Outsider config id) {known : UUID → Prop} (unknown : ¬ known id) {op : Op}
    (mandate : Mandate config call known op) : op.Spares id call where
  acts acts := unknown (mandate.1 id acts)
  asked key same := by
    subst same
    exact mandate.2
  saves session same := by
    subst same
    rintro rfl
    exact unknown mandate.2
  creates session same := by
    subst same
    obtain ⟨msg, called, login, own⟩ := mandate.2
    intro same
    exact outsider msg called (own.symm.trans same) login

/-- A call that starts while the session has no row, and that is no login, does nothing for it. -/
theorem program_spares (outsider : call.Outsider config id) :
    (call.program config).Satisfies (S := operations) (Op.Spares id call) (Absent id) fun _ => True := by
  have backed : (call.program config).Backed (Mandate config call) Op.vouches (fun _ _ => True) fun _ => False :=
    program_backed config call
  refine (backed.avoids id not_false fun _ _ absent => absent.2).weaken ?_
  rintro op ⟨known, unknown, mandate⟩
  exact spares_of_mandate outsider unknown mandate

/-- What a call asks for that is no ping round. -/
def Call.Keeps (call : Call) (op : Op) : Prop :=
  match call with
  | .report _ => Outside op
  | .message msg => OwnSession msg.session op ∧ ∀ session, op ≠ .sendSession session
  | .ping => True

theorem handleMessage_quiet (config : Config) (msg : Message) :
    Only (fun op => ∀ session, op ≠ .sendSession session) (handleMessage config msg) := by
  refine handleMessage_satisfies config msg ?_ ?_ ?_ ?_ ?_
  · rintro _ aside session rfl
    exact aside
  · rintro _ session ⟨⟩
  · rintro _ _ _ _ session ⟨⟩
  · rintro _ _ session ⟨⟩
  · rintro _ _ _ announces session rfl
    exact announces

theorem program_keeps (config : Config) (call : Call) :
    (call.program config).Satisfies (S := operations) call.Keeps FoundById fun _ => True := by
  cases call with
  | report n => exact (insertNode_outside config n).assuming fun _ _ _ => trivial
  | message msg =>
    refine satisfies_bind.mpr ((((handleMessage_own config msg).and (handleMessage_quiet config msg)).assuming ?_).mono
      fun _ _ => trivial)
    exact fun op reply found => ⟨found, trivial⟩
  | ping =>
    refine satisfies_bind.mpr ((Satisfies.assuming (sendPing_only.weaken fun op pings => ?_) fun _ _ _ => trivial).mono
      fun _ _ => trivial)
    trivial

theorem spares_of_keeps {op : Op} (keeps : call.Keeps op) (other : call.session ≠ some id) (round : call ≠ .ping) :
    op.Spares id call := by
  cases call with
  | ping => contradiction
  | report n =>
    have outside : Outside op := keeps
    constructor
    · intro acts
      cases op with
      | answer subject body => exact absurd (Option.ite_none_left_eq_some.mp acts).2 (Option.some_ne_none id).symm
      | saveSession | deleteSession | sendSession => contradiction
      | _ => cases acts
    · rintro key rfl
      contradiction
    · rintro session rfl
      contradiction
    · rintro session rfl
      contradiction
  | message msg =>
    obtain ⟨own, quiet⟩ := keeps
    have different : msg.session ≠ id := fun same => other (congrArg some same)
    constructor
    · intro acts
      cases op with
      | answer subject body => exact other (Option.ite_none_left_eq_some.mp acts).2
      | saveNode | createNode | sendNode | saveSession | deleteSession => exact other acts
      | sendSession session => exact quiet session rfl
      | _ => cases acts
    · rintro key rfl
      exact own.2 ▸ own.1
    · rintro session rfl
      exact own.2 ▸ different
    · rintro session rfl
      exact own.2 ▸ different

end Programs

/-! ## Operations -/

section Operations

variable {id : UUID} {call : Call} {op : Op} {w : World}

/-- A session without a row stays without one, and no reply vouches for it. -/
theorem absent_handle (spares : op.Spares id call) (choice : Choice) (absent : w.sessions.lookup id = none) :
    Absent id op (w.handle call choice op).1 ∧ (w.handle call choice op).2.sessions.lookup id = none := by
  have found : FoundById op (w.handle call choice op).1 := w.act_foundById choice op
  change (FoundById op (w.act choice op).1 ∧ ¬ op.vouches (w.act choice op).1 id) ∧
    (w.act choice op).2.sessions.lookup id = none
  refine ⟨⟨found, fun vouches => ?_⟩, ?_⟩
  · cases op with
    | firstSession key =>
      cases reply : (w.act choice (.firstSession key)).1 with
      | none =>
        rw [reply] at vouches
        exact vouches
      | some row =>
        have named := spares.asked key rfl
        have own : row.sessionID = key := found named row reply
        have first : w.sessions.first key = some row := (Option.ite_none_left_eq_some.mp reply).2
        rw [Table.first_eq_lookup named] at first
        rw [reply] at vouches
        rcases vouches with rfl | rfl
        · exact absurd (first.symm.trans absent) (Option.some_ne_none row)
        · rw [own] at absent
          exact absurd (first.symm.trans absent) (Option.some_ne_none row)
    | createSession session =>
      cases reply : (w.act choice (.createSession session)).1 with
      | false =>
        rw [reply] at vouches
        exact vouches
      | true =>
        rw [reply] at vouches
        exact spares.creates session rfl vouches.symm
    | findSessions =>
      obtain ⟨row, member, same⟩ := vouches
      have listed : row ∈ w.sessions.rows := by
        change row ∈ if choice.dbFails then [] else w.sessions.rows at member
        split at member
        · contradiction
        · exact member
      exact Table.lookup_eq_none.mp absent row listed same
    | _ => exact vouches.elim
  · cases op with
    | saveSession session =>
      simp only [World.act]
      split
      · exact absent
      · rw [Table.lookup_save, if_neg (spares.saves session rfl), absent]
    | createSession session =>
      simp only [World.act]
      split
      · next sessions created =>
        rw [(Table.create_eq_some (Option.ite_none_left_eq_some.mp created).2).2,
          if_neg (spares.creates session rfl), absent]
      · exact absent
    | deleteSession key =>
      simp only [World.act]
      split
      · exact absent
      · rw [Table.lookup_delete, absent, ite_self]
    | _ => rw [w.act_sessions choice rfl, absent]

end Operations

/-! ## Runs -/

/-- The session has no row, and since the log was as it is here, nothing has happened for it. -/
structure Silent (id : UUID) (past : List Event) (w : World) : Prop where
  absent : w.sessions.lookup id = none
  nothing : ∃ events, w.log = events ++ past ∧ ∀ e ∈ events, e.op.actsFor e.call ≠ some id

theorem Silent.handle {id : UUID} {past : List Event} {w : World} (silent : Silent id past w) {call : Call} {op : Op}
    (spares : op.Spares id call) (choice : Choice) : Silent id past (w.handle call choice op).2 := by
  obtain ⟨events, grown, nothing⟩ := silent.nothing
  refine ⟨(absent_handle spares choice silent.absent).2, w.event call choice op :: events, ?_, ?_⟩
  · rw [World.handle_log, grown, List.cons_append]
  · exact List.forall_mem_cons.mpr ⟨spares.acts, nothing⟩

/-- In every run, from any moment on at which a session has no row and none of its messages and no ping round is in
progress: until it logs in with the secret it gets no row, and nothing happens for it. -/
theorem logged_out_stays_out (config : Config) {w : World}
    {state target : Snapshot operations ℕ Call (Except Panic Unit) World}
    (before : (crowd config).Reachable (Pool.Admits (fun _ => True) fun _ _ _ _ => True) (unoccupied w) state)
    {id : UUID} (absent : state.shared.sessions.lookup id = none)
    (left : ∀ worker call program, state.active worker = some (call, program) → call.session ≠ some id ∧ call ≠ .ping)
    (after : (crowd config).Reachable (Pool.Admits (Call.Outsider config id) fun _ _ _ _ => True) state target) :
    target.shared.sessions.lookup id = none ∧
      ∀ e ∈ target.shared.since state.shared, e.op.actsFor e.call ≠ some id := by
  have midway := before.asking (fun _ => True) (fun call _ => program_keeps config call)
    (fun call choice op v _ _ _ => ⟨v.act_foundById choice op, trivial⟩) trivial fun _ _ _ busy => by contradiction
  have kept := after.asking (Silent id state.shared.log) (fun call outsider => program_spares outsider)
    (fun call choice op v spares silent _ =>
      ⟨(absent_handle spares choice silent.absent).1, silent.handle spares choice⟩)
    ⟨absent, [], rfl, List.forall_mem_nil _⟩ fun worker call program busy => ?_
  · obtain ⟨⟨missing, events, grown, nothing⟩, _⟩ := kept
    rw [World.since_eq grown]
    exact ⟨missing, nothing⟩
  · obtain ⟨other, round⟩ := left worker call program busy
    exact ((midway.2 worker call program busy).weaken fun op keeps => spares_of_keeps keeps other round).assuming
      fun op reply told => told.1

namespace Sample

def logout : Message where
  session := 1
  subject := MessageType.logout

def authStatus : Message where
  session := 1
  subject := MessageType.authStatus

def logsOut : List (Action ℕ Call Choice) :=
  [.start 0 (.message logout), .advance 0 {}, .advance 0 {}, .advance 0 {}, .finish 0]

/-- The session asks who is logged in. -/
def asks : List (Action ℕ Call Choice) := [.start 0 (.message authStatus), .advance 0 {}, .advance 0 {}]

def noLogin : Call → Bool
  | .message msg => msg.subject != MessageType.login
  | _ => true

theorem noLogin_outsider (call : Call) (checked : noLogin call = true) : call.Outsider config 1 := by
  rintro msg rfl _ login
  rw [noLogin, login.subject] at checked
  contradiction

/-- The message that asks has found the row before the logout. -/
def overlaps : List (Action ℕ Call Choice) :=
  [.start 1 (.message authStatus), .advance 1 {}] ++ logsOut ++ [.advance 1 {}, .advance 1 {}, .advance 1 {}, .finish 1]

end Sample

/-- A message that overlaps a logout undoes it. -/
example : (((crowd Sample.config).run (fun _ => true) (fun _ _ _ _ => true)
    (unoccupied (Sample.world [])) Sample.overlaps).map
    fun state => (state.shared.sessions.lookup 1).isSome) = some true := by decide +kernel

theorem logged_out_stays_out_asked : ∃ state target : Snapshot operations ℕ Call (Except Panic Unit) World,
    (crowd Sample.config).run (fun _ => true) (fun _ _ _ _ => true)
    (unoccupied (Sample.world [])) Sample.logsOut = some state ∧
    (crowd Sample.config).run Sample.noLogin (fun _ _ _ _ => true) state Sample.asks = some target ∧
    target.shared.sessions.lookup 1 = none ∧
    ∀ e ∈ target.shared.since state.shared, e.op.actsFor e.call ≠ some 1 := by
  have checked : ((crowd Sample.config).run (fun _ => true) (fun _ _ _ _ => true) (unoccupied (Sample.world []))
      Sample.logsOut).any (fun state => (state.active 0).isNone && ((state.shared.sessions.lookup 1).isNone &&
        ((crowd Sample.config).run Sample.noLogin (fun _ _ _ _ => true) state Sample.asks).isSome)) = true := by
    decide +kernel
  obtain ⟨state, replayed, ended⟩ := (Option.any_eq_true ..).mp checked
  obtain ⟨free, ended⟩ := Bool.and_eq_true_iff.mp ended
  obtain ⟨absent, asked⟩ := Bool.and_eq_true_iff.mp ended
  obtain ⟨target, asked⟩ := Option.isSome_iff_exists.mp asked
  have one : ∀ action ∈ Sample.logsOut, action.worker = 0 := by decide
  have idle (worker : ℕ) : state.active worker = none := by
    rcases eq_or_ne worker 0 with rfl | other
    · exact Option.isNone_iff_eq_none.mp free
    · exact Pool.run_unnamed replayed fun action member same => other (same.symm.trans (one action member))
  refine ⟨state, target, replayed, asked, ?_⟩
  refine logged_out_stays_out Sample.config (.of_run replayed (fun _ _ => trivial) fun _ _ _ _ _ => trivial)
    (Option.isNone_iff_eq_none.mp absent) (fun worker call program busy => ?_)
    (.of_run asked Sample.noLogin_outsider fun _ _ _ _ _ => trivial)
  rw [idle] at busy
  contradiction

end FreifunkManager
