import FreifunkManager.Proofs.Authorised
import FreifunkManager.Proofs.Desired

/-! # Where the settings of a node come from

What is run on a node was chosen for this node by someone who had logged in, or the node reported it itself when it was
learnt. An update pushes the settings of the row that its report has read; these are the desired ones of that moment,
and an edit is only written for a session that was authorised.
-/

namespace FreifunkManager

open Effects Program Store

/-- Settings that someone chose for a node. -/
inductive Chosen (config : Config) (w : World) (log : List Event) (nodeID : String) (settings : Settings) : Prop
  | initially (row : Row) (found : w.nodes.lookup nodeID = some row) (same : row.settings = settings)
  /-- By the report from which the node was learnt. -/
  | learned (e : Event) (happened : e ∈ log) (same : e.learned config nodeID = some settings)
  | edited (e : Event) (past : List Event) (happened : e :: past <:+ log) (msg : Message) (call : e.call = .message msg)
      (same : e.edited config nodeID = some settings) (authorised : Authorised config w.sessions past msg.session)

/-- A row that was read: the id that was asked for, and that of the row with its settings. -/
abbrev Sighting := String × String × Settings

/-- The settings were the desired ones at some time, and the row is the one that was asked for. -/
def Sighting.Holds (config : Config) (initial : Table Row.nodeID) (sighting : Sighting) (log : List Event) : Prop :=
  (∃ earlier, earlier <:+ log ∧ desired config initial earlier sighting.2.1 = some sighting.2.2) ∧
    (sighting.1 ≠ "" → sighting.2.1 = sighting.1)

/-- The row that a reply shows. -/
def Op.sights : (op : Op) → op.Reply → Sighting → Prop
  | .firstNode nodeID, some row, sighting => sighting = (nodeID, row.nodeID, row.settings)
  | _, _, _ => False

/-- The update of a row by a report issues the command. -/
def Pushed (config : Config) (n : Yanic.Node) (row : Row) (cmd : String) : Prop :=
  ∃ now updated, ((row.node.update (some n) config.ipPrefix updated).seenAt now).Pushes cmd

/-- A command is the check of a new node, or it pushes the settings of a row that was read for the report. -/
def FromRow (config : Config) (call : Call) (known : Sighting → Prop) (cmd : String) : Prop :=
  ∃ n nodeinfo, call = .report n ∧ n.nodeinfo = some nodeinfo ∧
    (cmd = "uptime" ∨ ∃ row, Pushed config n row cmd ∧ known (nodeinfo.nodeID, row.nodeID, row.settings))

def Backs (config : Config) (call : Call) (known : Sighting → Prop) (op : Op) : Prop :=
  WritesAsMeant config call op ∧ ∀ cmd, op = .runCommand cmd → FromRow config call known cmd

section Programs

variable {config : Config} {known : Sighting → Prop}

theorem report_backs (n : Yanic.Node) : (Call.program config (.report n)).Backed (Backs config (.report n)) Op.sights
    (fun _ _ => True) known := by
  refine Backed.of_promised fun more _ =>
    insertNode_reads (fun clock => ⟨trivial, nofun⟩) (fun _ _ => ⟨trivial, nofun⟩) ?_ ?_
  · intro nodeinfo now row updated op report _ sighted refreshes issues
    refine ⟨?_, ?_⟩
    · cases op <;> first | exact refreshes.elim | trivial
    · rintro cmd rfl
      exact ⟨n, nodeinfo, rfl, report, .inr ⟨row, ⟨now, updated, issues⟩, sighted _ rfl⟩⟩
  · intro nodeinfo now op report _ _ learns only
    refine ⟨?_, ?_⟩
    · cases op with
      | createNode row => exact learns.1.settings
      | _ => first | exact learns.elim | trivial
    · rintro cmd rfl
      exact ⟨n, nodeinfo, rfl, report, .inl only⟩

theorem program_backs (config : Config) (call : Call) : (call.program config).Backed (Backs config call) Op.sights
    (fun _ _ => True) known := by
  cases call with
  | report n => exact report_backs n
  | message msg =>
    have silent : Only (fun op => ∀ cmd, op ≠ .runCommand cmd) (handleMessage config msg) := by
      refine handleMessage_satisfies config msg (fun op aside => ?_) (fun _ => nofun) (fun _ _ _ _ => nofun)
        (fun _ _ => nofun) fun node op _ announces => ?_
      · rintro cmd rfl
        exact aside
      · rintro cmd rfl
        exact announces
    have only := (program_meant config (.message msg)).and (silent.bind fun _ => only_done _)
    refine (Backed.of_satisfies only fun more op _ asked => ⟨asked.1, fun cmd runs => ?_⟩).mono fun _ _ _ _ => trivial
    exact absurd runs (asked.2 cmd)
  | ping =>
    have only := (program_meant config .ping).and (sendPing_only.bind fun _ => only_done _)
    refine (Backed.of_satisfies only fun more op _ asked => ⟨asked.1, ?_⟩).mono fun _ _ _ _ => trivial
    rintro cmd rfl
    exact asked.2.elim

end Programs

/-! ## Runs -/

/-- The rows have the desired settings, and every command is from a row that was read before. -/
structure Traced (config : Config) (initial : Table Row.nodeID) (w : World) : Prop where
  settings : ∀ nodeID, (w.nodes.lookup nodeID).map Row.settings = desired config initial w.log nodeID
  commands : ∀ e past, e :: past <:+ w.log → ∀ cmd, e.op = .runCommand cmd →
    FromRow config e.call (fun sighting => sighting.Holds config initial past) cmd

section Runs

variable {config : Config} {initial : Table Row.nodeID} {call : Call} {known : Sighting → Prop} {op : Op}
  {choice : Choice} {w : World}

theorem FromRow.sure {cmd : String} (fromRow : FromRow config call known cmd) {holds : Sighting → Prop}
    (sure : ∀ sighting, known sighting → holds sighting) : FromRow config call holds cmd := by
  obtain ⟨n, nodeinfo, report, known, checks | ⟨row, pushed, sighted⟩⟩ := fromRow
  · exact ⟨n, nodeinfo, report, known, .inl checks⟩
  · exact ⟨n, nodeinfo, report, known, .inr ⟨row, pushed, sure _ sighted⟩⟩

theorem Traced.handle (traced : Traced config initial w) (backs : Backs config call known op)
    (sure : ∀ sighting, known sighting → sighting.Holds config initial w.log) :
    Traced config initial (w.handle call choice op).2 where
  settings := handle_desired choice backs.1 traced.settings
  commands e past happened cmd runs := by
    rcases List.suffix_cons_iff.mp happened with now | earlier
    · cases now
      exact (backs.2 cmd runs).sure sure
    · exact traced.commands e past earlier cmd runs

theorem Traced.sights_handle (traced : Traced config initial w) (sighting : Sighting)
    (seen : op.sights (w.handle call choice op).1 sighting) :
    sighting.Holds config initial (w.handle call choice op).2.log := by
  cases op with
  | firstNode nodeID =>
    rw [World.handle_eq] at seen
    dsimp only at seen
    cases found : (w.act choice (.firstNode nodeID)).1 with
    | none =>
      rw [found] at seen
      exact seen.elim
    | some row =>
      rw [found] at seen
      cases seen
      obtain ⟨there, own⟩ := w.firstNode_found choice found
      refine ⟨⟨w.log, List.suffix_cons .., ?_⟩, own⟩
      rw [← traced.settings, there, Option.map_some]
  | _ => exact seen.elim

theorem traced_run {w : World} (fresh : w.log = []) {s : Snapshot operations ℕ Call (Except Panic Unit) World}
    (reached : (crowd config).Reachable (Pool.Admits (fun _ => True) fun _ _ _ _ => True) (unoccupied w) s) :
    Traced config w.nodes s.shared := by
  have keeps : (crowd config).Keeps (Traced config w.nodes)
      (fun sighting current => sighting.Holds config w.nodes current.log) (fun _ _ _ _ => True) (Backs config)
      Op.sights := by
    intro known call choice op current sure traced backs _
    refine ⟨traced.handle backs sure, fun sighting holds => ?_, traced.sights_handle⟩
    obtain ⟨⟨earlier, before, chosen⟩, own⟩ := holds
    exact ⟨⟨earlier, before.trans (List.suffix_cons ..), chosen⟩, own⟩
  refine reached.backed keeps (fun call _ => program_backs config call) ?_ fun _ => rfl
  change Traced config w.nodes w
  refine ⟨fun nodeID => ?_, fun e past happened => ?_⟩
  · rw [fresh]
    rfl
  · rw [fresh] at happened
    exact absurd (List.suffix_nil.mp happened) (List.cons_ne_nil e past)

theorem Chosen.later {log more : List Event} {nodeID : String} {settings : Settings}
    (chosen : Chosen config w log nodeID settings) (grown : log <:+ more) : Chosen config w more nodeID settings := by
  cases chosen with
  | initially row found same => exact .initially row found same
  | learned e happened same => exact .learned e (grown.subset happened) same
  | edited e past happened msg call same authorised =>
    exact .edited e past (happened.trans grown) msg call same authorised

/-- A row is written for the session whose message asks for it. -/
theorem actsFor_of_edited {e : Event} {nodeID : String} {settings : Settings}
    (edited : e.edited config nodeID = some settings) :
    ∃ msg, e.call = .message msg ∧ e.op.actsFor e.call = some msg.session := by
  obtain ⟨call, op, reply, time⟩ := e
  cases call with
  | message msg =>
    refine ⟨msg, rfl, ?_⟩
    have wrote := (Option.ite_none_right_eq_some.mp edited).1
    obtain ⟨row, written, _⟩ := (Option.any_eq_true _ _).mp wrote
    cases op with
    | saveNode | createNode => rfl
    | _ => contradiction
  | _ => contradiction

theorem chosen_of_desired {log : List Event} {nodeID : String} {settings : Settings}
    (acts : ∀ e past, e :: past <:+ log → ∀ session, e.op.actsFor e.call = some session →
      Authorised config w.sessions past session)
    (found : desired config w.nodes log nodeID = some settings) : Chosen config w log nodeID settings := by
  rcases Option.or_eq_some_iff.mp found with edited | ⟨_, others⟩
  · obtain ⟨e, member, same⟩ := List.exists_of_findSome?_eq_some edited
    obtain ⟨later, past, split⟩ := List.append_of_mem member
    have happened : e :: past <:+ log := ⟨later, split.symm⟩
    obtain ⟨msg, call, own⟩ := actsFor_of_edited same
    exact .edited e past happened msg call same (acts e past happened msg.session own)
  · rcases Option.or_eq_some_iff.mp others with learned | ⟨_, initially⟩
    · obtain ⟨e, member, same⟩ := List.exists_of_findSome?_eq_some learned
      exact .learned e member same
    · obtain ⟨row, there, same⟩ := Option.map_eq_some_iff.mp initially
      exact .initially row there same

end Runs

/-- Whatever interleaves and fails: what is run on a node is the check of a new node, or it pushes settings that were
chosen for the node whose report is handled. -/
theorem commands_chosen (config : Config) {w : World} (fresh : w.log = [])
    {s : Snapshot operations ℕ Call (Except Panic Unit) World}
    (reached : (crowd config).Reachable (Pool.Admits (fun _ => True) fun _ _ _ _ => True) (unoccupied w) s)
    {e : Event} {past : List Event} (happened : e :: past <:+ s.shared.log) {cmd : String}
    (runs : e.op = .runCommand cmd) :
    ∃ n nodeinfo, e.call = .report n ∧ n.nodeinfo = some nodeinfo ∧ (cmd = "uptime" ∨ ∃ row, Pushed config n row cmd ∧
      (nodeinfo.nodeID ≠ "" → row.nodeID = nodeinfo.nodeID) ∧ Chosen config w past row.nodeID row.settings) := by
  obtain ⟨n, nodeinfo, report, known, checks | ⟨row, pushed, ⟨earlier, before, chosen⟩, own⟩⟩ :=
    (traced_run fresh reached).commands e past happened cmd runs
  · exact ⟨n, nodeinfo, report, known, .inl checks⟩
  · refine ⟨n, nodeinfo, report, known, .inr ⟨row, pushed, own, ?_⟩⟩
    have here : earlier <:+ s.shared.log := before.trans ((List.suffix_cons e past).trans happened)
    have acts := (lawful_run fresh reached).acts
    exact (chosen_of_desired (fun e past happened => acts e past (happened.trans here)) chosen).later before

/-- A node is renamed and reports its old name. -/
def Sample.renameAndReport : List (Action ℕ Call Choice) :=
  [.start 0 (.message (edit "cellar"))] ++ List.replicate 8 (.advance 0 { time := 60 }) ++
    [.start 1 (.report (report "attic"))] ++ List.replicate 8 (.advance 1 { time := 61 })

theorem commands_chosen_renameAndReport : ∃ s e past,
    (crowd Sample.config).run (fun _ => true) (fun _ _ _ _ => true) (unoccupied (Sample.world [Sample.row]))
      Sample.renameAndReport = some s ∧
    e :: past <:+ s.shared.log ∧ e.op = .runCommand (hostnameCommand "cellar") ∧
    ∃ n nodeinfo, e.call = .report n ∧ n.nodeinfo = some nodeinfo ∧
      (hostnameCommand "cellar" = "uptime" ∨ ∃ row, Pushed Sample.config n row (hostnameCommand "cellar") ∧
        (nodeinfo.nodeID ≠ "" → row.nodeID = nodeinfo.nodeID) ∧
        Chosen Sample.config (Sample.world [Sample.row]) past row.nodeID row.settings) := by
  have runs : ((crowd Sample.config).run (fun _ => true) (fun _ _ _ _ => true) (unoccupied (Sample.world [Sample.row]))
      Sample.renameAndReport).map (fun s => s.shared.log.head?.map Event.op) =
      some (some (.runCommand (hostnameCommand "cellar"))) := by decide +kernel
  obtain ⟨s, replayed, view⟩ := Option.map_eq_some_iff.mp runs
  obtain ⟨e, first, op⟩ := Option.map_eq_some_iff.mp view
  obtain ⟨past, log⟩ := List.head?_eq_some_iff.mp first
  have happened : e :: past <:+ s.shared.log := log ▸ List.suffix_rfl
  exact ⟨s, e, past, replayed, happened, op, commands_chosen Sample.config rfl
    (.of_run replayed (fun _ _ => trivial) fun _ _ _ _ _ => trivial) happened op⟩

end FreifunkManager
