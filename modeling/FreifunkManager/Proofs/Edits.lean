import FreifunkManager.Proofs.Serving

/-! # What a message about a node does

It is refused, or its settings are in the row of the node and the node is sent to all clients: the node as the
client sent it, with what its latest report says.
-/

namespace FreifunkManager

open Effects Program Store

/-- The answer of yes or no in an event. -/
def Event.answered : Event → Option Bool
  | ⟨_, .answer _ (.bool value), _, _⟩ => some value
  | _ => none

/-- The node that was sent to all clients. -/
def Event.broadcast : Event → Option Node
  | ⟨_, .sendNode node, _, _⟩ => some node
  | _ => none

/-- The row of a node as an edit finds it, or a new one. -/
def World.rowOf (w : World) (nodeID : String) : Row := (w.nodes.lookup nodeID).getD { nodeID }

/-- The events of a message about a node, the latest first, and what it did. -/
inductive Edited (config : Config) (step : Step) (msg : Message) (before after : World) (events : List Event) : Prop
  | refused (nodes : after.nodes = before.nodes) (answers : events.filterMap Event.answered = [false])
      (broadcasts : events.filterMap Event.broadcast = [])
  | saved (node : Node) (report : Option Yanic.Node) (listed updated : Time)
      (decoded : config.decodeNode msg.body = some node) (named : node.nodeID ≠ "")
      (stored : ∀ nodeID, after.nodes.lookup nodeID =
        if node.nodeID = nodeID then some ((before.rowOf nodeID).edit node) else before.nodes.lookup nodeID)
      (answers : events.filterMap Event.answered = [true])
      (lists : ⟨step.call, .listNode node.nodeID, report, listed⟩ ∈ events)
      (broadcasts : events.filterMap Event.broadcast = [node.update report config.ipPrefix updated])

/-- The operations that find out who is logged in. -/
def AsksSession : Op → Prop
  | .now _ | .firstSession _ | .saveSession _ => True
  | _ => False

theorem isLoggedIn_asks (msg : Message) : Only AsksSession (isLoggedIn msg) := by
  unfold isLoggedIn
  split
  · trivial
  · apply (only_perform trivial).bind
    intro found
    cases found with
    | none => trivial
    | some session => exact (only_perform trivial).bind fun _ => (only_perform trivial).bind fun _ => trivial

section Edited

variable (config : Config) (step : Step) (msg : Message) {w before : World}

/-- Nothing has happened yet but questions about the session. -/
structure Untouched (before w : World) : Prop where
  nodes : w.nodes = before.nodes
  answers : w.log.filterMap Event.answered = []
  broadcasts : w.log.filterMap Event.broadcast = []

theorem untouched_asks (untouched : Untouched before w) {op : Op} (asks : AsksSession op) (call : Call)
    (choice : Choice) :
    Untouched before (w.handle call choice op).2 := by
  have reads : op.writesNodes = false := by cases op <;> first | rfl | contradiction
  have silent : (w.event call choice op).answered = none ∧ (w.event call choice op).broadcast = none := by
    cases op <;> first | exact ⟨rfl, rfl⟩ | contradiction
  constructor
  · rw [World.handle_nodes, w.act_nodes choice reads, untouched.nodes]
  · rw [World.handle_log, List.filterMap_cons_none silent.1, untouched.answers]
  · rw [World.handle_log, List.filterMap_cons_none silent.2, untouched.broadcasts]

theorem refuse_along (untouched : Untouched before w) :
    (perform (.answer msg.subject (.bool false))).Along (S := operations) step.Moves
      (fun _ after => Edited config step msg before after after.log) w := by
  rintro _ _ ⟨i, rfl, rfl⟩
  apply Edited.refused
  · exact untouched.nodes
  · exact congrArg (false :: ·) untouched.answers
  · exact untouched.broadcasts

theorem announceEdit_along {node : Node} (decoded : config.decodeNode msg.body = some node) (named : node.nodeID ≠ "")
    (saved : Bool) (answers : w.log.filterMap Event.answered = []) (broadcasts : w.log.filterMap Event.broadcast = [])
    (failed : saved = false → w.nodes = before.nodes)
    (stored : saved = true → ∀ nodeID, w.nodes.lookup nodeID =
      if node.nodeID = nodeID then some ((before.rowOf nodeID).edit node) else before.nodes.lookup nodeID) :
    (announceEdit config msg node saved).Along (S := operations) step.Moves
      (fun _ after => Edited config step msg before after after.log) w := by
  rintro _ _ ⟨i, rfl, rfl⟩
  cases saved with
  | false =>
    apply Edited.refused
    · exact failed rfl
    · exact congrArg (false :: ·) answers
    · exact broadcasts
  | true =>
    rintro report _ ⟨j, listed, rfl⟩
    have listing (later : List Event) : ⟨step.call, .listNode node.nodeID, report, (step.choices j).time⟩ ∈
        later ++ (World.handle step.call (step.choices j) (.listNode node.nodeID)
          (w.handle step.call (step.choices i) (.answer msg.subject (.bool true))).2).2.log := by
      rw [World.handle_log, World.event, ← listed]
      exact List.mem_append_right _ (.head _)
    cases report with
    | none =>
      rintro _ _ ⟨k, rfl, rfl⟩
      apply Edited.saved node none (step.choices j).time 0 decoded named
      · exact stored rfl
      · exact congrArg (true :: ·) answers
      · exact listing [_]
      · exact congrArg (node :: ·) broadcasts
    | some report =>
      rintro updated _ ⟨k, rfl, rfl⟩ _ _ ⟨l, rfl, rfl⟩
      apply Edited.saved node (some report) (step.choices j).time (step.choices k).time decoded named
      · exact stored rfl
      · exact congrArg (true :: ·) answers
      · exact listing [_, _]
      · exact congrArg (node.update (some report) config.ipPrefix _ :: ·) broadcasts

/-- A row that could not be written is as it was. -/
theorem nodes_unwritten {op : Op} {row : Row} (writes : op = .saveNode row ∨ op = .createNode row) {choice : Choice}
    (failed : (w.event step.call choice op).written = none) : (w.act choice op).2.nodes = w.nodes := by
  rcases writes with rfl | rfl
  · rw [w.written_saveNode] at failed
    unfold World.act at failed ⊢
    cases fails : choice.dbFails <;> simp_all
  · rw [w.written_createNode] at failed
    unfold World.act at failed ⊢
    cases fails : choice.dbFails with
    | true => rfl
    | false => cases created : w.nodes.create row <;> simp_all

/-- The row of an edited node is saved or created; nothing has changed if this fails. -/
theorem saveEdit_along {node : Node} (named : node.nodeID ≠ "") (nodes : w.nodes = before.nodes)
    (answers : w.log.filterMap Event.answered = []) (broadcasts : w.log.filterMap Event.broadcast = []) :
    (saveEdit node).Along (S := operations) step.Moves (fun saved after =>
      after.log.filterMap Event.answered = [] ∧ after.log.filterMap Event.broadcast = [] ∧
      (saved = false → after.nodes = before.nodes) ∧
      (saved = true → ∀ nodeID, after.nodes.lookup nodeID =
        if node.nodeID = nodeID then some ((before.rowOf nodeID).edit node) else before.nodes.lookup nodeID)) w := by
  -- either statement writes the edited row if it succeeds
  have writes {op : Op} (choice : Choice) {w : World} (nodes : w.nodes = before.nodes) {saved : Bool}
      (statement : op = .saveNode ((before.rowOf node.nodeID).edit node) ∨
        op = .createNode ((before.rowOf node.nodeID).edit node))
      (own : ((before.rowOf node.nodeID).edit node).nodeID = node.nodeID)
      (written : (w.event step.call choice op).written =
        if saved then some ((before.rowOf node.nodeID).edit node) else none) :
      (saved = false → (w.handle step.call choice op).2.nodes = before.nodes) ∧
      (saved = true → ∀ nodeID, (w.handle step.call choice op).2.nodes.lookup nodeID =
        if node.nodeID = nodeID then some ((before.rowOf nodeID).edit node) else before.nodes.lookup nodeID) := by
    constructor
    · rintro rfl
      exact (nodes_unwritten step statement written).trans nodes
    · rintro rfl nodeID
      rw [w.lookup_handle, Event.rowAfter_written written, own, nodes]
      split_ifs with same
      · rw [same]
      · rfl
  rintro found _ ⟨i, read, rfl⟩
  cases found with
  | some row =>
    obtain ⟨there, own⟩ := w.firstNode_found (step.choices i) read.symm
    rw [nodes, own named] at there
    have same : before.rowOf node.nodeID = row := by rw [World.rowOf, there, Option.getD_some]
    rintro saved _ ⟨j, rfl, rfl⟩
    refine ⟨answers, broadcasts, writes _ (by exact nodes) (.inl (by rw [same])) ?_ ?_⟩
    · rw [same]
      exact own named
    · rw [same]
      exact World.written_saveNode ..
  | none =>
    rintro saved _ ⟨j, rfl, rfl⟩
    refine ⟨answers, broadcasts, ?_⟩
    cases there : before.nodes.lookup node.nodeID with
    | none =>
      have same : before.rowOf node.nodeID = { nodeID := node.nodeID } := by rw [World.rowOf, there, Option.getD_none]
      apply writes _ (by exact nodes) (.inr (by rw [same]))
      · rw [same]
        rfl
      · rw [same]
        exact World.written_createNode ..
    | some row =>
      -- the row is there although it was not found, so it cannot be created
      let after := (w.handle step.call (step.choices i) (.firstNode node.nodeID)).2
      have failed : (after.event step.call (step.choices j)
          (.createNode (Row.edit { nodeID := node.nodeID } node))).written =
          none := by
        cases written : (after.event step.call (step.choices j)
            (.createNode (Row.edit { nodeID := node.nodeID } node))).written with
        | none => rfl
        | some created =>
          rcases after.written_cases step.call _ written with other | ⟨same, missing⟩
          · cases other
          · cases same
            rw [show after.nodes = before.nodes from nodes] at missing
            exact absurd (there.symm.trans missing) (Option.some_ne_none row)
      constructor
      · intro _
        exact (nodes_unwritten step (.inr rfl) failed).trans nodes
      · intro saved
        rw [World.written_createNode, saved] at failed
        contradiction

/-- What a message about a node does when it is served alone. -/
theorem nodeHandler_edited (untouched : Untouched before w) :
    (nodeHandler config msg).Along (S := operations) step.Moves
      (fun _ after => Edited config step msg before after after.log) w := by
  apply along_bind.mpr
  apply (Along.of_satisfies (isLoggedIn_asks msg) (Untouched before) ?_ untouched).mono
  · rintro session after ⟨-, untouched⟩
    have refuse := refuse_along config step msg untouched
    split
    · exact along_bind.mpr (refuse.mono fun _ _ ended => ended)
    · split
      · exact refuse
      · next node decoded =>
        split
        · exact along_bind.mpr (refuse.mono fun _ _ ended => ended)
        · next named =>
          apply along_bind.mpr
          apply (saveEdit_along step named untouched.nodes untouched.answers untouched.broadcasts).mono
          rintro saved later ⟨answers, broadcasts, failed, stored⟩
          exact announceEdit_along config step msg decoded named saved answers broadcasts failed stored
  · rintro op w _ _ asks untouched ⟨i, rfl, rfl⟩
    exact ⟨trivial, untouched_asks untouched asks _ _⟩

end Edited

theorem serve_edited (config : Config) {step : Step} {msg : Message} (message : step.call = .message msg)
    (subject : msg.subject = MessageType.node) (w : World) :
    Edited config step msg w (serve config step w).1 ((serve config step w).1.since w) := by
  have handler : handleMessage config msg = nodeHandler config msg := by
    unfold handleMessage
    rw [subject]
    rfl
  have nodes_eq : (serve config step w).1.nodes = (serve config step (w.withLog [])).1.nodes := by
    rw [serve_log]
    rfl
  have alone : Edited config step msg w (serve config step (w.withLog [])).1
      (serve config step (w.withLog [])).1.log := by
    apply message_moves config step message fun after => Edited config step msg w after after.log
    rw [handler]
    exact nodeHandler_edited config step msg ⟨rfl, rfl, rfl⟩
  rw [← serve_since] at alone
  cases alone with
  | refused nodes answers broadcasts => exact .refused (nodes_eq.trans nodes) answers broadcasts
  | saved node report listed updated decoded named stored answers lists broadcasts =>
    apply Edited.saved node report listed updated decoded named _ answers lists broadcasts
    rw [nodes_eq]
    exact stored

end FreifunkManager
