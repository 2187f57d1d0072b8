import FreifunkManager.Model.Replica
import FreifunkManager.Proofs.Desired
import FreifunkManager.Proofs.Edits
import FreifunkManager.Proofs.PingHistory
import FreifunkManager.Proofs.ReportReload
import FreifunkManager.Store.Copies

/-! # A page shows the settings of the rows

The settings of a row are the original, and every page has a copy for each node that it was sent. Calls are served one
after the other: each sends the nodes whose settings it has changed, as they are afterwards (`serve_tells`). So what a
page was sent on its connection is what the rows hold, once it has arrived (`page_shows`).
-/

namespace FreifunkManager.Replica

open ClientStore (State)
open Effects Program Store Copies

/-- The settings in the row of a node. -/
def settingsAt (w : World) (nodeID : String) : Option Settings := (w.nodes.lookup nodeID).map Row.settings

/-- The nodes that are sent in the course of a call go with what it does to the rows. -/
structure Tells (before after : World) (nodes : List Node) : Prop where
  told : ∀ node ∈ nodes, settingsAt after node.nodeID = some node.settings
  kept : ∀ nodeID settings, settingsAt before nodeID = some settings → nodeID ∉ nodes.map Node.nodeID →
    settingsAt after nodeID = some settings

theorem sent_eq (own : Bool) (before after : World) :
    sent own before after = ((after.since before).filterMap fun e => toPage own e.op).reverse := rfl

theorem mem_sent {own : Bool} {before after : World} {node : Node} :
    node ∈ sent own before after ↔ ∃ e ∈ after.since before, toPage own e.op = some node := by
  rw [sent_eq, List.mem_reverse, List.mem_filterMap]

/-- What the page of another client is sent. -/
theorem toPage_others (e : FreifunkManager.Event) : toPage false e.op = e.broadcast := by
  obtain ⟨_, op, _, _⟩ := e
  cases op with
  | write _ body => cases body <;> rfl
  | _ => rfl

theorem sent_others (before after : World) :
    sent false before after = ((after.since before).filterMap FreifunkManager.Event.broadcast).reverse := by
  rw [sent_eq]
  exact congrArg List.reverse (congrArg (List.filterMap · _) (funext toPage_others))

/-! ## What a call sends -/

section Calls

variable {config : Config} {step : Step} {w : World}

/-- Rows keep their settings. -/
def Keeps (before after : World) : Prop :=
  ∀ nodeID settings, settingsAt before nodeID = some settings → settingsAt after nodeID = some settings

theorem keeps_of_reads {before : World} {op : Op} (reads : op.writesNodes = false) (call : Call) (choice : Choice)
    (keeps : Keeps before w) : Keeps before (w.handle call choice op).2 := by
  intro nodeID settings held
  rw [settingsAt, World.handle_nodes, w.act_nodes choice reads]
  exact keeps nodeID settings held

/-- A report changes the settings of no row that is there. -/
theorem report_keeps {n : Yanic.Node} (report : step.call = .report n) (w : World) :
    Keeps w (serve config step w).1 := by
  refine serve_keeps config step (program_meant config step.call) (Keeps w) ?_ fun _ _ held => held
  intro op i after meant keeps
  rw [report] at meant
  refine ⟨trivial, fun nodeID settings held => ?_⟩
  have before := keeps nodeID settings held
  rw [settingsAt, World.lookup_handle]
  cases written : (after.event step.call (step.choices i) op).written with
  | none => rw [Event.rowAfter_settings written]; exact before
  | some row =>
    rcases World.written_cases _ _ _ written with rfl | ⟨rfl, missing⟩
    · exact meant.elim
    · rw [Event.rowAfter_written written]
      split
      · next same =>
        rw [settingsAt, ← same, missing] at before
        contradiction
      · exact before

theorem report_tells {n : Yanic.Node} (report : step.call = .report n)
    (named : ∀ nodeinfo, n.nodeinfo = some nodeinfo → nodeinfo.nodeID ≠ "") (works : step.Works)
    (survives : (serve config step w).2 = true) :
    Tells w (serve config step w).1 (sent false w (serve config step w).1) := by
  refine ⟨fun node member => ?_, fun nodeID settings held _ => report_keeps report w nodeID settings held⟩
  rw [sent_others, List.mem_reverse] at member
  cases known : n.nodeinfo with
  | none =>
    have nothing : (serve config step w).1.since w = [] := by
      apply World.since_eq
      have program : step.call.program config = (insertNode config n).run := by
        rw [report]
        rfl
      have ended : (insertNode config n).run = .done (.ok ()) := by
        unfold insertNode
        rw [known]
        rfl
      unfold serve
      rw [program, ended]
      rfl
    rw [nothing] at member
    contradiction
  | some nodeinfo =>
    cases serve_reported config report known (named nodeinfo known) works survives with
    | sent lNode _ _ _ stored broadcasts _ _ _ _ =>
      rw [broadcasts, List.mem_singleton] at member
      have own : lNode.row.nodeID = nodeinfo.nodeID := Table.lookup_key stored
      rw [member, settingsAt, show lNode.nodeID = _ from own, stored]
      rfl
    | filtered _ _ _ _ _ _ _ _ broadcasts =>
      rw [broadcasts] at member
      contradiction
    | unreachable _ _ _ _ broadcasts =>
      rw [broadcasts] at member
      contradiction

/-- A call that neither writes to the nodes nor sends one to the page. -/
theorem silent_tells {own : Bool} (silent : Only (fun op => op.writesNodes = false ∧ toPage own op = none)
    (step.call.program config)) (w : World) : Tells w (serve config step w).1 (sent own w (serve config step w).1) := by
  have nothing : sent own w (serve config step w).1 = [] := by
    obtain ⟨events, grown, quiet⟩ := serve_grows config step silent (fun _ _ _ => trivial) w
    rw [sent_eq, World.since_eq grown, List.reverse_eq_nil_iff, List.filterMap_eq_nil_iff]
    exact fun e member => (quiet e member).2.2
  have keeps : Keeps w (serve config step w).1 :=
    serve_keeps config step silent (Keeps w) (fun op i after quiet keeps => ⟨trivial, keeps_of_reads quiet.1 _ _ keeps⟩)
      fun _ _ held => held
  rw [nothing]
  exact ⟨List.forall_mem_nil _, fun nodeID settings held _ => keeps nodeID settings held⟩

theorem personal_silent {own : Bool} {op : Op} (personal : Personal op) :
    op.writesNodes = false ∧ toPage own op = none := by
  cases op <;> first | exact ⟨rfl, rfl⟩ | contradiction

theorem ping_tells (ping : step.call = .ping) (w : World) :
    Tells w (serve config step w).1 (sent false w (serve config step w).1) := by
  apply silent_tells
  rw [ping]
  refine Only.bind (sendPing_only.weaken fun op pings => ?_) fun _ => trivial
  cases op <;> first | exact ⟨rfl, rfl⟩ | contradiction

/-- An edit writes the settings that it broadcasts. -/
theorem edit_tells {own : Bool} {msg : Message} (message : step.call = .message msg)
    (subject : msg.subject = MessageType.node)
    (w : World) : Tells w (serve config step w).1 (sent own w (serve config step w).1) := by
  have handler : handleMessage config msg = nodeHandler config msg := by
    unfold handleMessage
    rw [subject]
    rfl
  -- an edit writes to no single client
  have broadcasts : Only (fun op => toPage own op = toPage false op) (step.call.program config) := by
    rw [message]
    refine Only.bind ?_ fun _ => trivial
    rw [handler]
    refine nodeHandler_satisfies config msg ?_ (fun _ _ _ => rfl) (fun _ _ _ _ _ => rfl) (fun _ _ _ => rfl) ?_
    · intro op checks
      cases op <;> first | rfl | contradiction
    · intro node op _ _ announces
      cases op <;> first | rfl | contradiction
  obtain ⟨events, grown, same⟩ := serve_grows config step broadcasts (fun _ _ _ => trivial) w
  have others : sent own w (serve config step w).1 = sent false w (serve config step w).1 := by
    rw [sent_eq, sent_eq, World.since_eq grown]
    exact congrArg List.reverse (List.filterMap_congr fun e member => (same e member).2)
  rw [others, sent_others]
  cases serve_edited config message subject w with
  | refused nodes _ broadcasts =>
    rw [broadcasts]
    refine ⟨List.forall_mem_nil _, fun nodeID settings held _ => ?_⟩
    rw [settingsAt, nodes]
    exact held
  | saved node report _ updated _ _ stored _ _ broadcasts =>
    rw [broadcasts, List.reverse_singleton]
    constructor
    · intro announced member
      obtain rfl := List.mem_singleton.mp member
      rw [settingsAt, Node.update_nodeID, stored, if_pos rfl, Option.map_some, Node.update_settings]
      rfl
    · intro nodeID settings held other
      have different : node.nodeID ≠ nodeID := by
        rw [List.map_singleton, List.mem_singleton, Node.update_nodeID] at other
        exact Ne.symm other
      rw [settingsAt, stored, if_neg different]
      exact held

/-- A node that a new client is sent has the settings of its row. -/
def OfRow (w : World) : Op → Prop
  | .write _ (.node node) => settingsAt w node.nodeID = some node.settings
  | op => Plain op

/-- The rows that are found are those of the table. -/
def FindsRows (w : World) : (op : Op) → op.Reply → Prop
  | .findNodes, rows => ∀ row ∈ rows, w.nodes.lookup row.nodeID = some row
  | _, _ => True

theorem plain_ofRow {op : Op} (lists : Lists op) : OfRow w op := by
  cases op <;> trivial

theorem connectNode_ofRow {row : Row} (there : w.nodes.lookup row.nodeID = some row) :
    Only (OfRow w) (connectNode config row) := by
  refine (only_perform trivial).bind fun now => ?_
  split
  · trivial
  · refine satisfies_bind.mpr (((updateFromList_keeps config row.node).weaken fun op => plain_ofRow).mono ?_)
    rintro node ⟨settings, nodeID⟩
    refine only_perform ?_
    rw [OfRow, nodeID, settings, settingsAt, show row.node.nodeID = row.nodeID from rfl, there]
    rfl

theorem connectHandler_ofRow (w : World) :
    (connectHandler config).Satisfies (S := operations) (OfRow w) (FindsRows w) fun _ => True := by
  refine satisfies_bind.mpr ⟨trivial, fun rows there => ?_⟩
  have nodes : Only (OfRow w) (rows.forM (connectNode config)) := by
    induction rows with
    | nil => trivial
    | cons row rest ih =>
      obtain ⟨here, there⟩ := List.forall_mem_cons.mp there
      exact (connectNode_ofRow here).bind fun _ => ih there
  have all : Only (OfRow w) (do
      rows.forM (connectNode config)
      perform (.write MessageType.channelsWifi24 (.channels wifi24Channels))
      perform (.write MessageType.channelsWifi5 (.channels wifi5Channels))) :=
    nodes.bind fun _ => (only_perform trivial).bind fun _ => only_perform trivial
  exact all.assuming fun _ _ _ => trivial

theorem toPage_ofRow {own : Bool} {op : Op} {node : Node} (ofRow : OfRow w op) (sends : toPage own op = some node) :
    settingsAt w node.nodeID = some node.settings := by
  cases op with
  | write subject body =>
    cases body with
    | node shown =>
      cases own with
      | true => cases sends; exact ofRow
      | false => contradiction
    | _ => contradiction
  | sendNode => exact ofRow.elim
  | _ => contradiction

theorem connect_tells {own : Bool} {msg : Message} (message : step.call = .message msg)
    (subject : msg.subject = MessageType.connect) (works : step.Works) (w : World) :
    Tells w (serve config step w).1 (sent own w (serve config step w).1) := by
  have handler : handleMessage config msg = connectHandler config := if_pos subject
  have satisfied : (step.call.program config).Satisfies (S := operations) (OfRow w) (FindsRows w) fun _ => True := by
    rw [message]
    refine satisfies_bind.mpr ((handler ▸ connectHandler_ofRow w).mono fun _ _ => trivial)
  obtain ⟨nodes, events, grown, ofRow⟩ := serve_keeps config step satisfied
    (fun after => after.nodes = w.nodes ∧ ∃ events, after.log = events ++ w.log ∧ ∀ e ∈ events, OfRow w e.op)
    (w := w) (fun op i after asks same => by
      obtain ⟨nodes, events, grown, ofRow⟩ := same
      have reads : op.writesNodes = false := by cases op <;> first | rfl | exact asks.elim
      refine ⟨?_, ?_, after.event step.call (step.choices i) op :: events, ?_, ?_⟩
      · cases op with
        | findNodes =>
          intro row member
          have rows : (after.act (step.choices i) .findNodes).1 = w.nodes.rows := by
            unfold World.act
            rw [works i, nodes]
            rfl
          rw [rows] at member
          exact Table.lookup_eq_some.mpr ⟨member, rfl⟩
        | _ => trivial
      · rw [World.handle_nodes, after.act_nodes _ reads, nodes]
      · rw [World.handle_log, grown, List.cons_append]
      · exact List.forall_mem_cons.mpr ⟨asks, ofRow⟩) ⟨rfl, [], rfl, List.forall_mem_nil _⟩
  have same (nodeID : String) : settingsAt (serve config step w).1 nodeID = settingsAt w nodeID := by
    rw [settingsAt, nodes, settingsAt]
  constructor
  · intro node member
    obtain ⟨e, present, sends⟩ := mem_sent.mp member
    rw [World.since_eq grown] at present
    rw [same]
    exact toPage_ofRow (ofRow e present) sends
  · intro nodeID settings held _
    rw [same]
    exact held

/-- A message sends the nodes whose settings it has changed. -/
theorem message_tells {own : Bool} {msg : Message} (message : step.call = .message msg)
    (works : step.Works) (w : World) :
    Tells w (serve config step w).1 (sent own w (serve config step w).1) := by
  have ended {program : Prog Unit} (personal : Only Personal program) (handler : handleMessage config msg = program) :
      Tells w (serve config step w).1 (sent own w (serve config step w).1) := by
    apply silent_tells
    rw [message]
    refine Only.bind ?_ fun _ => trivial
    rw [handler]
    exact personal.weaken fun _ => personal_silent
  by_cases connect : msg.subject = MessageType.connect
  · exact connect_tells message connect works w
  · by_cases node : msg.subject = MessageType.node
    · exact edit_tells message node w
    · have handler : handleMessage config msg = if msg.subject = MessageType.login then loginHandler config msg
          else if msg.subject = MessageType.authStatus then authStatusHandler msg
          else if msg.subject = MessageType.settings then settingsHandler config msg
          else if msg.subject = MessageType.logout then logoutHandler msg
          else return := by
        rw [handleMessage, if_neg connect]
        simp only [node, if_false]
      refine ended ?_ handler
      split_ifs
      · exact loginHandler_personal config msg
      · exact authStatusHandler_personal msg
      · exact settingsHandler_personal config msg
      · exact logoutHandler_personal msg
      · exact only_done ()

theorem serve_tells {own : Bool} (works : step.Works) (mine : own = true → ∃ msg, step.call = .message msg)
    (named : ∀ n nodeinfo, step.call = .report n → n.nodeinfo = some nodeinfo → nodeinfo.nodeID ≠ "")
    (survives : (serve config step w).2 = true) :
    Tells w (serve config step w).1 (sent own w (serve config step w).1) := by
  cases call : step.call with
  | message msg => exact message_tells call works w
  | report n =>
    cases own with
    | true =>
      obtain ⟨msg, message⟩ := mine rfl
      rw [call] at message
      contradiction
    | false => exact report_tells call (fun nodeinfo => named n nodeinfo call) works survives
  | ping =>
    cases own with
    | true =>
      obtain ⟨msg, message⟩ := mine rfl
      rw [call] at message
      contradiction
    | false => exact ping_tells call w

end Calls

/-! ## The store of a page -/

section Store

variable {store other : State Node} {nodeID : String} {server : Option Settings}

/-- The settings that the store has for a node. -/
def shownAt (store : State Node) (nodeID : String) : Option Settings := (store.list nodeID).map (·.data.settings)

/-- The store has a node with the settings of its row. -/
def Shows (nodeID : String) (server : Option Settings) (store : State Node) : Prop :=
  server.isSome = true ∧ shownAt store nodeID = server

theorem shownAt_updateNode (object : ClientStore.NodeObject Node) (store : State Node) :
    shownAt (store.updateNode object) nodeID =
      if object.nodeID = nodeID then some object.data.settings else shownAt store nodeID := by
  change (Function.update store.list object.nodeID (some object) nodeID).map _ = _
  split_ifs with same
  · rw [same, Function.update_self]
    rfl
  · rw [Function.update_of_ne (Ne.symm same)]
    rfl

theorem shownAt_receive (ordinary : nodeID ≠ "__proto__") (node : Node) (store : State Node) :
    shownAt (receive store node) nodeID =
      if node.nodeID = nodeID then some node.settings else shownAt store nodeID := by
  unfold receive
  split
  · exact shownAt_updateNode ..
  · next odd =>
    have different : node.nodeID ≠ nodeID := fun same => ordinary (same.symm.trans (not_not.mp odd))
    rw [if_neg different]

theorem foldl_receive_other (ordinary : nodeID ≠ "__proto__") {nodes : List Node}
    (missing : nodeID ∉ nodes.map Node.nodeID) : shownAt (nodes.foldl receive store) nodeID = shownAt store nodeID := by
  induction nodes generalizing store with
  | nil => rfl
  | cons node rest ih =>
    rw [List.map_cons, List.mem_cons, not_or] at missing
    rw [List.foldl_cons, ih missing.2, shownAt_receive ordinary, if_neg (Ne.symm missing.1)]

theorem foldl_receive_own (ordinary : nodeID ≠ "__proto__") {nodes : List Node} {settings : Settings}
    (same : ∀ node ∈ nodes, node.nodeID = nodeID → node.settings = settings)
    (present : nodeID ∈ nodes.map Node.nodeID ∨ shownAt store nodeID = some settings) :
    shownAt (nodes.foldl receive store) nodeID = some settings := by
  induction nodes generalizing store with
  | nil => exact present.resolve_left List.not_mem_nil
  | cons node rest ih =>
    obtain ⟨here, same⟩ := List.forall_mem_cons.mp same
    refine ih same ?_
    rw [shownAt_receive ordinary]
    by_cases own : node.nodeID = nodeID
    · right
      rw [if_pos own, here own]
    · rw [if_neg own]
      rw [List.map_cons, List.mem_cons] at present
      exact present.imp_left fun listed => listed.resolve_left (Ne.symm own)

variable {before after : World} {nodes : List Node}

theorem Tells.settings (tells : Tells before after nodes) {node : Node} (member : node ∈ nodes)
    (own : node.nodeID = nodeID) :
    settingsAt after nodeID = some node.settings := own ▸ tells.told node member

/-- A node that is sent is right afterwards, whatever the store had. -/
theorem Tells.restores (tells : Tells before after nodes) (ordinary : nodeID ≠ "__proto__")
    (present : nodeID ∈ nodes.map Node.nodeID) : Restores receive nodes (Shows nodeID (settingsAt after nodeID)) := by
  obtain ⟨node, member, own⟩ := List.mem_map.mp present
  have settings := tells.settings member own
  intro store _
  rw [settings]
  refine ⟨rfl, foldl_receive_own ordinary (fun other listed same => ?_) (.inl present)⟩
  exact Option.some.inj ((tells.settings listed same).symm.trans settings)

theorem Tells.conveys (tells : Tells before after nodes) (ordinary : nodeID ≠ "__proto__") :
    Conveys receive nodes (Shows nodeID (settingsAt before nodeID)) (Shows nodeID (settingsAt after nodeID)) := by
  by_cases present : nodeID ∈ nodes.map Node.nodeID
  · exact (tells.restores ordinary present).conveys _
  · rintro store ⟨there, shown⟩
    obtain ⟨settings, held⟩ := Option.isSome_iff_exists.mp there
    rw [Shows, tells.kept nodeID settings held present, foldl_receive_other ordinary present, shown, held]
    exact ⟨rfl, rfl⟩

/-! What else the page does with its store. -/

/-- The stores have the same nodes. -/
def Alike (store other : State Node) : Prop := ∀ nodeID, shownAt store nodeID = shownAt other nodeID

theorem alike_receive (node : Node) (store other : State Node) (alike : Alike store other) :
    Alike (receive store node) (receive other node) := by
  intro nodeID
  unfold receive
  split
  · rw [shownAt_updateNode, shownAt_updateNode, alike nodeID]
  · exact alike nodeID

theorem shows_alike (nodeID : String) (server : Option Settings) (store other : State Node) (alike : Alike store other)
    (shows : Shows nodeID server store) : Shows nodeID server other :=
  ⟨shows.1, (alike nodeID).symm.trans shows.2⟩

theorem getNode_alike (store : State Node) (nodeid : String) : Alike store (store.getNode nodeid).2 := by
  intro nodeID
  unfold State.getNode ClientStore.read
  cases held : store.list nodeid with
  | none => by_cases inherits : nodeid ∈ ClientStore.objectPrototype <;> simp only [inherits, if_true, if_false]
  | some node =>
    dsimp only
    have given (pings : ClientStore.Property ClientStore.Ref) (list : String → Option (ClientStore.NodeObject Node))
        (same : list = store.list) : (store.list nodeID).map (·.data.settings) =
          (Function.update list nodeid (some { node with pingstate := pings }) nodeID).map (·.data.settings) := by
      rw [same]
      by_cases own : nodeID = nodeid
      · rw [own, Function.update_self, held]
        rfl
      · rw [Function.update_of_ne own]
    cases store.pingState nodeid with
    | some ref => exact given _ _ rfl
    | none =>
      split_ifs
      · exact given _ _ rfl
      · exact given _ _ rfl

theorem getNodes_alike (store : State Node) : Alike store store.getNodes.2 := by
  have reads (keys : List String) (got : List (ClientStore.Property (ClientStore.NodeObject Node)) × State Node) :
      Alike got.2 (keys.foldl State.nextNode got).2 := by
    induction keys generalizing got with
    | nil => exact fun _ => rfl
    | cons key rest ih =>
      exact fun nodeID => (getNode_alike got.2 key nodeID).trans (ih (State.nextNode got key) nodeID)
  exact reads store.keys ([], store)

theorem updateNodePing_alike (store : State Node) (trueNodes falseNodes : List String) :
    Alike store (store.updateNodePing trueNodes falseNodes).1 := by
  intro nodeID
  have first := ClientStore.forEach_list store true trueNodes
  unfold State.updateNodePing
  generalize store.forEach true trueNodes = outcome at first ⊢
  obtain ⟨middle, _ | _⟩ := outcome
  · rw [shownAt, shownAt, first]
  · rw [shownAt, shownAt, ClientStore.forEach_list middle, first]

end Store

/-! ## Runs -/

/-- The database works, and reports name their node. -/
def Event.Fine : Event → Prop
  | .own _ choices => ∀ i, (choices i).dbFails = false
  | .other step => step.Works ∧
      ∀ n nodeinfo, step.call = .report n → n.nodeinfo = some nodeinfo → nodeinfo.nodeID ≠ ""
  | _ => True

/-- Once it has taken what is on its way, the page has every node it was told of as it is. -/
structure Page.Shown (page : Page) : Prop where
  caughtUp : ∀ nodeID ∈ page.told, nodeID ≠ "__proto__" →
    CaughtUp receive page.store page.line (Shows nodeID (settingsAt page.world nodeID))
  offline : page.connected = false → page.told = []

section Run

variable {config : Config} {page after : Page}

theorem Page.Shown.store (shown : page.Shown) {store : State Node} (alike : Alike page.store store) :
    Page.Shown { page with store } :=
  ⟨fun nodeID member ordinary =>
    (shown.caughtUp nodeID member ordinary).change _ alike_receive (shows_alike nodeID _) alike,
    shown.offline⟩

theorem Page.Shown.serve (shown : page.Shown) {own : Bool} {step : Step} (works : step.Works)
    (mine : own = true → ∃ msg, step.call = .message msg)
    (named : ∀ n nodeinfo, step.call = .report n → n.nodeinfo = some nodeinfo → nodeinfo.nodeID ≠ "")
    (served : page.serve config own step = some after) : after.Shown := by
  unfold Page.serve at served
  split at served
  · next world ended =>
    have tells : Tells page.world world (sent own page.world world) := by
      have told : Tells page.world (FreifunkManager.serve config step page.world).1 _ :=
        serve_tells works mine named (by rw [ended])
      rwa [ended] at told
    split_ifs at served with connected
    · cases served
      refine ⟨fun nodeID member ordinary => ?_, fun offline => absurd (connected.symm.trans offline) (by decide)⟩
      by_cases sent : nodeID ∈ (sent own page.world world).map Node.nodeID
      · exact (tells.restores ordinary sent).caughtUp page.store page.line
      · have told := (List.mem_append.mp member).resolve_right sent
        exact (shown.caughtUp nodeID told ordinary).send (tells.conveys ordinary)
    · cases served
      have nothing := shown.offline (Bool.eq_false_iff.mpr connected)
      refine ⟨fun nodeID member => ?_, shown.offline⟩
      change nodeID ∈ page.told at member
      rw [nothing] at member
      contradiction
  · contradiction

theorem Page.Shown.step (shown : page.Shown) {event : Event} (fine : event.Fine)
    (stepped : page.step config event = some after) : after.Shown := by
  cases event with
  | onopen =>
    obtain ⟨offline, same⟩ := Option.ite_none_left_eq_some.mp stepped
    cases same
    have nothing := shown.offline (Bool.eq_false_iff.mpr offline)
    exact ⟨shown.caughtUp, fun _ => nothing⟩
  | onclose =>
    cases stepped
    exact ⟨fun nodeID member => absurd member List.not_mem_nil, fun _ => rfl⟩
  | own msg choices =>
    obtain ⟨_, served⟩ := Option.ite_none_right_eq_some.mp stepped
    refine shown.serve ?_ ?_ ?_ served
    · exact fine
    · exact fun _ => ⟨msg, rfl⟩
    · intro n nodeinfo report
      contradiction
  | other step => exact shown.serve fine.1 (fun own => absurd own Bool.false_ne_true) fine.2 stepped
  | onmessage =>
    simp only [Page.step] at stepped
    split at stepped
    · contradiction
    · next node rest arrives =>
      cases stepped
      refine ⟨fun nodeID member ordinary => ?_, shown.offline⟩
      have caughtUp := shown.caughtUp nodeID member ordinary
      rw [arrives] at caughtUp
      exact caughtUp
  | updateNodePing trueNodes falseNodes =>
    cases stepped
    exact shown.store (updateNodePing_alike page.store trueNodes falseNodes)
  | getNode nodeid =>
    cases stepped
    exact shown.store (getNode_alike page.store nodeid)
  | getNodes =>
    cases stepped
    exact shown.store (getNodes_alike page.store)

theorem Page.Shown.run (shown : page.Shown) {events : List Event} (fine : ∀ event ∈ events, event.Fine)
    (ran : page.run config events = some after) : after.Shown := by
  induction events generalizing page with
  | nil =>
    cases ran
    exact shown
  | cons event rest ih =>
    obtain ⟨next, stepped, ran⟩ := Option.bind_eq_some_iff.mp ran
    obtain ⟨here, later⟩ := List.forall_mem_cons.mp fine
    exact ih (shown.step here stepped) later ran

end Run

/-- In every run of reports, messages and pings, each of them served without interruption, a page that has taken what
is on its way has every node that it was sent on its connection, with the settings of its row. -/
theorem page_shows (config : Config) (w : World) {events : List Event} (fine : ∀ event ∈ events, event.Fine)
    {page : Page} (ran : Page.run config { world := w } events = some page) :
    ∀ nodeID ∈ page.told, nodeID ≠ "__proto__" → ∃ row node, page.world.nodes.lookup nodeID = some row ∧
      (page.line.foldl receive page.store).list nodeID = some node ∧ node.data.settings = row.settings := by
  have start : Page.Shown { world := w } := ⟨fun nodeID member => absurd member List.not_mem_nil, fun _ => rfl⟩
  intro nodeID member ordinary
  obtain ⟨there, same⟩ := (start.run fine ran).caughtUp nodeID member ordinary
  obtain ⟨settings, held⟩ := Option.isSome_iff_exists.mp there
  obtain ⟨row, found, rfl⟩ := Option.map_eq_some_iff.mp held
  obtain ⟨node, shown, settings⟩ := Option.map_eq_some_iff.mp (same.trans held)
  exact ⟨row, node, found, shown, settings⟩

/-- A page is opened, another client renames the node, and the page has not heard of it yet. -/
def Sample.renamed : List Event :=
  [.onopen, .own { session := 2, subject := MessageType.connect } fun _ => {}, .onmessage,
    .other { call := .message (FreifunkManager.Sample.edit "cellar"), choices := fun _ => {} }, .getNodes]

theorem page_shows_renamed : ∃ page row node,
    Page.run FreifunkManager.Sample.config { world := FreifunkManager.Sample.world [FreifunkManager.Sample.row] }
      Sample.renamed = some page ∧ page.line.length = 1 ∧
    page.world.nodes.lookup "f81a67a5e9c1" = some row ∧
    (page.line.foldl receive page.store).list "f81a67a5e9c1" = some node ∧ node.data.settings = row.settings := by
  have runs : (Page.run FreifunkManager.Sample.config
      { world := FreifunkManager.Sample.world [FreifunkManager.Sample.row] }
      Sample.renamed).map (fun page => (page.line.length, page.told)) = some (1, ["f81a67a5e9c1", "f81a67a5e9c1"]) := by
    decide +kernel
  obtain ⟨page, ran, view⟩ := Option.map_eq_some_iff.mp runs
  obtain ⟨waits, told⟩ := Prod.ext_iff.mp view
  have fine : ∀ event ∈ Sample.renamed, event.Fine := by simp [Sample.renamed, Event.Fine, Step.Works]
  obtain ⟨row, node, found⟩ := page_shows FreifunkManager.Sample.config _ fine ran "f81a67a5e9c1"
    (by rw [show page.told = _ from told]; exact List.mem_cons_self) (by decide)
  exact ⟨page, row, node, ran, waits, found⟩

end FreifunkManager.Replica
