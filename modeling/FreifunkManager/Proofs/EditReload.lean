import FreifunkManager.Proofs.Reload
import FreifunkManager.Proofs.RoundTrip

/-! # An edit and a reload

After an edit the node that the client has sent goes to all clients, with the latest report. A client that connects
then is sent the row instead, if it passes the time filter. `likeReload_iff` tells when the two are the same: nothing
may be left of what the message says about the state of the node, and the filter must not drop the row. Every field of
a node can be in a message, also the time and the statistics (`Mapstructure.decodeNode`).
-/

namespace FreifunkManager

open Effects Program Store

/-- What clients do not choose. -/
def Node.observed (n : Node) : Node :=
  { n with hostname := "", owner := "", location := {}, wireless := {}, blacklist := none }

/-- Clients get to see the same as new ones, and nothing about the state of the node that is not known here. -/
structure LikeReload (config : Config) (reports : Reports) (before : World) (nodeID : String)
    (broadcasts reloaded : List Node) : Prop where
  shown : ∀ node ∈ reloaded, ∃ sent, broadcasts = [sent] ∧ sent.toClients = node.toClients
  hidden : reloaded = [] → broadcasts = []
  observed : ∀ sent ∈ broadcasts, ∃ seen, sent.observed =
    ((before.rowOf nodeID).node.update (reports nodeID) config.ipPrefix seen).observed

/-- What a message says about the state of a node is not what clients get to see. -/
def Replaced (config : Config) (node : Node) (row : Row) : Option Yanic.Node → Prop
  | some report => Overwrites config report node row
  | none => node.observed = row.node.observed

theorem Node.observed_eq {a b : Node} (same : a.toClients = b.toClients) (lastseen : a.lastseen = b.lastseen) :
    a.observed = b.observed := by
  simp only [Node.toClients, Node.mk.injEq] at same
  simp only [Node.observed, Node.mk.injEq]
  tauto

theorem Node.toClients_eq {a b : Node} (same : a.observed = b.observed) (settings : a.settings = b.settings) :
    a.toClients = b.toClients := by
  simp only [Node.observed, Node.mk.injEq] at same
  simp only [Node.settings, Settings.mk.injEq] at settings
  simp only [Node.toClients, Node.mk.injEq]
  exact ⟨congrArg (Option.map fun _ => 0) same.1, by tauto⟩

section Row

variable (row : Row) (node : Node)

theorem Row.edit_settings : node.settings = (row.edit node).settings := rfl

/-- An edit does not change whether the row is filtered. -/
theorem Row.edit_timeFilter (d : Duration) (now : Time) :
    (row.edit node).node.timeFilter d now = row.node.timeFilter d now := rfl

/-- What is observed of an edited row. -/
theorem Row.edit_update_observed (report : Option Yanic.Node) (ipPrefix : String) (now : Time) :
    ((row.edit node).node.update report ipPrefix now).observed = (row.node.update report ipPrefix now).observed := by
  cases report with
  | none => rfl
  | some report =>
    rw [Node.update_eq, Node.update_eq]
    rfl

end Row

/-- A row that passes the filter was there before. -/
theorem World.rowOf_there {w : World} {nodeID : String} {d : Duration} {now : Time}
    (passes : (w.rowOf nodeID).node.timeFilter d now = false) : w.nodes.lookup nodeID = some (w.rowOf nodeID) := by
  unfold World.rowOf at passes ⊢
  cases found : w.nodes.lookup nodeID with
  | none =>
    rw [found] at passes
    contradiction
  | some row => rfl

theorem Overwrites.edit_iff {config : Config} {report : Yanic.Node} {node : Node} {row : Row} :
    Overwrites config report node (row.edit node) ↔ Overwrites config report node row :=
  ⟨fun ⟨address, hostname, owner, location, wireless, statistics⟩ =>
      ⟨address, hostname, owner, location, wireless, statistics⟩,
    fun ⟨address, hostname, owner, location, wireless, statistics⟩ =>
      ⟨address, hostname, owner, location, wireless, statistics⟩⟩

section Compare

variable {config : Config} {reports : Reports} {w : World} {nodeID : String} {sent seen : Node}

theorem not_likeReload_nil : ¬ LikeReload config reports w nodeID [sent] [] :=
  fun like => absurd (like.hidden rfl) (List.cons_ne_nil _ _)

theorem likeReload_singleton : LikeReload config reports w nodeID [sent] [seen] ↔ sent.toClients = seen.toClients ∧
    ∃ now, sent.observed = ((w.rowOf nodeID).node.update (reports nodeID) config.ipPrefix now).observed := by
  constructor
  · intro like
    obtain ⟨other, only, same⟩ := like.shown seen (List.mem_singleton.mpr rfl)
    obtain ⟨rfl, -⟩ := List.cons.inj only
    exact ⟨same, like.observed sent (List.mem_singleton.mpr rfl)⟩
  · rintro ⟨same, observed⟩
    constructor
    · exact List.forall_mem_singleton.mpr ⟨sent, rfl, same⟩
    · exact fun nothing => absurd nothing (List.cons_ne_nil _ _)
    · exact List.forall_mem_singleton.mpr observed

/-- A node that was sent as it was read, and the row that passes the filter. -/
theorem likeReload_row_iff {node : Node} {row : Row} (found : w.nodes.lookup node.nodeID = some row)
    (updated later : Time) :
    LikeReload config reports w node.nodeID [node.update (reports node.nodeID) config.ipPrefix updated]
        [(row.edit node).node.update (reports row.nodeID) config.ipPrefix later] ↔
      Replaced config node row (reports node.nodeID) := by
  have own : row.nodeID = node.nodeID := Table.lookup_key found
  have own' : node.nodeID = (row.edit node).nodeID := own.symm
  rw [likeReload_singleton, World.rowOf, found, Option.getD_some, own]
  cases reports node.nodeID with
  | none =>
    constructor
    · rintro ⟨-, _, observed⟩
      exact observed
    · intro observed
      exact ⟨Node.toClients_eq observed (row.edit_settings node), updated, observed⟩
  | some report =>
    have same (later : Time) : (node.update (some report) config.ipPrefix updated).toClients =
        ((row.edit node).node.update (some report) config.ipPrefix later).toClients ↔
        Overwrites config report node row :=
      (toClients_update_iff config report own' (row.edit_settings node) updated later).trans Overwrites.edit_iff
    rw [same]
    constructor
    · exact And.left
    · intro overwrites
      refine ⟨overwrites, updated, ?_⟩
      rw [← row.edit_update_observed node]
      apply Node.observed_eq
      · exact (same updated).mpr overwrites
      · rw [Node.update_eq, Node.update_eq]

end Compare

/-- After an accepted edit clients see what new ones do, if and only if the row was there and passes the filter, and
nothing is left of what the message says about the state of the node: the latest report replaces it, or without one it
is what the row has. -/
theorem likeReload_iff (config : Config) (reports : Reports) {edit reload : Step} {msg connect : Message}
    (editing : edit.call = .message msg) (subject : msg.subject = MessageType.node)
    (reloading : reload.call = .message connect) (connects : connect.subject = MessageType.connect)
    (w : World) {node : Node} (decoded : config.decodeNode msg.body = some node) :
    let after := (serve config edit w).1
    let events := after.since w
    let answer := (serve config reload after).1.since after
    (∀ e ∈ events, e.Lists reports) → (∀ e ∈ answer, e.Lists reports) → events.filterMap Event.answered = [true] →
    (LikeReload config reports w node.nodeID (events.filterMap Event.broadcast)
        ((answer.filterMap Event.shown).filter (·.nodeID = node.nodeID)) ↔
      ∃ row, w.nodes.lookup node.nodeID = some row ∧ (reload.choices 0).dbFails = false ∧
        row.node.timeFilter config.blacklistFor (reload.checks config reports node.nodeID after) = false ∧
        Replaced config node row (reports node.nodeID)) := by
  intro after events answer lists lists' accepted
  cases serve_edited config editing subject w with
  | refused _ answers => exact absurd (accepted.symm.trans answers) (by decide)
  | saved other report listed updated decoded' _ stored _ looks broadcasts =>
    cases Option.some.inj (decoded.symm.trans decoded')
    have known : report = reports node.nodeID := (lists _ looks).found
    rw [broadcasts, serve_connect config reports reload reloading connects node.nodeID lists', reload.find?_finds,
      stored, if_pos rfl, known]
    generalize reload.checks config reports node.nodeID after = checked
    generalize (reload.choices (reload.place config reports node.nodeID after.nodes.rows 1 + 2)).time = later
    cases (reload.choices 0).dbFails with
    | true =>
      constructor
      · exact fun like => absurd like not_likeReload_nil
      · rintro ⟨_, _, works, _⟩
        contradiction
    | false =>
      rw [if_neg Bool.false_ne_true, Option.bind_some, Row.shown, Row.edit_timeFilter]
      cases passes : (w.rowOf node.nodeID).node.timeFilter config.blacklistFor checked with
      | true =>
        constructor
        · exact fun like => absurd like not_likeReload_nil
        · rintro ⟨row, found, _, passes', _⟩
          rw [World.rowOf, found, Option.getD_some, passes'] at passes
          contradiction
      | false =>
        have found := World.rowOf_there passes
        rw [if_neg Bool.false_ne_true]
        apply (likeReload_row_iff found updated later).trans
        constructor
        · exact fun replaced => ⟨_, found, rfl, passes, replaced⟩
        · rintro ⟨row, found', _, _, replaced⟩
          rw [found] at found'
          cases found'
          exact replaced

def loggingIn : Step := listing 10
    (.message { session := 1, subject := MessageType.login, body := .string "swordfish" }) none

/-- A node that has not been met before is edited, and a client connects. -/
def editing : Step := listing 60 (.message (Sample.edit "cellar")) none

theorem newNode_not_reloaded :
    let w := serveAll Sample.config [loggingIn] {}
    let after := (serve Sample.config editing w).1
    let events := after.since w
    let answer := (serve Sample.config (reloadAt 61 none) after).1.since after
    (∀ e ∈ events, e.Lists fun _ => none) ∧ (∀ e ∈ answer, e.Lists fun _ => none) ∧
      events.filterMap Event.answered = [true] ∧
      ¬ LikeReload Sample.config (fun _ => none) w "f81a67a5e9c1" (events.filterMap Event.broadcast)
        ((answer.filterMap Event.shown).filter (·.nodeID = "f81a67a5e9c1")) := by
  refine ⟨by decide +kernel, by decide +kernel, by decide +kernel, ?_⟩
  intro like
  exact absurd (like.hidden (by decide +kernel)) (by decide +kernel)

namespace Sample

/-- A time is a struct whose fields cannot be set. -/
def readTime : Json → Option (Option Time)
  | .null => some none
  | .object _ => some (some (-62135596800000000000))
  | _ => none

def readStatistics : Json → Option StatisticsRespondd
  | .null | .object [] => some {}
  | _ => none

def reading : Config :=
  { config with
    decodeNode := { mapstructure with time := readTime, statistics := readStatistics : Mapstructure }.decodeNode }

/-- An edit that brings a time of its own. -/
def timedEdit : Message :=
  { edit "cellar" with
    body := .object [("node_id", .string "f81a67a5e9c1"), ("hostname", .string "cellar"), ("-", .object [])] }

end Sample

theorem likeReload_reported :
    let w := Sample.world [Sample.row]
    let edit := listing 60 (.message Sample.timedEdit) (some (Sample.report "attic"))
    let after := (serve Sample.reading edit w).1
    let answer := (serve Sample.reading (reloadAt 61 (some (Sample.report "attic"))) after).1.since after
    LikeReload Sample.reading (fun _ => some (Sample.report "attic")) w "f81a67a5e9c1"
      ((after.since w).filterMap Event.broadcast)
      ((answer.filterMap Event.shown).filter (·.nodeID = "f81a67a5e9c1")) := by
  have decoded : Sample.reading.decodeNode Sample.timedEdit.body =
      some { nodeID := "f81a67a5e9c1", hostname := "cellar", lastseen := some (-62135596800000000000) } := by
    decide +kernel
  apply (likeReload_iff Sample.reading _ rfl rfl rfl rfl (Sample.world [Sample.row]) decoded
    (by decide +kernel) (by decide +kernel) (by decide +kernel)).mpr
  refine ⟨Sample.row, rfl, rfl, by decide +kernel, ?_⟩
  constructor
  · exact .inl (by decide +kernel)
  · exact .inr rfl
  · exact .inr rfl
  · exact .inr rfl
  · exact .inr rfl
  · exact .inr rfl

end FreifunkManager
