import FreifunkManager.Proofs.Dialled
import FreifunkManager.Proofs.Edits

/-! # What a new client is sent

The answer to a new client has a node for every row that passes the time filter, with its latest report. A client
that is connected already gets to see the node when an edit or a report is handled (`Event.broadcast`); the two
are compared field by field, as far as they are sent.
-/

namespace FreifunkManager

open Effects Program Store

/-- The list of the latest reports. -/
abbrev Reports := String → Option Yanic.Node

/-- The node that is looked up in the list, and what is found. -/
def Event.listed : Event → Option (String × Option Yanic.Node)
  | ⟨_, .listNode nodeID, report, _⟩ => some (nodeID, report)
  | _ => none

/-- A report that is looked up is the one in the list. -/
def Event.Lists (reports : Reports) (e : Event) : Prop := e.listed.all fun entry => entry.2 = reports entry.1

instance (reports : Reports) (e : Event) : Decidable (e.Lists reports) := inferInstanceAs (Decidable (_ = true))

theorem Event.Lists.found {reports : Reports} {call : Call} {nodeID : String} {report : Option Yanic.Node} {time : Time}
    (lists : Event.Lists reports ⟨call, .listNode nodeID, report, time⟩) : report = reports nodeID :=
  of_decide_eq_true lists

/-- The node that a new client is sent. -/
def Event.shown : Event → Option Node
  | ⟨_, .write _ (.node node), _, _⟩ => some node
  | _ => none

section Connect

variable (config : Config) (reports : Reports) (step : Step)

/-- What a new client is sent for a row that is checked and updated at these times. -/
def Row.shown (row : Row) (checked updated : Time) : Option Node :=
  if row.node.timeFilter config.blacklistFor checked then none
  else some (row.node.update (reports row.nodeID) config.ipPrefix updated)

/-- The number of operations for a row. -/
def Row.asks (row : Row) (checked : Time) : ℕ :=
  if row.node.timeFilter config.blacklistFor checked then 1 else if (reports row.nodeID).isSome then 4 else 3

/-- Which operation checks the row of a node. -/
def Step.place (nodeID : String) : List Row → ℕ → ℕ
  | [], i => i
  | row :: rest, i =>
    if row.nodeID = nodeID then i else Step.place nodeID rest (i + row.asks config reports (step.choices i).time)

/-- When a new client is answered, the row of a node is checked at this time. -/
def Step.checks (nodeID : String) (w : World) : Time :=
  (step.choices (step.place config reports nodeID w.nodes.rows 1)).time

/-- What `updateFromList` adds to the log. -/
def Step.listing (nodeID : String) (i : ℕ) : List Event :=
  let listed : Event := ⟨step.call, .listNode nodeID, (step.choices i).listed, (step.choices i).time⟩
  let now := (step.choices (i + 1)).time
  if (step.choices i).listed.isSome then [⟨step.call, .now .update, now, now⟩, listed] else [listed]

theorem updateFromList_run (node : Node) (w : World) (i : ℕ) : (updateFromList config node).run step.handle (w, i) =
    (node.update (step.choices i).listed config.ipPrefix (step.choices (i + 1)).time,
      w.withLog (step.listing node.nodeID i ++ w.log), i + (step.listing node.nodeID i).length) := by
  have looks (rest : Option Yanic.Node → Prog Node) :
      ((perform (.listNode node.nodeID) : Prog (Option Yanic.Node)) >>= rest).run step.handle (w, i) =
        (rest (step.choices i).listed).run step.handle (w.withLog
          (⟨step.call, .listNode node.nodeID, (step.choices i).listed, (step.choices i).time⟩ :: w.log), i + 1) := rfl
  unfold updateFromList
  rw [looks]
  unfold Step.listing
  cases (step.choices i).listed with
  | none => rfl
  | some report => rfl

theorem connectNode_run (row : Row) (w : World) (i : ℕ) : ∃ (events : List Event) (j : ℕ),
    (connectNode config row).run step.handle (w, i) = ((), w.withLog (events ++ w.log), j) ∧
    ((∀ e ∈ events, e.Lists reports) → j = i + row.asks config reports (step.choices i).time ∧
      events.filterMap Event.shown =
        (row.shown config reports (step.choices i).time (step.choices (i + 2)).time).toList) := by
  let checked : Event := ⟨step.call, .now .timeFilter, (step.choices i).time, (step.choices i).time⟩
  have checks (rest : Time → Prog Unit) : ((perform (.now .timeFilter) : Prog Time) >>= rest).run step.handle (w, i) =
      (rest (step.choices i).time).run step.handle (w.withLog (checked :: w.log), i + 1) := rfl
  unfold connectNode Row.asks Row.shown
  rw [checks]
  cases filtered : row.node.timeFilter config.blacklistFor (step.choices i).time with
  | true => exact ⟨[checked], i + 1, rfl, fun _ => ⟨rfl, rfl⟩⟩
  | false =>
    rw [if_neg Bool.false_ne_true, run_bind, updateFromList_run]
    let node := row.node.update (step.choices (i + 1)).listed config.ipPrefix (step.choices (i + 2)).time
    let place := i + 1 + (step.listing row.nodeID (i + 1)).length
    let wrote : Event := ⟨step.call, .write MessageType.node (.node node), (), (step.choices place).time⟩
    refine ⟨wrote :: (step.listing row.nodeID (i + 1) ++ [checked]), place + 1, ?_, ?_⟩
    · rw [List.cons_append, List.append_assoc]
      rfl
    · intro lists
      have listed : (step.choices (i + 1)).listed = reports row.nodeID := by
        apply (lists ⟨step.call, .listNode row.nodeID, (step.choices (i + 1)).listed,
          (step.choices (i + 1)).time⟩ _).found
        unfold Step.listing
        split_ifs <;> simp
      have silent : (step.listing row.nodeID (i + 1)).filterMap Event.shown = [] := by
        unfold Step.listing
        split_ifs <;> rfl
      constructor
      · unfold place Step.listing
        rw [listed, if_neg Bool.false_ne_true]
        split_ifs <;> rfl
      · rw [List.filterMap_cons_some (show wrote.shown = some node from rfl), List.filterMap_append, silent,
          if_neg Bool.false_ne_true, ← listed]
        rfl

/-- What a new client is sent for the rows of some nodes, as far as one node is concerned. -/
theorem connectNodes_run {rows : List Row} (distinct : (rows.map Row.nodeID).Nodup) (nodeID : String)
    (w : World) (i : ℕ) :
    ∃ (events : List Event) (j : ℕ),
      (rows.forM (connectNode config)).run step.handle (w, i) = ((), w.withLog (events ++ w.log), j) ∧
      ((∀ e ∈ events, e.Lists reports) → (events.filterMap Event.shown).filter (·.nodeID = nodeID) =
        ((rows.find? (·.nodeID = nodeID)).bind fun row =>
          row.shown config reports (step.choices (step.place config reports nodeID rows i)).time
            (step.choices (step.place config reports nodeID rows i + 2)).time).toList) := by
  induction rows generalizing w i with
  | nil => exact ⟨[], i, rfl, fun _ => rfl⟩
  | cons row rest ih =>
    obtain ⟨different, distinct⟩ := List.nodup_cons.mp distinct
    obtain ⟨events, j, ran, sent⟩ := connectNode_run config reports step row w i
    obtain ⟨later, last, ran', sent'⟩ := ih distinct (w.withLog (events ++ w.log)) j
    refine ⟨later ++ events, last, ?_, ?_⟩
    · change ((connectNode config row) >>= fun _ => rest.forM (connectNode config)).run step.handle (w, i) = _
      rw [run_bind, ran, ran', List.append_assoc]
      rfl
    · intro lists
      obtain ⟨lists', lists⟩ := List.forall_mem_append.mp lists
      obtain ⟨rfl, first⟩ := sent lists
      rw [List.filterMap_append, List.filter_append, sent' lists', first, Step.place, List.find?_cons]
      have own (node : Node) (shown : row.shown config reports (step.choices i).time
          (step.choices (i + 2)).time = some node) :
          node.nodeID = row.nodeID := by
        unfold Row.shown at shown
        split_ifs at shown
        cases shown
        exact Node.update_nodeID ..
      rcases eq_or_ne row.nodeID nodeID with rfl | other
      · have missing : rest.find? (·.nodeID = row.nodeID) = none := by
          rw [List.find?_eq_none]
          intro row' member same
          exact different (List.mem_map.mpr ⟨row', member, of_decide_eq_true same⟩)
        rw [missing, if_pos rfl, decide_eq_true rfl]
        cases shown : row.shown config reports (step.choices i).time (step.choices (i + 2)).time with
        | none => simp [shown]
        | some node => simp [shown, own node shown]
      · rw [if_neg other, decide_eq_false other]
        cases shown : row.shown config reports (step.choices i).time (step.choices (i + 2)).time with
        | none => simp
        | some node => simp [own node shown, other]

/-- The rows that a new client is answered with. -/
def Step.finds (w : World) : List Row := if (step.choices 0).dbFails then [] else w.nodes.rows

theorem Step.find?_finds (w : World) (nodeID : String) :
    (step.finds w).find? (·.nodeID = nodeID) = if (step.choices 0).dbFails then none else w.nodes.lookup nodeID := by
  unfold Step.finds
  split_ifs
  · rfl
  · rfl

/-- What a new client is sent for a node. -/
theorem serve_connect {msg : Message} (message : step.call = .message msg) (subject : msg.subject = MessageType.connect)
    (nodeID : String) {w : World} (lists : ∀ e ∈ (serve config step w).1.since w, e.Lists reports) :
    (((serve config step w).1.since w).filterMap Event.shown).filter (·.nodeID = nodeID) =
      (((step.finds w).find? (·.nodeID = nodeID)).bind fun row =>
        row.shown config reports (step.checks config reports nodeID w)
          (step.choices (step.place config reports nodeID w.nodes.rows 1 + 2)).time).toList := by
  have distinct : ((step.finds w).map Row.nodeID).Nodup := by
    unfold Step.finds
    split_ifs
    · exact List.nodup_nil
    · exact w.nodes.distinct
  let found : Event := ⟨step.call, .findNodes, step.finds w, (step.choices 0).time⟩
  obtain ⟨events, j, ran, sent⟩ := connectNodes_run config reports step distinct nodeID (w.withLog (found :: w.log)) 1
  let wrote (i : ℕ) (subject : String) (channels : List UInt32) : Event :=
    ⟨step.call, .write subject (.channels channels), (), (step.choices i).time⟩
  have served : (serve config step w).1.since w = [wrote (j + 1) MessageType.channelsWifi5 wifi5Channels,
      wrote j MessageType.channelsWifi24 wifi24Channels] ++ (events ++ [found]) := by
    apply World.since_eq
    have handler : step.call.program config = .ok <$> connectHandler config := by
      have handled : handleMessage config msg = connectHandler config := if_pos subject
      rw [message, ← handled]
      rfl
    have finds (rest : List Row → Prog Unit) :
        ((perform .findNodes : Prog (List Row)) >>= rest).run step.handle (w, 0) =
        (rest (step.finds w)).run step.handle (w.withLog (found :: w.log), 1) := rfl
    unfold serve
    rw [handler, map_eq_bind_pure_comp, run_bind]
    unfold connectHandler
    rw [finds, run_bind, ran, List.append_assoc, List.append_assoc]
    rfl
  rw [served] at lists ⊢
  obtain ⟨-, lists⟩ := List.forall_mem_append.mp lists
  have silent : ([wrote (j + 1) MessageType.channelsWifi5 wifi5Channels,
      wrote j MessageType.channelsWifi24 wifi24Channels] : List Event).filterMap Event.shown = [] := rfl
  have silent' : [found].filterMap Event.shown = [] := rfl
  rw [List.filterMap_append, List.filterMap_append, silent, silent', List.nil_append, List.append_nil,
    sent (List.forall_mem_append.mp lists).1]
  unfold Step.checks Step.finds
  split_ifs
  · rfl
  · rfl

end Connect

/-! ## The address after a report -/

section Addresses

variable (config : Config)

/-- The stored address, or the first one of a report. -/
def begun (addresses : List String) (stored : String) : String :=
  if stored = "" then ((candidates config addresses).head?).getD "" else stored

theorem linkLocal_named {ip : String} (isLocal : linkLocal ip = true) : ip ≠ "" := by
  rintro rfl
  rw [linkLocal, parse_empty] at isLocal
  contradiction

theorem candidates_cons (ip : String) (addresses : List String) : candidates config (ip :: addresses) =
    if hasPrefix config ip then ip :: candidates config addresses else candidates config addresses :=
      List.filter_cons ..

/-- Without a preferred address in the report the first one stays. -/
theorem fold_begun {addresses : List String} (none : preferred config addresses = []) (stored : String) :
    addresses.foldl (Node.considerAddress config.ipPrefix) stored = begun config addresses stored := by
  induction addresses generalizing stored with
  | nil =>
    rw [begun]
    split_ifs with blank
    · exact blank
    · rfl
  | cons ip rest ih =>
    rw [List.foldl_cons, considerAddress_eq]
    rw [preferred, candidates_cons] at none
    rw [begun, candidates_cons]
    cases fits : hasPrefix config ip with
    | false =>
      rw [fits, if_neg Bool.false_ne_true] at none
      exact ih none stored
    | true =>
      rw [fits, if_pos rfl, List.filter_cons] at none
      split_ifs at none with isLocal
      rw [Bool.not_eq_true', Bool.not_eq_false] at isLocal
      have named := linkLocal_named isLocal
      rw [if_pos rfl, if_pos rfl, isLocal, ih none, begun]
      by_cases blank : stored = ""
      · simp [blank, named]
      · simp [blank]

/-- A preferred address of the report is taken whatever was stored. -/
theorem fold_preferred {addresses : List String} (some : preferred config addresses ≠ []) (stored other : String) :
    addresses.foldl (Node.considerAddress config.ipPrefix) stored =
      addresses.foldl (Node.considerAddress config.ipPrefix) other := by
  induction addresses generalizing stored other with
  | nil => exact absurd rfl some
  | cons ip rest ih =>
    rw [List.foldl_cons, List.foldl_cons, considerAddress_eq, considerAddress_eq]
    rw [preferred, candidates_cons] at some
    cases fits : hasPrefix config ip with
    | false =>
      rw [fits, if_neg Bool.false_ne_true] at some
      exact ih some stored other
    | true =>
      rw [fits, if_pos rfl, List.filter_cons] at some
      cases isLocal : linkLocal ip with
      | false => simp
      | true =>
        rw [isLocal] at some
        exact ih some _ _

theorem fold_eq_iff (addresses : List String) (stored other : String) :
    addresses.foldl (Node.considerAddress config.ipPrefix) stored =
        addresses.foldl (Node.considerAddress config.ipPrefix) other ↔
      preferred config addresses ≠ [] ∨ begun config addresses stored = begun config addresses other := by
  by_cases none : preferred config addresses = []
  · rw [fold_begun config none, fold_begun config none]
    exact (or_iff_right (not_not.mpr none)).symm
  · exact iff_of_true (fold_preferred config none stored other) (.inl none)

/-- The addresses of a report that has been handled change nothing any more. -/
theorem fold_again (addresses : List String) (stored : String) :
    addresses.foldl (Node.considerAddress config.ipPrefix)
        (addresses.foldl (Node.considerAddress config.ipPrefix) stored) =
      addresses.foldl (Node.considerAddress config.ipPrefix) stored := by
  rw [fold_eq_iff]
  by_cases none : preferred config addresses = []
  · right
    rw [fold_begun config none]
    unfold begun
    by_cases blank : stored = ""
    · rw [if_pos blank, ite_self]
    · rw [if_neg blank, if_neg blank]
  · exact .inl none

end Addresses

/-! ## What clients get to see -/

/-- What clients are sent of a node, but the time at which it was last seen only as far as there is one. -/
def Node.toClients (n : Node) : Node := { n with blacklist := none, lastseen := n.lastseen.map fun _ => 0 }

def Yanic.Node.addresses (report : Yanic.Node) : List String := report.nodeinfo.elim [] (·.addresses)

/-- What a node says about its reported values is overwritten by the report, or it is what a row has. -/
structure Overwrites (config : Config) (report : Yanic.Node) (node : Node) (row : Row) : Prop where
  address : preferred config report.addresses ≠ [] ∨
    begun config report.addresses node.address = begun config report.addresses row.address
  hostname : report.nodeinfo ≠ none ∨ node.hostnameRespondd = ""
  owner : report.nodeinfo.bind (·.owner) ≠ none ∨ node.ownerRespondd = ""
  location : report.nodeinfo.bind (·.location) ≠ none ∨ node.locationRespondd = {}
  wireless : report.nodeinfo ≠ none ∧ report.statistics ≠ none ∨ node.wirelessRespondd = {}
  statistics : report.statistics ≠ none ∨ node.statisticsRespondd = {}

/-- What a report does to a node, field by field. -/
theorem Node.update_eq (n : Node) (report : Yanic.Node) (ipPrefix : String) (now : Time) :
    n.update (some report) ipPrefix now =
      { n with
        lastseen := some now
        address := report.addresses.foldl (considerAddress ipPrefix) n.address
        hostnameRespondd := (report.nodeinfo.map (·.hostname)).getD n.hostnameRespondd
        ownerRespondd := ((report.nodeinfo.bind (·.owner)).map (·.contact)).getD n.ownerRespondd
        locationRespondd := (report.nodeinfo.bind (·.location)).getD n.locationRespondd
        wirelessRespondd := (report.nodeinfo.bind fun _ => getWirelessSettings report).getD n.wirelessRespondd
        statisticsRespondd := (report.statistics.map fun stats => ⟨stats.wireless, stats.clients⟩).getD
          n.statisticsRespondd } := by
  rcases report with ⟨_ | nodeinfo, _ | stats⟩ <;> rfl

theorem getD_eq_getD_iff {α : Type} {o : Option α} {a b : α} : o.getD a = o.getD b ↔ o ≠ none ∨ a = b := by
  cases o <;> simp

/-- A node with the settings of a row looks like the row after a report, if and only if nothing else stays of it. -/
theorem toClients_update_iff (config : Config) (report : Yanic.Node) {node : Node} {row : Row}
    (own : node.nodeID = row.nodeID) (settings : node.settings = row.settings) (now later : Time) :
    (node.update (some report) config.ipPrefix now).toClients =
      (row.node.update (some report) config.ipPrefix later).toClients ↔ Overwrites config report node row := by
  obtain ⟨hostname, owner, location, wireless⟩ := Settings.mk.inj settings
  have shows : (report.nodeinfo.bind fun _ => getWirelessSettings report) ≠ none ↔
      report.nodeinfo ≠ none ∧ report.statistics ≠ none := by
    rcases report with ⟨_ | nodeinfo, _ | stats⟩ <;> simp [getWirelessSettings]
  rw [Node.update_eq, Node.update_eq]
  simp only [Node.toClients, Row.node, Node.mk.injEq, own, hostname, owner, location, wireless, fold_eq_iff,
    getD_eq_getD_iff, shows, Option.map_some, Option.map_eq_none_iff, ne_eq, true_and]
  constructor
  · rintro ⟨address, hostname, owner, location, wireless, statistics⟩
    exact ⟨address, hostname, owner, location, wireless, statistics⟩
  · rintro ⟨address, hostname, owner, location, wireless, statistics⟩
    exact ⟨address, hostname, owner, location, wireless, statistics⟩

/-! ## Samples -/

/-- A call whose operations are all at one time, with one report in the list. -/
def listing (time : Time) (call : Call) (listed : Option Yanic.Node) : Step :=
  { call, choices := fun _ => { time, listed } }

/-- Another client connects. -/
def reloadAt (time : Time) (listed : Option Yanic.Node) : Step :=
  listing time (.message { session := 2, subject := MessageType.connect }) listed

end FreifunkManager
