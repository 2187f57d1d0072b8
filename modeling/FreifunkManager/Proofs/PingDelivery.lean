import FreifunkManager.Model.PingDelivery
import FreifunkManager.Proofs.PingHistory
import FreifunkManager.Proofs.PingRound
import FreifunkManager.Proofs.Sessions

/-! # What a page shows of the pings

The goroutines of a round append to its result in any order. What a page shows does not depend on it: a node gets one
more result exactly if it was read, was neither filtered nor without an address, and the session wanted pings when the
round had ended. `Board` says so without goroutines, lists and messages, and `page_history` connects the two.
-/

namespace FreifunkManager.PingDelivery

open Effects Pinger Store

/-! ## A round from its beginning -/

/-- No goroutine was started yet. -/
structure Unstarted (r : Round) : Prop where
  goroutines : r.goroutines = []
  result : r.result = {}
  sent : r.sent = []
  counter : r.wg = 0

/-- How far a round is. -/
inductive Course (blacklistFor : Duration) (outcome : String → Outcome) (r : Round) : Prop
  | finding (main : r.main = .find) (unstarted : Unstarted r)
  | counting (main : r.main = .count) (unstarted : Unstarted r) (fewer : r.nodes.length ≤ r.world.nodes.rows.length)
      (distinct : (r.nodes.map (·.nodeID)).Nodup)
  | running (running : Running blacklistFor outcome r) (enough : r.nodes.length ≤ r.count) (sends : r.Sends)
      (distinct : (r.nodes.map (·.nodeID)).Nodup)

section Course

variable {blacklistFor : Duration} {outcome : String → Outcome} {r r' : Round}

theorem Unstarted.no_goroutine (unstarted : Unstarted r) {i : ℕ} : r.runGoroutine blacklistFor outcome i ≠ some r' := by
  rw [Round.runGoroutine, unstarted.goroutines]
  exact (Option.some_ne_none r').symm

theorem Unstarted.running (unstarted : Unstarted r) (count : ℕ) :
    Running blacklistFor outcome { r with main := .start r.nodes, count, wg := count } where
  counted := rfl
  split := by
    rw [unstarted.goroutines]
    rfl
  counter := by
    rw [Round.finished, unstarted.goroutines]
    simp
  fine := by
    rw [unstarted.goroutines]
    exact List.forall_mem_nil _
  ids answers := by
    rw [unstarted.result, Round.listed, unstarted.goroutines]
    cases answers <;> exact .nil
  waited := by rintro (past | past) <;> contradiction

theorem Course.step (course : Course blacklistFor outcome r) {action : Action}
    (ran : r.step blacklistFor outcome action = some r') : Course blacklistFor outcome r' := by
  cases course with
  | finding main unstarted =>
    have fine : ¬ r.wg < 0 := unstarted.counter.ge.not_gt
    unfold Round.step at ran
    rw [if_neg fine] at ran
    cases action with
    | main =>
      simp only [Round.runMain, main] at ran
      cases ran
      exact .counting rfl ⟨unstarted.goroutines, unstarted.result, unstarted.sent, unstarted.counter⟩ le_rfl
        r.world.nodes.distinct
    | goroutine i => exact absurd ran unstarted.no_goroutine
    | other call choice op =>
      cases ran
      exact .finding main ⟨unstarted.goroutines, unstarted.result, unstarted.sent, unstarted.counter⟩
  | counting main unstarted fewer distinct =>
    have fine : ¬ r.wg < 0 := unstarted.counter.ge.not_gt
    unfold Round.step at ran
    rw [if_neg fine] at ran
    cases action with
    | main =>
      simp only [Round.runMain, main] at ran
      cases ran
      refine .running (unstarted.running _) fewer ?_ distinct
      change r.sent = _
      rw [unstarted.sent, if_neg Main.noConfusion]
    | goroutine i => exact absurd ran unstarted.no_goroutine
    | other call choice op =>
      cases ran
      exact .counting main ⟨unstarted.goroutines, unstarted.result, unstarted.sent, unstarted.counter⟩
        (fewer.trans (rows_handle call choice op r.world)) distinct
  | running running enough sends distinct =>
    obtain ⟨after, ⟨nodes, count⟩, _⟩ := running.step ran
    refine .running after ?_ (running.step_sends enough sends ran) ?_
    · rw [nodes, count]
      exact enough
    · rw [nodes]
      exact distinct

theorem Course.run (course : Course blacklistFor outcome r) {actions : List Action}
    (ran : r.run blacklistFor outcome actions = some r') : Course blacklistFor outcome r' := by
  induction actions generalizing r with
  | nil =>
    cases ran
    exact course
  | cons action rest ih =>
    obtain ⟨middle, first, later⟩ := Option.bind_eq_some_iff.mp ran
    exact ih (course.step first) later

/-- A round that has come to its end has sent its result, in which every node that passes is listed once. -/
theorem round_ended {w : World} {actions : List Action}
    (ran : Round.run blacklistFor outcome { world := w } actions = some r) (ended : r.main = .ended) :
    r.sent = [r.result] ∧ r.Lists blacklistFor outcome ∧ (r.nodes.map (·.nodeID)).Nodup := by
  have start : Course blacklistFor outcome { world := w } := .finding rfl ⟨rfl, rfl, rfl, rfl⟩
  cases start.run ran with
  | finding main => exact absurd (main.symm.trans ended) nofun
  | counting main => exact absurd (main.symm.trans ended) nofun
  | running running enough sends distinct =>
    refine ⟨sends.trans (if_pos ended), running.lists ?_ distinct, distinct⟩
    exact enough.trans (running.waited (.inr ended))

end Course

/-! ## What is meant -/

/-- What a round finds out about a node. -/
def verdict (blacklistFor : Duration) (outcome : String → Outcome) (nodes : List Row) (nodeid : String) : Option Bool :=
  (nodes.find? (·.nodeID = nodeid)).bind fun row =>
    if Passes blacklistFor outcome row then some (outcome nodeid).answers else none

/-- The nodes that a page knows, what it is to show for each, the newest first, and the rounds that it will hear of. -/
structure Board where
  known : String → Bool := fun _ => false
  results : String → List Bool := fun _ => []
  coming : List (String → Option Bool) := []

/-- The page hears of a round. -/
def Board.hear (board : Board) (found : String → Option Bool) : String → List Bool :=
  fun nodeid => if board.known nodeid then (found nodeid).toList ++ board.results nodeid else board.results nodeid

section Board

variable {δ : Type} (config : Config) (session : UUID)

def Board.step (board : Board) (s : State δ) : Event δ → Board
  | .round outcome actions _ =>
    match Round.run config.blacklistFor outcome { world := s.world } actions with
    | some r =>
      if flags r.world.sessions session = some true then
        { board with coming := board.coming ++ [verdict config.blacklistFor outcome r.nodes] }
      else board
    | none => board
  | .onmessage =>
    match board.coming with
    | [] => board
    | found :: rest => { board with results := board.hear found, coming := rest }
  | .updateNode node => { board with known := Function.update board.known node.nodeID true }
  | _ => board

/-- The board after a run. -/
def Board.run (board : Board) (s : State δ) : List (Event δ) → Board
  | [] => board
  | event :: rest =>
    ((s.step config session event).map fun next => (board.step config session s event).run next rest).getD board

/-- The database works when the sessions are read, and no node has the name of an inherited property. -/
def Event.Fine (s : State δ) : Event δ → Prop
  | .round outcome actions choices => (∀ i, (choices i).dbFails = false) ∧
      ∀ r, Round.run config.blacklistFor outcome { world := s.world } actions = some r →
        ∀ row ∈ r.nodes, row.nodeID ∉ ClientStore.objectPrototype
  | .updateNode node => node.nodeID ∉ ClientStore.objectPrototype
  | .getNode nodeid => nodeid ∉ ClientStore.objectPrototype
  | _ => True

/-- All events of a run are so. -/
def Fine (s : State δ) : List (Event δ) → Prop
  | [] => True
  | event :: rest => event.Fine config s ∧ ∀ next, s.step config session event = some next → Fine next rest

end Board

/-! ## The result of a round -/

/-- A result is right about what was found out. -/
structure Tallies (result : PingResult) (found : String → Option Bool) : Prop where
  counts : ∀ nodeid, List.replicate (result.falseIDs.count nodeid) false ++
    List.replicate (result.trueIDs.count nodeid) true =
    (found nodeid).toList
  ordinary : ∀ nodeid ∈ result.trueIDs ++ result.falseIDs, nodeid ∉ ClientStore.objectPrototype

/-- How often an id is listed, if every row has its own. -/
theorem count_filter_ids {nodes : List Row} (distinct : (nodes.map (·.nodeID)).Nodup) (p : Row → Bool)
    (nodeid : String) :
    ((nodes.filter p).map (·.nodeID)).count nodeid =
      if (nodes.find? (·.nodeID = nodeid)).any p then 1 else 0 := by
  induction nodes with
  | nil => rfl
  | cons row rest ih =>
    obtain ⟨different, distinct⟩ := List.nodup_cons.mp distinct
    have tail := ih distinct
    rw [List.find?_cons]
    by_cases own : row.nodeID = nodeid
    · have missing : rest.find? (·.nodeID = nodeid) = none := by
        rw [List.find?_eq_none]
        intro other member same
        exact different (List.mem_map.mpr ⟨other, member, (of_decide_eq_true same).trans own.symm⟩)
      rw [missing] at tail
      rw [decide_eq_true own]
      cases passes : p row with
      | true => simp [List.filter_cons_of_pos passes, own, tail, passes]
      | false => simp [passes, tail]
    · rw [decide_eq_false own]
      cases passes : p row with
      | true => rw [List.filter_cons_of_pos passes, List.map_cons, List.count_cons_of_ne own, tail]
      | false => rw [List.filter_cons_of_neg (by simp [passes]), tail]

theorem lists_tallies {blacklistFor : Duration} {outcome : String → Outcome} {r : Round}
    (lists : r.Lists blacklistFor outcome)
    (distinct : (r.nodes.map (·.nodeID)).Nodup) (ordinary : ∀ row ∈ r.nodes, row.nodeID ∉ ClientStore.objectPrototype) :
    Tallies r.result (verdict blacklistFor outcome r.nodes) where
  counts nodeid := by
    rw [lists.trueIDs.count_eq, lists.falseIDs.count_eq, count_filter_ids distinct, count_filter_ids distinct, verdict]
    cases found : r.nodes.find? (·.nodeID = nodeid) with
    | none => rfl
    | some row =>
      have own : row.nodeID = nodeid := by simpa using List.find?_some found
      rw [Option.any_some, Option.any_some, Option.bind_some, own]
      cases Passes blacklistFor outcome row <;> cases (outcome nodeid).answers <;> simp
  ordinary nodeid member := by
    have listed : ∃ row ∈ r.nodes, row.nodeID = nodeid := by
      rcases List.mem_append.mp member with among | among
      · obtain ⟨row, there, same⟩ := List.mem_map.mp (lists.trueIDs.mem_iff.mp among)
        exact ⟨row, List.mem_of_mem_filter there, same⟩
      · obtain ⟨row, there, same⟩ := List.mem_map.mp (lists.falseIDs.mem_iff.mp among)
        exact ⟨row, List.mem_of_mem_filter there, same⟩
    obtain ⟨row, there, rfl⟩ := listed
    exact ordinary row there

/-! ## Runs -/

section Run

variable {δ : Type} {config : Config} {session : UUID} {board : Board} {s after : State δ}

/-- What came to the store of the page is what is on the board, and the results on their way are the rounds to come. -/
structure Follows (board : Board) (s : State δ) : Prop where
  store : ∃ past, ClientStore.Holds past s.store ∧ (∀ nodeid, ClientStore.known nodeid past = board.known nodeid) ∧
    ∀ nodeid, ClientStore.delivered nodeid past = board.results nodeid
  plain : ∀ nodeid, board.known nodeid = true → nodeid ∉ ClientStore.objectPrototype
  coming : List.Forall₂ Tallies s.results board.coming

theorem follows_start (w : World) : Follows {} ({ world := w } : State δ) where
  store := ⟨[], ClientStore.holds_initial, fun _ => rfl, fun _ => rfl⟩
  plain _ known := absurd known Bool.false_ne_true
  coming := .nil

/-- What the page reads does not count. -/
theorem Follows.read (follows : Follows board s) {store : ClientStore.State δ} (same : s.store.Same store) :
    Follows board { s with store } := by
  obtain ⟨past, holds, known, results⟩ := follows.store
  refine ⟨⟨past, ?_, known, results⟩, follows.plain, follows.coming⟩
  exact ⟨same.valid, same.keys ▸ holds.keys, fun nodeid => (same.data nodeid).trans (holds.data nodeid),
    fun nodeid => (same.window nodeid).trans (holds.window nodeid)⟩

/-- A result is sent exactly to the sessions that want it. -/
theorem pinged_iff (config : Config) (session : UUID) (w : World) {step : Step} (ping : step.call = .ping)
    (works : step.Works) :
    pinged session w (serve config step w).1 = true ↔ flags w.sessions session = some true := by
  rw [flags_eq_true, ← List.mem_reverse, ← serve_pinged config ping works w, List.mem_filterMap, pinged,
    List.any_eq_true]
  refine exists_congr fun e => and_congr_right fun _ => ?_
  rw [decide_eq_true_eq, Event.pinged]
  constructor
  · intro sends
    rw [sends]
  · intro pinged
    split at pinged
    · next sends => rw [sends, Option.some.inj pinged]
    · contradiction

theorem Follows.round (follows : Follows board s) {outcome : String → Outcome} {actions : List Action}
    {choices : ℕ → Choice} (fine : (Event.round outcome actions choices : Event δ).Fine config s) {r : Round}
    (ran : Round.run config.blacklistFor outcome { world := s.world } actions = some r) (ended : r.main = .ended) :
    Follows (board.step config session s (.round outcome actions choices)) (s.sendPing config session r choices) := by
  obtain ⟨works, ordinary⟩ := fine
  obtain ⟨sent, lists, distinct⟩ := round_ended ran ended
  let step : Step := { call := .ping, choices }
  have wanted := pinged_iff config session r.world (rfl : step.call = .ping) works
  rw [Board.step, ran]
  dsimp only
  by_cases wants : flags r.world.sessions session = some true
  · rw [if_pos wants]
    refine ⟨follows.store, follows.plain, ?_⟩
    have results : (s.sendPing config session r choices).results = s.results ++ [r.result] := by
      rw [State.sendPing, ← sent]
      exact if_pos (wanted.mpr wants)
    rw [results]
    exact List.rel_append follows.coming (.cons (lists_tallies lists distinct (ordinary r ran)) .nil)
  · rw [if_neg wants]
    refine ⟨follows.store, follows.plain, ?_⟩
    have results : (s.sendPing config session r choices).results = s.results :=
      if_neg fun sends => wants (wanted.mp sends)
    rw [results]
    exact follows.coming

theorem Follows.hear (follows : Follows board s) {result : PingResult} {rest : List PingResult}
    (arrives : s.results = result :: rest) : Follows (board.step config session s .onmessage)
      { s with store := (s.store.updateNodePing result.trueIDs result.falseIDs).1, results := rest } := by
  have coming := follows.coming
  rw [arrives] at coming
  cases announced : board.coming with
  | nil =>
    rw [announced] at coming
    cases coming
  | cons found later =>
    rw [announced] at coming
    obtain ⟨tallies, coming⟩ := List.forall₂_cons.mp coming
    obtain ⟨past, holds, known, results⟩ := follows.store
    rw [Board.step, announced]
    refine ⟨⟨.updateNodePing result.trueIDs result.falseIDs :: past, holds.updateNodePing tallies.ordinary, known, ?_⟩,
      follows.plain, coming⟩
    intro nodeid
    rw [ClientStore.delivered, known, results, tallies.counts]
    rfl

theorem Follows.updateNode (follows : Follows board s) {node : ClientStore.NodeObject δ}
    (ordinary : node.nodeID ∉ ClientStore.objectPrototype) : Follows (board.step config session s (.updateNode node))
      { s with store := s.store.updateNode node } := by
  obtain ⟨past, holds, known, results⟩ := follows.store
  refine ⟨⟨.updateNode node :: past, holds.updateNode ordinary, fun nodeid => ?_, results⟩, fun nodeid => ?_,
    follows.coming⟩
  · change _ = Function.update board.known node.nodeID true nodeid
    rw [ClientStore.known, ClientStore.latest, Function.update_apply]
    by_cases same : nodeid = node.nodeID
    · rw [if_pos same.symm, if_pos same]
      rfl
    · rw [if_neg (Ne.symm same), if_neg same]
      exact known nodeid
  · change Function.update board.known node.nodeID true nodeid = true → _
    rw [Function.update_apply]
    split_ifs with same
    · exact fun _ => same ▸ ordinary
    · exact follows.plain nodeid

theorem Follows.step (follows : Follows board s) {event : Event δ} (fine : event.Fine config s)
    (stepped : s.step config session event = some after) : Follows (board.step config session s event) after := by
  cases event with
  | other step =>
    simp only [State.step] at stepped
    split at stepped
    · cases stepped
      exact ⟨follows.store, follows.plain, follows.coming⟩
    · contradiction
  | round outcome actions choices =>
    simp only [State.step] at stepped
    split at stepped
    · next r ran =>
      obtain ⟨ended, same⟩ := Option.ite_none_right_eq_some.mp stepped
      cases same
      exact follows.round fine ran ended
    · contradiction
  | onmessage =>
    simp only [State.step] at stepped
    split at stepped
    · contradiction
    · next arrives =>
      cases stepped
      exact follows.hear arrives
  | updateNode node =>
    cases stepped
    exact follows.updateNode fine
  | getNode nodeid =>
    cases stepped
    obtain ⟨past, holds, _⟩ := follows.store
    exact follows.read (ClientStore.State.getNode_same holds.valid (.inr fine))
  | getNodes =>
    cases stepped
    obtain ⟨past, holds, _⟩ := follows.store
    exact follows.read (ClientStore.getNodes_same holds.valid holds.keys)

theorem Follows.run (follows : Follows board s) {events : List (Event δ)} (fine : Fine config session s events)
    (ran : s.run config session events = some after) : Follows (board.run config session s events) after := by
  induction events generalizing board s with
  | nil =>
    cases ran
    exact follows
  | cons event rest ih =>
    obtain ⟨next, stepped, ran⟩ := Option.bind_eq_some_iff.mp ran
    rw [Board.run, stepped]
    exact ih (follows.step fine.1 stepped) (fine.2 next stepped) ran

end Run

/-- However the goroutines of the rounds interleave, with each other and with all other calls, a page shows for every
node that it knows the ten latest of the results on its board. -/
theorem page_history {δ : Type} (config : Config) (session : UUID) (w : World) {events : List (Event δ)}
    (fine : Fine config session { world := w } events) {s : State δ}
    (ran : State.run config session { world := w } events = some s) :
    let board := Board.run config session {} { world := w } events
    ∀ nodeid, board.known nodeid = true →
      s.store.pingstate nodeid = some ((board.results nodeid).take ClientStore.storeMaxPing) := by
  intro board nodeid known
  have follows := (follows_start w).run fine ran
  obtain ⟨past, holds, same, results⟩ := follows.store
  rw [← results]
  exact holds.pingstate ((same nodeid).trans known) (follows.plain nodeid known)

namespace Sample

/-- A session that wants pings. -/
def watched : World where
  nodes := Table.empty.save FreifunkManager.Sample.row
  sessions := Table.empty.save { sessionID := 1, ping := true }

def reached : String → Outcome := fun _ => { checked := 60, resolves := true, answers := true }

/-- The page knows the node when it is pinged. -/
def pingedOnce : List (Event Unit) :=
  [.updateNode ClientStore.Sample.cellar,
    .round reached ([.main, .main, .main] ++ List.replicate 5 (.goroutine 0) ++ [.main, .main]) fun _ => {},
    .onmessage]

end Sample

theorem page_history_pingedOnce : ∃ s, State.run FreifunkManager.Sample.config 1
    { world := Sample.watched } Sample.pingedOnce =
    some s ∧ s.store.pingstate "f81a67a5e9c1" = some [true] := by
  have runs : (State.run FreifunkManager.Sample.config 1 { world := Sample.watched } Sample.pingedOnce).isSome =
      true := by
    decide +kernel
  obtain ⟨s, ran⟩ := Option.isSome_iff_exists.mp runs
  have nodes : (Round.run FreifunkManager.Sample.config.blacklistFor Sample.reached { world := Sample.watched }
      ([.main, .main, .main] ++ List.replicate 5 (.goroutine 0) ++ [.main, .main])).map (·.nodes) =
      some [FreifunkManager.Sample.row] := by decide +kernel
  have fine : Fine FreifunkManager.Sample.config 1 { world := Sample.watched } Sample.pingedOnce := by
    refine ⟨(by decide : "f81a67a5e9c1" ∉ ClientStore.objectPrototype), ?_⟩
    rintro _ ⟨⟩
    refine ⟨⟨fun _ => rfl, fun r ran row member => ?_⟩, fun _ _ => ⟨trivial, fun _ _ => trivial⟩⟩
    rw [show Round.run _ _ _ _ = some r from ran, Option.map_some, Option.some.injEq] at nodes
    rw [nodes, List.mem_singleton] at member
    rw [member]
    decide
  exact ⟨s, ran, page_history FreifunkManager.Sample.config 1 Sample.watched fine ran "f81a67a5e9c1"
    (by decide +kernel)⟩

end FreifunkManager.PingDelivery
