import FreifunkManager.Model.Pinger

/-! # Whether a ping round completes

Every goroutine decrements the wait group once, on each of its ways out. So the wait ends exactly if as many nodes
were counted as were read, that is, if no row came in between the two queries; no row is ever deleted.
-/

namespace FreifunkManager.Pinger

open Store

/-! ## Goroutines -/

section Goroutines

variable (blacklistFor : Duration) (outcome : String → Outcome)

/-- The node is to be listed. -/
def Passes (row : Row) : Bool :=
  !row.node.timeFilter blacklistFor (outcome row.nodeID).checked && (outcome row.nodeID).resolves

/-- What a goroutine has found out by its stage. -/
def Goroutine.Fine (g : Goroutine) : Prop :=
  match g.stage with
  | .start | .leave | .ended => True
  | .resolve => g.node.node.timeFilter blacklistFor (outcome g.node.nodeID).checked = false
  | .ping => Passes blacklistFor outcome g.node = true
  | .append answers => Passes blacklistFor outcome g.node = true ∧ answers = (outcome g.node.nodeID).answers

/-- The node was put among those that answer, or among those that do not. -/
def Goroutine.listed (answers : Bool) (g : Goroutine) : Bool :=
  (g.stage = .leave ∨ g.stage = .ended) ∧ Passes blacklistFor outcome g.node ∧ (outcome g.node.nodeID).answers = answers

def Goroutine.isEnded (g : Goroutine) : Bool := g.stage = .ended

/-- How many steps there are at most to the end. -/
def Stage.left : Stage → ℕ
  | .start => 5
  | .resolve => 4
  | .ping => 3
  | .append _ => 2
  | .leave => 1
  | .ended => 0

def Main.left : Main → ℕ
  | .find | .count => 0
  | .start nodes => 6 * nodes.length + 2
  | .sendResult => 1
  | .ended => 0

def Round.left (r : Round) : ℕ := (r.goroutines.map (·.stage.left)).sum + r.main.left

/-- How much a goroutine takes from the wait group. -/
def Stage.done : Stage → ℤ
  | .leave => 1
  | _ => 0

def Goroutine.changes (g : Goroutine) (result : PingResult) : PingResult :=
  match g.stage with
  | .append answers => result.append g.node.nodeID answers
  | _ => result

def Goroutine.moved (g : Goroutine) : Goroutine := { g with stage := g.next blacklistFor outcome }

variable {blacklistFor outcome}

/-- A step of a goroutine. -/
theorem runGoroutine_some {r r' : Round} {i : ℕ} (ran : r.runGoroutine blacklistFor outcome i = some r') :
    ∃ before g after, r.goroutines = before ++ g :: after ∧ g.stage ≠ .ended ∧ r' = { r with
      goroutines := before ++ g.moved blacklistFor outcome :: after
      wg := r.wg - g.stage.done
      result := g.changes r.result } := by
  unfold Round.runGoroutine at ran
  cases found : r.goroutines[i]? with
  | none =>
    rw [found] at ran
    contradiction
  | some g =>
    rw [found] at ran
    obtain ⟨bound, there⟩ := List.getElem?_eq_some_iff.mp found
    have split : r.goroutines = r.goroutines.take i ++ g :: r.goroutines.drop (i + 1) := by
      rw [← there, List.getElem_cons_drop, List.take_append_drop]
    have moved : r.goroutines.set i (g.moved blacklistFor outcome) =
        r.goroutines.take i ++ g.moved blacklistFor outcome :: r.goroutines.drop (i + 1) :=
      List.set_eq_take_append_cons_drop .. |>.trans (if_pos bound)
    obtain ⟨node, stage⟩ := g
    cases stage with
    | ended => contradiction
    | start | resolve | ping | append | leave =>
      refine ⟨_, _, _, split, nofun, ?_⟩
      rw [← moved]
      simpa [Stage.done, Goroutine.changes, Goroutine.moved] using (Option.some.inj ran).symm

/-- A goroutine that has not ended can go on. -/
theorem runGoroutine_isSome {r : Round} {g : Goroutine} (member : g ∈ r.goroutines) (goes : g.stage ≠ .ended) :
    ∃ i, (r.runGoroutine blacklistFor outcome i).isSome := by
  obtain ⟨i, bound, there⟩ := List.getElem_of_mem member
  refine ⟨i, ?_⟩
  unfold Round.runGoroutine
  rw [List.getElem?_eq_getElem bound, there]
  obtain ⟨node, stage⟩ := g
  cases stage <;> first | rfl | exact absurd rfl goes

theorem Goroutine.next_left (g : Goroutine) (goes : g.stage ≠ .ended) :
    (g.next blacklistFor outcome).left < g.stage.left := by
  obtain ⟨node, stage⟩ := g
  cases stage with
  | start =>
    simp only [Goroutine.next]
    split <;> decide
  | resolve =>
    simp only [Goroutine.next]
    split <;> decide
  | ping | append | leave => exact Nat.lt_succ_self _
  | ended => contradiction

theorem Goroutine.moved_fine {g : Goroutine} (fine : g.Fine blacklistFor outcome) :
    (g.moved blacklistFor outcome).Fine blacklistFor outcome := by
  obtain ⟨node, stage⟩ := g
  cases stage with
  | start =>
    cases checked : node.node.timeFilter blacklistFor (outcome node.nodeID).checked with
    | true => simp [Goroutine.moved, Goroutine.next, Goroutine.Fine, checked]
    | false => simp [Goroutine.moved, Goroutine.next, Goroutine.Fine, checked]
  | resolve =>
    have checked : node.node.timeFilter blacklistFor (outcome node.nodeID).checked = false := fine
    cases resolves : (outcome node.nodeID).resolves with
    | true => simp [Goroutine.moved, Goroutine.next, Goroutine.Fine, Passes, checked, resolves]
    | false => simp [Goroutine.moved, Goroutine.next, Goroutine.Fine, resolves]
  | ping => exact ⟨fine, rfl⟩
  | append | leave | ended => trivial

theorem Goroutine.isEnded_moved {g : Goroutine} (goes : g.stage ≠ .ended) :
    (g.moved blacklistFor outcome).isEnded = decide (g.stage = .leave) := by
  obtain ⟨node, stage⟩ := g
  cases stage with
  | start =>
    simp only [Goroutine.moved, Goroutine.next, Goroutine.isEnded]
    split <;> rfl
  | resolve =>
    simp only [Goroutine.moved, Goroutine.next, Goroutine.isEnded]
    split <;> rfl
  | ping | append | leave => rfl
  | ended => contradiction

/-- A goroutine that moves is put on the list exactly in the step in which it appends to it. -/
theorem Goroutine.listed_moved {g : Goroutine} (fine : g.Fine blacklistFor outcome) (goes : g.stage ≠ .ended)
    (answers : Bool) : (g.moved blacklistFor outcome).listed blacklistFor outcome answers =
      (g.listed blacklistFor outcome answers || decide (g.stage = .append answers)) := by
  obtain ⟨node, stage⟩ := g
  cases stage with
  | start =>
    cases checked : node.node.timeFilter blacklistFor (outcome node.nodeID).checked with
    | true => simp [Goroutine.moved, Goroutine.next, Goroutine.listed, Passes, checked]
    | false => simp [Goroutine.moved, Goroutine.next, Goroutine.listed, checked]
  | resolve =>
    cases resolves : (outcome node.nodeID).resolves with
    | true => simp [Goroutine.moved, Goroutine.next, Goroutine.listed, resolves]
    | false => simp [Goroutine.moved, Goroutine.next, Goroutine.listed, Passes, resolves]
  | ping => simp [Goroutine.moved, Goroutine.next, Goroutine.listed]
  | append other =>
    obtain ⟨passes, same⟩ : Passes blacklistFor outcome node = true ∧ other = (outcome node.nodeID).answers := fine
    simp [Goroutine.moved, Goroutine.next, Goroutine.listed, passes, same]
  | leave => simp [Goroutine.moved, Goroutine.next, Goroutine.listed]
  | ended => contradiction

end Goroutines

/-! ## The round -/

/-- The nodes that answer, or those that do not. -/
def PingResult.ids (result : PingResult) : Bool → List String
  | true => result.trueIDs
  | false => result.falseIDs

def Main.rest : Main → List Row
  | .start nodes => nodes
  | _ => []

/-- The queries are done. -/
def Main.counted : Main → Bool
  | .find | .count => false
  | _ => true

theorem Goroutine.changes_ids (g : Goroutine) (result : PingResult) (answers : Bool) :
    (g.changes result).ids answers =
      result.ids answers ++ if g.stage = .append answers then [g.node.nodeID] else [] := by
  obtain ⟨node, stage⟩ := g
  cases stage with
  | append other => cases other <;> cases answers <;> simp [Goroutine.changes, PingResult.append, PingResult.ids]
  | start | resolve | ping | leave | ended => simp [Goroutine.changes]

/-- One item in the middle of a list that is filtered. -/
theorem perm_filter_middle {α β : Type} (p : α → Bool) (f : α → β) (before : List α) (item : α) (after : List α) :
    (((before ++ item :: after).filter p).map f).Perm
      (((before ++ after).filter p).map f ++ if p item then [f item] else []) := by
  have middle : (before ++ item :: after).Perm (item :: (before ++ after)) := List.perm_middle
  have front := (middle.filter p).map f
  cases holds : p item with
  | true =>
    rw [List.filter_cons_of_pos holds, List.map_cons] at front
    exact front.trans (List.perm_append_singleton _ _).symm
  | false =>
    rw [List.filter_cons_of_neg (by rw [holds]; exact Bool.false_ne_true)] at front
    rw [if_neg Bool.false_ne_true, List.append_nil]
    exact front

section Rounds

variable (blacklistFor : Duration) (outcome : String → Outcome)

/-- The ids of the nodes that are listed by now. -/
def Round.listed (r : Round) (answers : Bool) : List String :=
  (r.goroutines.filter (·.listed blacklistFor outcome answers)).map (·.node.nodeID)

def Round.finished (r : Round) : ℕ := r.goroutines.countP (·.isEnded)

/-- A round after its queries. -/
structure Running (r : Round) : Prop where
  counted : r.main.counted = true
  split : r.goroutines.map (·.node) ++ r.main.rest = r.nodes
  counter : r.wg = r.count - r.finished
  fine : ∀ g ∈ r.goroutines, g.Fine blacklistFor outcome
  ids : ∀ answers, (r.result.ids answers).Perm (r.listed blacklistFor outcome answers)
  waited : r.main = .sendResult ∨ r.main = .ended → r.count ≤ r.finished

variable {blacklistFor outcome} {r r' : Round}

/-- What a goroutine changes when it takes a step. -/
theorem Running.goroutine (running : Running blacklistFor outcome r) {i : ℕ}
    (ran : r.runGoroutine blacklistFor outcome i = some r') :
    Running blacklistFor outcome r' ∧ r'.left < r.left := by
  obtain ⟨before, g, after, split, goes, rfl⟩ := runGoroutine_some ran
  have member : g ∈ r.goroutines := by rw [split]; simp
  have fine := running.fine g member
  have unended : g.isEnded = false := decide_eq_false goes
  have finished : (before ++ g.moved blacklistFor outcome :: after).countP (·.isEnded) =
      r.finished + if g.stage = .leave then 1 else 0 := by
    rw [Round.finished, split, List.countP_append, List.countP_append, List.countP_cons, List.countP_cons,
      Goroutine.isEnded_moved goes, unended]
    by_cases leaves : g.stage = .leave
    · simp only [leaves, decide_true, if_true, Bool.false_eq_true, if_false]
      omega
    · simp only [leaves, decide_false, Bool.false_eq_true, if_false]
      omega
  refine ⟨⟨running.counted, ?_, ?_, ?_, ?_, ?_⟩, ?_⟩
  · rw [← running.split, split, List.map_append, List.map_append]
    rfl
  · change r.wg - g.stage.done = r.count - ((before ++ g.moved blacklistFor outcome :: after).countP (·.isEnded) : ℕ)
    rw [finished, running.counter]
    have done : g.stage.done = if g.stage = .leave then 1 else 0 := by cases g.stage <;> rfl
    rw [done]
    split_ifs <;> push_cast <;> omega
  · intro other there
    rcases List.mem_append.mp there with early | late
    · exact running.fine other (by rw [split]; simp [early])
    · rcases List.mem_cons.mp late with rfl | late
      · exact Goroutine.moved_fine fine
      · exact running.fine other (by rw [split]; simp [late])
  · intro answers
    have now := running.ids answers
    rw [Round.listed, split] at now
    have was := now.trans (perm_filter_middle _ _ before g after)
    have becomes := perm_filter_middle (·.listed blacklistFor outcome answers) (·.node.nodeID) before
      (g.moved blacklistFor outcome) after
    rw [Goroutine.listed_moved fine goes] at becomes
    apply List.Perm.trans _ becomes.symm
    change ((g.changes r.result).ids answers).Perm _
    rw [Goroutine.changes_ids]
    by_cases appends : g.stage = .append answers
    · have unlisted : g.listed blacklistFor outcome answers = false := by
        simp [Goroutine.listed, appends]
      rw [unlisted, if_neg Bool.false_ne_true, List.append_nil] at was
      rw [if_pos appends, if_pos (by simp [appends])]
      exact was.append_right _
    · rw [if_neg appends, List.append_nil, decide_eq_false appends, Bool.or_false]
      exact was
  · intro ends
    change r.count ≤ (before ++ g.moved blacklistFor outcome :: after).countP (·.isEnded)
    rw [finished]
    exact (running.waited ends).trans (Nat.le_add_right _ _)
  · have less : (g.next blacklistFor outcome).left < g.stage.left := g.next_left goes
    simp only [Round.left, split, List.map_append, List.map_cons, List.sum_append, List.sum_cons, Goroutine.moved]
    omega

theorem Running.main (running : Running blacklistFor outcome r) (ran : r.runMain = some r') :
    Running blacklistFor outcome r' ∧ r'.left < r.left := by
  have counted := running.counted
  unfold Round.runMain at ran
  split at ran
  · next stage => rw [stage] at counted; contradiction
  · next stage => rw [stage] at counted; contradiction
  · next node rest stage =>
    cases ran
    refine ⟨⟨rfl, ?_, ?_, ?_, ?_, ?_⟩, ?_⟩
    · rw [← running.split, stage, List.map_append, List.append_assoc]
      rfl
    · rw [running.counter, Round.finished, Round.finished, List.countP_append]
      rfl
    · exact List.forall_mem_append.mpr ⟨running.fine, List.forall_mem_singleton.mpr trivial⟩
    · intro answers
      have unlisted : Round.listed blacklistFor outcome { r with
          main := .start rest, goroutines := r.goroutines ++ [{ node, stage := .start }] } answers =
          r.listed blacklistFor outcome answers := by
        simp [Round.listed, Goroutine.listed]
      rw [unlisted]
      exact running.ids answers
    · rintro (past | past) <;> contradiction
    · simp only [Round.left, stage, List.map_append, List.sum_append, List.map_cons, List.map_nil, List.sum_cons,
        List.sum_nil, Main.left, Stage.left, List.length_cons]
      omega
  · next stage =>
    split at ran
    · next free =>
      cases ran
      refine ⟨⟨rfl, ?_, running.counter, running.fine, running.ids, fun _ => ?_⟩, ?_⟩
      · rw [← running.split, stage]
        rfl
      · have counter := running.counter
        change r.count ≤ r.finished
        omega
      · simp only [Round.left, stage, Main.left, List.length_nil]
        omega
    · contradiction
  · next stage =>
    cases ran
    refine ⟨⟨rfl, ?_, running.counter, running.fine, running.ids, fun _ => running.waited (.inl stage)⟩, ?_⟩
    · rw [← running.split, stage]
      rfl
    · simp only [Round.left, stage, Main.left]
      omega
  · contradiction

theorem runMain_keeps (counted : r.main.counted = true) (ran : r.runMain = some r') :
    r'.nodes = r.nodes ∧ r'.count = r.count := by
  unfold Round.runMain at ran
  split at ran
  · next stage => rw [stage] at counted; contradiction
  · next stage => rw [stage] at counted; contradiction
  · cases ran
    exact ⟨rfl, rfl⟩
  · split at ran
    · cases ran
      exact ⟨rfl, rfl⟩
    · contradiction
  · cases ran
    exact ⟨rfl, rfl⟩
  · contradiction

theorem Running.step (running : Running blacklistFor outcome r) {action : Action}
    (ran : r.step blacklistFor outcome action = some r') :
    Running blacklistFor outcome r' ∧ (r'.nodes = r.nodes ∧ r'.count = r.count) ∧
      r'.left + (if action.own then 1 else 0) ≤ r.left := by
  unfold Round.step at ran
  split at ran
  · contradiction
  · cases action with
    | main =>
      obtain ⟨after, less⟩ := running.main ran
      exact ⟨after, runMain_keeps running.counted ran, less⟩
    | goroutine i =>
      obtain ⟨after, less⟩ := running.goroutine ran
      obtain ⟨before, g, rest, split, goes, rfl⟩ := runGoroutine_some ran
      exact ⟨after, ⟨rfl, rfl⟩, less⟩
    | other call choice op =>
      cases ran
      exact ⟨⟨running.counted, running.split, running.counter, running.fine, running.ids, running.waited⟩,
        ⟨rfl, rfl⟩, le_refl _⟩

theorem Running.run (running : Running blacklistFor outcome r) {more : List Action}
    (ran : r.run blacklistFor outcome more = some r') :
    Running blacklistFor outcome r' ∧ (r'.nodes = r.nodes ∧ r'.count = r.count) ∧
      r'.left + (more.filter Action.own).length ≤ r.left := by
  induction more generalizing r with
  | nil =>
    cases ran
    exact ⟨running, ⟨rfl, rfl⟩, le_refl _⟩
  | cons action rest ih =>
    obtain ⟨between, first, second⟩ := Option.bind_eq_some_iff.mp ran
    obtain ⟨running, ⟨nodes, count⟩, less⟩ := running.step first
    obtain ⟨after, ⟨nodes', count'⟩, less'⟩ := ih running second
    refine ⟨after, ⟨nodes'.trans nodes, count'.trans count⟩, ?_⟩
    rw [List.filter_cons]
    split_ifs at less ⊢ with own
    · rw [List.length_cons]
      omega
    · omega

theorem Running.finished_le (running : Running blacklistFor outcome r) : r.finished ≤ r.nodes.length := by
  have started : r.finished ≤ r.goroutines.length := List.countP_le_length
  have split := congrArg List.length running.split
  rw [List.length_append, List.length_map] at split
  omega

/-- All goroutines have ended and none is to come. -/
theorem Running.all_ended (running : Running blacklistFor outcome r) (enough : r.nodes.length ≤ r.finished) :
    r.goroutines.map (·.node) = r.nodes ∧ ∀ g ∈ r.goroutines, g.stage = .ended := by
  have started : r.finished ≤ r.goroutines.length := List.countP_le_length
  have split := congrArg List.length running.split
  rw [List.length_append, List.length_map] at split
  have nothing : r.main.rest = [] := List.length_eq_zero_iff.mp (by omega)
  constructor
  · rw [← running.split, nothing, List.append_nil]
  · have all : r.goroutines.countP (·.isEnded) = r.goroutines.length := by
      change r.finished = _
      omega
    exact fun g member => of_decide_eq_true (List.countP_eq_length.mp all g member)

section Completes

variable (blacklistFor outcome)

/-- Every node that passes is listed once, by its answer, and no other. -/
structure Round.Lists (r : Round) : Prop where
  trueIDs : r.result.trueIDs.Perm
    ((r.nodes.filter fun row => Passes blacklistFor outcome row ∧ (outcome row.nodeID).answers = true).map (·.nodeID))
  falseIDs : r.result.falseIDs.Perm
    ((r.nodes.filter fun row => Passes blacklistFor outcome row ∧ (outcome row.nodeID).answers = false).map (·.nodeID))
  once : (r.result.trueIDs ++ r.result.falseIDs).Nodup

/-- However the steps interleave from here, the wait group is never below zero, the wait returns when all goroutines
have ended, the round goes on to its end in a bounded number of steps, every goroutine counts, and the result is
sent once. -/
structure Completes (r : Round) : Prop where
  positive : ∀ more r', r.run blacklistFor outcome more = some r' → 0 ≤ r'.wg
  returns : ∀ more r', r.run blacklistFor outcome more = some r' → r'.main = .start [] →
    (∀ g ∈ r'.goroutines, g.stage = .ended) → (r'.step blacklistFor outcome .main).isSome
  goesOn : ∀ more r', r.run blacklistFor outcome more = some r' → r'.main ≠ .ended →
    ∃ action, action.own = true ∧ (r'.step blacklistFor outcome action).isSome
  bounded : ∀ more r', r.run blacklistFor outcome more = some r' →
    (more.filter Action.own).length ≤ 6 * r.nodes.length + 2
  decremented : ∀ more r', r.run blacklistFor outcome more = some r' → r'.main = .ended →
    r'.wg = 0 ∧ r'.finished = r.count
  sends : ∀ more r', r.run blacklistFor outcome more = some r' →
    r'.sent = if r'.main = .ended then [r'.result] else []
  lists : ∀ more r', r.run blacklistFor outcome more = some r' → r'.main = .ended →
    r'.nodes = r.nodes ∧ r'.Lists blacklistFor outcome

end Completes

/-- The result is sent at the end, and does not change after it. -/
def Round.Sends (r : Round) : Prop := r.sent = if r.main = .ended then [r.result] else []

theorem Running.step_sends (running : Running blacklistFor outcome r) (enough : r.nodes.length ≤ r.count)
    (sends : r.Sends) {action : Action} (ran : r.step blacklistFor outcome action = some r') : r'.Sends := by
  unfold Round.step at ran
  split at ran
  · contradiction
  · cases action with
    | main =>
      unfold Round.Sends at sends
      change r.runMain = some r' at ran
      unfold Round.runMain at ran
      split at ran
      · next stage => cases ran; rw [stage] at sends; exact sends
      · next stage => cases ran; rw [stage] at sends; exact sends
      · next stage => cases ran; rw [stage] at sends; exact sends
      · next stage =>
        split at ran
        · cases ran; rw [stage] at sends; exact sends
        · contradiction
      · next stage =>
        cases ran
        rw [stage, if_neg (by decide)] at sends
        exact congrArg (· ++ [r.result]) sends
      · contradiction
    | goroutine i =>
      obtain ⟨before, g, after, split, goes, rfl⟩ := runGoroutine_some ran
      have going : r.main ≠ .ended := by
        intro past
        have ended := (running.all_ended (enough.trans (running.waited (.inr past)))).2
        exact goes (ended g (by rw [split]; simp))
      unfold Round.Sends at sends ⊢
      rw [if_neg going] at sends
      rw [if_neg going]
      exact sends
    | other call choice op =>
      cases ran
      exact sends

theorem Running.run_sends (running : Running blacklistFor outcome r) (enough : r.nodes.length ≤ r.count)
    (sends : r.Sends) {more : List Action} (ran : r.run blacklistFor outcome more = some r') : r'.Sends := by
  induction more generalizing r with
  | nil =>
    cases ran
    exact sends
  | cons action rest ih =>
    obtain ⟨between, first, second⟩ := Option.bind_eq_some_iff.mp ran
    obtain ⟨after, ⟨nodes, count⟩, -⟩ := running.step first
    exact ih after (by rwa [nodes, count]) (running.step_sends enough sends first) second

theorem Running.wait_returns (running : Running blacklistFor outcome r) (equal : r.count = r.nodes.length)
    (waits : r.main = .start []) (ended : ∀ g ∈ r.goroutines, g.stage = .ended) :
    (r.step blacklistFor outcome .main).isSome := by
  have all : r.finished = r.goroutines.length := List.countP_eq_length.mpr fun g member =>
    decide_eq_true (ended g member)
  have split := congrArg List.length running.split
  rw [waits, List.length_append, List.length_map] at split
  have free : r.wg = 0 := by
    rw [running.counter, all, equal, ← split]
    simp [Main.rest]
  simp [Round.step, Round.runMain, waits, free]

theorem Running.goes_on (running : Running blacklistFor outcome r) (equal : r.count = r.nodes.length)
    (going : r.main ≠ .ended) : ∃ action, action.own = true ∧ (r.step blacklistFor outcome action).isSome := by
  have positive : ¬ r.wg < 0 := by
    have bound := running.finished_le
    rw [running.counter]
    omega
  have counted := running.counted
  have mainGoes (goes : r.runMain.isSome) :
      ∃ action, action.own = true ∧ (r.step blacklistFor outcome action).isSome := by
    refine ⟨.main, rfl, ?_⟩
    rwa [Round.step, if_neg positive]
  cases stage : r.main with
  | find => rw [stage] at counted; contradiction
  | count => rw [stage] at counted; contradiction
  | sendResult => exact mainGoes (by simp [Round.runMain, stage])
  | ended => exact absurd stage going
  | start rest =>
    cases rest with
    | cons node rest => exact mainGoes (by simp [Round.runMain, stage])
    | nil =>
      by_cases ended : ∀ g ∈ r.goroutines, g.stage = .ended
      · exact ⟨.main, rfl, running.wait_returns equal stage ended⟩
      · obtain ⟨g, member, goes⟩ : ∃ g ∈ r.goroutines, g.stage ≠ .ended := by simpa using ended
        obtain ⟨i, goes⟩ : ∃ i, (r.runGoroutine blacklistFor outcome i).isSome := runGoroutine_isSome member goes
        refine ⟨.goroutine i, rfl, ?_⟩
        rwa [Round.step, if_neg positive]

/-- The nodes that are listed when all goroutines have ended. -/
theorem Running.ids_ended (running : Running blacklistFor outcome r) (enough : r.nodes.length ≤ r.finished)
    (answers : Bool) : (r.result.ids answers).Perm ((r.nodes.filter fun row =>
      Passes blacklistFor outcome row ∧ (outcome row.nodeID).answers = answers).map (·.nodeID)) := by
  obtain ⟨nodes, ended⟩ := running.all_ended enough
  have listed : r.listed blacklistFor outcome answers = (r.nodes.filter fun row =>
      Passes blacklistFor outcome row ∧ (outcome row.nodeID).answers = answers).map (·.nodeID) := by
    rw [← nodes, List.filter_map, List.map_map, Round.listed]
    apply congrArg (List.map _)
    apply List.filter_congr
    intro g member
    simp [Goroutine.listed, ended g member]
  exact listed ▸ running.ids answers

theorem Running.lists (running : Running blacklistFor outcome r) (enough : r.nodes.length ≤ r.finished)
    (distinct : (r.nodes.map (·.nodeID)).Nodup) : r.Lists blacklistFor outcome where
  trueIDs := running.ids_ended enough true
  falseIDs := running.ids_ended enough false
  once := by
    apply ((running.ids_ended enough true).append (running.ids_ended enough false)).nodup_iff.mpr
    rw [← List.map_append]
    apply List.Nodup.map_on
    · intro row member other member' same
      have from_nodes {row : Row} {p q : Row → Bool} (member : row ∈ r.nodes.filter p ++ r.nodes.filter q) :
          row ∈ r.nodes := by
        rcases List.mem_append.mp member with first | second
        · exact List.mem_of_mem_filter first
        · exact List.mem_of_mem_filter second
      exact List.inj_on_of_nodup_map distinct (from_nodes member) (from_nodes member') same
    · have nodup := List.Nodup.of_map _ distinct
      apply List.nodup_append.mpr
      refine ⟨nodup.filter _, nodup.filter _, ?_⟩
      rintro row first _ second rfl
      have answers : (outcome row.nodeID).answers = true := by
        exact (of_decide_eq_true (List.mem_filter.mp first).2 : _ ∧ _).2
      have silent : (outcome row.nodeID).answers = false := by
        exact (of_decide_eq_true (List.mem_filter.mp second).2 : _ ∧ _).2
      exact absurd (answers.symm.trans silent) (by decide)

/-- A round that has counted as many nodes as it has read completes. -/
theorem Running.completes (running : Running blacklistFor outcome r) (sends : r.Sends)
    (fresh : r.left ≤ 6 * r.nodes.length + 2) (distinct : (r.nodes.map (·.nodeID)).Nodup)
    (equal : r.count = r.nodes.length) : Completes blacklistFor outcome r := by
  have after {more : List Action} {r' : Round} (ran : r.run blacklistFor outcome more = some r') :
      Running blacklistFor outcome r' ∧ r'.nodes = r.nodes ∧ r'.count = r'.nodes.length := by
    obtain ⟨running, ⟨nodes, count⟩, -⟩ := running.run ran
    exact ⟨running, nodes, by rw [count, nodes, equal]⟩
  have enough {r' : Round} (running : Running blacklistFor outcome r') (equal : r'.count = r'.nodes.length)
      (ended : r'.main = .ended) : r'.nodes.length ≤ r'.finished := equal ▸ running.waited (.inr ended)
  constructor
  · intro more r' ran
    obtain ⟨running, nodes, equal⟩ := after ran
    have bound := running.finished_le
    rw [running.counter]
    omega
  · intro more r' ran
    obtain ⟨running, nodes, equal⟩ := after ran
    exact running.wait_returns equal
  · intro more r' ran
    obtain ⟨running, nodes, equal⟩ := after ran
    exact running.goes_on equal
  · intro more r' ran
    obtain ⟨-, -, less⟩ := running.run ran
    omega
  · intro more r' ran ended
    obtain ⟨running, nodes, equal'⟩ := after ran
    have bound := running.finished_le
    have all := enough running equal' ended
    rw [running.counter, equal, ← nodes]
    omega
  · intro more r' ran
    exact running.run_sends equal.ge sends ran
  · intro more r' ran ended
    obtain ⟨running, nodes, equal⟩ := after ran
    exact ⟨nodes, running.lists (enough running equal ended) (nodes ▸ distinct)⟩

/-- A round that can always go on comes to its end. -/
theorem Running.ends (running : Running blacklistFor outcome r)
    (goesOn : ∀ more r', r.run blacklistFor outcome more = some r' → r'.main ≠ .ended →
      ∃ action, action.own = true ∧ (r'.step blacklistFor outcome action).isSome) :
    ∃ more r', r.run blacklistFor outcome more = some r' ∧ r'.main = .ended := by
  induction bound : r.left using Nat.strong_induction_on generalizing r with
  | _ left ih =>
    by_cases ended : r.main = .ended
    · exact ⟨[], r, rfl, ended⟩
    · obtain ⟨action, own, can⟩ := goesOn [] r rfl ended
      obtain ⟨next, stepped⟩ := Option.isSome_iff_exists.mp can
      obtain ⟨running, -, less⟩ := running.step stepped
      rw [own, if_pos rfl] at less
      have continues (more : List Action) :
          r.run blacklistFor outcome (action :: more) = next.run blacklistFor outcome more := by
        rw [Round.run, stepped, Option.bind_some]
      obtain ⟨more, r', ran, ended⟩ := ih next.left (by omega) running
        (fun more r' ran => goesOn (action :: more) r' ((continues more).trans ran)) rfl
      exact ⟨action :: more, r', (continues more).trans ran, ended⟩

end Rounds

/-! ## The queries -/

/-- The world after operations of other calls. -/
def others (ops : List (Call × Choice × Op)) (w : World) : World :=
  ops.foldl (fun w op => (w.handle op.1 op.2.1 op.2.2).2) w

/-- No row is ever deleted. -/
theorem rows_handle (call : Call) (choice : Choice) (op : Op) (w : World) :
    w.nodes.rows.length ≤ (w.handle call choice op).2.nodes.rows.length := by
  have created {row : Row} {target : Table Row.nodeID} (created : w.nodes.create row = some target) :
      w.nodes.rows.length ≤ target.rows.length := by
    unfold Table.create at created
    split at created
    · cases created
      rw [List.length_append]
      exact Nat.le_add_right _ _
    · contradiction
  change _ ≤ (w.act choice op).2.nodes.rows.length
  cases op with
  | updateNode nodeID columns =>
    rw [World.act]
    split
    · exact le_refl _
    · exact (List.length_map _).ge
  | saveNode row =>
    rw [World.act]
    split
    · exact le_refl _
    · change _ ≤ (w.nodes.save row).rows.length
      unfold Table.save
      cases made : w.nodes.create row with
      | some target => exact created made
      | none => exact (List.length_map _).ge
  | createNode row =>
    rw [World.act]
    split
    · next target made =>
      split at made
      · contradiction
      · exact created made
    · exact le_refl _
  | createSession session =>
    rw [World.act]
    split <;> exact le_refl _
  | saveSession | deleteSession =>
    rw [World.act]
    split <;> exact le_refl _
  | _ => exact le_refl _

theorem rows_others (ops : List (Call × Choice × Op)) (w : World) :
    w.nodes.rows.length ≤ (others ops w).nodes.rows.length := by
  induction ops generalizing w with
  | nil => exact le_refl _
  | cons op rest ih => exact (rows_handle op.1 op.2.1 op.2.2 w).trans (ih _)

section Queries

variable (blacklistFor : Duration) (outcome : String → Outcome)

/-- The round when both queries are done. -/
def counted (w : World) (between : List (Call × Choice × Op)) : Round where
  world := others between w
  main := .start w.nodes.rows
  nodes := w.nodes.rows
  count := (others between w).nodes.rows.length
  wg := (others between w).nodes.rows.length

theorem run_counted (w : World) (between : List (Call × Choice × Op)) :
    Round.run blacklistFor outcome { world := w }
      (.main :: (between.map fun op => .other op.1 op.2.1 op.2.2) ++ [.main]) = some (counted w between) := by
  have rest (nodes : List Row) (w : World) : Round.run blacklistFor outcome { world := w, main := .count, nodes }
      ((between.map fun op => .other op.1 op.2.1 op.2.2) ++ [.main]) = some {
        world := others between w, main := .start nodes, nodes, count := (others between w).nodes.rows.length
        wg := (others between w).nodes.rows.length } := by
    induction between generalizing w with
    | nil => rfl
    | cons op between ih => exact ih _
  exact rest w.nodes.rows w

theorem counted_running (w : World) (between : List (Call × Choice × Op)) :
    Running blacklistFor outcome (counted w between) where
  counted := rfl
  split := rfl
  counter := by simp [counted, Round.finished]
  fine := List.forall_mem_nil _
  ids answers := by cases answers <;> exact .nil
  waited := by rintro (past | past) <;> contradiction

/-- A round in which other calls use the database between the two queries completes if and only if no row came in
between them. -/
theorem completes_iff (w : World) (between : List (Call × Choice × Op)) :
    ∃ r, Round.run blacklistFor outcome { world := w }
        (.main :: (between.map fun op => .other op.1 op.2.1 op.2.2) ++ [.main]) = some r ∧
      (Completes blacklistFor outcome r ↔ (others between w).nodes.rows.length = w.nodes.rows.length) := by
  refine ⟨counted w between, run_counted blacklistFor outcome w between, ?_⟩
  have running := counted_running blacklistFor outcome w between
  constructor
  · intro completes
    obtain ⟨more, r, ran, ended⟩ := running.ends completes.goesOn
    obtain ⟨running, ⟨nodes, count⟩, -⟩ := running.run ran
    have waited := running.waited (.inr ended)
    have started := running.finished_le
    rw [count] at waited
    rw [nodes] at started
    exact le_antisymm (waited.trans started) (rows_others between w)
  · intro equal
    have fresh : (counted w between).left = 6 * w.nodes.rows.length + 2 := Nat.zero_add _
    exact running.completes rfl fresh.le w.nodes.distinct equal

end Queries

/-- A node that is learnt between the queries. -/
def newcomer : List (Call × Choice × Op) :=
  [(.report (Sample.report "cellar"), {}, .createNode { Sample.row with nodeID := "c04a00dd692a" })]

def answering : String → Outcome := fun _ => { checked := 60, resolves := true, answers := true }

/-- The round waits for it for ever. -/
theorem newcomer_waits : ∃ r, Round.run 3600 answering { world := Sample.world [Sample.row] }
      (.main :: (newcomer.map fun op => .other op.1 op.2.1 op.2.2) ++ [.main]) = some r ∧
    ¬ Completes 3600 answering r := by
  refine ⟨_, run_counted 3600 answering _ newcomer, fun completes => ?_⟩
  have stuck : ((counted (Sample.world [Sample.row]) newcomer).run 3600 answering
      (.main :: List.replicate 5 (.goroutine 0))).any (fun r => r.main = .start [] ∧
        r.goroutines.all (·.stage = .ended) ∧ (r.step 3600 answering .main).isNone) = true := by decide +kernel
  cases ran : (counted (Sample.world [Sample.row]) newcomer).run 3600 answering
      (.main :: List.replicate 5 (.goroutine 0)) with
  | none =>
    rw [ran] at stuck
    contradiction
  | some r =>
    rw [ran, Option.any_some] at stuck
    obtain ⟨waits, ended, stays⟩ := of_decide_eq_true stuck
    have returned := completes.returns _ r ran waits fun g member =>
        of_decide_eq_true (List.all_eq_true.mp ended g member)
    rw [Option.isNone_iff_eq_none.mp stays] at returned
    contradiction

end FreifunkManager.Pinger
