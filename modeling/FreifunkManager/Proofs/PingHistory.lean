import FreifunkManager.Model.ClientStore
import Mathlib.Data.List.Basic
import Mathlib.Tactic.Cases

/-! # The results that a node shows

A node shows the ten latest results that came for it since it was known. This needs that no id is the name of a
property that every object inherits: a result for such an id ends the whole message with an exception, and the
results after it are lost for the other nodes (`constructor_loses`).
-/

namespace FreifunkManager.ClientStore

variable {δ : Type}

/-! ## What came for a node -/

/-- The values that the node was put in the store with the last time. -/
def latest (nodeid : String) : List (Event δ) → Option δ
  | [] => none
  | .updateNode node :: past => if node.nodeID = nodeid then some node.data else latest nodeid past
  | _ :: past => latest nodeid past

/-- The node was put in the store. -/
def known (nodeid : String) (past : List (Event δ)) : Bool := (latest nodeid past).isSome

/-- The results for the node since it was known, the newest first. -/
def delivered (nodeid : String) : List (Event δ) → List Bool
  | [] => []
  | .updateNodePing trueNodes falseNodes :: past =>
    if known nodeid past then
      List.replicate (falseNodes.count nodeid) false ++ List.replicate (trueNodes.count nodeid) true ++
        delivered nodeid past
    else delivered nodeid past
  | _ :: past => delivered nodeid past

/-- The ids that a call is about. -/
def Event.ids : Event δ → List String
  | .updateNode node => [node.nodeID]
  | .updateNodePing trueNodes falseNodes => trueNodes ++ falseNodes
  | .getNode nodeid => [nodeid]
  | .getNodes => []

/-- The nodes that a call brings results for. -/
def Event.results : Event δ → List String
  | .updateNodePing trueNodes falseNodes => trueNodes ++ falseNodes
  | _ => []

/-- No id in the calls is the name of an inherited property. -/
def Ordinary (past : List (Event δ)) : Prop := ∀ event ∈ past, ∀ nodeid ∈ event.ids, nodeid ∉ objectPrototype

/-- What the store shows after these calls, and which calls change it. -/
structure SlidingWindow (past : List (Event δ)) : Prop where
  /-- A known node is read as it came last, with its latest results. -/
  shown : ∀ nodeid, known nodeid past = true →
    (after past).pingstate nodeid = some ((delivered nodeid past).take storeMaxPing) ∧
    ∃ node, ((after past).getNode nodeid).1 = .own node ∧ some node.data = latest nodeid past
  /-- Results for unknown ids are as if they had not come. -/
  unknown : ∀ trueNodes falseNodes, (∀ nodeid ∈ trueNodes ++ falseNodes, nodeid ∉ objectPrototype) →
    (after past).updateNodePing trueNodes falseNodes =
      (after past).updateNodePing (trueNodes.filter (known · past)) (falseNodes.filter (known · past))
  /-- What is shown for a node changes with results for this node only. -/
  kept : ∀ event : Event δ, (∀ nodeid ∈ event.ids, nodeid ∉ objectPrototype) → ∀ nodeid, known nodeid past = true →
    nodeid ∉ event.results → (after (event :: past)).pingstate nodeid = (after past).pingstate nodeid

/-! ## The window -/

/-- What was dropped already makes no difference to the window. -/
theorem take_append_take (n : ℕ) (new old : List Bool) : (new ++ old.take n).take n = (new ++ old).take n := by
  rw [List.take_append, List.take_append, List.take_take, Nat.min_eq_left (Nat.sub_le ..)]

theorem read_own {α : Type} {table : String → Option α} {name : String} {value : α} (held : table name = some value) :
    read table name = .own value := by rw [read, held]

theorem read_undefined {α : Type} {table : String → Option α} {name : String} (missing : table name = none)
    (ordinary : name ∉ objectPrototype) : read table name = .undefined := by
  rw [read, missing]
  exact if_neg ordinary

namespace State

/-- The results in the array of a node. -/
def window (s : State δ) (nodeid : String) : List Bool := (s.pingState nodeid).elim [] s.arrays

/-- Every array belongs to one node, and has at most ten results. -/
structure Valid (s : State δ) : Prop where
  allocated : ∀ nodeid ref, s.pingState nodeid = some ref → ref < s.nextRef
  apart : ∀ nodeid other ref, s.pingState nodeid = some ref → s.pingState other = some ref → nodeid = other
  bounded : ∀ nodeid, (s.window nodeid).length ≤ storeMaxPing

/-- The tables are the same, apart from the objects in them. -/
structure Same (s after : State δ) : Prop where
  valid : after.Valid
  listed : ∀ nodeid, (after.list nodeid).isSome = (s.list nodeid).isSome
  data : ∀ nodeid, (after.list nodeid).map (·.data) = (s.list nodeid).map (·.data)
  window : ∀ nodeid, after.window nodeid = s.window nodeid
  keys : after.keys = s.keys

theorem Same.refl {s : State δ} (valid : s.Valid) : s.Same s := ⟨valid, fun _ => rfl, fun _ => rfl, fun _ => rfl, rfl⟩

theorem Same.trans {s middle after : State δ} (first : s.Same middle) (second : middle.Same after) : s.Same after where
  valid := second.valid
  listed nodeid := (second.listed nodeid).trans (first.listed nodeid)
  data nodeid := (second.data nodeid).trans (first.data nodeid)
  window nodeid := (second.window nodeid).trans (first.window nodeid)
  keys := second.keys.trans first.keys

variable {s : State δ} {nodeid : String}

/-- An array that no node has yet may be written. -/
theorem window_update_fresh (valid : s.Valid) (values : List Bool) (other : String) :
    (s.pingState other).elim [] (Function.update s.arrays s.nextRef values) = s.window other := by
  rw [window]
  cases held : s.pingState other with
  | none => rfl
  | some ref => exact Function.update_of_ne (Nat.ne_of_lt (valid.allocated _ _ held)) ..

/-- Giving a node its results changes no other part of the store. -/
theorem same_update_list {node : NodeObject δ} (valid : s.Valid) (held : s.list nodeid = some node)
    (pingstate : Property Ref) : s.Same
    { s with list := Function.update s.list nodeid (some { node with pingstate }) } := by
  refine ⟨⟨valid.allocated, valid.apart, valid.bounded⟩, fun other => ?_, fun other => ?_, fun _ => rfl, rfl⟩
  · by_cases same : other = nodeid
    · simp [same, held]
    · simp [Function.update_of_ne same]
  · by_cases same : other = nodeid
    · simp [same, held]
    · simp [Function.update_of_ne same]

theorem same_alloc (valid : s.Valid) (values : List Bool) : s.Same (s.alloc values).2 where
  valid := by
    refine ⟨fun other ref held => Nat.lt_succ_of_lt (valid.allocated other ref held), valid.apart, fun other => ?_⟩
    exact Nat.le_trans (Nat.le_of_eq (congrArg List.length (window_update_fresh valid values other)))
      (valid.bounded other)
  listed _ := rfl
  data _ := rfl
  window other := window_update_fresh valid values other
  keys := rfl

/-- A node that is read is given the array of its results, or a new one. -/
theorem getNode_own {node : NodeObject δ} (valid : s.Valid) (held : s.list nodeid = some node)
    (ordinary : nodeid ∉ objectPrototype) : ∃ ref after, s.getNode nodeid =
      (.own { node with pingstate := .own ref }, after) ∧ after.arrays ref = s.window nodeid ∧ s.Same after := by
  unfold getNode
  rw [read_own held]
  cases known : s.pingState nodeid with
  | some ref =>
    rw [read_own known]
    refine ⟨ref, _, rfl, ?_, same_update_list valid held _⟩
    rw [window, known]
    rfl
  | none =>
    rw [read_undefined known ordinary]
    have fresh := same_alloc valid []
    refine ⟨s.nextRef, _, rfl, ?_, fresh.trans (same_update_list fresh.valid held _)⟩
    rw [window, known]
    exact Function.update_self ..

theorem getNode_same (valid : s.Valid) (ordinary : s.list nodeid = none ∨ nodeid ∉ objectPrototype) :
    s.Same (s.getNode nodeid).2 := by
  cases held : s.list nodeid with
  | none =>
    have same : (s.getNode nodeid).2 = s := by
      rw [getNode, read, held]
      by_cases inherited : nodeid ∈ objectPrototype
      · simp only [if_pos inherited]
      · simp only [if_neg inherited]
    rw [same]
    exact .refl valid
  | some node =>
    obtain ⟨ref, after, found, _, same⟩ := getNode_own valid held
      (ordinary.resolve_left fun missing => Option.some_ne_none node (held.symm.trans missing))
    rw [found]
    exact same

theorem pingstate_known {node : NodeObject δ} (valid : s.Valid) (held : s.list nodeid = some node)
    (ordinary : nodeid ∉ objectPrototype) : s.pingstate nodeid = some (s.window nodeid) := by
  obtain ⟨ref, after, found, shown, _⟩ := getNode_own valid held ordinary
  simp only [pingstate, found, shown]

/-! ## One result -/

/-- A result was put in front of the results of one node, and nothing else happened. -/
structure Delivered (nodeid : String) (value : Bool) (s after : State δ) : Prop where
  allocated : ∀ other ref, after.pingState other = some ref → ref < after.nextRef
  apart : ∀ other another ref, after.pingState other = some ref → after.pingState another = some ref → other = another
  list : after.list = s.list
  keys : after.keys = s.keys
  window : ∀ other, after.window other =
    if other = nodeid then (value :: s.window nodeid).take storeMaxPing else s.window other

theorem Delivered.valid {value : Bool} {after : State δ} (delivered : Delivered nodeid value s after)
    (valid : s.Valid) :
    after.Valid := by
  refine ⟨delivered.allocated, delivered.apart, fun other => ?_⟩
  rw [delivered.window]
  split_ifs
  · exact List.length_take_le ..
  · exact valid.bounded other

theorem updateNodePingTo_unknown (missing : s.list nodeid = none) (ordinary : nodeid ∉ objectPrototype) (value : Bool) :
    s.updateNodePingTo value nodeid = (s, true) := by
  rw [updateNodePingTo, read_undefined missing ordinary]

theorem updateNodePingTo_known {node : NodeObject δ} (valid : s.Valid) (held : s.list nodeid = some node)
    (ordinary : nodeid ∉ objectPrototype) (value : Bool) : ∃ after, s.updateNodePingTo value nodeid = (after, true) ∧
      Delivered nodeid value s after := by
  unfold updateNodePingTo
  rw [read_own held]
  cases known : s.pingState nodeid with
  | none =>
    rw [read_undefined known ordinary]
    have fresh (other : String) (ref : Ref) (known : s.pingState other = some ref) : ref ≠ s.nextRef :=
      Nat.ne_of_lt (valid.allocated other ref known)
    refine ⟨_, rfl, fun other ref known => ?_, fun other another ref known same => ?_, rfl, rfl, fun other => ?_⟩
    · change Function.update s.pingState nodeid (some s.nextRef) other = some ref at known
      rw [Function.update_apply] at known
      split_ifs at known with here
      · cases known
        exact Nat.lt_succ_self _
      · exact Nat.lt_succ_of_lt (valid.allocated other ref known)
    · change Function.update s.pingState nodeid (some s.nextRef) other = some ref at known
      change Function.update s.pingState nodeid (some s.nextRef) another = some ref at same
      rw [Function.update_apply] at known same
      split_ifs at known same with here there there
      · exact here.trans there.symm
      · cases known
        exact absurd rfl (fresh another _ same)
      · cases same
        exact absurd rfl (fresh other _ known)
      · exact valid.apart other another ref known same
    · change (Function.update s.pingState nodeid (some s.nextRef) other).elim []
        (Function.update s.arrays s.nextRef [value]) = _
      rw [Function.update_apply]
      split_ifs with here
      · rw [window, known]
        exact Function.update_self ..
      · exact window_update_fresh valid [value] other
  | some ref =>
    rw [read_own known]
    refine ⟨_, rfl, valid.allocated, valid.apart, rfl, rfl, fun other => ?_⟩
    have results : (if (value :: s.arrays ref).length > storeMaxPing then (value :: s.arrays ref).take storeMaxPing
        else value :: s.arrays ref) = (value :: s.arrays ref).take storeMaxPing := by
      split_ifs with long
      · rfl
      · exact (List.take_of_length_le (Nat.le_of_not_gt long)).symm
    change (s.pingState other).elim [] (Function.update s.arrays ref _) = _
    rw [results]
    split_ifs with here
    · rw [here, window, known]
      exact Function.update_self ..
    · rw [window]
      cases known' : s.pingState other with
      | none => rfl
      | some ref' =>
        -- no other node has this array
        refine Function.update_of_ne (fun same => here ?_) ..
        exact valid.apart other nodeid ref' known' (by rw [same, known])

/-! ## One message -/

/-- The results of the nodes that are listed became longer by these. -/
structure Prepended (results : String → List Bool) (s after : State δ) : Prop where
  valid : after.Valid
  list : after.list = s.list
  keys : after.keys = s.keys
  window : ∀ nodeid, after.window nodeid =
    if (s.list nodeid).isSome then (results nodeid ++ s.window nodeid).take storeMaxPing else s.window nodeid

theorem Prepended.trans {first second : String → List Bool} {s middle after : State δ}
    (begun : Prepended first s middle) (ended : Prepended second middle after) :
    Prepended (fun nodeid => second nodeid ++ first nodeid) s after where
  valid := ended.valid
  list := ended.list.trans begun.list
  keys := ended.keys.trans begun.keys
  window nodeid := by
    rw [ended.window, begun.window, begun.list]
    split_ifs
    · rw [take_append_take, List.append_assoc]
    · rfl

theorem Prepended.nothing {results : String → List Bool} (valid : s.Valid)
    (nothing : ∀ nodeid, (s.list nodeid).isSome → results nodeid = []) : Prepended results s s where
  valid := valid
  list := rfl
  keys := rfl
  window nodeid := by
    split_ifs with listed
    · rw [nothing nodeid listed, List.nil_append, List.take_of_length_le (valid.bounded nodeid)]
    · rfl

theorem forEach_prepended (valid : s.Valid) (value : Bool) {nodeids : List String}
    (ordinary : ∀ nodeid ∈ nodeids, nodeid ∉ objectPrototype) : ∃ after, s.forEach value nodeids = (after, true) ∧
      Prepended (fun nodeid => List.replicate (nodeids.count nodeid) value) s after := by
  induction nodeids generalizing s with
  | nil => exact ⟨s, rfl, .nothing valid fun _ _ => rfl⟩
  | cons first rest ih =>
    obtain ⟨here, later⟩ := List.forall_mem_cons.mp ordinary
    have counted (nodeid : String) : List.replicate ((first :: rest).count nodeid) value =
        List.replicate (rest.count nodeid) value ++ if first = nodeid then [value] else [] := by
      rw [List.count_cons]
      by_cases same : first = nodeid <;> simp [same, List.replicate_succ']
    -- one result, and then the rest of the list
    obtain ⟨middle, ran, prepended⟩ : ∃ middle, s.updateNodePingTo value first = (middle, true) ∧
        Prepended (fun nodeid => if first = nodeid then [value] else []) s middle := by
      cases held : s.list first with
      | none =>
        refine ⟨s, updateNodePingTo_unknown held here value, .nothing valid fun nodeid listed => if_neg ?_⟩
        rintro rfl
        rw [held] at listed
        contradiction
      | some node =>
        obtain ⟨middle, ran, delivered⟩ := updateNodePingTo_known valid held here value
        refine ⟨middle, ran, delivered.valid valid, delivered.list, delivered.keys, fun nodeid => ?_⟩
        rw [delivered.window]
        by_cases same : first = nodeid
        · rw [if_pos same.symm, if_pos same, ← same, held]
          rfl
        · rw [if_neg (Ne.symm same), if_neg same, List.nil_append,
            List.take_of_length_le (valid.bounded nodeid), ite_self]
    obtain ⟨after, ended, others⟩ := ih prepended.valid later
    refine ⟨after, ?_, ?_⟩
    · rw [forEach, ran]
      exact ended
    · have whole := prepended.trans others
      simp only [← counted] at whole
      exact whole

theorem updateNodePing_prepended (valid : s.Valid) {trueNodes falseNodes : List String}
    (ordinary : ∀ nodeid ∈ trueNodes ++ falseNodes, nodeid ∉ objectPrototype) :
    Prepended (fun nodeid => List.replicate (falseNodes.count nodeid) false ++
      List.replicate (trueNodes.count nodeid) true)
      s (s.updateNodePing trueNodes falseNodes).1 := by
  obtain ⟨trues, falses⟩ := List.forall_mem_append.mp ordinary
  obtain ⟨middle, ran, first⟩ := forEach_prepended valid true trues
  obtain ⟨after, ended, second⟩ := forEach_prepended first.valid false falses
  have whole : (s.updateNodePing trueNodes falseNodes).1 = after := by
    rw [updateNodePing, ran]
    exact congrArg Prod.fst ended
  rw [whole]
  exact first.trans second

end State

/-! ## Any calls -/

/-- The store holds what came for the nodes. -/
structure Holds (past : List (Event δ)) (s : State δ) : Prop where
  valid : s.Valid
  keys : ∀ nodeid ∈ s.keys, nodeid ∉ objectPrototype
  data : ∀ nodeid, (s.list nodeid).map (·.data) = latest nodeid past
  window : ∀ nodeid, s.window nodeid = (delivered nodeid past).take storeMaxPing

section Run

variable {past : List (Event δ)} {s next : State δ}

theorem Holds.listed (holds : Holds past s) (nodeid : String) : (s.list nodeid).isSome = known nodeid past := by
  rw [known, ← holds.data, Option.isSome_map]

/-- Reading nodes changes nothing. -/
theorem Holds.same (holds : Holds past s) (same : s.Same next) {event : Event δ}
    (reads : ∀ nodeid, latest nodeid (event :: past) = latest nodeid past ∧
      delivered nodeid (event :: past) = delivered nodeid past) : Holds (event :: past) next where
  valid := same.valid
  keys := same.keys ▸ holds.keys
  data nodeid := by rw [same.data, holds.data, (reads nodeid).1]
  window nodeid := by rw [same.window, holds.window, (reads nodeid).2]

theorem getNodes_same (valid : s.Valid) (ordinary : ∀ nodeid ∈ s.keys, nodeid ∉ objectPrototype) :
    s.Same s.getNodes.2 := by
  have loop (nodeids : List String) (ordinary : ∀ nodeid ∈ nodeids, nodeid ∉ objectPrototype)
      (nodes : List (Property (NodeObject δ))) {s : State δ} (valid : s.Valid) :
      s.Same (nodeids.foldl State.nextNode (nodes, s)).2 := by
    induction nodeids generalizing nodes s with
    | nil => exact .refl valid
    | cons first rest ih =>
      obtain ⟨here, later⟩ := List.forall_mem_cons.mp ordinary
      have read := State.getNode_same valid (.inr here)
      exact read.trans (ih later _ read.valid)
  exact loop s.keys ordinary [] valid

theorem Holds.updateNode (holds : Holds past s) {node : NodeObject δ} (ordinary : node.nodeID ∉ objectPrototype) :
    Holds (.updateNode node :: past) (s.updateNode node) where
  valid := ⟨holds.valid.allocated, holds.valid.apart, holds.valid.bounded⟩
  keys := by
    rw [State.updateNode]
    split_ifs
    · exact holds.keys
    · exact List.forall_mem_append.mpr ⟨holds.keys, List.forall_mem_singleton.mpr ordinary⟩
  data nodeid := by
    change (Function.update s.list node.nodeID (some node) nodeid).map _ = _
    rw [latest, Function.update_apply]
    by_cases same : nodeid = node.nodeID
    · rw [if_pos same, if_pos same.symm, Option.map_some]
    · rw [if_neg same, if_neg (Ne.symm same), holds.data]
  window := holds.window

theorem Holds.updateNodePing (holds : Holds past s) {trueNodes falseNodes : List String}
    (ordinary : ∀ nodeid ∈ trueNodes ++ falseNodes, nodeid ∉ objectPrototype) :
    Holds (.updateNodePing trueNodes falseNodes :: past) (s.updateNodePing trueNodes falseNodes).1 := by
  have prepended := State.updateNodePing_prepended holds.valid ordinary
  refine ⟨prepended.valid, prepended.keys ▸ holds.keys, fun nodeid => ?_, fun nodeid => ?_⟩
  · rw [prepended.list]
    exact holds.data nodeid
  · rw [prepended.window, delivered, holds.listed, holds.window]
    split_ifs
    · exact take_append_take ..
    · rfl

theorem Holds.step (holds : Holds past s) {event : Event δ}
    (ordinary : ∀ nodeid ∈ event.ids, nodeid ∉ objectPrototype) :
    Holds (event :: past) (s.step event) := by
  cases event with
  | updateNode node => exact holds.updateNode (ordinary _ (.head _))
  | updateNodePing trueNodes falseNodes => exact holds.updateNodePing ordinary
  | getNode nodeid =>
    exact holds.same (State.getNode_same holds.valid (.inr (ordinary _ (.head _)))) fun _ => ⟨rfl, rfl⟩
  | getNodes => exact holds.same (getNodes_same holds.valid holds.keys) fun _ => ⟨rfl, rfl⟩

theorem holds_initial : Holds [] ({} : State δ) where
  valid := by
    refine ⟨?_, ?_, fun _ => Nat.zero_le _⟩
    · intro nodeid ref held
      cases held
    · intro nodeid other ref held
      cases held
  keys := by
    intro nodeid member
    cases member
  data _ := rfl
  window _ := rfl

theorem after_holds (ordinary : Ordinary past) : Holds past (after past) := by
  induction past with
  | nil => exact holds_initial
  | cons event past ih =>
    obtain ⟨here, earlier⟩ := List.forall_mem_cons.mp ordinary
    exact (ih earlier).step here

/-! ## Results for unknown nodes -/

theorem updateNodePingTo_list (s : State δ) (value : Bool) (nodeid : String) :
    (s.updateNodePingTo value nodeid).1.list = s.list := by
  unfold State.updateNodePingTo
  cases read s.list nodeid <;> cases read s.pingState nodeid <;> rfl

theorem forEach_known (s : State δ) (value : Bool) {nodeids : List String} {listed : String → Bool}
    (ordinary : ∀ nodeid ∈ nodeids, nodeid ∉ objectPrototype)
    (exact : ∀ nodeid, (s.list nodeid).isSome = listed nodeid) :
    s.forEach value nodeids = s.forEach value (nodeids.filter listed) := by
  induction nodeids generalizing s with
  | nil => rfl
  | cons first rest ih =>
    obtain ⟨here, later⟩ := List.forall_mem_cons.mp ordinary
    cases known : listed first with
    | false =>
      have missing : s.list first = none :=
        Option.not_isSome_iff_eq_none.mp (by rw [exact, known]; exact Bool.false_ne_true)
      rw [List.filter_cons_of_neg (by rw [known]; exact Bool.false_ne_true), State.forEach,
        State.updateNodePingTo_unknown missing here]
      exact ih s later exact
    | true =>
      rw [List.filter_cons_of_pos known, State.forEach, State.forEach]
      have list := updateNodePingTo_list s value first
      generalize s.updateNodePingTo value first = outcome at list ⊢
      obtain ⟨middle, _ | _⟩ := outcome
      · rfl
      · exact ih middle later fun nodeid => (congrArg (fun list => (list nodeid).isSome) list).trans (exact nodeid)

theorem forEach_list (s : State δ) (value : Bool) (nodeids : List String) :
    (s.forEach value nodeids).1.list = s.list := by
  induction nodeids generalizing s with
  | nil => rfl
  | cons first rest ih =>
    rw [State.forEach]
    have list := updateNodePingTo_list s value first
    generalize s.updateNodePingTo value first = outcome at list ⊢
    obtain ⟨middle, _ | _⟩ := outcome
    · exact list
    · exact (ih middle).trans list

theorem updateNodePing_known (s : State δ) {trueNodes falseNodes : List String} {listed : String → Bool}
    (ordinary : ∀ nodeid ∈ trueNodes ++ falseNodes, nodeid ∉ objectPrototype)
    (exact : ∀ nodeid, (s.list nodeid).isSome = listed nodeid) :
    s.updateNodePing trueNodes falseNodes =
      s.updateNodePing (trueNodes.filter listed) (falseNodes.filter listed) := by
  obtain ⟨trues, falses⟩ := List.forall_mem_append.mp ordinary
  rw [State.updateNodePing, State.updateNodePing, ← forEach_known s true trues exact]
  have list := forEach_list s true trueNodes
  generalize s.forEach true trueNodes = outcome at list ⊢
  obtain ⟨middle, _ | _⟩ := outcome
  · rfl
  · exact forEach_known middle false falses fun nodeid =>
      (congrArg (fun list => (list nodeid).isSome) list).trans (exact nodeid)

theorem known_ordinary (ordinary : Ordinary past) {nodeid : String} (found : known nodeid past = true) :
    nodeid ∉ objectPrototype := by
  induction past with
  | nil => contradiction
  | cons event past ih =>
    obtain ⟨here, earlier⟩ := List.forall_mem_cons.mp ordinary
    cases event with
    | updateNode node =>
      rw [known, latest] at found
      by_cases same : node.nodeID = nodeid
      · exact same ▸ here _ (.head _)
      · rw [if_neg same] at found
        exact ih earlier found
    | updateNodePing trueNodes falseNodes => exact ih earlier found
    | getNode other => exact ih earlier found
    | getNodes => exact ih earlier found

theorem Holds.pingstate (holds : Holds past s) {nodeid : String} (found : known nodeid past = true)
    (ordinary : nodeid ∉ objectPrototype) : s.pingstate nodeid = some ((delivered nodeid past).take storeMaxPing) := by
  obtain ⟨node, held⟩ := Option.isSome_iff_exists.mp ((holds.listed nodeid).trans found)
  rw [State.pingstate_known holds.valid held ordinary, holds.window]

/-- Only results for a node make its history longer, and no call forgets a node. -/
theorem delivered_kept {event : Event δ} {nodeid : String} (other : nodeid ∉ event.results)
    (found : known nodeid past = true) :
    delivered nodeid (event :: past) = delivered nodeid past ∧ known nodeid (event :: past) = true := by
  cases event with
  | updateNode node =>
    refine ⟨rfl, ?_⟩
    rw [known, latest]
    split_ifs
    · rfl
    · exact found
  | updateNodePing trueNodes falseNodes =>
    refine ⟨?_, found⟩
    obtain ⟨trues, falses⟩ := not_or.mp (fun member => other (List.mem_append.mpr member))
    rw [delivered, if_pos found, List.count_eq_zero.mpr trues, List.count_eq_zero.mpr falses]
    rfl
  | getNode other => exact ⟨rfl, found⟩
  | getNodes => exact ⟨rfl, found⟩

/-- As long as no id is the name of an inherited property, a node shows its ten latest results. -/
theorem after_slidingWindow (ordinary : Ordinary past) : SlidingWindow past where
  shown nodeid found := by
    have holds := after_holds ordinary
    have plain := known_ordinary ordinary found
    obtain ⟨node, held⟩ := Option.isSome_iff_exists.mp ((holds.listed nodeid).trans found)
    obtain ⟨ref, _, read, _, _⟩ := State.getNode_own holds.valid held plain
    refine ⟨holds.pingstate found plain, { node with pingstate := .own ref }, congrArg Prod.fst read, ?_⟩
    rw [← holds.data, held, Option.map_some]
  unknown trueNodes falseNodes plain := updateNodePing_known (after past) plain (after_holds ordinary).listed
  kept event plain nodeid found other := by
    have now : Ordinary (event :: past) := List.forall_mem_cons.mpr ⟨plain, ordinary⟩
    obtain ⟨same, still⟩ := delivered_kept other found
    have named := known_ordinary ordinary found
    rw [(after_holds now).pingstate still named, (after_holds ordinary).pingstate found named, same]

end Run

/-! ## The name of an inherited property -/

namespace Sample

def cellar : NodeObject Unit := { nodeID := "f81a67a5e9c1", data := (), ordinary := by decide }

/-- Results for two nodes, one of which is not known and has the name of a property. -/
def results : Event Unit := .updateNodePing ["constructor", "f81a67a5e9c1"] []

/-- Results that only concern the known node. -/
def plain : Event Unit := .updateNodePing ["f81a67a5e9c1"] ["704f57a5e9c2"]

end Sample

theorem after_slidingWindow_plain : SlidingWindow [Sample.plain, .updateNode Sample.cellar] :=
  after_slidingWindow (by unfold Ordinary; decide)

/-- The result of the known node is lost. -/
theorem constructor_loses :
    known "f81a67a5e9c1" [Sample.results, .updateNode Sample.cellar] = true ∧
      delivered "f81a67a5e9c1" [Sample.results, .updateNode Sample.cellar] = [true] ∧
      (after [Sample.results, .updateNode Sample.cellar]).pingstate "f81a67a5e9c1" = some [] ∧
      ¬ SlidingWindow [Sample.results, .updateNode Sample.cellar] := by
  have found : known "f81a67a5e9c1" [Sample.results, .updateNode Sample.cellar] = true := by decide +kernel
  have came : delivered "f81a67a5e9c1" [Sample.results, .updateNode Sample.cellar] = [true] := by decide +kernel
  have shows : (after [Sample.results, .updateNode Sample.cellar]).pingstate "f81a67a5e9c1" = some [] := by
    decide +kernel
  refine ⟨found, came, shows, fun window => ?_⟩
  have shown := (window.shown _ found).1
  rw [shows, came] at shown
  exact absurd shown (by decide)

end FreifunkManager.ClientStore
