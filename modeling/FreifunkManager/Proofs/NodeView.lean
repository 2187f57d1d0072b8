import FreifunkManager.Model.NodeView

/-! # What is done in the view of a node is sent

A user does one thing with the view from one event to another: types into an input that has the focus, drags the marker,
or follows the position. In between the view is rendered, the store gets nodes from the server, and other things are
done. What was entered last is what is sent in the end, for the node that is then open.
-/

namespace FreifunkManager.NodeView

inductive Interaction where
  | text (input : Text)
  | marker
  | following

/-- The last item that there is, or else what there was before. -/
def lastOr {α : Type} (before : Option α) (items : List α) : Option α := items.getLast?.or before

theorem lastOr_cons {α : Type} (before : Option α) (item : α) (items : List α) :
    lastOr before (item :: items) = lastOr (some item) items := by
  rw [lastOr, lastOr, List.getLast?_cons]
  cases items.getLast? <;> rfl

theorem lastOr_filterMap {α β : Type} (f : α → Option β) (before : Option β) (item : α) (items : List α) :
    lastOr before ((item :: items).filterMap f) = lastOr ((f item).or before) (items.filterMap f) := by
  rw [List.filterMap_cons]
  cases f item with
  | none => rfl
  | some value => exact lastOr_cons before value _

namespace Interaction

def begins : Interaction → Event
  | .text input => .focusin input
  | .marker => .dragstart
  | .following => .click

def ends : Interaction → Event
  | .text input => .focusout input
  | .marker => .dragend
  | .following => .click

def enters : Interaction → Event → Option Change
  | .text input, .input other value => if other = input then some (.text input value) else none
  | .marker, .drag position | .following, .position position => some (.location (some position))
  | _, _ => none

/-- What ends the interaction, and what else lets a render or the position of the user replace what was entered. -/
def Interrupted : Interaction → Event → Prop
  | .text _, .focusout _ | .text _, .dragend => True
  | .marker, .focusout _ | .marker, .dragend | .marker, .position _ | .marker, .setView _
  | .marker, .resetLocation => True
  | .following, .click => True
  | _, _ => False

/-- The marker has its place already, and the position is not followed yet. -/
def Ready (s : State) : Interaction → Prop
  | .text _ => True
  | .marker => s.currentNodeIsRendered = true
  | .following => s.editLocationGPS = false

/-- What would be sent if nothing was entered. -/
def shows (s : State) : Interaction → Option Change
  | .text input => some (.text input (s.inputs input))
  | .marker => some (.location (some s.marker))
  | .following => none

end Interaction

/-- What is sent for a change. -/
def State.message (s : State) : Change → Option (String × Stored)
  | .location (some position) =>
    (s.newLocation position).map fun location => (s.currentNodeID, s.node.change (.location (some location)))
  | change => some (s.currentNodeID, s.node.change change)

/-- The change is what the view has of the interaction. -/
def Holds (s : State) (change : Option Change) : Interaction → Prop
  | .text input => s.editing = true ∧ change = some (.text input (s.inputs input))
  | .marker => s.editing = true ∧ s.currentNodeIsRendered = true ∧ change = some (.location (some s.marker))
  | .following => s.editLocationGPS = true ∧ change = s.gpsPosition.map fun position => .location (some position)

section Runs

variable {bound : LatLng} {s : State} {i : Interaction} {change : Option Change}

/-- Rendering leaves alone what is edited, and the position. -/
theorem render_editing (bound : LatLng) (editing : s.editing = true) :
    (s.render bound).editing = true ∧ (s.render bound).inputs = s.inputs ∧
    (s.currentNodeIsRendered = true → s.render bound = s) := by
  rw [State.render, State.renderInputs, if_pos editing]
  cases s.currentNodeIsRendered with
  | true => exact ⟨editing, rfl, fun _ => rfl⟩
  | false => exact ⟨editing, rfl, nofun⟩

theorem render_position (bound : LatLng) (s : State) : (s.render bound).editLocationGPS = s.editLocationGPS ∧
    (s.render bound).gpsPosition = s.gpsPosition ∧ (s.render bound).list = s.list ∧
    (s.render bound).currentNodeID = s.currentNodeID := by
  have inputs : s.renderInputs.editLocationGPS = s.editLocationGPS ∧ s.renderInputs.gpsPosition = s.gpsPosition ∧
      s.renderInputs.list = s.list ∧ s.renderInputs.currentNodeID = s.currentNodeID := by
    rw [State.renderInputs]
    split
    · exact ⟨rfl, rfl, rfl, rfl⟩
    · split <;> exact ⟨rfl, rfl, rfl, rfl⟩
  rw [State.render]
  split <;> exact inputs

theorem updatePosition_eq (s : State) (pos : LatLng) :
    s.updatePosition pos = { s with sent := s.sent ++ (s.message (.location (some pos))).toList } := by
  rw [State.updatePosition, State.message]
  cases s.newLocation pos with
  | none =>
    rw [Option.map_none, Option.toList_none, List.append_nil]
  | some location => rfl

theorem onclick_eq (s : State) : s.onclick =
    if s.editLocationGPS then
      { s with
        editLocationGPS := false
        sent := s.sent ++ (s.gpsPosition.bind fun position => s.message (.location (some position))).toList }
    else { s with gpsPosition := none, editLocationGPS := true } := by
  have sent (gps : Option LatLng) : gps.elim s s.updatePosition =
      { s with sent := s.sent ++ (gps.bind fun position => s.message (.location (some position))).toList } := by
    cases gps with
    | none =>
      rw [Option.bind_none, Option.toList_none, List.append_nil]
      rfl
    | some position => exact updatePosition_eq s position
  rw [State.onclick, sent]

theorem Holds.begins (ready : i.Ready s) : Holds (s.step bound i.begins) (i.shows s) i := by
  cases i with
  | text input => exact ⟨rfl, rfl⟩
  | marker => exact ⟨rfl, ready, rfl⟩
  | following =>
    change Holds s.onclick none .following
    rw [onclick_eq, if_neg (by rw [show s.editLocationGPS = false from ready]; exact Bool.false_ne_true)]
    exact ⟨rfl, rfl⟩

theorem Holds.step {event : Event} (holds : Holds s change i) (free : ¬ i.Interrupted event) :
    Holds (s.step bound event) ((i.enters event).or change) i := by
  cases i with
  | text input =>
    obtain ⟨editing, same⟩ := holds
    cases event with
    | focusout | dragend => exact absurd trivial free
    | input other value =>
      refine ⟨editing, ?_⟩
      rw [Interaction.enters, State.step]
      dsimp only
      split
      · next own =>
        subst own
        rw [Function.update_self, Option.some_or]
      · next other =>
        rw [Function.update_of_ne (Ne.symm other), Option.none_or, same]
    | setView nodeID =>
      have kept := render_editing bound
          (s := { s with currentNodeID := nodeID, currentNodeIsRendered := false }) editing
      exact ⟨kept.1, by rw [State.step, kept.2.1]; exact same⟩
    | render =>
      have kept := render_editing bound editing
      exact ⟨kept.1, by rw [State.step, kept.2.1]; exact same⟩
    | click =>
      rw [State.step, onclick_eq]
      split <;> exact ⟨editing, same⟩
    | position pos =>
      rw [State.step]
      split <;> exact ⟨editing, same⟩
    | focusin | dragstart => exact ⟨rfl, same⟩
    | updateNode | drag | resetLocation => exact ⟨editing, same⟩
  | marker =>
    obtain ⟨editing, rendered, same⟩ := holds
    cases event with
    | focusout | dragend | position | setView | resetLocation => exact absurd trivial free
    | render =>
      rw [State.step, (render_editing bound editing).2.2 rendered]
      exact ⟨editing, rendered, same⟩
    | click =>
      rw [State.step, onclick_eq]
      split <;> exact ⟨editing, rendered, same⟩
    | drag pos => exact ⟨editing, rendered, rfl⟩
    | focusin | dragstart => exact ⟨rfl, rendered, same⟩
    | updateNode | input => exact ⟨editing, rendered, same⟩
  | following =>
    obtain ⟨watched, same⟩ := holds
    cases event with
    | click => exact absurd trivial free
    | position pos =>
      rw [State.step, if_pos watched]
      exact ⟨watched, rfl⟩
    | setView nodeID =>
      obtain ⟨watches, position, _⟩ :=
        render_position bound { s with currentNodeID := nodeID, currentNodeIsRendered := false }
      exact ⟨watches.trans watched, by rw [State.step, position]; exact same⟩
    | render =>
      obtain ⟨watches, position, _⟩ := render_position bound s
      exact ⟨watches.trans watched, by rw [State.step, position]; exact same⟩
    | dragend =>
      rw [State.step, updatePosition_eq]
      exact ⟨watched, same⟩
    | updateNode | focusin | input | focusout | dragstart | drag | resetLocation => exact ⟨watched, same⟩

theorem Holds.run {events : List Event} (holds : Holds s change i) (free : ∀ event ∈ events, ¬ i.Interrupted event) :
    Holds (s.run bound events) (lastOr change (events.filterMap i.enters)) i := by
  induction events generalizing s change with
  | nil => exact holds
  | cons event rest ih =>
    obtain ⟨first, free⟩ := List.forall_mem_cons.mp free
    rw [lastOr_filterMap]
    exact ih (holds.step first) free

/-- The end of the interaction sends what it has entered. -/
theorem Holds.ends (holds : Holds s change i) :
    (s.step bound i.ends).sent = s.sent ++ (change.bind s.message).toList := by
  cases i with
  | text input =>
    obtain ⟨_, rfl⟩ := holds
    rfl
  | marker =>
    obtain ⟨_, _, rfl⟩ := holds
    change ({ s with editing := false }.updatePosition s.marker).sent = _
    rw [updatePosition_eq]
    rfl
  | following =>
    obtain ⟨watched, rfl⟩ := holds
    change s.onclick.sent = _
    rw [onclick_eq, if_pos watched, Option.bind_map]
    rfl

/-- The node that an event opens. -/
def Event.opens : Event → Option String
  | .setView nodeID => some nodeID
  | _ => none

/-- What the store gets for a node. -/
def Event.tells (nodeID : String) : Event → Option Stored
  | .updateNode other node => if other = nodeID then some node else none
  | _ => none

theorem step_current (event : Event) : (s.step bound event).currentNodeID = event.opens.getD s.currentNodeID := by
  cases event with
  | setView | render => exact (render_position ..).2.2.2
  | dragend =>
    rw [State.step, updatePosition_eq]
    rfl
  | click =>
    rw [State.step, onclick_eq]
    split <;> rfl
  | position =>
    rw [State.step]
    split <;> rfl
  | updateNode | focusin | input | focusout | dragstart | drag | resetLocation => rfl

theorem step_list (bound : LatLng) (event : Event) (nodeID : String) :
    (s.step bound event).list nodeID = (event.tells nodeID).or (s.list nodeID) := by
  cases event with
  | updateNode other node =>
    rw [State.step, Event.tells]
    dsimp only
    rw [Function.update_apply]
    by_cases own : other = nodeID
    · rw [if_pos own.symm, if_pos own, Option.some_or]
    · rw [if_neg (Ne.symm own), if_neg own, Option.none_or]
  | setView | render => exact congrFun (render_position ..).2.2.1 nodeID
  | dragend =>
    rw [State.step, updatePosition_eq]
    rfl
  | click =>
    rw [State.step, onclick_eq]
    split <;> rfl
  | position =>
    rw [State.step]
    split <;> rfl
  | focusin | input | focusout | dragstart | drag | resetLocation => rfl

theorem run_current (events : List Event) :
    some (s.run bound events).currentNodeID = lastOr (some s.currentNodeID) (events.filterMap Event.opens) := by
  induction events generalizing s with
  | nil => rfl
  | cons event rest ih =>
    rw [lastOr_filterMap, State.run, List.foldl_cons]
    refine ih.trans ?_
    rw [step_current]
    cases event.opens <;> rfl

theorem run_list (events : List Event) (nodeID : String) :
    (s.run bound events).list nodeID = lastOr (s.list nodeID) (events.filterMap (Event.tells nodeID)) := by
  induction events generalizing s with
  | nil => rfl
  | cons event rest ih =>
    rw [lastOr_filterMap, ← step_list bound]
    exact ih

end Runs

/-- Whatever is rendered and arrives in between: the end of an interaction sends what was entered last, or else what was
shown at its beginning, in a copy of what the store then has of the node that is then open. -/
theorem interaction_sent (bound : LatLng) (s : State) (i : Interaction) (ready : i.Ready s) {events : List Event}
    (free : ∀ event ∈ events, ¬ i.Interrupted event) :
    let during := (s.step bound i.begins).run bound events
    (during.step bound i.ends).sent =
        during.sent ++ ((lastOr (i.shows s) (events.filterMap i.enters)).bind during.message).toList ∧
      some during.currentNodeID = lastOr (some s.currentNodeID) (events.filterMap Event.opens) ∧
      during.node = (lastOr (s.list during.currentNodeID) (events.filterMap (Event.tells during.currentNodeID))).getD
      {} := by
  intro during
  have begun : (s.step bound i.begins).currentNodeID = s.currentNodeID ∧ (s.step bound i.begins).list = s.list := by
    cases i with
    | text | marker => exact ⟨rfl, rfl⟩
    | following =>
      rw [Interaction.begins, State.step, onclick_eq]
      split <;> exact ⟨rfl, rfl⟩
  refine ⟨((Holds.begins ready).run free).ends, ?_, ?_⟩
  · rw [run_current, begun.1]
  · rw [State.node, run_list, begun.2]

/-- A name is typed for one node; its owner changes, and then another node is opened while the input has the focus. -/
def switched : List Event :=
  [.input .hostname "cellar", .render, .updateNode "f81a67a5e9c1" { hostname := "attic", owner := "roof" }, .render,
    .setView "f81a67a5e9c2", .render]

theorem interaction_sent_switched :
    let opened := ({ marker := ⟨.zero, .zero⟩ } : State).run ⟨.zero, .zero⟩ [.setView "f81a67a5e9c1"]
    ((opened.run ⟨.zero, .zero⟩ (.focusin .hostname :: switched ++ [.focusout .hostname])).sent) =
      [("f81a67a5e9c2", { hostname := "cellar" })] := by
  intro opened
  have free : ∀ event ∈ switched, ¬ (Interaction.text .hostname).Interrupted event := by
    simp [switched, Interaction.Interrupted]
  have sent := (interaction_sent ⟨.zero, .zero⟩ opened (.text .hostname) trivial free).1
  rw [State.run, List.foldl_append]
  exact sent.trans (by decide +kernel)

end FreifunkManager.NodeView
