import FreifunkManager.Model.InPlace
import FreifunkManager.Proofs.Undone

/-! # Edits that are refused

The callback of an edit restores what the field held when the edit was made, which may itself be a value that is
refused later. As long as an edit of the object in the store starts from the value that the object came with, every
refused edit restores that value (`run_restores`).
-/

namespace FreifunkManager.InPlace

variable {δ α : Type} {field : Field δ α} {s s' : State δ α}

section Careful

variable (field : Field δ α)

/-- An edit starts from the value with which the object came into the store, unless the store will drop the object
anyway, and the broadcasts come in order. -/
def Event.Careful (s : State δ α) : Event δ α → Prop
  | .edit node _ => node = s.current → s.broadcasts = [] → field.get (s.objects node) = field.get (s.came node)
  | .reply _ => True
  | .broadcast number _ => ∀ earlier ∈ s.broadcasts, number ≤ earlier

def Careful [DecidableEq α] (s : State δ α) : List (Event δ α) → Prop
  | [] => True
  | event :: rest => event.Careful field s ∧ (s.step field event).elim True fun next => Careful next rest

/-- What the field should hold once nothing is pending. -/
def State.expected (first : α) (s : State δ α) : α := s.accepted.getLast?.getD first

/-- The accepted edits come back one by one, and unless one of them is on its way only refused edits can have
touched the object in the store. -/
structure Sound (first : α) (s : State δ α) : Prop where
  coming : s.broadcasts = List.range' s.current s.broadcasts.length
  counted : s.current + s.broadcasts.length = s.accepted.length
  came : field.get (s.came s.current) = (s.accepted.take s.current).getLast?.getD first
  known : ∀ request ∈ s.requests, request.node ≤ s.current
  restores : s.broadcasts = [] → ∀ request ∈ s.requests, request.node = s.current →
    request.old = field.get (s.came s.current)
  changed : s.broadcasts = [] → (∃ request ∈ s.requests, request.node = s.current) ∨
    field.get (s.objects s.current) = field.get (s.came s.current)

end Careful

variable {first : α}

theorem sound_initial (node : δ) : Sound field (field.get node) (initial node : State δ α) where
  coming := rfl
  counted := rfl
  came := rfl
  known := List.forall_mem_nil _
  restores _ := List.forall_mem_nil _
  changed _ := .inr rfl

theorem Sound.edit (sound : Sound field first s) {node : ℕ} {value : α} (known : node ≤ s.current)
    (careful : (Event.edit node value).Careful field s) : Sound field first (s.edit field node value) where
  coming := sound.coming
  counted := sound.counted
  came := sound.came
  known request member := by
    rcases List.mem_append.mp member with before | new
    · exact sound.known request before
    · rw [List.mem_singleton.mp new]
      exact known
  restores quiet request member touched := by
    rcases List.mem_append.mp member with before | new
    · exact sound.restores quiet request before touched
    · rw [List.mem_singleton.mp new] at touched ⊢
      have started : field.get (s.objects node) = field.get (s.came node) := careful touched quiet
      rw [show node = s.current from touched] at started ⊢
      exact started
  changed quiet := by
    rcases sound.changed quiet with ⟨request, member, touched⟩ | untouched
    · exact .inl ⟨request, List.mem_append_left _ member, touched⟩
    · by_cases touched : node = s.current
      · exact .inl ⟨_, List.mem_append_right _ (.head _), touched⟩
      · right
        change field.get (Function.update s.objects node _ s.current) = _
        rw [Function.update_of_ne (Ne.symm touched)]
        exact untouched

theorem Sound.refuse (sound : Sound field first s) {request : Request α} {rest : List (Request α)}
    (next : s.requests = request :: rest) : Sound field first (s.reply field request rest false) where
  coming := sound.coming
  counted := sound.counted
  came := sound.came
  known other member := sound.known other (next ▸ .tail _ member)
  restores quiet other member := sound.restores quiet other (next ▸ .tail _ member)
  changed quiet := by
    by_cases touched : request.node = s.current
    · right
      change field.get (Function.update s.objects request.node _ s.current) = _
      rw [touched, Function.update_self, field.get_set]
      exact sound.restores quiet request (next ▸ .head _) touched
    · rcases sound.changed quiet with ⟨other, member, same⟩ | untouched
      · rcases List.mem_cons.mp (next ▸ member) with rfl | later
        · exact absurd same touched
        · exact .inl ⟨other, later, same⟩
      · right
        change field.get (Function.update s.objects request.node _ s.current) = _
        rw [Function.update_of_ne (Ne.symm touched)]
        exact untouched

theorem Sound.accept (sound : Sound field first s) {request : Request α} {rest : List (Request α)}
    (next : s.requests = request :: rest) : Sound field first (s.reply field request rest true) := by
  have some : s.broadcasts ++ [s.accepted.length] ≠ [] := List.append_ne_nil_of_right_ne_nil _ (List.cons_ne_nil _ _)
  exact {
    coming := by
      change s.broadcasts ++ [s.accepted.length] = List.range' s.current (s.broadcasts ++ [s.accepted.length]).length
      rw [List.length_append, List.length_singleton, List.range'_concat, Nat.one_mul, sound.counted, ← sound.coming]
    counted := by
      change s.current + (s.broadcasts ++ [s.accepted.length]).length = (s.accepted ++ [request.value]).length
      rw [List.length_append, List.length_append, ← Nat.add_assoc, sound.counted]
      rfl
    came := by
      change field.get (s.came s.current) = ((s.accepted ++ [request.value]).take s.current).getLast?.getD first
      rw [List.take_append_of_le_length (by rw [← sound.counted]; exact Nat.le_add_right _ _)]
      exact sound.came
    known := fun other member => sound.known other (next ▸ .tail _ member)
    restores := fun quiet => absurd quiet some
    changed := fun quiet => absurd quiet some }

theorem Sound.updateNode (sound : Sound field first s) {number : ℕ} {node : δ} (waits : number ∈ s.broadcasts)
    (sent : s.accepted[number]? = some (field.get node)) (oldest : ∀ earlier ∈ s.broadcasts, number ≤ earlier) :
    Sound field first ({ s with broadcasts := s.broadcasts.erase number }.updateNode node) := by
  obtain ⟨n, many⟩ : ∃ n, s.broadcasts.length = n + 1 :=
    Nat.exists_eq_succ_of_ne_zero (List.length_pos_of_mem waits).ne'
  have coming : s.broadcasts = s.current :: List.range' (s.current + 1) n := by
    rw [sound.coming, many, List.range'_succ]
  obtain rfl : number = s.current := by
    rw [coming] at waits oldest
    apply Nat.le_antisymm (oldest _ (.head _))
    rcases List.mem_cons.mp waits with same | later
    · exact same.ge
    · exact Nat.le_of_succ_le (List.mem_range'_1.mp later).1
  have rest : s.broadcasts.erase s.current = List.range' (s.current + 1) n := by
    rw [coming, List.erase_cons_head]
  have below : ∀ request ∈ s.requests, request.node ≠ s.current + 1 := by
    intro request member same
    exact absurd (sound.known request member) (by omega)
  exact {
    coming := by
      change s.broadcasts.erase s.current = List.range' (s.current + 1) (s.broadcasts.erase s.current).length
      rw [rest, List.length_range']
    counted := by
      change s.current + 1 + (s.broadcasts.erase s.current).length = s.accepted.length
      rw [rest, List.length_range', ← sound.counted, many, Nat.add_assoc, Nat.add_comm 1 n]
    came := by
      change field.get (Function.update s.came (s.current + 1) node (s.current + 1)) =
        (s.accepted.take (s.current + 1)).getLast?.getD first
      rw [Function.update_self, List.take_add_one, sent]
      simp
    known := fun request member => (sound.known request member).trans (Nat.le_succ _)
    restores := fun _ request member touched => absurd touched (below request member)
    changed := by
      intro _
      right
      change field.get (Function.update s.objects (s.current + 1) node (s.current + 1)) =
        field.get (Function.update s.came (s.current + 1) node (s.current + 1))
      rw [Function.update_self, Function.update_self] }

/-- Once nothing is pending, the store has the value of the last edit that was accepted. -/
theorem Sound.settled (sound : Sound field first s) (answered : s.requests = []) (delivered : s.broadcasts = []) :
    s.value field = s.expected first := by
  have all : s.current = s.accepted.length := by
    have counted := sound.counted
    rwa [delivered, List.length_nil, Nat.add_zero] at counted
  rcases sound.changed delivered with ⟨request, member, _⟩ | untouched
  · rw [answered] at member
    contradiction
  · rw [State.value, untouched, sound.came, all, List.take_length]
    rfl

section Runs

variable [DecidableEq α]

theorem Sound.step (sound : Sound field first s) {event : Event δ α} (careful : event.Careful field s)
    (stepped : s.step field event = some s') : Sound field first s' := by
  cases event with
  | edit node value =>
    simp only [State.step] at stepped
    split_ifs at stepped with known
    cases stepped
    exact sound.edit known careful
  | reply body =>
    simp only [State.step] at stepped
    split at stepped
    · contradiction
    · next request rest next =>
      cases stepped
      cases body with
      | false => exact sound.refuse next
      | true => exact sound.accept next
  | broadcast number node =>
    simp only [State.step] at stepped
    split_ifs at stepped with arrives
    cases stepped
    exact sound.updateNode arrives.1 arrives.2 careful

theorem Sound.run {events : List (Event δ α)} (sound : Sound field first s) (careful : Careful field s events)
    (ran : s.run field events = some s') : Sound field first s' := by
  induction events generalizing s with
  | nil =>
    cases ran
    exact sound
  | cons event rest ih =>
    obtain ⟨next, stepped, ran⟩ := Option.bind_eq_some_iff.mp ran
    obtain ⟨first, later⟩ := careful
    rw [stepped] at later
    exact ih (sound.step first stepped) later ran

theorem run_restores {node : δ} {events : List (Event δ α)} (ran : (initial node).run field events = some s)
    (careful : Careful field (initial node) events) (answered : s.requests = []) (delivered : s.broadcasts = []) :
    s.value field = s.expected (field.get node) :=
  ((sound_initial node).run careful ran).settled answered delivered

/-- A node with this name. -/
def named (hostname : String) : Node := { nodeID := "f81a67a5e9c1", hostname }

/-- The first edit is accepted, and the second one is refused after the list was rendered again. -/
def oneByOne : List (Event Node String) :=
  [.edit 0 "cellar", .reply true, .broadcast 0 (named "cellar"), .edit 1 "roof", .reply false]

theorem run_restores_oneByOne : ∃ s, (initial (named "attic")).run Field.hostname oneByOne = some s ∧
    s.value Field.hostname = "cellar" := by
  have careful : Careful Field.hostname (initial (named "attic")) oneByOne :=
    ⟨fun _ _ => rfl, trivial, fun earlier _ => earlier.zero_le, fun _ _ => rfl, trivial, trivial⟩
  exact ⟨_, rfl, (run_restores rfl careful rfl rfl).trans rfl⟩

/-- Two edits are refused, of which the second was made while the first one was pending. -/
def overlapping : List (Event Node String) := [.edit 0 "cellar", .edit 0 "roof", .reply false, .reply false]

/-- The name that was refused first stays in the store. -/
theorem overlapping_leave_trace : ∃ s, (initial (named "attic")).run Field.hostname overlapping = some s ∧
    s.requests = [] ∧ s.broadcasts = [] ∧ s.accepted = [] ∧ s.value Field.hostname = "cellar" ∧
    s.value Field.hostname ≠ s.expected (Field.hostname.get (named "attic")) :=
  ⟨_, rfl, rfl, rfl, rfl, rfl, by decide⟩

/-- If all requests are refused, the last of them decides what the object holds. -/
theorem refuse_all {requests : List (Request α)} {last : Request α} (waiting : s.requests = requests ++ [last])
    (touched : last.node = s.current) :
    ∃ after, s.run field (List.replicate (requests.length + 1) (.reply false)) = some after ∧ after.requests = [] ∧
      after.broadcasts = s.broadcasts ∧ after.accepted = s.accepted ∧ after.value field = last.old := by
  induction requests generalizing s with
  | nil =>
    refine ⟨s.reply field last [] false, ?_, rfl, rfl, rfl, ?_⟩
    · simp [State.run, State.step, waiting]
    · change field.get (Function.update s.objects last.node _ s.current) = last.old
      rw [touched, Function.update_self, field.get_set]
  | cons request rest ih =>
    obtain ⟨after, ran, refused⟩ := ih (s := s.reply field request (rest ++ [last]) false) rfl touched
    refine ⟨after, ?_, refused⟩
    rw [List.length_cons, List.replicate_succ, State.run, State.step, waiting]
    exact ran

/-- An edit that starts from a value that may still be refused can leave that value in the store. -/
theorem careless_edit (sound : Sound field first s) (delivered : s.broadcasts = [])
    (unconfirmed : field.get (s.objects s.current) ≠ field.get (s.came s.current)) (value : α) :
    ∃ replies after, s.run field (.edit s.current value :: replies) = some after ∧ after.requests = [] ∧
      after.broadcasts = [] ∧ after.value field ≠ after.expected first := by
  have waiting : (s.edit field s.current value).requests =
      s.requests ++ [⟨s.current, field.get (s.objects s.current), value⟩] := rfl
  obtain ⟨after, ran, answered, kept, accepted, left⟩ := refuse_all waiting rfl
  have all : s.current = s.accepted.length := by
    have counted := sound.counted
    rwa [delivered, List.length_nil, Nat.add_zero] at counted
  have came := sound.came
  rw [all, List.take_length] at came
  refine ⟨List.replicate (s.requests.length + 1) (.reply false), after, ?_, answered, kept.trans delivered, ?_⟩
  · rw [State.run, State.step, if_pos le_rfl]
    exact ran
  · rw [left, State.expected, accepted]
    change field.get (s.objects s.current) ≠ s.accepted.getLast?.getD first
    rw [← came, ← all]
    exact unconfirmed

end Runs

/-! ## What the server sends -/

section Server

open Clients

variable {config : Config} {encode : Node → Json} {step : Step} {msg : Message}

/-- An accepted edit comes back with its value, and a refused one does not come back. -/
theorem serve_broadcast {field : Field Node α} (kept : ∀ node node' : Node, node.settings = node'.settings →
    field.get node = field.get node') (value : α) (node : Node) (message : step.call = .message msg)
    (subject : msg.subject = MessageType.node) (body : msg.body = encode (field.set value node))
    (carried : Carried config encode (field.set value node)) (w : World) :
    let events := (serve config step w).1.since w
    events.filterMap FreifunkManager.Event.answered = [false] ∧
        events.filterMap FreifunkManager.Event.broadcast = [] ∨
      events.filterMap FreifunkManager.Event.answered = [true] ∧
        ∃ sent, events.filterMap FreifunkManager.Event.broadcast = [sent] ∧ field.get sent = value := by
  intro events
  cases serve_edited config message subject w with
  | refused _ answers broadcasts => exact .inl ⟨answers, broadcasts⟩
  | saved decoded report _ updated found _ _ answers _ broadcasts =>
    obtain ⟨decoded', found', _, same⟩ := carried
    rw [body, found'] at found
    cases found
    refine .inr ⟨answers, _, broadcasts, ?_⟩
    have settings : (decoded.update report config.ipPrefix updated).settings = (field.set value node).settings :=
      (decoded.update_settings ..).trans same
    rw [kept _ _ settings, field.get_set]

end Server

end FreifunkManager.InPlace
