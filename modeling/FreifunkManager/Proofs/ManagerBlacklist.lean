import FreifunkManager.Model.Manager

/-! # The blacklist of the SSH manager

The table of refused addresses is written only after the error of the handshake was found to be
nil, so that it stays empty and every call dials. The blacklist works in exactly those runs
in which no call would have to be held back.
-/

namespace FreifunkManager.Ssh

/-- One call of `connectTo` with what it meets. -/
structure Request where
  addr : TCPAddr
  attempt : Attempt
deriving DecidableEq

namespace Manager

/-- The calls of a run with their outcomes. -/
def connectAll (m : Manager) : List Request → List (Request × Connection)
  | [] => []
  | request :: rest =>
    let (m, connection) := m.connectTo request.addr request.attempt
    (request, connection) :: m.connectAll rest

end Manager

/-- The node was reached and did not accept any method of authentication. -/
def Attempt.Refused (attempt : Attempt) : Prop :=
  attempt.dial = none ∧ ∃ err, attempt.handshake = some err ∧ contains err "no supported methods remain"

/-- The clock does not run backwards. -/
def InOrder (requests : List Request) : Prop :=
  (requests.flatMap fun request => [request.attempt.started, request.attempt.ended]).Pairwise (· ≤ ·)

instance (requests : List Request) : Decidable (InOrder requests) := inferInstanceAs (Decidable (List.Pairwise ..))

/-- The request comes less than a day after a refusal by the same address. -/
def Early (earlier : List Request) (request : Request) : Prop :=
  ∃ refused ∈ earlier, refused.attempt.Refused ∧ refused.addr.ip = request.addr.ip ∧
    request.attempt.started < refused.attempt.ended + 24 * hour

/-- A call is answered from the blacklist if a dialled call for its address was refused less than a
day before; any other call dials. -/
def BlacklistWorks (history : List (Request × Connection)) : Prop :=
  ∀ before request connection after, history = before ++ (request, connection) :: after →
    let dialled := (before.filter (·.2.dialled)).map (·.1)
    (Early dialled request → connection = ⟨false, some "node on blacklist"⟩) ∧
    (¬ Early dialled request → connection.dialled = true)

/-- The table stays empty, and an empty table lets every call through. -/
theorem connectTo_newManager (addr : TCPAddr) (attempt : Attempt) :
    (newManager.connectTo addr attempt).1 = newManager ∧ (newManager.connectTo addr attempt).2.dialled = true := by
  obtain ⟨started, dial, handshake, ended⟩ := attempt
  cases dial with
  | some err => exact ⟨rfl, rfl⟩
  | none => cases handshake <;> exact ⟨rfl, rfl⟩

theorem connectAll_newManager (requests : List Request) : newManager.connectAll requests =
    requests.map fun request => (request, (newManager.connectTo request.addr request.attempt).2) := by
  induction requests with
  | nil => rfl
  | cons request rest ih =>
    simp only [Manager.connectAll, connectTo_newManager, ih, List.map_cons]

private theorem dialled_all (requests : List Request) :
    ((newManager.connectAll requests).filter (·.2.dialled)).map (·.1) = requests := by
  rw [connectAll_newManager, List.filter_eq_self.mpr]
  · rw [List.map_map]
    exact List.map_id _
  · intro entry member
    obtain ⟨request, _, rfl⟩ := List.mem_map.mp member
    exact (connectTo_newManager _ _).2

/-- The parts of a history are the histories of the parts. -/
private theorem connectAll_split {requests : List Request} {before after : List (Request × Connection)}
    {request : Request} {connection : Connection}
    (history : newManager.connectAll requests = before ++ (request, connection) :: after) :
    ∃ first rest, requests = first ++ request :: rest ∧ before = newManager.connectAll first ∧
      connection = (newManager.connectTo request.addr request.attempt).2 := by
  rw [connectAll_newManager] at history
  obtain ⟨first, tail, rfl, earlier, later⟩ := List.map_eq_append_iff.mp history
  obtain ⟨last, rest, rfl, same, _⟩ := List.map_eq_cons_iff.mp later
  cases same
  exact ⟨first, rest, rfl, by rw [connectAll_newManager, earlier], rfl⟩

/-- The blacklist works in a run if and only if no call comes less than a day after a refusal by its
address. -/
theorem blacklistWorks_iff (requests : List Request) : BlacklistWorks (newManager.connectAll requests) ↔
    ∀ before request after, requests = before ++ request :: after → ¬ Early before request := by
  constructor
  · rintro works before request after rfl early
    have history : newManager.connectAll (before ++ request :: after) = newManager.connectAll before ++
        (request, (newManager.connectTo request.addr request.attempt).2) :: newManager.connectAll after := by
      simp only [connectAll_newManager, List.map_append, List.map_cons]
    obtain ⟨answered, _⟩ := works _ _ _ _ history
    rw [dialled_all] at answered
    have dials := (connectTo_newManager request.addr request.attempt).2
    rw [answered early] at dials
    contradiction
  · rintro spared before request connection after history
    obtain ⟨first, rest, rfl, rfl, rfl⟩ := connectAll_split history
    rw [dialled_all]
    exact ⟨fun early => absurd early (spared _ _ _ rfl), fun _ => (connectTo_newManager _ _).2⟩

/-- A node that knows no method of the manager is dialled again after one second. -/
theorem blacklist_ignored : ¬ ∀ requests, InOrder requests → BlacklistWorks (newManager.connectAll requests) := by
  intro works
  let refusal := "ssh: handshake failed: ssh: unable to authenticate, no supported methods remain"
  let addr : TCPAddr := ⟨some 0xfd2f0000000000000000000000000001, 22⟩
  let first : Request := ⟨addr, { started := 0, handshake := some refusal }⟩
  let second : Request := ⟨addr, { started := 10 ^ 9 }⟩
  have early : Early [first] second :=
    ⟨first, List.mem_singleton_self _, ⟨rfl, refusal, rfl, by decide⟩, rfl, by decide⟩
  obtain ⟨answered, _⟩ := works [first, second] (by decide) [(first, ⟨true, some refusal⟩)] second ⟨true, none⟩ [] rfl
  exact absurd (answered early) (by decide)

end FreifunkManager.Ssh
