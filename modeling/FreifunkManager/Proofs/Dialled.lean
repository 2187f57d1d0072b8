import FreifunkManager.Proofs.Interleaving

/-! # Which addresses are dialled

A node is dialled at the address that its report leaves in the copy of its row. This is an address with
the prefix that the node has reported, but it may be malformed or empty, and both are read as the nil
address. `dialled_iff` tells by the report and the stored address when a dial is as it should be.
-/

namespace FreifunkManager

open Effects Program Store

/-! ## The address after a report -/

section Address

variable (config : Config) (addresses : List String) (stored : String)

def hasPrefix (ip : String) : Bool := config.ipPrefix.toList.isPrefixOf ip.toList

/-- The address is well-formed and link-local. -/
def linkLocal (ip : String) : Bool := (IP.parse ip).any IP.isLinkLocalUnicast

/-- The addresses of a report that start with the prefix. -/
def candidates : List String := addresses.filter (hasPrefix config)

/-- Those of them that are preferred: all but the link-local ones, malformed ones included. -/
def preferred : List String := (candidates config addresses).filter (!linkLocal ·)

/-- The last preferred address is well-formed, or it is empty and a link-local one follows; if none is
preferred, the stored address is well-formed, or it is empty and there is a link-local one. -/
def Usable : Prop :=
  match (preferred config addresses).getLast? with
  | some ip => (IP.parse ip).isSome ∨ ip = "" ∧ (candidates config addresses).getLast? ≠ some ""
  | none => if stored = "" then candidates config addresses ≠ [] else (IP.parse stored).isSome

/-- The address stays empty. -/
private def Blank : Prop :=
  match (preferred config addresses).getLast? with
  | some ip => ip = "" ∧ (candidates config addresses).getLast? = some ""
  | none => stored = "" ∧ candidates config addresses = []

end Address

theorem candidates_concat (config : Config) (addresses : List String) (ip : String) :
    candidates config (addresses ++ [ip]) =
      candidates config addresses ++ if hasPrefix config ip then [ip] else [] := by
  simp only [candidates, List.filter_append, List.filter_cons, List.filter_nil]

theorem preferred_concat (config : Config) (addresses : List String) (ip : String) :
    preferred config (addresses ++ [ip]) =
      preferred config addresses ++ if hasPrefix config ip ∧ linkLocal ip = false then [ip] else [] := by
  rw [preferred, candidates_concat, List.filter_append, preferred]
  cases fits : hasPrefix config ip <;> cases local? : linkLocal ip <;> simp [local?]

theorem parse_empty : IP.parse "" = none := by decide

theorem considerAddress_eq (config : Config) (address ip : String) :
    Node.considerAddress config.ipPrefix address ip =
      if hasPrefix config ip then if address = "" ∨ linkLocal ip = false then ip else address else address := by
  unfold Node.considerAddress hasPrefix linkLocal
  cases config.ipPrefix.toList.isPrefixOf ip.toList with
  | false => rfl
  | true =>
    have global (addr : IP) (isGlobal : addr.isGlobalUnicast = true) : addr.isLinkLocalUnicast = false := by
      unfold IP.isGlobalUnicast at isGlobal
      simpa using (Bool.and_eq_true_iff.mp isGlobal).2
    cases parsed : IP.parse ip with
    | none => simp
    | some addr =>
      by_cases isGlobal : addr.isGlobalUnicast = true
      · simp [isGlobal, global addr isGlobal]
      · simp [isGlobal]

private theorem fold_address (config : Config) (addresses : List String) (stored : String) :
    let address := addresses.foldl (Node.considerAddress config.ipPrefix) stored
    ((IP.parse address).isSome ↔ Usable config addresses stored) ∧ (address = "" ↔ Blank config addresses stored) := by
  have empty := parse_empty
  induction addresses using List.reverseRecOn with
  | nil =>
    constructor
    · change _ ↔ if stored = "" then _ else _
      split <;> simp_all [candidates]
    · simp [Blank, preferred, candidates]
  | append_singleton addresses ip ih =>
    obtain ⟨parses, blank⟩ := ih
    dsimp only at parses blank ⊢
    rw [List.foldl_append, List.foldl_cons, List.foldl_nil, considerAddress_eq]
    generalize addresses.foldl (Node.considerAddress config.ipPrefix) stored = address at parses blank ⊢
    cases fits : hasPrefix config ip with
    | false =>
      have same : candidates config (addresses ++ [ip]) = candidates config addresses := by
        simp [candidates_concat, fits]
      rw [if_neg Bool.false_ne_true, Usable, Blank, preferred, same]
      exact ⟨parses, blank⟩
    | true =>
      have more : candidates config (addresses ++ [ip]) = candidates config addresses ++ [ip] := by
        simp [candidates_concat, fits]
      cases local? : linkLocal ip with
      | false =>
        simp [Usable, Blank, preferred, more, local?]
      | true =>
        have there : ip ≠ "" := by
          rintro rfl
          rw [linkLocal, empty] at local?
          contradiction
        have parsed : (IP.parse ip).isSome = true := by
          rw [linkLocal] at local?
          cases read : IP.parse ip with
          | none => rw [read] at local?; contradiction
          | some addr => rfl
        have same : preferred config (addresses ++ [ip]) = preferred config addresses := by
          simp [preferred_concat, local?]
        have last : (candidates config addresses ++ [ip]).getLast? = some ip := List.getLast?_concat ..
        unfold Usable Blank at *
        rw [same, more, last]
        -- a link-local address is taken if the address was empty, else it changes nothing
        generalize (preferred config addresses).getLast? = best at parses blank ⊢
        have other : some ip ≠ some "" := fun same => there (Option.some.inj same)
        by_cases was : address = ""
        · rw [if_pos rfl, if_pos (.inl was)]
          cases best with
          | some found => exact ⟨iff_of_true parsed (.inr ⟨(blank.mp was).1, other⟩), iff_of_false there (other ·.2)⟩
          | none =>
            rw [if_pos (blank.mp was).1]
            exact ⟨iff_of_true parsed (by simp), iff_of_false there (by simp)⟩
        · rw [if_pos rfl, if_neg (by simp [was])]
          cases best with
          | some found =>
            refine ⟨parses.trans (or_congr_right (and_congr_right fun unset => ?_)), iff_of_false was (other ·.2)⟩
            exact iff_of_true (fun last => was (blank.mpr ⟨unset, last⟩)) other
          | none =>
            refine ⟨parses.trans ?_, iff_of_false was (by simp)⟩
            by_cases unset : stored = ""
            · rw [if_pos unset, if_pos unset]
              exact iff_of_true (fun nothing => was (blank.mpr ⟨unset, nothing⟩)) (by simp)
            · rw [if_neg unset, if_neg unset]

/-- A report leaves a well-formed address if and only if it has a usable one. -/
theorem parse_address (config : Config) (addresses : List String) (stored : String) :
    (IP.parse (addresses.foldl (Node.considerAddress config.ipPrefix) stored)).isSome ↔
      Usable config addresses stored := (fold_address config addresses stored).1

/-- The address after a report is the stored one or one of the report with the prefix. -/
theorem address_cases (config : Config) (addresses : List String) (stored : String) :
    addresses.foldl (Node.considerAddress config.ipPrefix) stored = stored ∨
      addresses.foldl (Node.considerAddress config.ipPrefix) stored ∈ candidates config addresses := by
  induction addresses using List.reverseRecOn with
  | nil => exact .inl rfl
  | append_singleton addresses ip ih =>
    have stays : candidates config addresses ⊆ candidates config (addresses ++ [ip]) := by simp [candidates]
    rw [List.foldl_append, List.foldl_cons, List.foldl_nil, considerAddress_eq]
    split
    · next fits =>
      split
      · exact .inr (by simp [candidates, fits])
      · exact ih.imp id (stays ·)
    · exact ih.imp id (stays ·)

/-! ## The history of dials -/

/-- The node has reported this address, which starts with the prefix. -/
def OwnAddress (config : Config) (log : List Event) (nodeID address : String) : Prop :=
  ∃ e ∈ log, ∃ n nodeinfo, e.call = .report n ∧ n.nodeinfo = some nodeinfo ∧ nodeinfo.nodeID = nodeID ∧
    address ∈ candidates config nodeinfo.addresses

/-- The target of a dial is one of the node's own addresses. -/
def GoesToNode (config : Config) (log : List Event) (nodeID : String) (addr : TCPAddr) : Prop :=
  ∃ address ip, OwnAddress config log nodeID address ∧ IP.parse address = some ip ∧ addr.ip = some ip

/-- The address in the row that the report in progress has read; empty if there was none. -/
def storedAddress : List Event → String
  | [] => ""
  | ⟨.report _, .firstNode _, reply, _⟩ :: _ => (reply.map Row.address).getD ""
  | _ :: older => storedAddress older

/-- The report that an event dials for, and the target. -/
def Event.dials : Event → Option (Yanic.Nodeinfo × TCPAddr)
  | ⟨.report n, .connectTo addr, _, _⟩ => n.nodeinfo.map (·, addr)
  | _ => none

/-- A report that does not name its node finds no row. -/
def Named (call : Call) (choice : Choice) (op : Op) (w : World) : Prop :=
  match call, op with
  | .report _, .firstNode "" => (w.act choice (.firstNode "")).1 = none
  | _, _ => True

theorem Named.ne_empty {n : Yanic.Node} {choice : Choice} {nodeID : String} {w : World} {row : Row}
    (named : Named (.report n) choice (.firstNode nodeID) w) (found : (w.act choice (.firstNode nodeID)).1 = some row) :
    nodeID ≠ "" := by
  rintro rfl
  rw [show (w.act choice (.firstNode "")).1 = none from named] at found
  contradiction

theorem Event.dials_eq_some {e : Event} {nodeinfo : Yanic.Nodeinfo} {addr : TCPAddr}
    (dials : e.dials = some (nodeinfo, addr)) :
    e.op = .connectTo addr ∧ ∃ n, e.call = .report n ∧ n.nodeinfo = some nodeinfo := by
  unfold Event.dials at dials
  split at dials
  · next n _ _ _ =>
    obtain ⟨found, known, same⟩ := Option.map_eq_some_iff.mp dials
    cases same
    exact ⟨rfl, n, rfl, known⟩
  · contradiction

theorem OwnAddress.mono {config : Config} {log older : List Event} {nodeID address : String} (grown : older <:+ log)
    (own : OwnAddress config older nodeID address) : OwnAddress config log nodeID address := by
  obtain ⟨e, member, rest⟩ := own
  exact ⟨e, grown.subset member, rest⟩

/-- An address that may stand in the row of a node. -/
def MayBeStored (config : Config) (log : List Event) (nodeID address : String) : Prop :=
  address = "" ∨ OwnAddress config log nodeID address

theorem MayBeStored.mono {config : Config} {log older : List Event} {nodeID address : String} (grown : older <:+ log)
    (stored : MayBeStored config older nodeID address) : MayBeStored config log nodeID address :=
  stored.imp id (OwnAddress.mono grown)

/-- Stored addresses are the nodes' own, and dials were as they should be whenever there was a usable
address. -/
structure DialsAsReported (config : Config) (w : World) : Prop where
  stored : ∀ nodeID row, w.nodes.lookup nodeID = some row → MayBeStored config w.log nodeID row.address
  dials : ∀ newer e older nodeinfo addr, w.log = newer ++ e :: older → e.dials = some (nodeinfo, addr) →
    (GoesToNode config (e :: older) nodeinfo.nodeID addr ↔ Usable config nodeinfo.addresses (storedAddress older))

/-- The log grows, and messages do not read for a report. -/
def GrowsLog : Worker → World → World → Prop
  | .handler, before, after => before.log <:+ after.log
  | .reporter, before, after => before.log <:+ after.log ∧ storedAddress after.log = storedAddress before.log

section Dials

variable {config : Config} {w : World} {choice : Choice} {op : Op} {call : Call}

/-- An operation keeps the invariant if it stores an own address and dials the reported one. -/
theorem handle_dials (holds : DialsAsReported config w)
    (stored : ∀ nodeID row, (w.handle call choice op).2.nodes.lookup nodeID = some row →
      (w.nodes.lookup nodeID).map Row.address = some row.address ∨
        MayBeStored config (w.handle call choice op).2.log nodeID row.address)
    (dials : ∀ nodeinfo addr, (w.event call choice op).dials = some (nodeinfo, addr) →
      (GoesToNode config (w.event call choice op :: w.log) nodeinfo.nodeID addr ↔
        Usable config nodeinfo.addresses (storedAddress w.log))) :
    DialsAsReported config (w.handle call choice op).2 where
  stored nodeID row found := by
    refine (stored nodeID row found).elim (fun same => ?_) id
    obtain ⟨old, there, same⟩ := Option.map_eq_some_iff.mp same
    rw [← same]
    exact (holds.stored nodeID old there).mono (List.suffix_cons ..)
  dials newer e older nodeinfo addr split dial := by
    rw [w.handle_log] at split
    cases newer with
    | nil =>
      obtain ⟨rfl, rfl⟩ := List.cons.inj split
      exact dials nodeinfo addr dial
    | cons first newer => exact holds.dials newer e older nodeinfo addr (List.cons.inj split).2 dial

/-- A message keeps the invariant if it writes an own address. -/
theorem message_dials (msg : Message) (holds : DialsAsReported config w)
    (unchanged : (w.event (.message msg) choice op).changed = none)
    (writes : ∀ row, (w.event (.message msg) choice op).written = some row →
      MayBeStored config w.log row.nodeID row.address) :
    Pool.Kept (DialsAsReported config) GrowsLog .handler w (w.handle (.message msg) choice op).2 := by
  refine ⟨handle_dials holds (fun nodeID row found => ?_) (fun nodeinfo addr dial => ?_), fun other different => ?_⟩
  · rw [w.lookup_handle, Event.rowAfter, unchanged] at found
    cases written : (w.event (.message msg) choice op).written with
    | none =>
      rw [written] at found
      exact .inl (congrArg (Option.map Row.address) found)
    | some new =>
      rw [written] at found
      dsimp only at found
      split at found
      · next same =>
        cases found
        exact .inr (same ▸ (writes _ written).mono (List.suffix_cons ..))
      · exact .inl (congrArg (Option.map Row.address) found)
  · obtain ⟨_, n, report, _⟩ := Event.dials_eq_some dial
    contradiction
  · cases other with
    | handler => contradiction
    | reporter => exact ⟨List.suffix_cons .., rfl⟩

/-- What a report of a node with this stored address stores and dials. -/
def DialsReported (config : Config) (nodeinfo : Yanic.Nodeinfo) (stored : String) : Op → Prop
  | .connectTo addr => addr = { ip := IP.parse (reportedAddress config nodeinfo stored), port := 22 }
  | .updateNode key (.observed address _) => key = nodeinfo.nodeID ∧ address = reportedAddress config nodeinfo stored
  | .createNode row => row.nodeID = nodeinfo.nodeID ∧ row.address = reportedAddress config nodeinfo stored
  | .saveNode _ | .firstNode _ => False
  | _ => True

/-- The copy of a report has the address that was stored. -/
def Copied (config : Config) (nodeID stored : String) (w : World) : Prop :=
  storedAddress w.log = stored ∧ MayBeStored config w.log nodeID stored

theorem Copied.stable {nodeID stored : String} {before after : World} (copied : Copied config nodeID stored before)
    (grown : GrowsLog .reporter before after) : Copied config nodeID stored after :=
  ⟨grown.2.trans copied.1, copied.2.mono grown.1⟩

theorem goesToNode_iff {log : List Event} {nodeID address : String} (stored : MayBeStored config log nodeID address) :
    GoesToNode config log nodeID { ip := IP.parse address, port := 22 } ↔ (IP.parse address).isSome := by
  constructor
  · rintro ⟨_, ip, _, _, same⟩
    exact Option.isSome_iff_exists.mpr ⟨ip, same⟩
  · intro parsed
    obtain ⟨ip, parsed⟩ := Option.isSome_iff_exists.mp parsed
    refine ⟨address, ip, stored.resolve_left ?_, parsed, parsed⟩
    rintro rfl
    rw [parse_empty] at parsed
    contradiction

/-- A report keeps the invariant, if it names the node or updates no row. -/
theorem report_dials {n : Yanic.Node} {nodeinfo : Yanic.Nodeinfo} (known : n.nodeinfo = some nodeinfo)
    (named : ∀ key columns, op = .updateNode key columns → nodeinfo.nodeID ≠ "") {stored : String}
    (holds : DialsAsReported config w)
    (copied : Copied config nodeinfo.nodeID stored w) (reported : DialsReported config nodeinfo stored op) :
    Pool.Kept (DialsAsReported config) GrowsLog .reporter w (w.handle (.report n) choice op).2 ∧
      Copied config nodeinfo.nodeID stored (w.handle (.report n) choice op).2 := by
  have own : MayBeStored config (w.handle (.report n) choice op).2.log nodeinfo.nodeID
      (reportedAddress config nodeinfo stored) := by
    rcases address_cases config nodeinfo.addresses stored with same | candidate
    · rw [reportedAddress, same]
      exact copied.2.mono (List.suffix_cons ..)
    · exact .inr ⟨w.event (.report n) choice op, List.mem_cons_self, n, nodeinfo, rfl, known, rfl, candidate⟩
  refine ⟨⟨handle_dials holds (fun nodeID row found => ?_) (fun info addr dial => ?_), fun other different => ?_⟩,
    ?_, copied.2.mono (List.suffix_cons ..)⟩
  · rw [w.lookup_handle, Event.rowAfter] at found
    cases written : (w.event (.report n) choice op).written with
    | some new =>
      rcases w.written_cases _ choice written with rfl | ⟨rfl, _⟩
      · exact reported.elim
      · rw [written] at found
        dsimp only at found
        split at found
        · next same =>
          cases found
          rw [← same, reported.1, reported.2]
          exact .inr own
        · exact .inl (congrArg (Option.map Row.address) found)
    | none =>
      rw [written] at found
      cases changed : (w.event (.report n) choice op).changed with
      | none =>
        rw [changed] at found
        exact .inl (congrArg (Option.map Row.address) found)
      | some change =>
        obtain ⟨key, columns⟩ := change
        obtain rfl := w.changed_cases _ choice changed
        rw [changed] at found
        dsimp only at found
        split at found
        · next concerned =>
          obtain ⟨old, there, rfl⟩ := Option.map_eq_some_iff.mp found
          cases columns with
          | observed address lastseen =>
            obtain ⟨rfl, rfl⟩ := reported
            rw [← concerned.resolve_left (named _ _ rfl)]
            exact .inr own
          | blacklist time => exact .inl (by rw [there]; rfl)
        · exact .inl (congrArg (Option.map Row.address) found)
  · obtain ⟨connects, n', report, known'⟩ := Event.dials_eq_some dial
    cases report
    obtain rfl := Option.some.inj (known.symm.trans known')
    obtain rfl : op = .connectTo addr := connects
    obtain rfl := reported
    exact (goesToNode_iff own).trans (by rw [reportedAddress, parse_address, copied.1])
  · cases other with
    | reporter => contradiction
    | handler => exact List.suffix_cons ..
  · rw [← copied.1]
    cases op <;> first | rfl | contradiction

/-- Reading the row of a node does no harm, nor does reading the clock. -/
theorem report_reads (n : Yanic.Node) (holds : DialsAsReported config w) (reads : op.writesNodes = false)
    (notDial : ∀ addr, op ≠ .connectTo addr) :
    Pool.Kept (DialsAsReported config) GrowsLog .reporter w (w.handle (.report n) choice op).2 := by
  refine ⟨handle_dials holds (fun nodeID row found => ?_) (fun info addr dial => ?_), fun other different => ?_⟩
  · rw [w.handle_nodes, w.act_nodes choice reads] at found
    exact .inl (congrArg (Option.map Row.address) found)
  · exact absurd (Event.dials_eq_some dial).1 (notDial addr)
  · cases other with
    | reporter => contradiction
    | handler => exact List.suffix_cons ..

theorem report_dialled (n : Yanic.Node) (w : World) :
    (pool config).Guarded Named (DialsAsReported config) GrowsLog .reporter (.report n) (fun _ _ => True)
      ((pool config).program (.report n)) w := by
  refine guarded_report n (fun clock choice before holds => report_reads n holds rfl fun _ same => by contradiction)
    (fun nodeinfo now choice before known holds named => ?_) w
  have goesOn (stored : String) {allowed : Op → Prop} {program : Prog (Except Panic Unit)} {w : World}
      (only : Only allowed program) (reported : ∀ op, allowed op → DialsReported config nodeinfo stored op)
      (names : ∀ key columns, allowed (.updateNode key columns) → nodeinfo.nodeID ≠ "")
      (copied : Copied config nodeinfo.nodeID stored w) :
      (pool config).Guarded Named (DialsAsReported config) GrowsLog .reporter (.report n)
        (fun _ _ => True) program w :=
    (guarded_only only (Copied config nodeinfo.nodeID stored) (fun _ _ => Copied.stable)
      (fun op choice before asks holds copied _ =>
        report_dials known (fun _ _ same => names _ _ (same ▸ asks)) holds copied (reported op asks))
      copied).mono fun _ _ _ => trivial
  refine ⟨report_reads n holds rfl fun _ same => by contradiction, fun row program found only => ?_, fun missing => ?_⟩
  · obtain ⟨there, same⟩ := before.firstNode_found choice found
    have named : nodeinfo.nodeID ≠ "" := Named.ne_empty named found
    have same := same named
    refine goesOn row.address only (fun op refreshes => ?_) (fun _ _ _ => named) ⟨?_, ?_⟩
    · cases op with
      | updateNode key columns =>
        cases columns with
        | observed address lastseen => exact ⟨refreshes.1.trans same, refreshes.2.1⟩
        | blacklist time => trivial
      | connectTo addr => exact refreshes
      | _ => trivial
    · change storedAddress (⟨.report n, .firstNode nodeinfo.nodeID, (before.act choice (.firstNode nodeinfo.nodeID)).1,
        choice.time⟩ :: before.log) = row.address
      rw [found]
      rfl
    · rw [← same]
      exact (holds.stored row.nodeID row there).mono (List.suffix_cons ..)
  · refine goesOn "" ((learnNew_only known now).weaken fun _ => And.left) (fun op learns => ?_)
      (fun _ _ learns => learns.elim) ⟨?_, .inl rfl⟩
    · cases op with
      | createNode row => exact ⟨learns.1.nodeID, learns.1.address⟩
      | connectTo addr => exact learns
      | _ => trivial
    · change storedAddress (⟨.report n, .firstNode nodeinfo.nodeID, (before.act choice (.firstNode nodeinfo.nodeID)).1,
        choice.time⟩ :: before.log) = ""
      rw [missing]
      rfl

/-- The copy of an edit has an address of its node. -/
def HoldsOwn (config : Config) (copy : Row) (w : World) : Prop := MayBeStored config w.log copy.nodeID copy.address

theorem message_reads (msg : Message) (holds : DialsAsReported config w) (reads : op.writesNodes = false) :
    Pool.Kept (DialsAsReported config) GrowsLog .handler w (w.handle (.message msg) choice op).2 := by
  obtain ⟨written, changed⟩ := w.event_reads (.message msg) choice reads
  exact message_dials msg holds changed fun row own => by rw [written] at own; contradiction

theorem edit_dialled (msg : Message) (node : Node) (w : World) :
    (pool config).Guarded Named (DialsAsReported config) GrowsLog .handler (.message msg)
      (fun _ _ => True) (saveEdit node >>= announceEdit config msg node) w := by
  have announce (saved : Bool) (w : World) : (pool config).Guarded Named (DialsAsReported config)
      GrowsLog .handler (.message msg) (fun _ _ => True) (announceEdit config msg node saved) w := by
    refine guarded_only (announceEdit_only config msg node saved) (fun _ => True) (fun _ _ _ _ => trivial) ?_ trivial
    exact fun op choice before announces holds _ _ => ⟨message_reads msg holds announces.reads, trivial⟩
  apply guarded_edit (fun _ => True) (HoldsOwn config)
  · exact fun _ _ _ _ => trivial
  · exact fun copy before after own grown => own.mono grown
  · refine fun choice before holds _ _ =>
      ⟨message_dials msg holds rfl fun _ _ => by contradiction, trivial, fun copy found => ?_⟩
    exact (holds.stored _ copy (before.firstNode_found choice found).1).mono (List.suffix_cons ..)
  · refine fun copy choice before holds own _ => ⟨message_dials msg holds rfl fun row written => ?_, announce _ _⟩
    rcases before.written_cases _ choice written with same | ⟨other, _⟩
    · cases same
      exact own
    · contradiction
  · refine fun choice before holds _ _ => ⟨message_dials msg holds rfl fun row written => ?_, announce _ _⟩
    rcases before.written_cases _ choice written with other | ⟨same, _⟩
    · contradiction
    · cases same
      exact .inl rfl
  · trivial

end Dials

/-- In every run from an empty nodes table in which no report without a node id finds a row, a dial goes to one
of the node's own addresses if and only if there was a usable address. -/
theorem dialled_iff (config : Config) {w : World} (empty : w.nodes = .empty) (fresh : w.log = [])
    {s : Snapshot operations Worker Call (Except Panic Unit) World}
    (reached : (pool config).Reachable (Pool.Admits (fun _ => True) Named) (idle w) s) {newer older : List Event}
    {e : Event} (split : s.shared.log = newer ++ e :: older) {nodeinfo : Yanic.Nodeinfo} {addr : TCPAddr}
    (dial : e.dials = some (nodeinfo, addr)) :
    GoesToNode config (e :: older) nodeinfo.nodeID addr ↔ Usable config nodeinfo.addresses (storedAddress older) := by
  have starts (worker : Worker) (call : Call) (current : World) (accepted : (pool config).accepts worker call = true)
      (_ : True) (_ : DialsAsReported config current) (_ : True) : (pool config).Guarded Named
        (DialsAsReported config) GrowsLog worker call (fun _ _ => True) ((pool config).program call) current := by
    cases worker <;> cases call <;> try contradiction
    · exact report_dialled _ current
    · refine guarded_message _ (fun _ _ _ _ => trivial) (fun op choice before aside holds _ _ => ?_)
        (fun node _ _ w _ => edit_dialled _ node w) trivial
      exact ⟨message_reads _ holds aside.reads, trivial⟩
  have initially : DialsAsReported config w := by
    constructor
    · intro nodeID row found
      rw [empty] at found
      contradiction
    · intro newer e older nodeinfo addr split
      rw [fresh] at split
      exact absurd split.symm (by simp)
  exact (reached.guarded (DialsAsReported config) GrowsLog (fun _ _ => True) starts (fun _ _ _ _ _ => trivial) initially
    fun _ => ⟨rfl, trivial⟩).1.dials newer e older nodeinfo addr split dial

/-- A first report, up to the dial. -/
def firstDial (n : Yanic.Node) : List (Action Worker Call Choice) :=
  .start .reporter (.report n) :: Sample.advance .reporter 4 60

/-- No lookup is by the empty node id. -/
def looksUpNamed : Op → Bool
  | .firstNode nodeID => nodeID != ""
  | _ => true

theorem named_of_looksUpNamed (call : Call) (choice : Choice) (op : Op) (w : World) (checked : looksUpNamed op = true) :
    Named call choice op w := by
  unfold Named
  split
  · contradiction
  · trivial

theorem dialled_first : ∃ s e older nodeinfo addr,
    (pool Sample.config).run (fun _ => true) (fun _ _ op _ => looksUpNamed op) (idle (Sample.world []))
      (firstDial (Sample.report "attic")) = some s ∧
    s.shared.log = e :: older ∧ e.dials = some (nodeinfo, addr) ∧
    (GoesToNode Sample.config (e :: older) nodeinfo.nodeID addr ↔
      Usable Sample.config nodeinfo.addresses (storedAddress older)) := by
  have ends : ((pool Sample.config).run (fun _ => true) (fun _ _ op _ => looksUpNamed op) (idle (Sample.world []))
      (firstDial (Sample.report "attic"))).any (fun s => (s.shared.log.head?.bind Event.dials).isSome) = true := by
    decide +kernel
  obtain ⟨s, replayed, dials⟩ := (Option.any_eq_true _ _).mp ends
  obtain ⟨⟨nodeinfo, addr⟩, dials⟩ := Option.isSome_iff_exists.mp dials
  obtain ⟨e, first, dials⟩ := Option.bind_eq_some_iff.mp dials
  obtain ⟨older, split⟩ := List.head?_eq_some_iff.mp first
  exact ⟨s, e, older, nodeinfo, addr, replayed, split, dials, dialled_iff Sample.config (w := Sample.world []) rfl rfl
    (.of_run replayed (fun _ _ => trivial) named_of_looksUpNamed)
    (show s.shared.log = [] ++ e :: older from split) dials⟩

/-- The first report of a node that has no address with the prefix. -/
def strayReport : Yanic.Node := { nodeinfo := some { nodeID := "f81a67a5e9c1", addresses := ["192.0.2.1"] } }

/-- A node without a known address is dialled, at the nil address. -/
theorem dialled_nowhere : ¬ ∀ (config : Config) (w : World)
    (s : Snapshot operations Worker Call (Except Panic Unit) World),
    w.nodes = .empty → w.log = [] →
    (pool config).Reachable (Pool.Admits (fun _ => True) Named) (idle w) s →
    ∀ newer e older nodeinfo addr, s.shared.log = newer ++ e :: older → Event.dials e = some (nodeinfo, addr) →
      GoesToNode config (e :: older) nodeinfo.nodeID addr := by
  intro owns
  have nowhere : ((pool Sample.config).run (fun _ => true) (fun _ _ op _ => looksUpNamed op) (idle (Sample.world []))
      (firstDial strayReport)).any (fun s =>
        (s.shared.log.head?.bind Event.dials).any fun (_, addr) => addr.ip.isNone) = true := by decide +kernel
  obtain ⟨s, replayed, dials⟩ := (Option.any_eq_true _ _).mp nowhere
  obtain ⟨⟨nodeinfo, addr⟩, dials, unparsed⟩ := (Option.any_eq_true _ _).mp dials
  obtain ⟨e, first, dials⟩ := Option.bind_eq_some_iff.mp dials
  obtain ⟨older, split⟩ := List.head?_eq_some_iff.mp first
  obtain ⟨_, ip, _, _, parsed⟩ := owns Sample.config (Sample.world []) s rfl rfl
    (.of_run replayed (fun _ _ => trivial) named_of_looksUpNamed) [] e older nodeinfo addr split dials
  rw [Option.isNone_iff_eq_none.mp unparsed] at parsed
  contradiction

end FreifunkManager
