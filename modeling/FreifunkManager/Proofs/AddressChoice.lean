import FreifunkManager.Proofs.Dialled

/-! # Which address a report leaves

An address is taken unless it is link-local, so the last one that is not decides, be it malformed or
not. `prefersUsable_iff` tells for which reports this is a usable address if there is one.
-/

namespace FreifunkManager

section Choice

variable (config : Config) (addresses : List String) (stored : String)

/-- The address after a report with these addresses. -/
def addressAfter : String := addresses.foldl (Node.considerAddress config.ipPrefix) stored

/-- The address parses as a global unicast address. -/
def isGlobal (ip : String) : Bool := (IP.parse ip).any IP.isGlobalUnicast

/-- The address parses and is not link-local. -/
def isUsable (ip : String) : Bool := (IP.parse ip).any (!IP.isLinkLocalUnicast ·)

/-- The address is malformed, or it is of no use for reaching a node. -/
def isUseless (ip : String) : Bool :=
  (IP.parse ip).all fun addr => addr.isLinkLocalUnicast || addr.isLoopback || addr.isMulticast

/-- What is expected of the address after a report. -/
structure PrefersUsable (address : String) : Prop where
  reported : address = stored ∨ address ∈ addresses ∧ hasPrefix config address = true
  global : (∃ ip ∈ addresses, hasPrefix config ip = true ∧ isGlobal ip = true) →
    address ∈ addresses ∧ hasPrefix config address = true ∧ isGlobal address = true
  kept : isUsable stored = true → address = stored ∨ isUseless address = false

/-- The last of the addresses with the prefix that is not link-local, if there is one, is global unicast; or none
is, and it does no harm either. -/
def LastUsable : Prop :=
  ∀ ip, (preferred config addresses).getLast? = some ip → isGlobal ip = true ∨
    (∀ other ∈ candidates config addresses, isGlobal other = false) ∧
      (isUsable stored = true → ip = stored ∨ isUseless ip = false)

end Choice

theorem linkLocal_eq_true {ip : String} :
    linkLocal ip = true ↔ ∃ addr, IP.parse ip = some addr ∧ addr.isLinkLocalUnicast = true := by
  rw [linkLocal, Option.any_eq_true]

/-- A link-local address is useless, and neither usable nor global. -/
theorem linkLocal_useless {ip : String} (localAddress : linkLocal ip = true) :
    isUseless ip = true ∧ isUsable ip = false ∧ isGlobal ip = false := by
  obtain ⟨addr, parsed, unicast⟩ := linkLocal_eq_true.mp localAddress
  unfold isUseless isUsable isGlobal IP.isGlobalUnicast
  rw [parsed]
  simp [unicast]

theorem isGlobal_useful {ip : String} (global : isGlobal ip = true) : isUseless ip = false ∧ linkLocal ip = false := by
  unfold isGlobal IP.isGlobalUnicast at global
  obtain ⟨addr, parsed, unicast⟩ := Option.any_eq_true _ _ |>.mp global
  unfold isUseless linkLocal
  rw [parsed]
  simp_all

section Choice

variable {config : Config} {addresses : List String} {stored : String}

/-- The last preferred address stays, unless it is empty and a link-local one follows; without one the stored address
stays, unless it is empty. -/
theorem addressAfter_last :
    (∀ ip, (preferred config addresses).getLast? = some ip → addressAfter config addresses stored = ip ∨
      ip = "" ∧ linkLocal (addressAfter config addresses stored) = true) ∧
    ((preferred config addresses).getLast? = none → addressAfter config addresses stored = stored ∨ stored = "") := by
  unfold addressAfter
  induction addresses using List.reverseRecOn with
  | nil => exact ⟨by simp [preferred, candidates], fun _ => .inl rfl⟩
  | append_singleton addresses ip ih =>
    rw [List.foldl_append, List.foldl_cons, List.foldl_nil, considerAddress_eq]
    generalize addresses.foldl (Node.considerAddress config.ipPrefix) stored = address at ih ⊢
    cases fits : hasPrefix config ip with
    | false =>
      have same : preferred config (addresses ++ [ip]) = preferred config addresses := by simp [preferred_concat, fits]
      rw [if_neg Bool.false_ne_true, same]
      exact ih
    | true =>
      cases local? : linkLocal ip with
      | false =>
        have more : (preferred config (addresses ++ [ip])).getLast? = some ip := by
          simp [preferred_concat, fits, local?]
        rw [if_pos rfl, if_pos (.inr rfl), more]
        exact ⟨fun _ same => .inl (Option.some.inj same), fun none => absurd none (Option.some_ne_none ip)⟩
      | true =>
        have same : preferred config (addresses ++ [ip]) = preferred config addresses := by
          simp [preferred_concat, local?]
        rw [if_pos rfl, same]
        -- it is taken only if the address was empty
        split
        · next taken =>
          have empty : address = "" := taken.resolve_right (by simp)
          constructor
          · intro other last
            have blank : other = "" := (ih.1 other last).elim (fun same => same.symm.trans empty) And.left
            exact .inr ⟨blank, local?⟩
          · exact fun none => .inr ((ih.2 none).elim (fun same => same.symm.trans empty) id)
        · exact ih

theorem mem_candidates {ip : String} : ip ∈ candidates config addresses ↔ ip ∈ addresses ∧ hasPrefix config ip = true :=
  List.mem_filter

/-- A global address of the report is among the preferred ones. -/
theorem preferred_of_global {ip : String} (member : ip ∈ candidates config addresses) (global : isGlobal ip = true) :
    ∃ last, (preferred config addresses).getLast? = some last := by
  have there : ip ∈ preferred config addresses := List.mem_filter.mpr ⟨member, by simp [(isGlobal_useful global).2]⟩
  exact ⟨_, List.getLast?_eq_some_getLast (List.ne_nil_of_mem there)⟩

theorem isUsable_ne_empty {ip : String} (usable : isUsable ip = true) : ip ≠ "" := by
  rintro rfl
  rw [isUsable, parse_empty] at usable
  contradiction

theorem isUseless_empty : isUseless "" = true := by rw [isUseless, parse_empty]; rfl

theorem isGlobal_empty : isGlobal "" = false := by rw [isGlobal, parse_empty]; rfl

/-- The address after a report is as expected if and only if the last preferred one does no harm. -/
theorem addressAfter_iff : PrefersUsable config addresses stored (addressAfter config addresses stored) ↔
    LastUsable config addresses stored := by
  obtain ⟨last, nothing⟩ := @addressAfter_last config addresses stored
  have reported := address_cases config addresses stored
  rw [mem_candidates] at reported
  change addressAfter config addresses stored = stored ∨
    addressAfter config addresses stored ∈ addresses ∧ _ at reported
  constructor
  · intro expected ip isLast
    by_cases some : ∃ other ∈ candidates config addresses, isGlobal other = true
    · obtain ⟨other, member, global⟩ := some
      have chosen := (expected.global ⟨other, (mem_candidates.mp member).1, (mem_candidates.mp member).2, global⟩).2.2
      rcases last ip isLast with same | ⟨-, localAddress⟩
      · exact .inl (same ▸ chosen)
      · exact absurd chosen (by simp [linkLocal_useless localAddress])
    · refine .inr ⟨fun other member => Bool.eq_false_iff.mpr fun global => some ⟨other, member, global⟩,
        fun usable => ?_⟩
      have kept := expected.kept usable
      rcases last ip isLast with same | ⟨-, localAddress⟩
      · rwa [same] at kept
      · -- the stored address is not link-local, so it was replaced
        obtain ⟨useless, unusable, -⟩ := linkLocal_useless localAddress
        rcases kept with same | useful
        · exact absurd usable (by rw [← same, unusable]; decide)
        · exact absurd useless (by rw [useful]; decide)
  · intro usable
    refine ⟨reported, ?_, fun stays => ?_⟩
    · rintro ⟨other, member, fits, global⟩
      have candidate := mem_candidates.mpr ⟨member, fits⟩
      obtain ⟨ip, isLast⟩ := preferred_of_global candidate global
      rcases usable ip isLast with chosen | ⟨none, -⟩
      · have same : addressAfter config addresses stored = ip :=
          (last ip isLast).resolve_right fun empty => by simp [empty.1, isGlobal_empty] at chosen
        have there := mem_candidates.mp (List.mem_filter.mp (List.mem_of_getLast? isLast)).1
        rw [same]
        exact ⟨there.1, there.2, chosen⟩
      · exact absurd global (by rw [none other candidate]; decide)
    · have named := isUsable_ne_empty stays
      cases isLast : (preferred config addresses).getLast? with
      | none => exact .inl ((nothing isLast).resolve_right named)
      | some ip =>
        rcases usable ip isLast with chosen | ⟨-, kept⟩
        · have same : addressAfter config addresses stored = ip :=
            (last ip isLast).resolve_right fun empty => by simp [empty.1, isGlobal_empty] at chosen
          exact .inr (same ▸ (isGlobal_useful chosen).1)
        · rcases last ip isLast with same | ⟨rfl, -⟩
          · exact same ▸ kept stays
          · rcases kept stays with same | useful
            · exact absurd same.symm named
            · exact absurd useful (by rw [isUseless_empty]; decide)

end Choice

/-- A report leaves a usable address, if there is one, if and only if the last of its addresses with the prefix that is
not link-local is one. -/
theorem prefersUsable_iff (config : Config) (n : Node) {node : Yanic.Node} {nodeinfo : Yanic.Nodeinfo}
    (known : node.nodeinfo = some nodeinfo) (now : Time) :
    PrefersUsable config nodeinfo.addresses n.address (n.update (some node) config.ipPrefix now).address ↔
      LastUsable config nodeinfo.addresses n.address := by
  rw [Node.update_address n known]
  exact addressAfter_iff

theorem prefersUsable_report : PrefersUsable Sample.config ["fe80::1", "2001:db8::2"] "2001:db8::1"
    (Sample.row.node.update (some (Sample.report "attic")) Sample.config.ipPrefix 0).address := by
  have known : (Sample.report "attic").nodeinfo = some _ := rfl
  refine (prefersUsable_iff Sample.config Sample.row.node known 0).mpr fun ip isLast => ?_
  have last : (preferred Sample.config ["fe80::1", "2001:db8::2"]).getLast? = some "2001:db8::2" := by decide +kernel
  cases last.symm.trans isLast
  exact .inl (by decide +kernel)

/-- A malformed address after a good one. -/
theorem prefersUsable_malformed : ¬ ∀ (config : Config) (n : Node) (node : Yanic.Node) (nodeinfo : Yanic.Nodeinfo),
    node.nodeinfo = some nodeinfo → ∀ now : Time,
      PrefersUsable config nodeinfo.addresses n.address (n.update (some node) config.ipPrefix now).address := by
  intro claimed
  have expected := claimed Sample.config {}
      { nodeinfo := some { nodeID := "f81a67a5e9c1", addresses := ["2001:db8::1", "2001:db8::x"] } }
    _ rfl 0
  have chosen := expected.global ⟨"2001:db8::1", by decide +kernel⟩
  exact absurd chosen.2.2 (by decide +kernel)

end FreifunkManager
