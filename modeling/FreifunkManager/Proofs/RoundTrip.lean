import FreifunkManager.Model.Decoding
import FreifunkManager.Proofs.OtherSettings
import Mathlib.Data.List.Find

/-! # A node is decoded as it was sent

The encoder writes a node by its own tags, and `mapstructure` reads it by others. The two agree on what a user may set:
five of the properties are read, each into the field that it was written for, and nothing is read into the other
fields.
-/

namespace FreifunkManager

/-- The text in lower case, as far as its letters are in ASCII. -/
def folded (text : String) : List Char := text.toList.map Char.toLower

namespace Mapstructure

/-- What is documented of `mapstructure`. Case is a matter of more than the letters of ASCII, but not for names that are
written in them. -/
structure Documented (m : Mapstructure) : Prop where
  equalFold {s t : String} : Ascii s → Ascii t → (m.equalFold s t ↔ folded s = folded t)
  string (s : String) : m.string (.string s) = some s
  uint32 (n : UInt32) : m.uint32 (.uint32 n) = some n
  /-- A field whose property is null is left as it is. -/
  null : m.uint32 .null = some 0
  float64 (x : Binary64) : m.float64 (.number x) = some x

variable {m : Mapstructure} {fields given : List (String × Json)} {name key : String}

/-! ## Properties that are found -/

theorem Documented.matches_iff (documented : m.Documented) (plain : Ascii key) (ascii : Ascii name) :
    m.Matches key name ↔ folded key = folded name := by
  rw [Matches, documented.equalFold plain ascii]
  exact or_iff_right_of_imp (congrArg folded)

theorem mem_of_lookup {value : Json} (found : fields.lookup key = some value) : (key, value) ∈ fields := by
  obtain ⟨before, after, rfl, _⟩ := List.lookup_eq_some_iff.mp found
  exact List.mem_append_cons_self

theorem lookup_eq_find (key : String) (fields : List (String × Json)) :
    fields.lookup key = (fields.find? fun field => key == field.1).map Prod.snd := by
  induction fields with
  | nil => rfl
  | cons field rest ih =>
    rw [List.lookup_cons, List.find?_cons, ih]
    cases key == field.1 <;> rfl

theorem find_eq_lookup (matched : m.Matches key name)
    (only : ∀ field ∈ fields, m.Matches field.1 name → field.1 = key) :
    m.find name fields = fields.lookup key := by
  rw [find]
  cases own : fields.lookup name with
  | some value =>
    have same : name = key := only _ (mem_of_lookup own) (.inl rfl)
    rw [← same, own]
    rfl
  | none =>
    have folded : ∀ field ∈ fields, m.equalFold field.1 name = (key == field.1) := by
      intro field member
      rw [Bool.eq_iff_iff, beq_iff_eq]
      constructor
      · exact fun equal => (only field member (.inr equal)).symm
      · rintro rfl
        have other : field.1 ≠ name := fun same => bne_iff_ne.mp (List.lookup_eq_none_iff.mp own field member) same.symm
        exact matched.resolve_left other
    change (fields.find? fun field => m.equalFold field.1 name).map Prod.snd = _
    rw [List.find?_congr folded, lookup_eq_find]

theorem find_eq_none (nothing : ∀ field ∈ fields, ¬ m.Matches field.1 name) : m.find name fields = none := by
  rw [find_eq_lookup (.inl rfl) fun field member matched => absurd matched (nothing field member)]
  rw [List.lookup_eq_none_iff]
  exact fun field member => bne_iff_ne.mpr fun same => nothing field member (.inl same.symm)

theorem folded_lower (lower : LowerName key) : folded key = key.toList := by
  have same : (String.map Char.toLower key).toList = key.toList := congrArg String.toList lower.2
  rwa [String.toList_map] at same

/-- In an object whose names are in lower case, the property of a field is the one with its name in lower case. -/
theorem Documented.find_lower (documented : m.Documented) (lower : Lower fields) (ascii : Ascii name)
    (own : LowerName key) (same : folded name = key.toList) : m.find name fields = fields.lookup key := by
  apply find_eq_lookup ((documented.matches_iff own.1 ascii).mpr ((folded_lower own).trans same.symm))
  intro field member matched
  have equal := ((documented.matches_iff (lower field member).1 ascii).mp matched).trans same
  rwa [folded_lower (lower field member), String.toList_inj] at equal

/-! ## Structs of numbers -/

section Numbers

variable {numbers : List (String × Json)} (documented : m.Documented) (lower : Lower numbers)

include documented lower

theorem Documented.find_radio (r : RadioSetting) : m.find r.fieldName numbers = numbers.lookup r.name := by
  apply documented.find_lower lower _ (radio_lower r)
  · cases r <;> decide +kernel
  · cases r <;> decide +kernel

theorem Documented.find_coordinate (c : Coordinate) : m.find c.fieldName numbers = numbers.lookup c.name := by
  apply documented.find_lower lower _ (coordinate_lower c)
  · cases c <;> decide +kernel
  · cases c <;> decide +kernel

theorem Documented.wireless_object {wireless : WirelessSettings}
    (read : ∀ r : RadioSetting, (numbers.lookup r.name).elim (some 0) m.uint32 = some (r.get wireless)) :
    m.wireless (.object numbers) = some wireless := by
  have decoded (r : RadioSetting) : m.field numbers r.fieldName 0 m.uint32 = some (r.get wireless) := by
    rw [field, documented.find_radio lower, read]
  simp only [Mapstructure.wireless, struct, decoded]
  rfl

theorem Documented.location_object {location : Location}
    (read : ∀ c : Coordinate, (numbers.lookup c.name).elim (some .zero) m.float64 = some (c.get location)) :
    m.location (.object numbers) = some location := by
  have decoded (c : Coordinate) : m.field numbers c.fieldName .zero m.float64 = some (c.get location) := by
    rw [field, documented.find_coordinate lower, read]
  simp only [Mapstructure.location, struct, decoded]
  rfl

omit documented lower

theorem wireless_fields {wireless : WirelessSettings} (found : m.wireless (.object numbers) = some wireless)
    (r : RadioSetting) : m.field numbers r.fieldName 0 m.uint32 = some (r.get wireless) := by
  obtain ⟨txPower24, first, found⟩ := Option.bind_eq_some_iff.mp found
  obtain ⟨channel24, second, found⟩ := Option.bind_eq_some_iff.mp found
  obtain ⟨txPower5, third, found⟩ := Option.bind_eq_some_iff.mp found
  obtain ⟨channel5, fourth, found⟩ := Option.bind_eq_some_iff.mp found
  cases found
  cases r
  · exact first
  · exact second
  · exact third
  · exact fourth

theorem location_fields {location : Location} (found : m.location (.object numbers) = some location) (c : Coordinate) :
    m.field numbers c.fieldName .zero m.float64 = some (c.get location) := by
  obtain ⟨longitude, first, found⟩ := Option.bind_eq_some_iff.mp found
  obtain ⟨latitude, second, found⟩ := Option.bind_eq_some_iff.mp found
  obtain ⟨altitude, third, found⟩ := Option.bind_eq_some_iff.mp found
  cases found
  cases c
  · exact first
  · exact second
  · exact third

end Numbers

/-! ## Nodes -/

/-- The properties of a node that are read. -/
def readKeys : List String := ["node_id", "hostname", "owner", "location", "wireless"]

/-- The property that is taken for a field. -/
def keyOf (name : String) : Option String := readKeys.find? fun key => folded key = folded name

theorem keyOf_fieldNames : Node.fieldNames.map keyOf = [none, some "node_id", none, none, some "hostname", none,
    some "owner", none, some "location", none, some "wireless", none] := by
  decide +kernel

theorem fieldNames_ascii : ∀ name ∈ Node.fieldNames, Ascii name := by decide +kernel

/-- Every property that is read has one value, and all others are passed over. -/
structure Reads (m : Mapstructure) (given : List (String × Json)) (value : String → Json) : Prop where
  there : ∀ key ∈ readKeys, (key, value key) ∈ given
  only : ∀ field ∈ given, field.1 ∈ readKeys ∧ field.2 = value field.1 ∨ m.Extra field.1

theorem setField_absent (absent : name ∉ fields.map Prod.fst) (value : Json) :
    Json.setField name value fields = fields ++ [(name, value)] := by
  induction fields with
  | nil => rfl
  | cons field rest ih =>
    rw [List.map_cons, List.mem_cons, not_or] at absent
    rw [Json.setField, if_neg (Ne.symm absent.1), ih absent.2]
    rfl

/-- In an object without doubled names, what is found is all there is. -/
theorem lookup_of_mem (unique : (fields.map Prod.fst).Nodup) {field : String × Json} (member : field ∈ fields) :
    fields.lookup field.1 = some field.2 := by
  induction fields with
  | nil => contradiction
  | cons first rest ih =>
    rw [List.map_cons, List.nodup_cons] at unique
    obtain rfl | later := List.mem_cons.mp member
    · exact List.lookup_cons_self
    · have different : field.1 ≠ first.1 := fun same => unique.1 (same ▸ List.mem_map_of_mem later)
      exact (lookup_cons_ne different _ _).trans (ih unique.2 later)

section Nodes

variable {value : String → Json}

theorem reads_of_lookup (unique : (fields.map Prod.fst).Nodup)
    (known : ∀ key ∈ fields.map Prod.fst, key ∈ readKeys ∨ m.Extra key)
    (found : ∀ key ∈ readKeys, fields.lookup key = some (value key)) : m.Reads fields value where
  there key listed := mem_of_lookup (found key listed)
  only field member := by
    obtain listed | extra := known field.1 (List.mem_map_of_mem member)
    · exact .inl ⟨listed, Option.some.inj ((lookup_of_mem unique member).symm.trans (found _ listed))⟩
    · exact .inr extra

theorem Reads.more (reads : m.Reads fields value) (kept : ∀ field ∈ fields, field ∈ given)
    (added : ∀ field ∈ given, field ∈ fields ∨ m.Extra field.1) : m.Reads given value where
  there key listed := kept _ (reads.there key listed)
  only field member := (added field member).elim (reads.only field) .inr

variable (documented : m.Documented)

include documented

theorem Reads.find (reads : m.Reads given value) (known : name ∈ Node.fieldNames) :
    m.find name given = (keyOf name).map value := by
  have plain : ∀ key ∈ readKeys, Ascii key := by decide +kernel
  have matches_iff (key : String) (listed : key ∈ readKeys) : m.Matches key name ↔ folded key = folded name :=
    documented.matches_iff (plain key listed) (fieldNames_ascii name known)
  cases found : keyOf name with
  | none =>
    apply find_eq_none
    intro field member matched
    obtain ⟨listed, _⟩ | extra := reads.only field member
    · have other := List.find?_eq_none.mp found field.1 listed
      exact other (decide_eq_true ((matches_iff _ listed).mp matched))
    · exact extra name known matched
  | some key =>
    have apart : ∀ key ∈ readKeys, ∀ other ∈ readKeys, folded other = folded key → other = key := by decide +kernel
    have listed : key ∈ readKeys := List.mem_of_find?_eq_some found
    have same := List.find?_some found
    rw [decide_eq_true_iff] at same
    have matched : m.Matches key name := (matches_iff key listed).mpr same
    rw [find_eq_lookup matched]
    · cases looked : given.lookup key with
      | none => exact absurd rfl (bne_iff_ne.mp (List.lookup_eq_none_iff.mp looked _ (reads.there key listed)))
      | some taken =>
        obtain ⟨_, own⟩ | extra := reads.only _ (mem_of_lookup looked)
        · exact congrArg some own
        · exact absurd matched (extra name known)
    · intro field member matched
      obtain ⟨other, _⟩ | extra := reads.only field member
      · exact apart key listed field.1 other (((matches_iff _ other).mp matched).trans same.symm)
      · exact absurd matched (extra name known)

theorem Reads.decodeNode (reads : m.Reads given value) {nodeID hostname owner : String} {located radios : Json}
    {location : Location} {wireless : WirelessSettings}
    (values : readKeys.map value = [.string nodeID, .string hostname, .string owner, located, radios])
    (location_read : m.location located = some location) (wireless_read : m.wireless radios = some wireless) :
    m.decodeNode (.object given) = some { nodeID, hostname, owner, location, wireless } := by
  have found : Node.fieldNames.map (m.find · given) = (Node.fieldNames.map keyOf).map (Option.map value) := by
    rw [List.map_map]
    exact List.map_congr_left fun name known => reads.find documented known
  simp only [readKeys, List.map_cons, List.cons.injEq] at values
  obtain ⟨nodeID_value, hostname_value, owner_value, location_value, wireless_value, _⟩ := values
  rw [keyOf_fieldNames] at found
  simp only [Node.fieldNames, List.map_cons, List.cons.injEq, Option.map_none, Option.map_some, nodeID_value,
    hostname_value, owner_value, location_value, wireless_value] at found
  simp only [Mapstructure.decodeNode, struct, field, found, Option.elim_none, Option.elim_some, documented.string,
    location_read, wireless_read]
  rfl

end Nodes

theorem decodeNode_fields {node : Node} (found : m.decodeNode (.object fields) = some node) :
    m.field fields "node_id" "" m.string = some node.nodeID ∧
    m.field fields "Hostname" "" m.string = some node.hostname ∧
      m.field fields "Owner" "" m.string = some node.owner ∧
      m.field fields "Location" {} m.location = some node.location ∧
        m.field fields "Wireless" {} m.wireless = some node.wireless := by
  obtain ⟨_, _, found⟩ := Option.bind_eq_some_iff.mp found
  obtain ⟨_, nodeID, found⟩ := Option.bind_eq_some_iff.mp found
  obtain ⟨_, _, found⟩ := Option.bind_eq_some_iff.mp found
  obtain ⟨_, _, found⟩ := Option.bind_eq_some_iff.mp found
  obtain ⟨_, hostname, found⟩ := Option.bind_eq_some_iff.mp found
  obtain ⟨_, _, found⟩ := Option.bind_eq_some_iff.mp found
  obtain ⟨_, owner, found⟩ := Option.bind_eq_some_iff.mp found
  obtain ⟨_, _, found⟩ := Option.bind_eq_some_iff.mp found
  obtain ⟨_, location, found⟩ := Option.bind_eq_some_iff.mp found
  obtain ⟨_, _, found⟩ := Option.bind_eq_some_iff.mp found
  obtain ⟨_, wireless, found⟩ := Option.bind_eq_some_iff.mp found
  obtain ⟨_, _, found⟩ := Option.bind_eq_some_iff.mp found
  obtain ⟨_, _, found⟩ := Option.bind_eq_some_iff.mp found
  cases found
  exact ⟨nodeID, hostname, owner, location, wireless⟩

/-- What is assumed of the decoder elsewhere. -/
theorem Documented.decodes (documented : m.Documented) : Decodes m.decodeNode where
  nodeID {fields _ _} found lower written := by
    have own : m.find "node_id" fields = fields.lookup "node_id" :=
      documented.find_lower lower (by decide +kernel) (lowerName_literal rfl (by decide) (by decide))
      (by decide +kernel)
    have read := (decodeNode_fields found).1
    rw [field, own, written] at read
    exact Option.some.inj (read.symm.trans (documented.string _))
  text {fields _} t {_} found lower written := by
    obtain ⟨_, hostname, owner, _⟩ := decodeNode_fields found
    cases t with
    | hostname =>
      have own : m.find "Hostname" fields = fields.lookup Text.hostname.name :=
        documented.find_lower lower (by decide +kernel) (text_names .hostname).1 (by decide +kernel)
      rw [field, own, written] at hostname
      exact Option.some.inj (hostname.symm.trans (documented.string _))
    | owner =>
      have own : m.find "Owner" fields = fields.lookup Text.owner.name :=
        documented.find_lower lower (by decide +kernel) (text_names .owner).1 (by decide +kernel)
      rw [field, own, written] at owner
      exact Option.some.inj (owner.symm.trans (documented.string _))
  radio {fields numbers _} r found lower written lowerNumbers := by
    have own : m.find "Wireless" fields = fields.lookup "wireless" :=
      documented.find_lower lower (by decide +kernel) (lowerName_literal rfl (by decide) (by decide))
      (by decide +kernel)
    have read := (decodeNode_fields found).2.2.2.2
    rw [field, own, written] at read
    have number := wireless_fields read r
    rw [field, documented.find_radio lowerNumbers] at number
    constructor
    · intro n there
      rw [there] at number
      exact Option.some.inj (number.symm.trans (documented.uint32 n))
    · intro absent
      rw [absent] at number
      exact (Option.some.inj number).symm
  coordinate {fields numbers _} c found lower written lowerNumbers := by
    have own : m.find "Location" fields = fields.lookup "location" :=
      documented.find_lower lower (by decide +kernel) (lowerName_literal rfl (by decide) (by decide))
      (by decide +kernel)
    have read := (decodeNode_fields found).2.2.2.1
    rw [field, own, written] at read
    have number := location_fields read c
    rw [field, documented.find_coordinate lowerNumbers] at number
    constructor
    · intro x there
      rw [there] at number
      exact Option.some.inj (number.symm.trans (documented.float64 x))
    · intro absent
      rw [absent] at number
      exact (Option.some.inj number).symm

end Mapstructure

/-! ## What was sent -/

def nodeKeys : List String :=
  ["lastseen", "node_id", "ip", "hostname", "hostname_respondd", "owner", "owner_respondd", "location",
    "location_respondd", "wireless", "wireless_respondd", "statistics_respondd"]

section Sent

open Mapstructure

variable {m : Mapstructure} {forms : Forms} {node : Node} {fields given : List (String × Json)}
variable (documented : m.Documented)

include documented

theorem extra_of_apart {key : String} (plain : Ascii key) (apart : ∀ name ∈ Node.fieldNames, folded key ≠ folded name) :
    m.Extra key := by
  intro name known matched
  exact apart name known ((documented.matches_iff plain (fieldNames_ascii name known)).mp matched)

theorem nodeKeys_known (key : String) (listed : key ∈ nodeKeys) : key ∈ readKeys ∨ m.Extra key := by
  have plain : ∀ key ∈ nodeKeys, Ascii key := by decide +kernel
  have apart : ∀ key ∈ nodeKeys, key ∈ readKeys ∨ ∀ name ∈ Node.fieldNames, folded key ≠ folded name := by
    decide +kernel
  exact (apart key listed).imp_right (extra_of_apart documented (plain key listed))

theorem wireless_decoded (wireless : WirelessSettings) : m.wireless wireless.json = some wireless := by
  obtain ⟨numbers, same, lower, numbered⟩ := wireless_numbers wireless
  rw [same]
  apply documented.wireless_object lower
  intro r
  rw [numbered]
  split_ifs with zero
  · rw [Option.elim_none, zero]
  · exact documented.uint32 _

theorem location_decoded (writes : forms.Writes) {location : Location} {json : Json}
    (written : forms.location location = some json) :
    ∃ decoded : Location, (∀ c : Coordinate, (c.get decoded).eq (c.get location)) ∧ m.location json = some decoded := by
  obtain ⟨numbers, rfl, lower, numbered⟩ := writes _ _ written
  let kept (c : Coordinate) : Binary64 := (numbers.lookup c.name).elim .zero fun _ => c.get location
  have same (c : Coordinate) : c.get ⟨kept .longitude, kept .latitude, kept .altitude⟩ = kept c := by cases c <;> rfl
  refine ⟨⟨kept .longitude, kept .latitude, kept .altitude⟩, fun c => ?_, documented.location_object lower fun c => ?_⟩
  · rw [same]
    obtain ⟨number, there | ⟨absent, zero⟩⟩ := numbered c
    · simp only [kept, there, Option.elim_some]
      exact Binary64.eq_self number
    · simp only [kept, absent, Option.elim_none]
      rwa [Binary64.eq_swap]
  · rw [same]
    obtain ⟨_, there | ⟨absent, _⟩⟩ := numbered c
    · simp only [kept, there, Option.elim_some]
      exact documented.float64 _
    · simp only [kept, absent, Option.elim_none]

omit documented in
theorem keys_of_sent (sent : node.json forms = some (.object fields)) : fields.map Prod.fst = nodeKeys := by
  obtain ⟨location, _, sent⟩ := Option.bind_eq_some_iff.mp sent
  obtain ⟨locationRespondd, _, sent⟩ := Option.bind_eq_some_iff.mp sent
  cases sent
  rfl

/-- The properties that are read have the settings of the node. -/
theorem node_reads (sent : node.json forms = some (.object fields)) :
    ∃ location value, forms.location node.location = some location ∧ m.Reads fields value ∧
      readKeys.map value = [.string node.nodeID, .string node.hostname, .string node.owner, location,
        node.wireless.json] := by
  have keys := keys_of_sent sent
  have unique : (fields.map Prod.fst).Nodup := keys ▸ by decide +kernel
  have known : ∀ key ∈ fields.map Prod.fst, key ∈ readKeys ∨ m.Extra key := keys ▸ nodeKeys_known documented
  obtain ⟨location, form, sent⟩ := Option.bind_eq_some_iff.mp sent
  obtain ⟨locationRespondd, _, sent⟩ := Option.bind_eq_some_iff.mp sent
  have written := Json.object.inj (Option.some.inj sent)
  refine ⟨location, fun key => (fields.lookup key).getD .null, form, reads_of_lookup unique known ?_, ?_⟩
  · rw [← written]
    simp only [readKeys, List.forall_mem_cons]
    exact ⟨rfl, rfl, rfl, rfl, rfl, fun _ nothing => absurd nothing List.not_mem_nil⟩
  · rw [← written]
    rfl

/-- The node that was sent is decoded, with the settings that it has and nothing else. -/
theorem decode_sent (writes : forms.Writes) (sent : node.json forms = some (.object fields))
    (kept : ∀ field ∈ fields, field ∈ given) (added : ∀ field ∈ given, field ∈ fields ∨ m.Extra field.1) :
    ∃ location : Location, (∀ c : Coordinate, (c.get location).eq (c.get node.location)) ∧
      m.decodeNode (.object given) = some {
        nodeID := node.nodeID, hostname := node.hostname, owner := node.owner, location,
        wireless := node.wireless } := by
  obtain ⟨written, value, form, reads, values⟩ := node_reads documented sent
  obtain ⟨location, same, decoded⟩ := location_decoded documented writes form
  exact ⟨location, same, (reads.more kept added).decodeNode documented values decoded (wireless_decoded documented _)⟩

/-- The client adds its pings. -/
theorem getNode_adds (sent : node.json forms = some (.object fields)) (pingstate : List Bool) :
    ∃ given, getNode pingstate (.object fields) = .object given ∧ given.map Prod.fst = nodeKeys ++ ["pingstate"] ∧
      (∀ field ∈ fields, field ∈ given) ∧ ∀ field ∈ given, field ∈ fields ∨ m.Extra field.1 := by
  have keys := keys_of_sent sent
  have absent : "pingstate" ∉ fields.map Prod.fst := keys ▸ by decide +kernel
  have extra : m.Extra "pingstate" := extra_of_apart documented (by decide +kernel) (by decide +kernel)
  refine ⟨_, congrArg Json.object (setField_absent absent _), ?_, fun field => List.mem_append_left _, ?_⟩
  · rw [List.map_append, keys]
    rfl
  · intro field member
    obtain old | new := List.mem_append.mp member
    · exact .inl old
    · exact .inr (List.mem_singleton.mp new ▸ extra)

end Sent

namespace Sample

/-- Names are in ASCII, and numbers are cut to their size. -/
def mapstructure : Mapstructure where
  equalFold s t := folded s = folded t
  string
    | .string s => some s
    | .null => some ""
    | _ => none
  uint32
    | .number x => some (.ofNat x.toNat)
    | .null => some 0
    | _ => none
  float64
    | .number x => some x
    | .null => some .zero
    | _ => none
  time
    | .null => some none
    | _ => none
  statistics
    | .null => some {}
    | _ => none

theorem documented : mapstructure.Documented where
  equalFold _ _ := decide_eq_true_iff
  string _ := rfl
  uint32 n := by
    change some (UInt32.ofNat (Binary64.ofNat n.toNat _).toNat) = some n
    rw [Binary64.toNat_ofNat, UInt32.ofNat_toNat]
  null := rfl
  float64 _ := rfl

/-- A node on two channels. -/
def onChannels : Node :=
  { hill.node with
    wireless := { channel24 := 11, channel5 := 4294967295 }
    hostnameRespondd := "cellar" }

end Sample

/-- The node that the client keeps. -/
theorem decode_sent_onChannels :
    ∃ location : Location, (∀ c : Coordinate, (c.get location).eq (c.get Sample.onChannels.location)) ∧
      ((Sample.onChannels.json Sample.forms).map (getNode [true])).bind Sample.mapstructure.decodeNode = some {
        nodeID := Sample.onChannels.nodeID, hostname := "attic", location,
        wireless := Sample.onChannels.wireless } := by
  obtain ⟨fields, sent⟩ : ∃ fields, Sample.onChannels.json Sample.forms = some (.object fields) := ⟨_, rfl⟩
  obtain ⟨given, opened, _, kept, added⟩ := getNode_adds Sample.documented sent [true]
  rw [sent, Option.map_some, Option.bind_some, opened]
  exact decode_sent Sample.documented Sample.writes sent kept added

end FreifunkManager
