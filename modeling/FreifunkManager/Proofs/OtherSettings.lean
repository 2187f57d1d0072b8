import FreifunkManager.Model.Bodies
import FreifunkManager.Proofs.Edits

/-! # The settings that an edit is not about

A view sends back every setting of the object it was sent, apart from the one that it changes. A new position is the
exception: it replaces the whole location, so the altitude is not sent and is zero afterwards.
-/

namespace FreifunkManager

/-! ## Properties of objects -/

def Ascii (text : String) : Prop := text.toList.all fun c => c.toNat < 128

instance (text : String) : Decidable (Ascii text) := inferInstanceAs (Decidable (_ = true))

/-- A name in lower case. -/
def LowerName (name : String) : Prop := Ascii name ∧ name.toLower = name

/-- All names are in lower case, so that `mapstructure` takes no name for another one. -/
def Lower (fields : List (String × Json)) : Prop := ∀ field ∈ fields, LowerName field.1

theorem field_eq_lookup {fields : List (String × Json)} (lower : Lower fields) (name : String) :
    (Json.object fields).field name = fields.lookup name := by
  rw [Json.field]
  cases found : fields.lookup name with
  | some value => rfl
  | none =>
    have nothing : (fields.find? fun field => field.1.toLower = name) = none := by
      rw [List.find?_eq_none]
      intro field member same
      have other := List.lookup_eq_none_iff.mp found field member
      rw [← of_decide_eq_true same, (lower field member).2] at other
      simp at other
    rw [nothing]
    rfl

theorem lookup_cons_ne {name other : String} (different : other ≠ name) (value : Json) (rest : List (String × Json)) :
    ((name, value) :: rest).lookup other = rest.lookup other := by
  rw [List.lookup_cons, beq_eq_false_iff_ne.mpr different]

theorem lookup_setField (name other : String) (value : Json) (fields : List (String × Json)) :
    (Json.setField name value fields).lookup other = if other = name then some value else fields.lookup other := by
  induction fields with
  | nil =>
    rw [Json.setField]
    split_ifs with there
    · rw [there, List.lookup_cons_self]
    · exact lookup_cons_ne there _ _
  | cons field rest ih =>
    obtain ⟨first, old⟩ := field
    rw [Json.setField]
    split_ifs with here there there
    · rw [there, List.lookup_cons_self]
    · rw [here, lookup_cons_ne there, lookup_cons_ne there]
    · rw [lookup_cons_ne (there ▸ Ne.symm here), ih, if_pos there]
    · rw [List.lookup_cons, List.lookup_cons, ih, if_neg there]

theorem lowerName_literal {text : String} {chars : List Char} (literal : text = String.ofList chars)
    (ascii : chars.all fun c => c.toNat < 128) (lower : chars.map Char.toLower = chars) : LowerName text := by
  have letters : (String.map Char.toLower (String.ofList chars)).toList = chars := by
    rw [String.toList_map, String.toList_ofList, lower]
  rw [literal]
  constructor
  · rwa [Ascii, String.toList_ofList]
  · rw [← String.toList_inj, String.toList_ofList]
    exact letters

theorem lower_setField {name : String} (plain : LowerName name) (value : Json) {fields : List (String × Json)}
    (lower : Lower fields) : Lower (Json.setField name value fields) := by
  induction fields with
  | nil => exact List.forall_mem_singleton.mpr plain
  | cons field rest ih =>
    obtain ⟨first, later⟩ := List.forall_mem_cons.mp lower
    rw [Json.setField]
    split
    · exact List.forall_mem_cons.mpr ⟨plain, later⟩
    · exact List.forall_mem_cons.mpr ⟨first, ih later⟩

/-- Of the items that are written, the one by this name is found. -/
theorem lookup_written {ι : Type} [DecidableEq ι] {name : ι → String} (apart : ∀ i j, name i = name j → i = j)
    (skip : ι → Prop) [DecidablePred skip] (value : ι → Json) (i : ι) (items : List ι) :
    (items.filterMap fun j => if skip j then none else some (name j, value j)).lookup (name i) =
      if i ∈ items ∧ ¬ skip i then some (value i) else none := by
  induction items with
  | nil => simp
  | cons first rest ih =>
    by_cases left : skip first
    · simp only [List.filterMap_cons, if_pos left]
      rw [ih]
      congr 1
      simp only [List.mem_cons, eq_iff_iff]
      constructor
      · exact fun found => ⟨.inr found.1, found.2⟩
      · rintro ⟨rfl | later, other⟩
        · exact absurd left other
        · exact ⟨later, other⟩
    · simp only [List.filterMap_cons, if_neg left]
      by_cases same : i = first
      · rw [same, List.lookup_cons_self, if_pos ⟨.head _, left⟩]
      · rw [lookup_cons_ne (fun names => same (apart i first names)), ih]
        simp [same]

/-! ## What a body says about the settings -/

/-- What is known of the body, where the settings that the edit is about are left open. -/
structure Carries (forms : Forms) (settings : Settings) (nodeID : String) (text : Option Text)
    (radio : Option RadioSetting) (moves : Bool) (fields : List (String × Json)) : Prop where
  lower : Lower fields
  nodeID : fields.lookup "node_id" = some (.string nodeID)
  text : ∀ t, text ≠ some t → fields.lookup t.name = some (.string (t.get settings))
  radio : ∃ numbers, fields.lookup "wireless" = some (.object numbers) ∧ Lower numbers ∧
    ∀ r, radio ≠ some r → numbers.lookup r.name =
      if r.get settings.wireless = 0 then none else some (.uint32 (r.get settings.wireless))
  location : if moves then ∃ lat lng, fields.lookup "location" = some (.object [("latitude", lat), ("longitude", lng)])
    else ∃ location, fields.lookup "location" = some location ∧ forms.location settings.location = some location

theorem radio_lower (r : RadioSetting) : LowerName r.name := by
  cases r <;> exact lowerName_literal rfl (by decide) (by decide)

theorem radio_name (r other : RadioSetting) (same : r.name = other.name) : r = other := by
  cases r <;> cases other <;> first | rfl | exact absurd same (by decide)

theorem wireless_numbers (wireless : WirelessSettings) : ∃ numbers, wireless.json = .object numbers ∧ Lower numbers ∧
    ∀ r : RadioSetting, numbers.lookup r.name =
      if r.get wireless = 0 then none else some (.uint32 (r.get wireless)) := by
  refine ⟨_, rfl, ?_, ?_⟩
  · intro field member
    obtain ⟨r, _, written⟩ := List.mem_filterMap.mp member
    split_ifs at written
    cases written
    exact radio_lower r
  · intro r
    have listed : r ∈ RadioSetting.all := by cases r <;> decide
    rw [lookup_written radio_name (fun radio => radio.get wireless = 0) fun radio => .uint32 (radio.get wireless)]
    by_cases zero : r.get wireless = 0
    · rw [if_neg (fun found => found.2 zero), if_pos zero]
    · rw [if_pos ⟨listed, zero⟩, if_neg zero]

section Edits

variable {forms : Forms} {node : Node} {settings : Settings} {nodeID : String} {object : Json}
variable {fields : List (String × Json)}

theorem node_carries (held : node.json forms = some object) :
    ∃ fields, object = .object fields ∧ Carries forms node.settings node.nodeID none none false fields := by
  obtain ⟨location, written, held⟩ := Option.bind_eq_some_iff.mp held
  obtain ⟨locationRespondd, _, held⟩ := Option.bind_eq_some_iff.mp held
  cases held
  have lower : ∀ name ∈ ["lastseen", "node_id", "ip", "hostname", "hostname_respondd", "owner", "owner_respondd",
      "location", "location_respondd", "wireless", "wireless_respondd", "statistics_respondd"],
        LowerName name := by
    simp only [List.forall_mem_cons]
    refine ⟨?_, ?_, ?_, ?_, ?_, ?_, ?_, ?_, ?_, ?_, ?_, ?_, nofun⟩ <;>
      exact lowerName_literal rfl (by decide) (by decide)
  refine ⟨_, rfl, ?_, rfl, ?_, ?_, ?_⟩
  · exact fun field member => lower field.1 (List.mem_map_of_mem (f := Prod.fst) member)
  · intro t _
    cases t <;> rfl
  · obtain ⟨numbers, same, lower, numbered⟩ := wireless_numbers node.wireless
    exact ⟨numbers, congrArg some same, lower, fun r _ => numbered r⟩
  · exact ⟨location, rfl, written⟩

theorem lookup_setField_ne {name other : String} (different : other ≠ name) (value : Json) :
    (Json.setField name value fields).lookup other = fields.lookup other := by
  rw [lookup_setField, if_neg different]

theorem lookup_setField_self (name : String) (value : Json) :
    (Json.setField name value fields).lookup name = some value := by
  rw [lookup_setField, if_pos rfl]

theorem text_names (t : Text) : LowerName t.name ∧ "node_id" ≠ t.name ∧ "wireless" ≠ t.name ∧
    "location" ≠ t.name ∧ "pingstate" ≠ t.name := by
  cases t <;> exact ⟨lowerName_literal rfl (by decide) (by decide), by decide, by decide, by decide, by decide⟩

theorem text_name (t other : Text) (same : t.name = other.name) : t = other := by
  cases t <;> cases other <;> first | rfl | exact absurd same (by decide)

variable (carries : Carries forms settings nodeID none none false fields)

include carries

/-- The pings say nothing about the settings. -/
theorem Carries.getNode (pingstate : List Bool) : ∃ fields', getNode pingstate (.object fields) = .object fields' ∧
    Carries forms settings nodeID none none false fields' := by
  refine ⟨_, rfl, ?_⟩
  constructor
  · exact lower_setField (lowerName_literal rfl (by decide) (by decide)) _ carries.lower
  · rw [lookup_setField_ne (by decide)]
    exact carries.nodeID
  · intro t other
    rw [lookup_setField_ne (text_names t).2.2.2.2.symm]
    exact carries.text t other
  · rw [lookup_setField_ne (by decide)]
    exact carries.radio
  · rw [lookup_setField_ne (by decide)]
    exact carries.location

theorem Carries.setText (t : Text) (value : String) :
    Carries forms settings nodeID (some t) none false (Json.setField t.name (.string value) fields) := by
  obtain ⟨plain, id, wireless, location, _⟩ := text_names t
  constructor
  · exact lower_setField plain _ carries.lower
  · rw [lookup_setField_ne id]
    exact carries.nodeID
  · intro other different
    rw [lookup_setField_ne (fun names => different (congrArg some (text_name _ _ names).symm))]
    exact carries.text other nofun
  · rw [lookup_setField_ne wireless]
    exact carries.radio
  · rw [lookup_setField_ne location]
    exact carries.location

theorem Carries.setRadio (r : RadioSetting) (value : Json) :
    ∃ fields', (Json.object fields).setIn "wireless" r.name value = .object fields' ∧
      Carries forms settings nodeID none (some r) false fields' := by
  obtain ⟨numbers, written, lower, numbered⟩ := carries.radio
  rw [Json.setIn, written]
  refine ⟨_, rfl, ?_⟩
  constructor
  · exact lower_setField (lowerName_literal rfl (by decide) (by decide)) _ carries.lower
  · rw [lookup_setField_ne (by decide)]
    exact carries.nodeID
  · intro t other
    rw [lookup_setField_ne (text_names t).2.2.1.symm]
    exact carries.text t other
  · refine ⟨Json.setField r.name value numbers, lookup_setField_self .., lower_setField (radio_lower r) _ lower, ?_⟩
    intro other different
    rw [lookup_setField_ne (fun names => different (congrArg some (radio_name _ _ names).symm))]
    exact numbered other nofun
  · rw [lookup_setField_ne (by decide)]
    exact carries.location

theorem Carries.setLocation (lat lng : Json) :
    Carries forms settings nodeID none none true
      (Json.setField "location" (.object [("latitude", lat), ("longitude", lng)]) fields) := by
  constructor
  · exact lower_setField (lowerName_literal rfl (by decide) (by decide)) _ carries.lower
  · rw [lookup_setField_ne (by decide)]
    exact carries.nodeID
  · intro t other
    rw [lookup_setField_ne (text_names t).2.2.2.1.symm]
    exact carries.text t other
  · rw [lookup_setField_ne (by decide)]
    exact carries.radio
  · exact ⟨lat, lng, lookup_setField_self ..⟩

/-- What is sent leaves only the settings open that the edit is about. -/
theorem Carries.sent {edit : ViewEdit} {body : Json} (sent : edit.body (.object fields) = some body) :
    ∃ fields', body = .object fields' ∧ Carries forms settings nodeID edit.text edit.radio edit.moves fields' := by
  cases edit with
  | listHostname value =>
    cases sent
    exact ⟨_, rfl, carries.setText .hostname value⟩
  | listRadio r value =>
    cases sent
    exact carries.setRadio r _
  | nodeHostname value =>
    cases sent
    exact ⟨_, rfl, carries.setText .hostname value⟩
  | nodeOwner value =>
    cases sent
    exact ⟨_, rfl, carries.setText .owner value⟩
  | nodePosition lat lng gpsPosition =>
    simp only [ViewEdit.body, updatePosition] at sent
    split at sent
    · cases sent
      exact ⟨_, rfl, carries.setLocation _ _⟩
    · contradiction
  | mapPosition lat lng =>
    cases sent
    exact ⟨_, rfl, carries.setLocation _ _⟩

omit carries

/-! ## What is saved -/

/-- What `mapstructure` makes of a body whose names are in lower case: a field has the value of its property, and zero
if there is none. -/
structure Decodes (decodeNode : Json → Option Node) : Prop where
  nodeID {fields : List (String × Json)} {node : Node} {nodeID : String} : decodeNode (.object fields) = some node →
    Lower fields → fields.lookup "node_id" = some (.string nodeID) → node.nodeID = nodeID
  text {fields : List (String × Json)} {node : Node} (t : Text) {value : String} :
  decodeNode (.object fields) = some node →
    Lower fields → fields.lookup t.name = some (.string value) → t.get node.settings = value
  radio {fields numbers : List (String × Json)} {node : Node} (r : RadioSetting) :
  decodeNode (.object fields) = some node →
    Lower fields → fields.lookup "wireless" = some (.object numbers) → Lower numbers →
      (∀ n, numbers.lookup r.name = some (.uint32 n) → r.get node.wireless = n) ∧
        (numbers.lookup r.name = none → r.get node.wireless = 0)
  coordinate {fields numbers : List (String × Json)} {node : Node} (c : Coordinate) :
    decodeNode (.object fields) = some node → Lower fields → fields.lookup "location" = some (.object numbers) →
      Lower numbers → (∀ x, numbers.lookup c.name = some (.number x) → c.get node.location = x) ∧
        (numbers.lookup c.name = none → c.get node.location = .zero)

/-- How a location is written: as an object, without the coordinates that are zero. -/
def Forms.Writes (forms : Forms) : Prop :=
  ∀ location json, forms.location location = some json → ∃ numbers, json = .object numbers ∧ Lower numbers ∧
    ∀ c : Coordinate, (c.get location).isNaN = false ∧ (numbers.lookup c.name = some (.number (c.get location)) ∨
      numbers.lookup c.name = none ∧ (c.get location).eq .zero)

theorem coordinate_name (c other : Coordinate) (same : c.name = other.name) : c = other := by
  cases c <;> cases other <;> first | rfl | exact absurd same (by decide)

theorem coordinate_lower (c : Coordinate) : LowerName c.name := by
  cases c <;> exact lowerName_literal rfl (by decide) (by decide)

end Edits

/-! ## A node with an altitude -/

namespace Sample

def number (body : Json) (name : String) : Binary64 :=
  match body.field name with
  | some (.number x) => x
  | _ => .zero

def property (body : Json) (name : String) : Json := (body.field name).getD .null

def radio (body : Json) (r : RadioSetting) : UInt32 := .ofNat (number (property body "wireless") r.name).toNat

def coordinate (body : Json) (c : Coordinate) : Binary64 := number (property body "location") c.name

def wireless (body : Json) : WirelessSettings where
  txPower24 := radio body .txPower24
  channel24 := radio body .channel24
  txPower5 := radio body .txPower5
  channel5 := radio body .channel5

def location (body : Json) : Location where
  longitude := coordinate body .longitude
  latitude := coordinate body .latitude
  altitude := coordinate body .altitude

/-- A body is decoded field by field. -/
def decodeNode : Json → Option Node
  | .object fields =>
    let body := Json.object fields
    some {
      nodeID := text body "node_id"
      hostname := text body Text.hostname.name
      owner := text body Text.owner.name
      location := location body
      wireless := wireless body }
  | _ => none

theorem decodes : Decodes decodeNode where
  nodeID {fields _ nodeID} found lower written := by
    cases found
    simp only [text, field_eq_lookup lower, written]
  text {fields _} t {value} found lower written := by
    cases found
    have read : text (.object fields) t.name = value := by simp only [text, field_eq_lookup lower, written]
    rw [← read]
    cases t <;> rfl
  radio {fields numbers _} r found lower written lowerNumbers := by
    cases found
    have inner : property (.object fields) "wireless" = .object numbers := by
      rw [property, field_eq_lookup lower, written, Option.getD_some]
    have read : r.get (wireless (.object fields)) = radio (.object fields) r := by cases r <;> rfl
    constructor
    · intro n written
      apply read.trans
      simp only [radio, inner, number, field_eq_lookup lowerNumbers, written, Json.uint32, Binary64.toNat_ofNat,
        UInt32.ofNat_toNat]
    · intro absent
      apply read.trans
      simp only [radio, inner, number, field_eq_lookup lowerNumbers, absent, Binary64.toNat_zero]
      rfl
  coordinate {fields numbers _} c found lower written lowerNumbers := by
    cases found
    have inner : property (.object fields) "location" = .object numbers := by
      rw [property, field_eq_lookup lower, written, Option.getD_some]
    have read : c.get (location (.object fields)) = coordinate (.object fields) c := by cases c <;> rfl
    constructor
    · intro x written
      apply read.trans
      simp only [coordinate, inner, number, field_eq_lookup lowerNumbers, written]
    · intro absent
      apply read.trans
      simp only [coordinate, inner, number, field_eq_lookup lowerNumbers, absent]

/-- The coordinates that are not zero, if all of them are numbers. -/
def forms : Forms where
  time _ := .null
  location location :=
    if Coordinate.all.any fun c => (c.get location).isNaN then none
    else some (.object (Coordinate.all.filterMap fun c =>
      if (c.get location).eq .zero then none else some (c.name, .number (c.get location))))
  statistics _ := .object []

theorem writes : forms.Writes := by
  intro location json written
  simp only [forms] at written
  split_ifs at written with numbers
  cases written
  refine ⟨_, rfl, ?_, fun c => ?_⟩
  · intro field member
    obtain ⟨c, _, written⟩ := List.mem_filterMap.mp member
    split_ifs at written
    cases written
    exact coordinate_lower c
  · have listed : c ∈ Coordinate.all := by cases c <;> decide
    constructor
    · have all := List.any_eq_false.mp (Bool.eq_false_of_not_eq_true numbers) c listed
      exact Bool.eq_false_of_not_eq_true all
    · rw [lookup_written coordinate_name (fun c => (c.get location).eq .zero = true) fun c => .number (c.get location)]
      by_cases zero : (c.get location).eq .zero
      · exact .inr ⟨if_neg fun found => found.2 zero, zero⟩
      · exact .inl (if_pos ⟨listed, zero⟩)

/-- A node on a hill. -/
def hill : Row where
  nodeID := "f81a67a5e9c1"
  hostname := "attic"
  location :=
    { latitude := .ofNat 53 (by norm_num)
      longitude := .ofNat 8 (by norm_num)
      altitude := .ofNat 12 (by norm_num) }

end Sample

/-- The marker is dragged on the map. -/
def drag : ViewEdit := .mapPosition (.ofNat 54 (by norm_num)) (.ofNat 9 (by norm_num))

end FreifunkManager
