import FreifunkManager.Model.Device
import FreifunkManager.Proofs.CommandTexts

/-! # What the commands do to a device

A command text with a quotable value writes its option, and nothing else that is reported. A text with
any other value is the user's program; all that is needed of it is that no option it assigns
gets the value as it is meant.
-/

namespace FreifunkManager

open Effects Shell

theorem radioCommand_take (mode : String) : (radioCommand mode).toList.take 6 = ['\n', '\t', '\t', 'i', 'f', ' '] := by
  unfold radioCommand
  simp only [String.append_assoc]
  exact take_literal rfl _ (by decide)

theorem radio5_ne_radio24 : radio5Command ≠ radio24Command := by
  intro same
  unfold radio5Command radio24Command radioCommand at same
  have texts := congrArg String.toList same
  simp only [String.toList_append, List.append_assoc] at texts
  have letters := (List.append_inj (List.append_cancel_left texts) (by decide)).1
  exact absurd (String.toList_inj.mp letters) (by decide)

namespace Device

variable (d : Device)

theorem set_assignment {key : String} (plain : '=' ∉ key.toList) (value : List Char) :
    d.set (key.toList ++ '=' :: value) = d.write key (String.ofList value) := by
  have stays : ∀ c ∈ key.toList, decide (c ≠ '=') = true := fun c member =>
    decide_eq_true (ne_of_mem_of_not_mem member plain)
  rw [set, if_pos (by simp), List.takeWhile_append_of_pos stays, List.dropWhile_append_of_pos stays,
    List.takeWhile_cons_of_neg (by decide), List.dropWhile_cons_of_neg (by decide), List.append_nil,
    List.tail_cons, String.ofList_toList]

theorem invoke_set {key : String} (plain : '=' ∉ key.toList) (value : List Char) :
    d.invoke [word "uci", word "set", Token.text (key.toList ++ '=' :: value)] =
      d.write key (String.ofList value) := by
  rw [← d.set_assignment plain value]
  simp only [invoke, word, List.mapM_cons, List.mapM_nil, Token.chars?_text, bind, pure, Option.bind_some, and_self,
    if_true]

/-- A text that begins like a command of the update is not a question for a radio. -/
theorem execute_eq {cmd : String} (indented : cmd.toList.take 4 = ['\n', '\t', '\t', '\t']) :
    (d.execute cmd).2 = ((Shell.read cmd).getD []).foldl invoke d := by
  have other (mode : String) : cmd ≠ radioCommand mode := by
    rintro rfl
    have begins := congrArg (List.take 4) (radioCommand_take mode)
    rw [List.take_take] at begins
    exact absurd (begins.symm.trans indented) (by decide)
  have not24 : cmd ≠ radio24Command := other "g"
  have not5 : cmd ≠ radio5Command := other "a"
  rw [execute, if_neg not24, if_neg not5]
  cases Shell.read cmd <;> rfl

end Device

/-- A slot of `uci set` for one option, whose value may begin with a fixed part. -/
structure Sets (slot : Slot) (key : String) (first : List Char) : Prop where
  tokens : slot.tokens = uciSet
  key_eq : slot.key.toList = key.toList ++ '=' :: first
  plain : '=' ∉ key.toList
  nulBefore : '\x00' ∉ slot.before.toList
  nulRest : '\x00' ∉ slot.rest.toList
  indented : slot.before.toList.take 4 = ['\n', '\t', '\t', '\t']

namespace Sets

variable {slot : Slot} {key : String} {first : List Char} {value : String}

theorem text_indented (sets : Sets slot key first) :
    (slot.text value).toList.take 4 = ['\n', '\t', '\t', '\t'] := by
  have long : 4 ≤ slot.before.toList.length := by
    have same := congrArg List.length sets.indented
    rw [List.length_take] at same
    simp only [List.length_cons, List.length_nil] at same
    omega
  rw [Slot.toList_text, Slot.chars, List.take_append_of_le_length long, sets.indented]

/-- A quotable value is written as the value of the sets. -/
theorem execute (sets : Sets slot key first) (d : Device) (quotable : Quotable value) {rest : List Token}
    (ends : tokenize slot.rest.toList = some rest) : (d.execute (slot.text value)).2 =
      (commands rest).foldl Device.invoke (d.write key (String.ofList (first ++ value.toList))) := by
  rw [d.execute_eq sets.text_indented, slot.read_clean sets.nulBefore sets.nulRest quotable, ends,
    sets.tokens, sets.key_eq, List.append_assoc, Option.map_some, Option.getD_some, List.foldl_append]
  congr 1
  exact d.invoke_set sets.plain (first ++ value.toList)

end Sets

/-! ## The commands of an update -/

def Radio.radioName (radio : Radio) : RadioName where
  name := radio.name
  named := by
    have all : (radio.name.toList.all fun c => isName c) = true := by cases radio <;> decide
    exact List.all_eq_true.mp all

def txPowerSlot (radio : RadioName) : Slot where
  before := "\n\t\t\t\t\tuci set wireless." ++ radio.name ++ ".txpower='"
  rest := "\n\t\t\t\t\tuci commit wireless;"
  tokens := uciSet
  key := "wireless." ++ radio.name ++ ".txpower="
  opens := scan_around_name radio.named (scan_literal rfl rfl (by decide +kernel)) rfl rfl fun _ => rfl

def channelSlot (radio : RadioName) : Slot where
  before := "\n\t\t\t\t\tuci set wireless." ++ radio.name ++ ".channel='"
  rest := "\n\t\t\t\t\tuci commit wireless;"
  tokens := uciSet
  key := "wireless." ++ radio.name ++ ".channel="
  opens := scan_around_name radio.named (scan_literal rfl rfl (by decide +kernel)) rfl rfl fun _ => rfl

theorem assignment_literal {whole key : String} {chars keyChars first : List Char} (one : whole = String.ofList chars)
    (two : key = String.ofList keyChars) (same : chars = keyChars ++ '=' :: first) :
    whole.toList = key.toList ++ '=' :: first := by
  rw [toList_literal one, toList_literal two, same]

theorem hostname_sets : Sets hostnameSlot Device.hostnameKey [] where
  tokens := rfl
  key_eq := assignment_literal rfl rfl rfl
  plain := not_mem_literal rfl (by decide)
  nulBefore := hostnameSlot_sealed.nulBefore
  nulRest := hostnameSlot_sealed.nulRest
  indented := congrArg (List.take 4) (toList_literal rfl)

theorem contact_sets : Sets contactSlot Device.contactKey [] where
  tokens := rfl
  key_eq := assignment_literal rfl rfl rfl
  plain := not_mem_literal rfl (by decide)
  nulBefore := contactSlot_sealed.nulBefore
  nulRest := contactSlot_sealed.nulRest
  indented := congrArg (List.take 4) (toList_literal rfl)

def Device.ssidKey (radio : Radio) := "wireless.priv_" ++ radio.name ++ ".ssid"

section RadioTexts

variable (radio : Radio) {before after : String}

/-- An option of a radio, as the assignment in its text begins. -/
theorem radio_key {last option : String} {first : List Char} (same : last.toList = option.toList ++ '=' :: first) :
    (before ++ radio.name ++ last).toList = (before ++ radio.name ++ option).toList ++ '=' :: first := by
  simp only [String.toList_append, same, List.append_assoc]

theorem radio_plain (first : '=' ∉ before.toList) (last : '=' ∉ after.toList) :
    '=' ∉ (before ++ radio.name ++ after).toList :=
  radio.radioName.not_mem_around (by decide) first last

theorem radio_noNul (first : '\x00' ∉ before.toList) (last : '\x00' ∉ after.toList) :
    '\x00' ∉ (before ++ radio.name ++ after).toList :=
  radio.radioName.not_mem_around (by decide) first last

theorem radio_indented {chars : List Char} (literal : before = String.ofList chars) (long : 4 ≤ chars.length) :
    (before ++ radio.name ++ after).toList.take 4 = chars.take 4 := by
  rw [String.append_assoc]
  exact take_literal literal _ long

theorem ssid_sets : Sets (ssidSlot radio.radioName) (Device.ssidKey radio) "offline-".toList where
  tokens := rfl
  key_eq := radio_key radio (assignment_literal rfl rfl (congrArg _ (toList_literal rfl).symm))
  plain := radio_plain radio (not_mem_literal rfl (by decide)) (not_mem_literal rfl (by decide))
  nulBefore := (ssidSlot_sealed radio.radioName).nulBefore
  nulRest := (ssidSlot_sealed radio.radioName).nulRest
  indented := radio_indented radio rfl (by decide)

theorem txPower_sets : Sets (txPowerSlot radio.radioName) (Device.txPowerKey radio) [] where
  tokens := rfl
  key_eq := radio_key radio (assignment_literal rfl rfl rfl)
  plain := radio_plain radio (not_mem_literal rfl (by decide)) (not_mem_literal rfl (by decide))
  nulBefore := radio_noNul radio (not_mem_literal rfl (by decide)) (not_mem_literal rfl (by decide))
  nulRest := not_mem_literal rfl (by decide)
  indented := radio_indented radio rfl (by decide)

theorem channel_sets : Sets (channelSlot radio.radioName) (Device.channelKey radio) [] where
  tokens := rfl
  key_eq := radio_key radio (assignment_literal rfl rfl rfl)
  plain := radio_plain radio (not_mem_literal rfl (by decide)) (not_mem_literal rfl (by decide))
  nulBefore := radio_noNul radio (not_mem_literal rfl (by decide)) (not_mem_literal rfl (by decide))
  nulRest := not_mem_literal rfl (by decide)
  indented := radio_indented radio rfl (by decide)

end RadioTexts

namespace Device

variable (d : Device)

theorem execute_hostname {hostname : String} (quotable : Quotable hostname) :
    (d.execute (hostnameCommand hostname)).2 = d.write hostnameKey hostname := by
  rw [hostnameCommand_eq, hostname_sets.execute d quotable hostname_ends, List.nil_append, String.ofList_toList]
  rfl

theorem execute_contact {owner : String} (quotable : Quotable owner) :
    (d.execute (contactCommand owner)).2 = d.write contactKey owner := by
  rw [contactCommand_eq, contact_sets.execute d quotable contact_ends, List.nil_append, String.ofList_toList]
  rfl

/-- The name of the network that a node without uplink offers. -/
def offlineSsid (hostname : String) : String := String.ofList ("offline-".toList ++ hostname.toList)

theorem execute_ssid {hostname : String} (radio : Radio) (quotable : Quotable hostname) :
    (d.execute (ssidCommand radio.name hostname)).2 =
      d.write (ssidKey radio) (offlineSsid hostname) := by
  rw [show radio.name = radio.radioName.name from rfl, ssidCommand_eq,
    (ssid_sets radio).execute d quotable (ssid_ends radio.radioName)]
  rfl

theorem quotable_nat (n : ℕ) : Quotable (toString n) := by
  have digits {c : Char} (member : c ∈ (toString n).toList) : c.isDigit := by
    rw [Nat.toString_eq_repr, Nat.toList_repr] at member
    exact Nat.isDigit_of_mem_toDigits (by decide) (by decide) member
  exact ⟨fun quote => absurd (digits quote) (by decide), fun nul => absurd (digits nul) (by decide)⟩

theorem quotable_decimal (x : Binary64) : Quotable x.decimal := by
  constructor
  · intro quote
    rcases Binary64.decimal_chars quote with letter | sign | sign | point <;> contradiction
  · intro nul
    rcases Binary64.decimal_chars nul with letter | sign | sign | point <;> contradiction

theorem execute_txPower (radio : Radio) (txPower : UInt32) :
    (d.execute (txPowerCommand radio.name txPower)).2 = d.write (txPowerKey radio) (toString txPower.toNat) := by
  have text : txPowerCommand radio.name txPower = (txPowerSlot radio.radioName).text (toString txPower.toNat) :=
    text_eq (txPowerSlot radio.radioName) _ rfl (literal_append rfl rfl rfl)
  have ends : tokenize (txPowerSlot radio.radioName).rest.toList =
      some [.operator '\n', word "uci", word "commit", word "wireless", .operator ';'] :=
    tokenize_literal rfl (by decide +kernel)
  rw [text, (txPower_sets radio).execute d (quotable_nat _) ends, List.nil_append, String.ofList_toList]
  rfl

theorem execute_channel (radio : Radio) (channel : UInt32) :
    (d.execute (channelCommand radio.name channel)).2 = d.write (channelKey radio) (toString channel.toNat) := by
  have text : channelCommand radio.name channel = (channelSlot radio.radioName).text (toString channel.toNat) :=
    text_eq (channelSlot radio.radioName) _ rfl (literal_append rfl rfl rfl)
  have ends : tokenize (channelSlot radio.radioName).rest.toList =
      some [.operator '\n', word "uci", word "commit", word "wireless", .operator ';'] :=
    tokenize_literal rfl (by decide +kernel)
  rw [text, (channel_sets radio).execute d (quotable_nat _) ends, List.nil_append, String.ofList_toList]
  rfl

end Device

/-! ### The location, with two values in one text -/

def longitudeSlot : Slot where
  before := "\n\t\t\tuci set gluon-node-info.@location[0].longitude='"
  rest := "\n\t\t\tuci set gluon-node-info.@location[0].share_location=1;\n\t\t\tuci commit gluon-node-info;"
  tokens := uciSet
  key := "gluon-node-info.@location[0].longitude="
  opens := scan_literal rfl rfl (by decide +kernel)

def latitudeSlot (longitude : String) : Slot where
  before := "\n\t\t\tuci set gluon-node-info.@location[0].latitude='"
  rest := longitudeSlot.text longitude
  tokens := uciSet
  key := "gluon-node-info.@location[0].latitude="
  opens := scan_literal rfl rfl (by decide +kernel)

theorem latitude_sets {longitude : String} (quotable : Quotable longitude) :
    Sets (latitudeSlot longitude) Device.latitudeKey [] where
  tokens := rfl
  key_eq := assignment_literal rfl rfl rfl
  plain := not_mem_literal rfl (by decide)
  nulBefore := not_mem_literal rfl (by decide)
  nulRest := by
    have before : '\x00' ∉ longitudeSlot.before.toList := not_mem_literal rfl (by decide)
    have rest : '\x00' ∉ '\'' :: ';' :: longitudeSlot.rest.toList := by
      rw [toList_literal (rfl : longitudeSlot.rest = _)]
      decide
    rw [show (latitudeSlot longitude).rest = longitudeSlot.text longitude from rfl, Slot.toList_text, Slot.chars,
      List.mem_append, List.mem_append]
    exact fun member => member.elim before fun member => member.elim quotable.2 rest
  indented := congrArg (List.take 4) (toList_literal rfl)

theorem locationCommand_eq (location : Location) : locationCommand location =
    (latitudeSlot location.longitude.decimal).text location.latitude.decimal := by
  have split (first latitude second longitude third second' third' : String)
      (between : second = "';" ++ second') (last : third = "';" ++ third') :
      first ++ latitude ++ second ++ longitude ++ third =
        first ++ latitude ++ ("';" ++ (second' ++ longitude ++ ("';" ++ third'))) := by
    simp only [between, last, String.append_assoc]
  exact split _ _ _ _ _ longitudeSlot.before longitudeSlot.rest (literal_append rfl rfl rfl)
    (literal_append rfl rfl rfl)

def Device.shareKey := "gluon-node-info.@location[0].share_location"

/-- The tokens after a value that is followed by more options. -/
private theorem commands_next (pieces : List Piece) (rest : List Token) :
    commands (uciSet.reverse ++ .word pieces :: .operator ';' :: rest) =
      [word "uci", word "set", .word pieces] :: commands rest := by
  rw [List.append_cons, commands_append, commands_uciSet, List.singleton_append]

theorem Device.execute_location (d : Device) (location : Location) :
    (d.execute (locationCommand location)).2 = ((d.write latitudeKey location.latitude.decimal).write longitudeKey
      location.longitude.decimal).write shareKey "1" := by
  have quotable := quotable_decimal location.longitude
  have fixed : tokenize longitudeSlot.rest.toList =
      some (uciSet.reverse ++ Token.text (shareKey.toList ++ '=' :: ['1']) ::
      .operator ';' :: [.operator '\n', word "uci", word "commit", word "gluon-node-info", .operator ';']) := by
    rw [toList_literal (rfl : shareKey = _)]
    exact tokenize_literal rfl (by decide +kernel)
  have ends : tokenize (latitudeSlot location.longitude.decimal).rest.toList = _ :=
    (congrArg tokenize (longitudeSlot.toList_text _)).trans
      ((longitudeSlot.tokenize_clean quotable.1).trans (congrArg _ fixed))
  have longitudePlain : '=' ∉ longitudeKey.toList := not_mem_literal rfl (by decide)
  have sharePlain : '=' ∉ shareKey.toList := not_mem_literal rfl (by decide)
  have key : longitudeSlot.key.toList = longitudeKey.toList ++ '=' :: [] := assignment_literal rfl rfl rfl
  rw [locationCommand_eq, (latitude_sets quotable).execute d (quotable_decimal _) ends]
  have writes (d : Device) {key : String} (plain : '=' ∉ key.toList) (value : List Char) :
      d.invoke [word "uci", word "set", .word ((key.toList ++ '=' :: value).map .literal)] =
        d.write key (String.ofList value) := d.invoke_set plain value
  simp only [show longitudeSlot.tokens = uciSet from rfl, Token.text, commands_next]
  rw [List.foldl_cons, List.foldl_cons, key, List.append_assoc, List.cons_append, List.nil_append, List.nil_append,
    writes _ longitudePlain, writes _ sharePlain, String.ofList_toList, String.ofList_toList]
  rfl

/-! ## The user's programs -/

private theorem words_mem {command : List Token} {words : List (List Char)}
    (literal : command.mapM Token.chars? = some words) {chars : List Char} (member : chars ∈ words) :
    Token.text chars ∈ command := by
  induction command generalizing words with
  | nil =>
    cases literal
    contradiction
  | cons token command ih =>
    rw [List.mapM_cons] at literal
    obtain ⟨first, word, literal⟩ := Option.bind_eq_some_iff.mp literal
    obtain ⟨rest, read, same⟩ := Option.bind_eq_some_iff.mp literal
    cases same
    rcases List.mem_cons.mp member with rfl | later
    · exact List.mem_cons.mpr (.inl (Token.chars?_eq_some word).symm)
    · exact List.mem_cons_of_mem token (ih read later)

/-- An option that a command changed has the value that one of its words assigns. -/
theorem Device.invoke_uci (d : Device) (command : List Token) (key : String) :
    (d.invoke command).uci key = d.uci key ∨
      Token.text (key.toList ++ '=' :: ((d.invoke command).uci key).toList) ∈ command := by
  unfold invoke
  split
  · next program action assignment words =>
    split
    · rw [set]
      split
      · next assigns =>
        rcases eq_or_ne key (String.ofList (assignment.takeWhile (· ≠ '='))) with rfl | different
        · right
          have value : assignment.takeWhile (· ≠ '=') ++ '=' :: (assignment.dropWhile (· ≠ '=')).tail = assignment := by
            obtain ⟨before, after, rfl, clean⟩ := List.eq_append_cons_of_mem assigns
            have stays : ∀ c ∈ before, decide (c ≠ '=') = true := fun c member =>
              decide_eq_true (ne_of_mem_of_not_mem member clean)
            rw [List.takeWhile_append_of_pos stays, List.dropWhile_append_of_pos stays,
              List.takeWhile_cons_of_neg (by decide), List.dropWhile_cons_of_neg (by decide), List.append_nil,
              List.tail_cons]
          rw [write_uci_self, String.toList_ofList, String.toList_ofList, value]
          exact words_mem words (List.mem_cons_of_mem _ (List.mem_cons_of_mem _ (List.mem_cons_self ..)))
        · exact .inl (d.write_uci_of_ne _ different)
      · exact .inl rfl
    · exact .inl rfl
  · split <;> exact .inl rfl
  · exact .inl rfl

theorem Device.run_uci (list : List (List Token)) (d : Device) (key : String) :
    (list.foldl invoke d).uci key = d.uci key ∨
      ∃ command ∈ list, Token.text (key.toList ++ '=' :: ((list.foldl invoke d).uci key).toList) ∈ command := by
  induction list generalizing d with
  | nil => exact .inl rfl
  | cons command list ih =>
    rw [List.foldl_cons]
    rcases ih (d.invoke command) with same | ⟨later, run, member⟩
    · rw [same]
      rcases d.invoke_uci command key with unchanged | member
      · exact .inl unchanged
      · exact .inr ⟨command, List.mem_cons_self .., member⟩
    · exact .inr ⟨later, List.mem_cons_of_mem _ run, member⟩

/-- A value that is not quotable does not get into its option, nor does any value that is not shorter
get into another one. -/
theorem Sets.execute_spoiled {slot : Slot} {key : String} {first : List Char} {value : String}
    (sets : Sets slot key first) (fixed : slot.Sealed) (dirty : ¬ Quotable value) (d : Device) {other : String}
    (plain : '=' ∉ other.toList) (here : other = key → first = []) :
    (d.execute (slot.text value)).2.uci other = d.uci other ∨
      ((d.execute (slot.text value)).2.uci other).toList.length < value.toList.length := by
  rw [d.execute_eq sets.text_indented]
  cases readable : Shell.read (slot.text value) with
  | none => exact .inl rfl
  | some list =>
    obtain ⟨tokens, rfl, spoiled⟩ := fixed.read_spoiled dirty readable
    rw [Option.getD_some]
    rcases Device.run_uci (commands tokens) d other with same | ⟨command, run, member⟩
    · exact .inl same
    · right
      generalize (List.foldl Device.invoke d (commands tokens)).uci other = assigned at member ⊢
      have present := mem_commands.mp ⟨command, run, member⟩
      rcases spoiled.text fixed.bare present (by simp) with shorter | ⟨rest, same, shorter⟩
      · rw [List.length_append, List.length_cons] at shorter
        omega
      · have key_same : other = key := by
          have before {key : String} (plain : '=' ∉ key.toList) (rest : List Char) :
              (key.toList ++ '=' :: rest).takeWhile (· ≠ '=') = key.toList := by
            rw [List.takeWhile_append_of_pos fun c member => decide_eq_true (ne_of_mem_of_not_mem member plain),
              List.takeWhile_cons_of_neg (by decide), List.append_nil]
          have keys := congrArg (List.takeWhile (· ≠ '=')) same
          rw [sets.key_eq, List.append_assoc, List.cons_append, before plain, before sets.plain] at keys
          exact String.toList_inj.mp keys
        rw [sets.key_eq, here key_same, key_same, List.append_assoc, List.cons_append, List.nil_append] at same
        obtain rfl : assigned.toList = rest := (List.cons.inj (List.append_cancel_left same)).2
        exact shorter

end FreifunkManager
