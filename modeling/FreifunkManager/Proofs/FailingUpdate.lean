import FreifunkManager.Proofs.DeviceSettings

/-! # Updates in which commands fail

Any of the probes and commands of an update may fail, and has no effect on the device then. An update without the
2.4 GHz probe ends there, and so it does without the 5 GHz probe; all other failures go unnoticed.
-/

namespace FreifunkManager

open Effects Shell

/-- The pushes of an update that take effect. -/
structure Applied where
  hostname : Bool
  owner : Bool
  location : Bool
  txPower : Band → Bool
  channel : Band → Bool
  ssid : Band → Bool
  wifi : Bool

namespace Device

/-- A device at which some commands fail. -/
def flaky (fails : String → Bool) : Remote Device where
  answer cmd d := if fails cmd then (none, d) else d.execute cmd

/-- The device during an SSH session in which some commands fail. -/
def handleAmid (fails : String → Bool) : Handler operations Device := fun op d =>
  match op with
  | .runCommand cmd => (flaky fails).answer cmd d
  | op => handle op d

/-- The device after an update in which some commands fail. -/
def pushAmid (d : Device) (fails : String → Bool) (n : Node) : Device := (n.sshUpdate.run.run (handleAmid fails) d).2

/-- The radio can be asked for. -/
def asked (fails : String → Bool) : Band → Bool
  | .band24 => !fails radio24Command
  | .band5 => !fails radio24Command && !fails radio5Command

variable (d : Device) (n : Node) (applied : Applied)

def applyRadio (band : Band) : Device :=
  ((d.pushIf (applied.txPower band) (txPowerCommand (d.radio band).name (n.wireless.txPower band))).pushIf
    (applied.channel band) (channelCommand (d.radio band).name (n.wireless.channel band))).pushIf
    (applied.ssid band) (ssidCommand (d.radio band).name n.hostname)

def applyTexts : Device :=
  ((d.pushIf applied.hostname (hostnameCommand n.hostname)).pushIf applied.owner (contactCommand n.owner)).pushIf
    applied.location (locationCommand n.location)

def apply : Device :=
  (((d.applyTexts n applied).applyRadio n applied .band24).applyRadio n applied .band5).pushIf applied.wifi wifiCommand

end Device

/-- What is applied of an update of the node. -/
def Node.applied (n : Node) (fails : String → Bool) (radio : Band → Radio) : Applied where
  hostname := n.hostname != n.hostnameRespondd && !fails (hostnameCommand n.hostname)
  owner := n.owner != n.ownerRespondd && !fails (contactCommand n.owner)
  location := !locationEqual n.location n.locationRespondd && !fails (locationCommand n.location)
  txPower band := Device.asked fails band && ((getChannel (n.wireless.channel band)).isSome &&
    n.wireless.txPower band != n.wirelessRespondd.txPower band) &&
    !fails (txPowerCommand (radio band).name (n.wireless.txPower band))
  channel band := Device.asked fails band && retunes (n.wireless.channel band) (n.wirelessRespondd.channel band) &&
    !fails (channelCommand (radio band).name (n.wireless.channel band))
  ssid band := Device.asked fails band && n.hostname != n.hostnameRespondd &&
    !fails (ssidCommand (radio band).name n.hostname)
  -- the restart is wanted as soon as a channel was to be changed, whether the command failed or not
  wifi := (Device.asked fails .band24 && retunes n.wireless.channel24 n.wirelessRespondd.channel24 ||
    Device.asked fails .band5 && retunes n.wireless.channel5 n.wirelessRespondd.channel5) && !fails wifiCommand

namespace Device

/-! ## What no command changes -/

section Identity

/-- What a device is. -/
def identity (d : Device) : String × List String × Radio := (d.nodeID, d.addresses, d.radio24)

variable (d : Device)

theorem invoke_identity (command : List Token) : (d.invoke command).identity = d.identity := by
  unfold invoke
  split
  · split
    · unfold set
      split <;> rfl
    · rfl
  · split <;> rfl
  · rfl

theorem run_identity (list : List (List Token)) : (list.foldl invoke d).identity = d.identity := by
  induction list generalizing d with
  | nil => rfl
  | cons command list ih => exact (ih _).trans (d.invoke_identity command)

theorem execute_identity (cmd : String) : (d.execute cmd).2.identity = d.identity := by
  unfold execute
  split_ifs
  · rfl
  · rfl
  · cases Shell.read cmd with
    | none => rfl
    | some list => exact d.run_identity list

theorem pushIf_identity (condition : Bool) (cmd : String) : (d.pushIf condition cmd).identity = d.identity := by
  cases condition with
  | false => rfl
  | true => exact d.execute_identity cmd

theorem radio_of_identity {d d' : Device} (same : d'.identity = d.identity) : d'.radio = d.radio := by
  have radio24 : d'.radio24 = d.radio24 := congrArg (·.2.2) same
  funext band
  cases band with
  | band24 => exact radio24
  | band5 => exact congrArg Radio.other radio24

variable (n : Node) (applied : Applied)

theorem applyTexts_identity : (d.applyTexts n applied).identity = d.identity :=
  (pushIf_identity ..).trans ((pushIf_identity ..).trans (pushIf_identity ..))

theorem applyRadio_identity (band : Band) : (d.applyRadio n applied band).identity = d.identity :=
  (pushIf_identity ..).trans ((pushIf_identity ..).trans (pushIf_identity ..))

theorem apply_identity : (d.apply n applied).identity = d.identity :=
  (pushIf_identity ..).trans ((applyRadio_identity ..).trans ((applyRadio_identity ..).trans (applyTexts_identity ..)))

end Identity

/-! ## The update as a sequence of commands -/

section Flaky

variable (fails : String → Bool) (d : Device) (n : Node)

theorem flaky_serves : (flaky fails).Serves (handleAmid fails) := ⟨fun _ => rfl, fun _ _ => rfl⟩

theorem flaky_pushIf (condition : Bool) (cmd : String) :
    (flaky fails).pushIf condition cmd d = d.pushIf (condition && !fails cmd) cmd := by
  unfold Remote.pushIf pushIf flaky
  cases condition with
  | false => rfl
  | true => cases failed : fails cmd <;> simp [failed]

/-- A radio that can be asked for is updated; the command texts name it. -/
theorem flaky_updateRadio {probe : String} {radio : Radio} (answers : d.execute probe = (some (radio.name ++ "\n"), d))
    (txPower txPowerRespondd channel channelRespondd : UInt32) :
    (flaky fails).updateRadio n probe txPower txPowerRespondd channel channelRespondd d =
      if fails probe then (false, false, d)
      else (true, retunes channel channelRespondd,
        (flaky fails).pushRadio n radio.name txPower txPowerRespondd channel channelRespondd d) := by
  unfold Remote.updateRadio
  cases failed : fails probe with
  | true =>
    rw [show (flaky fails).answer probe d = (none, d) from if_pos failed]
    rfl
  | false =>
    rw [show (flaky fails).answer probe d = _ from (if_neg (by rw [failed]; exact Bool.false_ne_true)).trans answers]
    dsimp only
    rw [(radio_answers radio).1, if_neg (radio_answers radio).2]
    rfl

theorem flaky_pushRadio (band : Band) (asked : Device.asked fails band = true) :
    (flaky fails).pushRadio n (d.radio band).name (n.wireless.txPower band) (n.wirelessRespondd.txPower band)
      (n.wireless.channel band) (n.wirelessRespondd.channel band) d =
      d.applyRadio n (n.applied fails d.radio) band := by
  unfold Remote.pushRadio applyRadio Node.applied
  simp only [flaky_pushIf, asked, Bool.true_and]

theorem applyRadio_unasked (band : Band) (unasked : Device.asked fails band = false) (radio : Band → Radio) :
    d.applyRadio n (n.applied fails radio) band = d := by
  unfold applyRadio Node.applied
  simp only [unasked, Bool.false_and]
  rfl

theorem flaky_updateRadios : (flaky fails).updateRadios n d =
    ((d.applyRadio n (n.applied fails d.radio) .band24).applyRadio n (n.applied fails d.radio) .band5).pushIf
      (n.applied fails d.radio).wifi wifiCommand := by
  have answers24 (d : Device) : d.execute radio24Command = (some ((d.radio .band24).name ++ "\n"), d) := if_pos rfl
  have answers5 (d : Device) : d.execute radio5Command = (some ((d.radio .band5).name ++ "\n"), d) :=
    (if_neg radio5_ne_radio24).trans (if_pos rfl)
  have restart (d' : Device) (armed : Bool) (same : (Device.asked fails .band24 && retunes n.wireless.channel24
      n.wirelessRespondd.channel24 || Device.asked fails .band5 && retunes n.wireless.channel5
        n.wirelessRespondd.channel5) = armed) :
      (flaky fails).pushIf armed wifiCommand d' = d'.pushIf (n.applied fails d.radio).wifi wifiCommand := by
    rw [flaky_pushIf, Node.applied, same]
  have kept : (d.applyRadio n (n.applied fails d.radio) .band24).radio = d.radio :=
    radio_of_identity (applyRadio_identity ..)
  unfold Remote.updateRadios Remote.updateRadio24 Remote.updateRadio5
  rw [flaky_updateRadio fails d n (answers24 d)]
  cases failed24 : fails radio24Command with
  | true =>
    rw [applyRadio_unasked fails d n .band24 (by simp [Device.asked, failed24]),
      applyRadio_unasked fails d n .band5 (by simp [Device.asked, failed24])]
    exact restart d false (by simp [Device.asked, failed24])
  | false =>
    rw [if_neg Bool.false_ne_true]
    dsimp only
    rw [show (flaky fails).pushRadio n (d.radio .band24).name n.wireless.txPower24 n.wirelessRespondd.txPower24
        n.wireless.channel24 n.wirelessRespondd.channel24 d = _ from
      flaky_pushRadio fails d n .band24 (by simp [Device.asked, failed24]),
      flaky_updateRadio fails _ n (answers5 _), kept]
    cases failed5 : fails radio5Command with
    | true =>
      rw [applyRadio_unasked fails _ n .band5 (by simp [Device.asked, failed5])]
      exact restart _ _ (by simp [Device.asked, failed24, failed5])
    | false =>
      have radio5 := flaky_pushRadio fails (d.applyRadio n (n.applied fails d.radio) .band24) n .band5
        (by simp [Device.asked, failed24, failed5])
      rw [kept] at radio5
      rw [if_neg Bool.false_ne_true]
      dsimp only
      rw [show (flaky fails).pushRadio n (d.radio .band5).name n.wireless.txPower5 n.wirelessRespondd.txPower5
        n.wireless.channel5 n.wirelessRespondd.channel5 _ = _ from radio5]
      exact restart _ _ (by simp [Device.asked, failed24, failed5])

/-- An update in which some commands fail. -/
theorem pushAmid_eq : d.pushAmid fails n = d.apply n (n.applied fails d.radio) := by
  have connects : handleAmid fails (.connectTo n.getAddress) d = (none, d) := rfl
  have pushed : d.pushAmid fails n = (flaky fails).update n d := (does_update (flaky_serves fails) n connects).after
  have texts : (flaky fails).update n d = (flaky fails).updateRadios n (d.applyTexts n (n.applied fails d.radio)) := by
    unfold Remote.update applyTexts Node.applied
    simp only [flaky_pushIf]
  rw [pushed, texts, flaky_updateRadios, radio_of_identity (d.applyTexts_identity ..), apply]

theorem push_eq_pushAmid : d.push n = d.pushAmid (fun _ => false) n := by
  have same : (handleAmid fun _ => false) = handle := by
    funext op d
    cases op <;> rfl
  rw [pushAmid, same]
  rfl

end Flaky

/-! ## Quotable texts -/

section Clean

variable (d : Device) {n : Node} {fails : String → Bool}

/-- The settings of one radio as they are applied. -/
def writeApplied (d : Device) (n : Node) (applied : Applied) (band : Band) : Device :=
  ((d.writeIf (applied.txPower band) (.txPower (d.radio band)) (toString (n.wireless.txPower band).toNat)).writeIf
    (applied.channel band) (.channel (d.radio band)) (toString (n.wireless.channel band).toNat)).writeIf
    (applied.ssid band) (.ssid (d.radio band)) (offlineSsid n.hostname)

/-- The hostname is only pushed if it differs. -/
theorem hostname_differs {radio : Band → Radio}
    (pushed : (n.applied fails radio).hostname = true ∨ ∃ band, (n.applied fails radio).ssid band = true) :
    n.hostname ≠ n.hostnameRespondd := by
  unfold Node.applied at pushed
  simp only [Bool.and_eq_true, bne_iff_ne] at pushed
  rcases pushed with ⟨differs, _⟩ | ⟨band, ⟨_, differs⟩, _⟩
  · exact differs
  · exact differs

theorem owner_differs {radio : Band → Radio} (pushed : (n.applied fails radio).owner = true) :
    n.owner ≠ n.ownerRespondd := bne_iff_ne.mp (Bool.and_eq_true_iff.mp pushed).1

theorem applyRadio_clean {applied : Applied} {band : Band} (clean : applied.ssid band = true → Quotable n.hostname) :
    d.applyRadio n applied band = d.writeApplied n applied band := by
  unfold applyRadio writeApplied
  rw [pushIf_write _ _ (.txPower (d.radio band)) _ fun _ => execute_txPower _ (d.radio band) _,
    pushIf_write _ _ (.channel (d.radio band)) _ fun _ => execute_channel _ (d.radio band) _,
    pushIf_write _ _ (.ssid (d.radio band)) _ fun pushed => execute_ssid _ (d.radio band) (clean pushed)]

/-- The device after an update in which some commands fail, if its texts are quotable. -/
theorem pushAmid_clean (clean : n.Clean) : d.pushAmid fails n =
    let applied := n.applied fails d.radio
    let d := (d.writeIf applied.hostname .hostname n.hostname).writeIf applied.owner .contact n.owner
    let d := ((d.writeIf applied.location .latitude n.location.latitude.decimal).writeIf applied.location .longitude
      n.location.longitude.decimal).writeIf applied.location .share "1"
    ((d.writeApplied n applied .band24).writeApplied n applied .band5).wifiIf applied.wifi := by
  have hostname (pushed : (n.applied fails d.radio).hostname = true ∨ ∃ band,
      (n.applied fails d.radio).ssid band = true) :
      Quotable n.hostname := clean.hostname.resolve_left (hostname_differs pushed)
  have owner (pushed : (n.applied fails d.radio).owner = true) : Quotable n.owner :=
    clean.owner.resolve_left (owner_differs pushed)
  rw [pushAmid_eq, apply, applyTexts, pushIf_write d _ .hostname _ fun pushed =>
    execute_hostname _ (hostname (.inl pushed)),
    pushIf_write _ _ .contact _ fun pushed => execute_contact _ (owner pushed), pushIf_location_eq,
    applyRadio_clean _ fun pushed => hostname (.inr ⟨_, pushed⟩),
    applyRadio_clean _ fun pushed => hostname (.inr ⟨_, pushed⟩), pushIf_wifi]

variable (clean : n.Clean)

include clean

theorem pushAmid_hostname : (d.pushAmid fails n).value .hostname =
    if (n.applied fails d.radio).hostname then n.hostname else d.value .hostname := by
  rw [pushAmid_clean d clean]
  simp [writeApplied]

theorem pushAmid_contact : (d.pushAmid fails n).value .contact =
    if (n.applied fails d.radio).owner then n.owner else d.value .contact := by
  rw [pushAmid_clean d clean]
  simp [writeApplied]

theorem pushAmid_ssid (band : Band) : (d.pushAmid fails n).value (.ssid (d.radio band)) =
    if (n.applied fails d.radio).ssid band then offlineSsid n.hostname else d.value (.ssid (d.radio band)) := by
  rw [pushAmid_clean d clean]
  cases band <;> simp [radio, radio5, writeApplied]

theorem pushAmid_channel (band : Band) : (d.pushAmid fails n).value (.channel (d.radio band)) =
    if (n.applied fails d.radio).channel band then toString (n.wireless.channel band).toNat
    else d.value (.channel (d.radio band)) := by
  rw [pushAmid_clean d clean]
  cases band <;> simp [radio, radio5, writeApplied]

theorem pushAmid_onAir (band : Band) : (d.pushAmid fails n).onAir (d.radio band) =
    if (n.applied fails d.radio).wifi
    then tuned (if (n.applied fails d.radio).channel band then toString (n.wireless.channel band).toNat
      else d.value (.channel (d.radio band))) (d.onAir (d.radio band))
    else d.onAir (d.radio band) := by
  rw [pushAmid_clean d clean]
  cases band <;> simp [radio, radio5, writeApplied, wifiIf_onAir]

end Clean

end Device

/-! ## Texts that are not quotable -/

/-- The setting is as before, or it is shorter than the bound. -/
def Shortens (setting : Setting) (bound : ℕ) (before after : Device) : Prop :=
  after.value setting = before.value setting ∨ (after.value setting).toList.length < bound

namespace Shortens

variable {setting : Setting} {bound : ℕ}

theorem trans {first second third : Device} (left : Shortens setting bound first second)
    (right : Shortens setting bound second third) : Shortens setting bound first third := by
  rcases right with same | short
  · rcases left with same' | short
    · exact .inl (same.trans same')
    · exact .inr (same ▸ short)
  · exact .inr short

/-- A quotable text goes to its own setting; any other one leaves only shorter texts. -/
theorem pushIf {cmd value : String} (d : Device) {condition : Bool} (target : Setting) {text : String}
    (writes : Quotable value → (d.execute cmd).2 = d.write target.key text)
    (spoils : ¬ Quotable value → Shortens setting value.toList.length d (d.execute cmd).2)
    (clean : condition = true → Quotable value → setting ≠ target)
    (dirty : condition = true → ¬ Quotable value → value.toList.length ≤ bound) :
    Shortens setting bound d (d.pushIf condition cmd) := by
  cases condition with
  | false => exact .inl rfl
  | true =>
    change Shortens setting bound d (d.execute cmd).2
    by_cases quotable : Quotable value
    · rw [writes quotable]
      exact .inl (d.write_uci_of_ne text (Setting.key_injective.ne (clean rfl quotable)))
    · exact (spoils quotable).imp id fun short => short.trans_le (dirty rfl quotable)

theorem of_sets {slot : Slot} {key : String} {first : List Char} (sets : Sets slot key first) (fixed : slot.Sealed)
    (here : setting.key = key → first = []) {value : String} (d : Device) (dirty : ¬ Quotable value) :
    Shortens setting value.toList.length d (d.execute (slot.text value)).2 :=
  sets.execute_spoiled fixed dirty d setting.key_plain here

theorem writeIf (d : Device) (condition : Bool) {target : Setting} (text : String) (different : setting ≠ target) :
    Shortens setting bound d (d.writeIf condition target text) :=
  .inl (by rw [Device.writeIf_value, if_neg fun same => different same.2])

end Shortens

section Spoiled

variable {n : Node} {setting : Setting} {bound : ℕ} {fails : String → Bool}

theorem applyRadio_shortens (d : Device) {applied : Applied} {band : Band}
    (text : setting = .hostname ∨ setting = .contact)
    (hostname : applied.ssid band = true → ¬ Quotable n.hostname → n.hostname.toList.length ≤ bound) :
    Shortens setting bound d (d.applyRadio n applied band) := by
  have numbers : setting ≠ .txPower (d.radio band) ∧ setting ≠ .channel (d.radio band) ∧
      setting ≠ .ssid (d.radio band) := by
    rcases text with rfl | rfl <;> simp
  unfold Device.applyRadio
  rw [Device.pushIf_write _ _ (.txPower (d.radio band)) _ fun _ => Device.execute_txPower _ (d.radio band) _,
    Device.pushIf_write _ _ (.channel (d.radio band)) _ fun _ => Device.execute_channel _ (d.radio band) _]
  refine ((Shortens.writeIf d _ _ numbers.1).trans (Shortens.writeIf _ _ _ numbers.2.1)).trans
    (Shortens.pushIf _ (.ssid (d.radio band)) (Device.execute_ssid _ (d.radio band)) (fun dirty => ?_)
      (fun _ _ => numbers.2.2) hostname)
  rw [show (d.radio band).name = (d.radio band).radioName.name from rfl, ssidCommand_eq]
  exact .of_sets (ssid_sets (d.radio band)) (ssidSlot_sealed (d.radio band).radioName)
    (fun same => absurd same (Setting.key_injective.ne numbers.2.2)) _ dirty

theorem pushAmid_shortens (d : Device) (text : setting = .hostname ∨ setting = .contact)
    (hostname : n.hostname ≠ n.hostnameRespondd →
      (Quotable n.hostname → setting ≠ .hostname) ∧ (¬ Quotable n.hostname → n.hostname.toList.length ≤ bound))
    (owner : n.owner ≠ n.ownerRespondd →
      (Quotable n.owner → setting ≠ .contact) ∧ (¬ Quotable n.owner → n.owner.toList.length ≤ bound)) :
    Shortens setting bound d (d.pushAmid fails n) := by
  have location : setting ≠ .latitude ∧ setting ≠ .longitude ∧ setting ≠ .share := by
    rcases text with rfl | rfl <;> decide
  rw [Device.pushAmid_eq]
  generalize known : n.applied fails d.radio = applied
  have hostname (pushed : applied.hostname = true ∨ ∃ band, applied.ssid band = true) :=
    hostname (Device.hostname_differs (known ▸ pushed))
  have owner (pushed : applied.owner = true) := owner (Device.owner_differs (known ▸ pushed))
  have first : Shortens setting bound d (d.pushIf applied.hostname (hostnameCommand n.hostname)) := by
    refine Shortens.pushIf _ .hostname (Device.execute_hostname _) (fun dirty => ?_)
      (fun pushed => (hostname (.inl pushed)).1) fun pushed => (hostname (.inl pushed)).2
    rw [hostnameCommand_eq]
    exact .of_sets hostname_sets hostnameSlot_sealed (fun _ => rfl) _ dirty
  have second (d : Device) : Shortens setting bound d (d.pushIf applied.owner (contactCommand n.owner)) := by
    refine Shortens.pushIf _ .contact (Device.execute_contact _) (fun dirty => ?_)
      (fun pushed => (owner pushed).1) fun pushed => (owner pushed).2
    rw [contactCommand_eq]
    exact .of_sets contact_sets contactSlot_sealed (fun _ => rfl) _ dirty
  have third (d : Device) : Shortens setting bound d (d.pushIf applied.location (locationCommand n.location)) := by
    rw [Device.pushIf_location_eq]
    exact ((Shortens.writeIf _ _ _ location.1).trans (Shortens.writeIf _ _ _ location.2.1)).trans
      (Shortens.writeIf _ _ _ location.2.2)
  have radio (d : Device) (band : Band) : Shortens setting bound d (d.applyRadio n applied band) :=
    applyRadio_shortens d text fun pushed => (hostname (.inr ⟨band, pushed⟩)).2
  have restart (d : Device) : Shortens setting bound d (d.pushIf applied.wifi wifiCommand) := by
    rw [Device.pushIf_wifi]
    exact .inl (Device.wifiIf_value ..)
  exact (first.trans ((second _).trans (third _))).trans (((radio _ .band24).trans (radio _ .band5)).trans (restart _))

/-- Texts that are not quotable do not both reach the device. -/
theorem clean_of_reached {d : Device} (fails : String → Bool)
    (hostname : n.hostname = (d.pushAmid fails n).value .hostname ∨ Quotable n.hostname)
    (owner : n.owner = (d.pushAmid fails n).value .contact ∨ Quotable n.owner)
    (hostnameRespondd : n.hostnameRespondd = d.value .hostname) (ownerRespondd : n.ownerRespondd = d.value .contact) :
    n.Clean := by
  -- of the texts that are pushed and not quotable, the longest one is not reached
  have hostname_longest (differs : n.hostname ≠ n.hostnameRespondd) (dirty : ¬ Quotable n.hostname)
      (longest : n.owner ≠ n.ownerRespondd → ¬ Quotable n.owner →
        n.owner.toList.length ≤ n.hostname.toList.length) : False := by
    have reached := hostname.resolve_right dirty
    rcases pushAmid_shortens d (.inl rfl) (fun _ => ⟨fun quotable => absurd quotable dirty, fun _ => le_rfl⟩)
        (fun differs => ⟨fun _ => by decide, longest differs⟩) with same | short
    · exact differs ((reached.trans same).trans hostnameRespondd.symm)
    · exact absurd short (reached ▸ lt_irrefl _)
  have owner_longest (differs : n.owner ≠ n.ownerRespondd) (dirty : ¬ Quotable n.owner)
      (longest : n.hostname ≠ n.hostnameRespondd → ¬ Quotable n.hostname →
        n.hostname.toList.length ≤ n.owner.toList.length) : False := by
    have reached := owner.resolve_right dirty
    rcases pushAmid_shortens d (.inr rfl) (fun differs => ⟨fun _ => by decide, longest differs⟩)
        (fun _ => ⟨fun quotable => absurd quotable dirty, fun _ => le_rfl⟩) with same | short
    · exact differs ((reached.trans same).trans ownerRespondd.symm)
    · exact absurd short (reached ▸ lt_irrefl _)
  constructor
  · by_contra spoiled
    obtain ⟨differs, dirty⟩ := not_or.mp spoiled
    refine hostname_longest differs dirty fun ownerDiffers ownerDirty => ?_
    by_contra longer
    exact owner_longest ownerDiffers ownerDirty fun _ _ => (not_le.mp longer).le
  · by_contra spoiled
    obtain ⟨differs, dirty⟩ := not_or.mp spoiled
    refine owner_longest differs dirty fun hostnameDiffers hostnameDirty => ?_
    by_contra longer
    exact hostname_longest hostnameDiffers hostnameDirty fun _ _ => (not_le.mp longer).le

end Spoiled

end FreifunkManager
