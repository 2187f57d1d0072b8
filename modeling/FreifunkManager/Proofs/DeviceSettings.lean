import FreifunkManager.Proofs.DeviceUpdate
import Mathlib.Data.List.Nodup

/-! # What an update leaves on the device

If every pushed text is quotable, an update writes exactly the options that it is meant to write;
`push_value`, `push_txPower` and `push_onAir` tell the settings of the device after it.
-/

namespace FreifunkManager

open Effects Shell

/-! ## Options as settings -/

/-- The options that an update writes or a report states. -/
inductive Setting where
  | hostname | contact | latitude | longitude | altitude | share
  | txPower (radio : Radio)
  | channel (radio : Radio)
  | ssid (radio : Radio)
deriving DecidableEq

namespace Setting

def key : Setting → String
  | .hostname => Device.hostnameKey
  | .contact => Device.contactKey
  | .latitude => Device.latitudeKey
  | .longitude => Device.longitudeKey
  | .altitude => Device.altitudeKey
  | .share => Device.shareKey
  | .txPower radio => Device.txPowerKey radio
  | .channel radio => Device.channelKey radio
  | .ssid radio => Device.ssidKey radio

private def all : List Setting :=
  [.hostname, .contact, .latitude, .longitude, .altitude, .share, .txPower .radio0, .txPower .radio1,
    .channel .radio0, .channel .radio1, .ssid .radio0, .ssid .radio1]

private theorem mem_all : ∀ setting, setting ∈ all
  | .hostname | .contact | .latitude | .longitude | .altitude | .share => by decide
  | .txPower radio | .channel radio | .ssid radio => by cases radio <;> decide

/-- Different settings are different options. -/
theorem key_injective : Function.Injective key := fun _ _ same =>
  List.inj_on_of_nodup_map (by decide +kernel : (all.map key).Nodup) (mem_all _) (mem_all _) same

theorem key_plain : ∀ setting : Setting, '=' ∉ setting.key.toList
  | .hostname | .contact | .latitude | .longitude | .altitude | .share => not_mem_literal rfl (by decide)
  | .txPower radio | .channel radio | .ssid radio =>
    radio_plain radio (not_mem_literal rfl (by decide)) (not_mem_literal rfl (by decide))

end Setting

namespace Device

def value (d : Device) (setting : Setting) : String := d.uci setting.key

/-- Write an option if a condition holds. -/
def writeIf (d : Device) (condition : Bool) (setting : Setting) (text : String) : Device :=
  if condition then d.write setting.key text else d

variable (d : Device) (condition : Bool) (setting : Setting) (text : String)

@[simp] theorem writeIf_value (other : Setting) : (d.writeIf condition setting text).value other =
    if condition = true ∧ other = setting then text else d.value other := by
  cases condition with
  | false => simp [writeIf]
  | true =>
    rcases eq_or_ne other setting with rfl | different
    · simp [writeIf, value]
    · simp [writeIf, value, write_uci_of_ne d text (Setting.key_injective.ne different), different]

@[simp] theorem writeIf_radio24 : (d.writeIf condition setting text).radio24 = d.radio24 := by
  cases condition <;> rfl

@[simp] theorem writeIf_onAir : (d.writeIf condition setting text).onAir = d.onAir := by
  cases condition <;> rfl

/-- Restart the radios if a condition holds. -/
def wifiIf : Device := if condition then d.wifi else d

@[simp] theorem wifiIf_value : (d.wifiIf condition).value setting = d.value setting := by
  cases condition <;> rfl

@[simp] theorem wifiIf_radio24 : (d.wifiIf condition).radio24 = d.radio24 := by
  cases condition <;> rfl

/-- A command that writes one option. -/
theorem pushIf_write {cmd : String}
    (writes : condition = true → (d.execute cmd).2 = d.write setting.key text) :
    d.pushIf condition cmd = d.writeIf condition setting text := by
  cases condition with
  | false => rfl
  | true => exact writes rfl

/-! ## An update with quotable texts -/

/-- The location as an update writes it. -/
def writeLocation (d : Device) (n : Node) : Device :=
  let condition := !locationEqual n.location n.locationRespondd
  ((d.writeIf condition .latitude n.location.latitude.decimal).writeIf condition .longitude
    n.location.longitude.decimal).writeIf condition .share "1"

/-- The settings of one radio as an update writes them. -/
def writeRadio (d : Device) (n : Node) (radio : Radio) (txPower txPowerRespondd channel channelRespondd : UInt32) :
    Device :=
  ((d.writeIf ((getChannel channel).isSome && txPower != txPowerRespondd) (.txPower radio)
    (toString txPower.toNat)).writeIf (retunes channel channelRespondd) (.channel radio)
    (toString channel.toNat)).writeIf (n.hostname != n.hostnameRespondd) (.ssid radio) (offlineSsid n.hostname)

end Device

/-- Every text that an update of the node pushes is quotable. -/
structure Node.Clean (n : Node) : Prop where
  hostname : n.hostname = n.hostnameRespondd ∨ Quotable n.hostname
  owner : n.owner = n.ownerRespondd ∨ Quotable n.owner

namespace Device

private theorem quotable_of_differs {desired reported : String} (clean : desired = reported ∨ Quotable desired)
    (differs : (desired != reported) = true) : Quotable desired :=
  clean.resolve_left (bne_iff_ne.mp differs)

theorem pushIf_location_eq (d : Device) (condition : Bool) (location : Location) :
    d.pushIf condition (locationCommand location) =
      ((d.writeIf condition .latitude location.latitude.decimal).writeIf condition .longitude
        location.longitude.decimal).writeIf condition .share "1" := by
  unfold pushIf writeIf
  cases condition with
  | false => simp only [Bool.false_eq_true, if_false]
  | true => exact d.execute_location location

theorem pushIf_location (d : Device) (n : Node) :
    d.pushIf (!locationEqual n.location n.locationRespondd) (locationCommand n.location) = d.writeLocation n := by
  unfold writeLocation
  exact d.pushIf_location_eq _ _

theorem pushRadio_clean (d : Device) {n : Node} (clean : n.Clean) (radio : Radio)
    (txPower txPowerRespondd channel channelRespondd : UInt32) :
    d.pushRadio n radio txPower txPowerRespondd channel channelRespondd =
      d.writeRadio n radio txPower txPowerRespondd channel channelRespondd := by
  unfold pushRadio writeRadio
  dsimp only
  rw [pushIf_write _ _ (.txPower radio) _ fun _ => execute_txPower _ radio txPower,
    pushIf_write _ _ (.channel radio) _ fun _ => execute_channel _ radio channel,
    pushIf_write _ _ (.ssid radio) _ fun differs =>
      execute_ssid _ radio (quotable_of_differs clean.hostname differs)]

theorem pushIf_wifi (d : Device) (condition : Bool) :
    d.pushIf condition wifiCommand = d.wifiIf condition := by
  have invoked : d.invoke [word "wifi"] = d.wifi := by
    simp only [invoke, word, List.mapM_cons, List.mapM_nil, Token.chars?_text, bind, pure, Option.bind_some, if_true]
  have wifi : (d.execute wifiCommand).2 = d.wifi := by
    rw [execute, if_neg (by decide +kernel), if_neg (by decide +kernel),
      show Shell.read wifiCommand = some [[word "wifi"]] by decide +kernel]
    exact invoked
  rw [pushIf, wifi, wifiIf]

/-- The device after an update whose texts are quotable. -/
theorem push_clean (d : Device) {n : Node} (clean : n.Clean) : d.push n =
    let d := (d.writeIf (n.hostname != n.hostnameRespondd) .hostname n.hostname).writeIf
      (n.owner != n.ownerRespondd) .contact n.owner
    let d := d.writeLocation n
    let d := d.writeRadio n d.radio24 n.wireless.txPower24 n.wirelessRespondd.txPower24 n.wireless.channel24
      n.wirelessRespondd.channel24
    let d := d.writeRadio n d.radio5 n.wireless.txPower5 n.wirelessRespondd.txPower5 n.wireless.channel5
      n.wirelessRespondd.channel5
    d.wifiIf (retunes n.wireless.channel24 n.wirelessRespondd.channel24 ||
      retunes n.wireless.channel5 n.wirelessRespondd.channel5) := by
  rw [push_eq, pushIf_write d _ .hostname _ fun differs =>
      execute_hostname _ (quotable_of_differs clean.hostname differs),
    pushIf_write _ _ .contact _ fun differs => execute_contact _ (quotable_of_differs clean.owner differs),
    pushIf_location]
  simp only [pushRadios, pushRadio_clean _ clean, pushIf_wifi]

end Device

/-! ## Bands -/

inductive Band where
  | band24 | band5
deriving DecidableEq

def Band.Contains (frequency : UInt32) : Band → Prop
  | .band24 => ¬ frequency > freqThreashold
  | .band5 => frequency > freqThreashold

/-- A permitted channel of the band. -/
def Band.Permits (band : Band) (channel : UInt32) : Prop :=
  ∃ ch, getChannel channel = some ch ∧ band.Contains ch.frequency

def WirelessSettings.channel (settings : WirelessSettings) : Band → UInt32
  | .band24 => settings.channel24
  | .band5 => settings.channel5

def WirelessSettings.txPower (settings : WirelessSettings) : Band → UInt32
  | .band24 => settings.txPower24
  | .band5 => settings.txPower5

theorem wirelessEqual_iff_bands {a b : WirelessSettings} : wirelessEqual a b = true ↔
    ∀ band, a.channel band = b.channel band ∧ a.txPower band = b.txPower band := by
  rw [wirelessEqual_iff]
  constructor
  · rintro rfl band
    exact ⟨rfl, rfl⟩
  · intro same
    have band24 := same .band24
    have band5 := same .band5
    rcases a with ⟨tx24, ch24, tx5, ch5⟩
    rcases b with ⟨tx24', ch24', tx5', ch5'⟩
    exact WirelessSettings.mk.injEq .. ▸ ⟨band24.2, band24.1, band5.2, band5.1⟩

theorem getChannel_eq_some {channel : UInt32} {ch : Channel} (permitted : getChannel channel = some ch) :
    channelList.lookup channel = some ch ∧ ch.allowedInEU = true := by
  unfold getChannel at permitted
  split at permitted
  · next other found =>
    split at permitted
    · next allowed =>
      cases permitted
      exact ⟨found, by simpa [channelEU] using allowed⟩
    · contradiction
  · contradiction

@[simp] theorem Radio.other_ne (radio : Radio) : ¬ radio.other = radio := by cases radio <;> decide

@[simp] theorem Radio.ne_other (radio : Radio) : ¬ radio = radio.other := by cases radio <;> decide

namespace Device

def radio (d : Device) : Band → Radio
  | .band24 => d.radio24
  | .band5 => d.radio5

section Clean

variable (d : Device) {n : Node}

theorem push_radio (clean : n.Clean) (band : Band) : (d.push n).radio band = d.radio band := by
  rw [push_clean d clean]
  cases band <;> simp [radio, radio5, writeRadio, writeLocation]

/-- What an update leaves in every option that the comparison is about. -/
theorem push_value (clean : n.Clean) :
    (d.push n).value .hostname = (if n.hostname ≠ n.hostnameRespondd then n.hostname else d.value .hostname) ∧
    (d.push n).value .contact = (if n.owner ≠ n.ownerRespondd then n.owner else d.value .contact) ∧
    (d.push n).value .latitude = (if locationEqual n.location n.locationRespondd = false
      then n.location.latitude.decimal else d.value .latitude) ∧
    (d.push n).value .longitude = (if locationEqual n.location n.locationRespondd = false
      then n.location.longitude.decimal else d.value .longitude) ∧
    (d.push n).value .altitude = d.value .altitude := by
  rw [push_clean d clean]
  simp [writeRadio, writeLocation]

theorem push_txPower (clean : n.Clean) (band : Band) : (d.push n).value (.txPower (d.radio band)) =
    if (getChannel (n.wireless.channel band)).isSome ∧ n.wireless.txPower band ≠ n.wirelessRespondd.txPower band
    then toString (n.wireless.txPower band).toNat else d.value (.txPower (d.radio band)) := by
  rw [push_clean d clean]
  cases band <;> simp [radio, radio5, writeRadio, writeLocation, WirelessSettings.channel, WirelessSettings.txPower]

end Clean

/-- What `wifi` puts on the air of a radio, by the text of its channel. -/
def tuned (text : String) (frequency : UInt32) : UInt32 :=
  match channelList.lookup (readNumber text) with
  | some channel => channel.frequency
  | none => frequency

theorem wifiIf_onAir (d : Device) (condition : Bool) (radio : Radio) : (d.wifiIf condition).onAir radio =
    if condition then tuned (d.value (.channel radio)) (d.onAir radio) else d.onAir radio := by
  cases condition <;> rfl

theorem readNumber_toString (number : UInt32) : readNumber (toString number.toNat) = number := by
  have digits : (toString number.toNat).toList.all Char.isDigit = true := by
    rw [List.all_eq_true, Nat.toString_eq_repr, Nat.toList_repr]
    exact fun c member => Nat.isDigit_of_mem_toDigits (by decide) (by decide) member
  rw [readNumber, if_pos digits, Nat.toString_eq_repr, Nat.toList_repr, Nat.ofDigitChars_ten_toDigits,
    UInt32.ofNat_toNat]

theorem tuned_channel {channel : UInt32} {ch : Channel} (permitted : getChannel channel = some ch)
    (frequency : UInt32) : tuned (toString channel.toNat) frequency = ch.frequency := by
  rw [tuned, readNumber_toString, (getChannel_eq_some permitted).1]

/-- The frequency of a radio after an update. -/
theorem push_onAir {d : Device} (settled : d.Settled) {n : Node} (clean : n.Clean) (band : Band) :
    (d.push n).onAir (d.radio band) =
      if retunes (n.wireless.channel band) (n.wirelessRespondd.channel band)
      then ((getChannel (n.wireless.channel band)).map (·.frequency)).getD 0 else d.onAir (d.radio band) := by
  have configured : tuned (d.value (.channel (d.radio band))) (d.onAir (d.radio band)) = d.onAir (d.radio band) :=
    congrFun settled.configured _
  have written : (d.push n).onAir (d.radio band) =
      if retunes n.wireless.channel24 n.wirelessRespondd.channel24 ||
        retunes n.wireless.channel5 n.wirelessRespondd.channel5
      then tuned (if retunes (n.wireless.channel band) (n.wirelessRespondd.channel band)
        then toString (n.wireless.channel band).toNat else d.value (.channel (d.radio band))) (d.onAir (d.radio band))
      else d.onAir (d.radio band) := by
    rw [push_clean d clean]
    cases band <;>
      simp [radio, radio5, writeRadio, writeLocation, wifiIf_onAir, WirelessSettings.channel]
  rw [written]
  cases retuned : retunes (n.wireless.channel band) (n.wirelessRespondd.channel band) with
  | true =>
    have either : (retunes n.wireless.channel24 n.wirelessRespondd.channel24 ||
        retunes n.wireless.channel5 n.wirelessRespondd.channel5) = true := by
      cases band
      · exact Bool.or_eq_true_iff.mpr (.inl retuned)
      · exact Bool.or_eq_true_iff.mpr (.inr retuned)
    obtain ⟨ch, permitted⟩ := Option.isSome_iff_exists.mp (Bool.and_eq_true_iff.mp retuned).1
    rw [if_pos either, if_pos rfl, if_pos rfl, tuned_channel permitted, permitted]
    rfl
  | false => simp [configured]

end Device

end FreifunkManager
