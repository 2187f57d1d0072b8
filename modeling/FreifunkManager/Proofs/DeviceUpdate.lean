import FreifunkManager.Proofs.DeviceCommands
import FreifunkManager.Proofs.UpdateRuns

/-! # The update of a device

A device that can be reached answers with the names of its radios, so that an update is a fixed sequence of
command texts, each of them run or left out by a comparison of one setting with the reported one.
-/

namespace FreifunkManager

open Effects Shell

namespace Device

/-- A device at the other end of a connection. -/
def remote : Remote Device where
  answer cmd d := d.execute cmd

theorem remote_serves : remote.Serves handle := ⟨fun _ => rfl, fun _ _ => rfl⟩

/-- Run a command text if a condition holds. -/
def pushIf (d : Device) (condition : Bool) (cmd : String) : Device :=
  if condition then (d.execute cmd).2 else d

/-- The part of an update that is about one radio. -/
def pushRadio (d : Device) (n : Node) (radio : Radio) (txPower txPowerRespondd channel channelRespondd : UInt32) :
    Device :=
  let permitted := (getChannel channel).isSome
  let d := d.pushIf (permitted && txPower != txPowerRespondd) (txPowerCommand radio.name txPower)
  let d := d.pushIf (retunes channel channelRespondd) (channelCommand radio.name channel)
  d.pushIf (n.hostname != n.hostnameRespondd) (ssidCommand radio.name n.hostname)

theorem radio_answers (radio : Radio) : Ssh.sshResultToString (radio.name ++ "\n") = radio.name ∧ radio.name ≠ "" := by
  cases radio <;> decide

theorem updateRadio_eq (d : Device) (n : Node) {probe : String} {radio : Radio}
    (answers : d.execute probe = (some (radio.name ++ "\n"), d))
    (txPower txPowerRespondd channel channelRespondd : UInt32) :
    remote.updateRadio n probe txPower txPowerRespondd channel channelRespondd d =
      (true, retunes channel channelRespondd, d.pushRadio n radio txPower txPowerRespondd channel channelRespondd) := by
  rw [Remote.updateRadio, show remote.answer probe d = _ from answers]
  dsimp only
  rw [(radio_answers radio).1, if_neg (radio_answers radio).2]
  rfl

def pushRadios (d : Device) (n : Node) : Device :=
  let d := d.pushRadio n d.radio24 n.wireless.txPower24 n.wirelessRespondd.txPower24 n.wireless.channel24
    n.wirelessRespondd.channel24
  let d := d.pushRadio n d.radio5 n.wireless.txPower5 n.wirelessRespondd.txPower5 n.wireless.channel5
    n.wirelessRespondd.channel5
  d.pushIf (retunes n.wireless.channel24 n.wirelessRespondd.channel24 ||
    retunes n.wireless.channel5 n.wirelessRespondd.channel5) wifiCommand

theorem updateRadios_eq (d : Device) (n : Node) : remote.updateRadios n d = d.pushRadios n := by
  have asks24 (d : Device) : d.execute radio24Command = (some (d.radio24.name ++ "\n"), d) := if_pos rfl
  have asks5 (d : Device) : d.execute radio5Command = (some (d.radio5.name ++ "\n"), d) :=
    (if_neg radio5_ne_radio24).trans (if_pos rfl)
  unfold Remote.updateRadios Remote.updateRadio24 Remote.updateRadio5
  rw [updateRadio_eq d n (asks24 d)]
  dsimp only
  rw [updateRadio_eq _ n (asks5 _)]
  rfl

theorem does_push (d : Device) (n : Node) : Does handle n.sshUpdate true d (remote.update n d) :=
  have connects : handle (.connectTo n.getAddress) d = (none, d) := rfl
  does_update remote_serves n connects

theorem push_eq_update (d : Device) (n : Node) : d.push n = remote.update n d := (does_push d n).after

/-- The update as a sequence of commands. -/
theorem push_eq (d : Device) (n : Node) : d.push n =
    (((d.pushIf (n.hostname != n.hostnameRespondd) (hostnameCommand n.hostname)).pushIf
      (n.owner != n.ownerRespondd) (contactCommand n.owner)).pushIf
      (!locationEqual n.location n.locationRespondd) (locationCommand n.location)).pushRadios n := by
  rw [push_eq_update, Remote.update, updateRadios_eq]
  rfl

end Device

end FreifunkManager
