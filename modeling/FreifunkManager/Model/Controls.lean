import FreifunkManager.Model.Bodies
import FreifunkManager.Model.ListView

/-! # The controls of the list

A row of the list has a control for the host name and one for every radio setting of its node. A channel is chosen from
the channels that the server has sent, and everything else is typed. When a control is left, the value that it has is
sent, whether it was edited or not. The numbers that are read from a node are whole and not negative.
-/

namespace FreifunkManager

namespace Json

/-- Read a property; `none` is `undefined`. -/
def get (json : Json) (name : String) : Option Json :=
  match json with
  | .object fields => fields.lookup name
  | _ => none

def text : Json → String
  | .string text => text
  | _ => ""

def whole : Json → Option ℤ
  | .number x => some x.toNat
  | _ => none

end Json

/-- The channels of the store. -/
structure Channels where
  channelsWifi24 : List UInt32
  channelsWifi5 : List UInt32

inductive Control where
  | hostname
  | radio (setting : RadioSetting)
deriving DecidableEq

/-- `node.wireless.channel24` and the like. -/
def RadioSetting.read (object : Json) (radio : RadioSetting) : Option ℤ :=
  (object.get "wireless").bind fun wireless => (wireless.get radio.name).bind Json.whole

/-- The channels to choose from, if the control is a select. -/
def RadioSetting.options (channels : Channels) : RadioSetting → Option (List UInt32)
  | .channel24 => some channels.channelsWifi24
  | .channel5 => some channels.channelsWifi5
  | .txPower24 | .txPower5 => none

/-- The value of a select: that of the option that is selected, or else of the first one. -/
def selectValue (options : List (String × Bool)) : String :=
  (((options.filter Prod.snd).getLast? <|> options.head?).map Prod.fst).getD ""

/-- A number as it is sent; one that is too large for a double becomes infinite, and that is sent as null. -/
def sentNumber (number : Option ℤ) : Option Binary64 :=
  number.bind fun n => Binary64.ofRatio? (decide (n < 0)) n.natAbs 1

namespace Control

/-- The value that a control is rendered with, while no text is kept in the view. -/
def rendered (channels : Channels) (object : Json) : Control → String
  | .hostname => ((object.get "hostname").map Json.text).getD ""
  | .radio r =>
    match r.options channels with
    | some options => selectValue (options.map fun channel =>
        (ListView.numberText (some channel.toNat), decide (some (channel.toNat : ℤ) = r.read object)))
    | none => ListView.numberText (r.read object)

/-- The edit that is made when a control is left. -/
def onfocusout (text : String) : Control → ViewEdit
  | .hostname => .listHostname text
  | .radio r => .listRadio r (sentNumber (ListView.parseInt text))

end Control

end FreifunkManager
