/-! # WLAN channels

The table of channels with their frequencies in MHz, and its two ways of access. It is a Go map:
lookups by frequency run over it in any order, which makes no difference because no frequency
occurs twice (`frequencies_distinct`).
-/

namespace FreifunkManager

structure Channel where
  frequency : UInt32
  allowedInEU : Bool
deriving DecidableEq

/-- Frequencies above it belong to the 5 GHz band. -/
def freqThreashold : UInt32 := 5000

def channelEU : Bool := true

def channelList : List (UInt32 × Channel) :=
  [(1, ⟨2412, true⟩), (2, ⟨2417, true⟩), (3, ⟨2422, true⟩), (4, ⟨2427, true⟩), (5, ⟨2432, true⟩),
   (6, ⟨2437, true⟩), (7, ⟨2442, true⟩), (8, ⟨2447, true⟩), (9, ⟨2452, true⟩), (10, ⟨2457, true⟩),
   (11, ⟨2462, true⟩), (12, ⟨2467, true⟩), (13, ⟨2472, true⟩), (14, ⟨2484, false⟩), (32, ⟨5160, true⟩),
   (34, ⟨5170, false⟩), (36, ⟨5180, true⟩), (38, ⟨5190, false⟩), (40, ⟨5200, true⟩), (42, ⟨5210, false⟩),
   (44, ⟨5220, true⟩), (46, ⟨5230, false⟩), (48, ⟨5240, true⟩), (50, ⟨5250, true⟩), (52, ⟨5260, true⟩),
   (54, ⟨5270, false⟩), (56, ⟨5280, true⟩), (58, ⟨5290, false⟩), (60, ⟨5300, true⟩), (62, ⟨5310, false⟩),
   (64, ⟨5320, true⟩), (68, ⟨5340, true⟩), (96, ⟨5480, true⟩), (100, ⟨5500, true⟩), (102, ⟨5510, false⟩),
   (104, ⟨5520, true⟩), (106, ⟨5530, false⟩), (108, ⟨5540, true⟩), (110, ⟨5550, false⟩), (112, ⟨5560, true⟩),
   (114, ⟨5570, true⟩), (116, ⟨5580, true⟩), (118, ⟨5590, false⟩), (120, ⟨5600, true⟩), (122, ⟨5610, false⟩),
   (124, ⟨5620, true⟩), (126, ⟨5630, false⟩), (128, ⟨5640, true⟩), (132, ⟨5660, true⟩), (134, ⟨5670, false⟩),
   (136, ⟨5680, true⟩), (138, ⟨5690, false⟩), (140, ⟨5700, true⟩), (142, ⟨5710, false⟩), (144, ⟨5720, true⟩),
   (149, ⟨5745, true⟩), (151, ⟨5755, true⟩), (153, ⟨5765, true⟩), (155, ⟨5775, true⟩), (157, ⟨5785, true⟩),
   (159, ⟨5795, true⟩), (161, ⟨5805, true⟩), (165, ⟨5825, true⟩), (169, ⟨5845, true⟩), (173, ⟨5865, true⟩)]

/-- The channel, if it is known and may be used. -/
def getChannel (channel : UInt32) : Option Channel :=
  match channelList.lookup channel with
  | some ch => if !channelEU || ch.allowedInEU then some ch else none
  | none => none

def getChannelByFrequency (freq : UInt32) : Option (UInt32 × Channel) :=
  channelList.find? fun entry => entry.2.frequency == freq

/-- The permitted channels of the 2.4 GHz band, as offered to the clients. -/
def wifi24Channels : List UInt32 :=
  (channelList.filter fun entry => !(channelEU && !entry.2.allowedInEU) &&
    !(entry.2.frequency > freqThreashold)).map (·.1)

def wifi5Channels : List UInt32 :=
  (channelList.filter fun entry => !(channelEU && !entry.2.allowedInEU) &&
    entry.2.frequency > freqThreashold).map (·.1)

theorem frequencies_distinct : (channelList.map fun entry => entry.2.frequency).Nodup := by decide

/-- A channel on the air is recognised by its frequency. -/
theorem getChannelByFrequency_of_mem : ∀ entry ∈ channelList,
    getChannelByFrequency entry.2.frequency = some entry := by decide

end FreifunkManager
