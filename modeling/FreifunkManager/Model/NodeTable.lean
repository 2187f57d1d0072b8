import FreifunkManager.Model.Node
import FreifunkManager.Order.Comparator
import Mathlib.Algebra.Order.Group.Int
import Mathlib.Algebra.Order.Ring.Rat

/-! # The table of the nodes

The list shows the nodes in the order of one of its headings, which compare two nodes as the server sent them. A
setting that is zero was left out, so its property is undefined. A number is `none` where it is undefined or `NaN`;
the rounding of a difference does not change its sign.
-/

namespace FreifunkManager.NodeTable

open Comparator

/-- A property of `undefined` was read. -/
inductive TypeError where
  | undefined
deriving DecidableEq

/-- One radio in the statistics. -/
structure Airtime where
  frequency : UInt32
  chanUtil : Option ℚ
deriving DecidableEq

/-- A node as it was sent. The radios of its statistics may be null. -/
structure Sent where
  node : Node
  wireless : Option (List Airtime) := none
  same : (wireless.getD []).map (·.frequency) = node.statisticsRespondd.wireless.map (·.frequency) := by rfl

/-- A number that is left out if it is zero. -/
def omitempty (n : UInt32) : Option ℤ := if n = 0 then none else some n.toNat

/-- `new Date(lastseen)`, in milliseconds; null is the start of the epoch. -/
def date : Option Time → ℤ
  | none => 0
  | some time => time / 10 ^ 6

namespace Sent

variable (s : Sent)

/-- It is always sent. -/
def wirelessRespondd : Option WirelessSettings := some s.node.wirelessRespondd

/-- The channel utilization of the first radio of the 2.4 GHz band. -/
def chanUtil24 : Except TypeError (Option ℚ) :=
  match s.wireless with
  | none => .ok (some 0)
  | some wireless =>
    match wireless.filter (·.frequency < 5000) with
    | [] => .error .undefined
    | first :: _ => .ok (some (first.chanUtil.getD 0))

end Sent

/-- The headings that the list can be sorted by; `Freq` and `Options` are not among them. -/
inductive Heading where
  | lastseen | nodeID | hostname | curCh | channel | curPW | power | clients | chanUtil
deriving DecidableEq

namespace Heading

def name : Heading → String
  | .lastseen => "Lastseen"
  | .nodeID => "NodeID"
  | .hostname => "Hostname"
  | .curCh => "CurCh"
  | .channel => "Channel"
  | .curPW => "CurPW"
  | .power => "Power"
  | .clients => "Clients"
  | .chanUtil => "ChanUtil"

def reverse : Heading → Bool := fun _ => false

/-- Which of two nodes comes first. -/
def sort (localeCompare : String → String → ℤ) : Heading → Sent → Sent → Except TypeError Ordering
  | .lastseen => byDifference fun s => .ok (some (date s.node.lastseen))
  | .nodeID => fun a b => .ok (sign (some (localeCompare a.node.nodeID b.node.nodeID)))
  | .hostname => fun a b => .ok (sign (some (localeCompare a.node.hostname b.node.hostname)))
  | .curCh => byDifference fun s => .ok (s.wirelessRespondd.elim (some 0) fun wireless => omitempty wireless.channel24)
  | .channel => byDifference fun s => .ok (omitempty s.node.wireless.channel24)
  | .curPW => byDifference fun s => .ok (s.wirelessRespondd.elim (some 0) fun wireless => omitempty wireless.txPower24)
  | .power => byDifference fun s => .ok (omitempty s.node.wireless.txPower24)
  | .clients => byDifference fun s => .ok (some (s.node.statisticsRespondd.clients.wifi24.toNat : ℤ))
  | .chanUtil => byDifference Sent.chanUtil24

end Heading

structure Table where
  sortReverse : Bool := false
  sortIndex : Heading := .nodeID
  /-- All rows are displayed for -1. -/
  maxDisplayedRows : ℤ := 20
deriving DecidableEq

namespace Table

variable (table : Table)

/-- The rows go down. -/
def reversed : Bool := if table.sortIndex.reverse then !table.sortReverse else table.sortReverse

/-- How many of `n` rows are displayed. -/
def displayed (n : ℕ) : ℕ :=
  if table.maxDisplayedRows ≠ -1 then (min table.maxDisplayedRows n).toNat else n

/-- The rows that `render` shows of the data. -/
def visibleRows (localeCompare : String → String → ℤ) (data : List Sent) : Except TypeError (List Sent) := do
  let rows ← Comparator.sort (table.sortIndex.sort localeCompare) data
  let rows := if table.reversed then rows.reverse else rows
  return rows.take (table.displayed rows.length)

end Table

end FreifunkManager.NodeTable
