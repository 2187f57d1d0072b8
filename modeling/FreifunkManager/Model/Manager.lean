import FreifunkManager.Model.Node
import Mathlib.Data.List.Infix
import Mathlib.Logic.Function.Basic

/-! # The SSH connection manager

One manager opens all connections. It keeps a table of addresses whose handshake was refused, with
the time of the refusal; the table is a map from the textual form of an address, which is one-to-one,
so that it is keyed by the address itself here. What the network does and what the clock shows are
inputs of a call.
-/

namespace FreifunkManager.Ssh

structure Manager where
  clientsBlacklist : Option IP → Option Time

/-- The manager without any refusal. -/
def newManager : Manager := ⟨fun _ => none⟩

/-- What a call of `connectTo` meets: the error of the dial, if any, the error of the handshake, if
any, and the clock at the beginning and after the handshake. -/
structure Attempt where
  started : Time
  dial : Option String := none
  handshake : Option String := none
  ended : Time := started
deriving DecidableEq

/-- Whether a call dialled, and the error it returned, if any. -/
structure Connection where
  dialled : Bool
  err : Option String
deriving DecidableEq

def hour : Duration := 3600 * 10 ^ 9

/-- `strings.Contains`. -/
def contains (s substr : String) : Bool := s.toList.tails.any substr.toList.isPrefixOf

namespace Manager

/-- The check of `err` after the client was made. -/
def refuse (m : Manager) (ip : Option IP) (now : Time) (err : Option String) : Manager × Option String :=
  match err with
  | none => (m, none)
  | some err =>
    if contains err "no supported methods remain" then
      (⟨Function.update m.clientsBlacklist ip (some now)⟩, some "node on blacklist")
    else (m, some err)

/-- Dial and shake hands; the error of either is returned where it occurs. -/
def dial (m : Manager) (ip : Option IP) (attempt : Attempt) : Manager × Connection :=
  match attempt.dial with
  | some err => (m, ⟨true, some err⟩)
  | none =>
    match attempt.handshake with
    | some err => (m, ⟨true, some err⟩)
    | none =>
      -- `err` still is the one of the handshake, which is nil here
      let (m, err) := m.refuse ip attempt.ended attempt.handshake
      (m, ⟨true, err⟩)

def connectTo (m : Manager) (addr : TCPAddr) (attempt : Attempt) : Manager × Connection :=
  match m.clientsBlacklist addr.ip with
  | some t =>
    if attempt.started - 24 * hour < t then (m, ⟨false, some "node on blacklist"⟩)
    else Manager.dial ⟨Function.update m.clientsBlacklist addr.ip none⟩ addr.ip attempt
  | none => m.dial addr.ip attempt

end Manager

end FreifunkManager.Ssh
