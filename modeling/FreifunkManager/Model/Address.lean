import Mathlib.Data.List.TakeWhile

/-! # IP addresses

The standard library's reading of textual addresses, as up to Go 1.16: dotted decimals, which may have leading zeros,
and colon-separated groups with at most one ellipsis and possibly a dotted tail. An address is its 16 bytes; an IPv4
address has the usual mapped form. `none` plays the part of the nil address, which is what a malformed text is read
as.
-/

namespace FreifunkManager

abbrev IP := BitVec 128

/-- The target of a connection; dialling a nil address reaches the local host. -/
structure TCPAddr where
  ip : Option IP
  port : ℕ
deriving DecidableEq

namespace IP

def isHex (c : Char) : Bool := c.isDigit || ('a' ≤ c && c ≤ 'f') || ('A' ≤ c && c ≤ 'F')

def hexValue (c : Char) : ℕ :=
  if c.isDigit then c.toNat - '0'.toNat else if c ≤ 'F' then c.toNat - 'A'.toNat + 10 else c.toNat - 'a'.toNat + 10

/-- A decimal byte; leading zeros do no harm, as Go refuses them only from version 1.17 on. -/
def byte? (digits : List Char) : Option ℕ :=
  if digits.isEmpty || !digits.all Char.isDigit then none
  else if Nat.ofDigitChars 10 digits 0 ≤ 0xFF then some (Nat.ofDigitChars 10 digits 0)
  else none

/-- The four bytes of a dotted address. -/
def parseIPv4 (s : List Char) : Option (List ℕ) :=
  match s.splitOn '.' with
  | [a, b, c, d] => [a, b, c, d].mapM byte?
  | _ => none

/-- Up to `remaining` groups of 16 bits, with the position of the ellipsis among them. -/
def parseGroups (remaining : ℕ) (s : List Char) (ellipsis : Option ℕ) (groups : List ℕ) :
    Option (List ℕ × Option ℕ) :=
  match remaining with
  | 0 => none
  | remaining + 1 =>
    let digits := s.takeWhile isHex
    let value := digits.foldl (fun n c => 16 * n + hexValue c) 0
    let groups' := groups ++ [value]
    if digits.isEmpty || 0xFFFF < value then none
    else match s.dropWhile isHex with
    | '.' :: _ =>
      if ellipsis.isNone && groups.length != 6 || 6 < groups.length then none
      else match parseIPv4 s with
      | some [a, b, c, d] => some (groups ++ [a * 256 + b, c * 256 + d], ellipsis)
      | _ => none
    | [] => some (groups', ellipsis)
    | [':'] => none
    | ':' :: ':' :: rest =>
      if ellipsis.isSome then none
      else if rest.isEmpty then some (groups', some groups'.length)
      else parseGroups remaining rest (some groups'.length) groups'
    | ':' :: rest => parseGroups remaining rest ellipsis groups'
    | _ => none

/-- Fill the ellipsis with zeros; it stands for at least one group. -/
def expand : List ℕ × Option ℕ → Option (List ℕ)
  | (groups, none) => if groups.length = 8 then some groups else none
  | (groups, some ellipsis) =>
    if groups.length < 8 then
      some (groups.take ellipsis ++ List.replicate (8 - groups.length) 0 ++ groups.drop ellipsis)
    else none

def ofGroups (groups : List ℕ) : IP := BitVec.ofNat 128 (groups.foldl (fun n group => 65536 * n + group) 0)

def parseIPv6 (s : List Char) : Option IP :=
  let groups := match s with
    | [':', ':'] => some ([], some 0)
    | ':' :: ':' :: rest => parseGroups 8 rest (some 0) []
    | _ => parseGroups 8 s none []
  (groups.bind expand).map ofGroups

/-- `net.ParseIP`: the first dot or colon decides about the notation. -/
def parse (s : String) : Option IP :=
  match s.toList.find? fun c => c == '.' || c == ':' with
  | some '.' => (parseIPv4 s.toList).bind fun bytes =>
    match bytes with
    | [a, b, c, d] => some (ofGroups [0, 0, 0, 0, 0, 0xFFFF, a * 256 + b, c * 256 + d])
    | _ => none
  | some ':' => parseIPv6 s.toList
  | _ => none

/-- The address has the form of a mapped IPv4 address. -/
def isIPv4 (ip : IP) : Bool := ip >>> 32 == 0xFFFF

def isUnspecified (ip : IP) : Bool := ip == 0 || ip == ofGroups [0, 0, 0, 0, 0, 0xFFFF, 0, 0]

def isLoopback (ip : IP) : Bool :=
  if ip.isIPv4 then (ip >>> 24) &&& 0xFF == 127 else ip == 1

def isMulticast (ip : IP) : Bool :=
  if ip.isIPv4 then (ip >>> 28) &&& 0xF == 0xE else ip >>> 120 == 0xFF

def isLinkLocalUnicast (ip : IP) : Bool :=
  if ip.isIPv4 then (ip >>> 16) &&& 0xFFFF == 0xA9FE else ip >>> 118 == 0x3FA

def isGlobalUnicast (ip : IP) : Bool :=
  ip != ofGroups [0, 0, 0, 0, 0, 0xFFFF, 0xFFFF, 0xFFFF] && !ip.isUnspecified && !ip.isLoopback &&
    !ip.isMulticast && !ip.isLinkLocalUnicast

example : parse "fe80::1" = some (ofGroups [0xFE80, 0, 0, 0, 0, 0, 0, 1]) := by decide

end IP

end FreifunkManager
