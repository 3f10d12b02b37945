/-
Hosts that outgoing requests may reach.

A host that is written as an address is judged by that address: the ranges that
are not routed globally are refused, and an address of version 6 that carries
one of version 4 is judged as that one. A host that is no address passes here
and is judged by what it resolves to.
-/

import ListmonkOps.Provider.SpfIntervals

namespace ListmonkOps.Network

open ListmonkOps.Runtime ListmonkOps.Provider

/-! ## Version 4 -/

/-- `NON_PUBLIC_IPV4_RANGES`: networks with the lengths of their prefixes. -/
def nonPublicIpv4Ranges : List (ℕ × ℕ) :=
  [(0x00000000, 8), (0x0a000000, 8), (0x64400000, 10), (0x7f000000, 8), (0xa9fe0000, 16),
    (0xac100000, 12), (0xc0000000, 24), (0xc0000200, 24), (0xc0586300, 24), (0xc0a80000, 16),
    (0xc6120000, 15), (0xc6336400, 24), (0xcb007100, 24), (0xe0000000, 4), (0xf0000000, 4)]

/-- `/^(?:0|[1-9]\d{0,2})$/`. -/
def isOctetText (part : Text) : Bool :=
  part = [48] || (isDecimal part && part.length ≤ 3 && part.head? ≠ some 48)

def parseIpv4Address (value : Text) : Option ℕ :=
  match value.splitOn 46 with
  | [first, second, third, fourth] =>
      if [first, second, third, fourth].any (!isOctetText ·) then none
      else if [first, second, third, fourth].any (255 < decimalValue ·) then none
      else
        some ((decimalValue first <<< 24) ||| (decimalValue second <<< 16) |||
          (decimalValue third <<< 8) ||| decimalValue fourth)
  | _ => none

def isIpv4InRange (address : ℕ) (range : ℕ × ℕ) : Bool :=
  let mask := if range.2 = 0 then 0 else (0xffffffff <<< (32 - range.2)) % 2 ^ 32
  address &&& mask = range.1 &&& mask

def isPublicIpv4 (address : ℕ) : Bool := !nonPublicIpv4Ranges.any (isIpv4InRange address)

/-! ## Version 6 -/

/-- `/^\d+\.\d+\.\d+\.\d+$/`. -/
def isDottedDigits (text : Text) : Bool :=
  (text.splitOn 46).length = 4 && (text.splitOn 46).all isDecimal

/-- `/^[0-9a-f]{1,4}$/`. -/
def isGroupText (part : Text) : Bool :=
  1 ≤ part.length && part.length ≤ 4 &&
    part.all fun unit => isDigit unit || (97 ≤ unit && unit ≤ 102)

/-- The parts between the colons of one half; an empty half has none. -/
def groupsOf (half : Text) : List Text := if half = [] then [] else half.splitOn 58

/-- The eight groups of an address, with zeros where the double colon stands. -/
def eightGroups (normalized : Text) : Option (List Text) :=
  match splitCompression normalized with
  | [left] => if (groupsOf left).length = 8 then some (groupsOf left) else none
  | [left, right] =>
      if 8 ≤ (groupsOf left).length + (groupsOf right).length then none
      else
        some (groupsOf left ++
          List.replicate (8 - (groupsOf left).length - (groupsOf right).length) [48] ++
          groupsOf right)
  | _ => none

/-- The dotted tail of an address is written as two groups. -/
def withoutDottedTail (normalized : Text) : Option Text :=
  let tail := normalized.rtakeWhile (· ≠ 58)
  if isDottedDigits tail then
    (parseIpv4Address tail).map fun ipv4 =>
      normalized.rdropWhile (· ≠ 58) ++ hexText ((ipv4 >>> 16) &&& 0xffff) ++
        58 :: hexText (ipv4 &&& 0xffff)
  else some normalized

/-- The number of an address without a dotted tail. -/
def groupsNumber (normalized : Text) : Option ℕ := do
  let parts ← eightGroups normalized
  if parts.any (!isGroupText ·) then none
  else parts.foldlM (fun result part => (hexValue part).map ((result <<< 16) ||| ·)) 0

def isIpv6InRange (address network prefixLength : ℕ) : Bool :=
  address >>> (128 - prefixLength) = network >>> (128 - prefixLength)

/-- The networks of global unicast that are not public. -/
def nonPublicIpv6Ranges : List (ℕ × ℕ) :=
  [(0x20010000000000000000000000000000, 23), (0x20010db8000000000000000000000000, 32),
    (0x20020000000000000000000000000000, 16), (0x3fff0000000000000000000000000000, 20)]

def isPublicIpv6 (address : ℕ) : Bool :=
  if address >>> 32 = 0xffff then isPublicIpv4 (address &&& 0xffffffff)
  else if !isIpv6InRange address 0x20000000000000000000000000000000 3 then false
  else !nonPublicIpv6Ranges.any fun range => isIpv6InRange address range.1 range.2

/-! ## Hosts -/

/-- `hostname.replace(/^\[|\]$/g, "")`. -/
def withoutBrackets (hostname : Text) : Text :=
  let host := if hostname.head? = some 91 then hostname.tail else hostname
  if host.getLast? = some 93 then host.dropLast else host

section Hosts

variable [CaseMapping]

def parseIpv6Address (value : Text) : Option ℕ :=
  (withoutDottedTail ((CaseMapping.toLowerCase value).takeWhile (· ≠ 37))).bind groupsNumber

/-- The host is `localhost` or an address that is not routed globally. -/
def isPrivateHost (hostname : Text) : Bool :=
  let host := CaseMapping.toLowerCase (withoutBrackets hostname)
  if host = ("localhost" : Text) then true
  else
    match parseIpv4Address host with
    | some ipv4 => !isPublicIpv4 ipv4
    | none =>
        match parseIpv6Address host with
        | some ipv6 => !isPublicIpv6 ipv6
        | none => false

end Hosts

end ListmonkOps.Network
