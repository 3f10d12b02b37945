/-
Address ranges of SPF.

Addresses of one version are numbers, and a range of them is an interval. Lists
of ranges are kept sorted, with touching ranges merged; intersection and
difference go range by range.
-/

import Mathlib.Data.List.Sort
import ListmonkOps.Provider.SpfTerms

namespace ListmonkOps.Provider

open ListmonkOps.Runtime

inductive IpFamily where
  | v4
  | v6
  deriving DecidableEq

/-- The version of the addresses as a number. -/
def IpFamily.number : IpFamily → ℕ
  | .v4 => 4
  | .v6 => 6

structure SpfIpInterval where
  family : IpFamily
  start : ℕ
  stop : ℕ
  deriving DecidableEq

/-! ## Addresses as numbers -/

/-- The number that hexadecimal digits denote. -/
def hexValue (text : Text) : Option ℕ :=
  if text = [] then none
  else
    text.foldlM (fun value unit =>
      if isDigit unit then some (16 * value + (unit.toNat - 48))
      else if 97 ≤ unit && unit ≤ 102 then some (16 * value + (unit.toNat - 87))
      else none) 0

/-- `value.toString(16)`. -/
def hexText (value : ℕ) : Text := Text.ofString (String.ofList (Nat.toDigits 16 value))

/-- `text.split("::")`. -/
def splitCompression : Text → List Text
  | [] => [[]]
  | [unit] => [[unit]]
  | unit :: next :: rest =>
      if unit = 58 ∧ next = 58 then [] :: splitCompression rest
      else
        match splitCompression (next :: rest) with
        | [] => [[unit]]
        | part :: parts => (unit :: part) :: parts

section Addresses

variable [CaseMapping] [IpSyntax]

def ipv4Integer (address : Text) : Option ℕ :=
  if IpSyntax.isIP address ≠ 4 then none
  else some ((address.splitOn 46).foldl (fun value part => (value <<< 8) ||| decimalValue part) 0)

/-- The groups of an address of version 6; the missing ones stand at the compression. -/
def ipv6Parts (normalized : Text) : Option (List Text) :=
  let groups (part : Text) : List Text := if part = [] then [] else part.splitOn 58
  match splitCompression normalized with
  | [left] => some (groups left)
  | [left, right] =>
      let missing := 8 - (groups left).length - (groups right).length
      some (groups left ++ List.replicate missing ("0" : Text) ++ groups right)
  | _ => none

def ipv6Integer (address : Text) : Option ℕ := do
  if 37 ∈ address || IpSyntax.isIP address ≠ 6 then none
  else
    let normalized := CaseMapping.toLowerCase address
    let (front, possibleIpv4) := (splitAtLast 58 normalized)
    let possibleIpv4 := possibleIpv4.getD normalized
    let normalized ←
      if 46 ∈ possibleIpv4 then
        (ipv4Integer possibleIpv4).map fun ipv4 =>
          front ++ ":" ++ hexText ((ipv4 >>> 16) &&& 0xffff) ++ ":" ++ hexText (ipv4 &&& 0xffff)
      else some normalized
    let parts ← ipv6Parts normalized
    if parts.length ≠ 8 then none
    else parts.foldlM (fun value part => (hexValue part).map ((value <<< 16) ||| ·)) 0

/-- The range of an address with an optional prefix length. Both callers have
checked that a prefix length is written in digits. -/
def parseSpfIpInterval (value : Text) : Option SpfIpInterval := do
  let normalized := CaseMapping.toLowerCase value
  let (address, prefixLength) := splitAtLast 47 normalized
  if 37 ∈ address then none
  else
    let family ← match IpSyntax.isIP address with
      | 4 => some IpFamily.v4
      | 6 => some IpFamily.v6
      | _ => none
    let maximumPrefix := match family with
      | .v4 => 32
      | .v6 => 128
    let prefixLength ← match prefixLength with
      | none => some maximumPrefix
      | some digits => if isDecimal digits then some (decimalValue digits) else none
    if maximumPrefix < prefixLength then none
    else
      let addressValue ← match family with
        | .v4 => ipv4Integer address
        | .v6 => ipv6Integer address
      let hostBits := maximumPrefix - prefixLength
      let start := (addressValue >>> hostBits) <<< hostBits
      some { family, start, stop := start ||| (2 ^ hostBits - 1) }

end Addresses

/-! ## Operations on ranges -/

def intervalsOverlap (left right : SpfIpInterval) : Bool :=
  left.family = right.family && left.start ≤ right.stop && right.start ≤ left.stop

def subtractSpfInterval (source authorized : SpfIpInterval) : List SpfIpInterval :=
  if !intervalsOverlap source authorized then [source]
  else
    (if source.start < authorized.start then [{ source with stop := authorized.start - 1 }]
      else []) ++
    (if authorized.stop < source.stop then [{ source with start := authorized.stop + 1 }] else [])

/-- The order of sorted ranges: by version, then start, then end. -/
def SpfIpInterval.before (left right : SpfIpInterval) : Bool :=
  if left.family ≠ right.family then left.family.number < right.family.number
  else if left.start ≠ right.start then left.start < right.start
  else left.stop ≤ right.stop

/-- Take the next range of a sorted list in. -/
def mergeInterval (normalized : List SpfIpInterval) (range : SpfIpInterval) :
    List SpfIpInterval :=
  match normalized.getLast? with
  | none => [range]
  | some previous =>
      if previous.family ≠ range.family || previous.stop + 1 < range.start then normalized ++ [range]
      else if previous.stop < range.stop then
        normalized.dropLast ++ [{ previous with stop := range.stop }]
      else normalized

def normalizeSpfIntervals (ranges : List SpfIpInterval) : List SpfIpInterval :=
  (ranges.insertionSort (fun left right => left.before right = true)).foldl mergeInterval []

def intersectSpfIntervals (left right : List SpfIpInterval) : List SpfIpInterval :=
  normalizeSpfIntervals (left.flatMap fun leftRange =>
    (right.filter (intervalsOverlap leftRange)).map fun rightRange =>
      { family := leftRange.family
        start := max leftRange.start rightRange.start
        stop := min leftRange.stop rightRange.stop })

def subtractSpfIntervals (source removed : List SpfIpInterval) : List SpfIpInterval :=
  normalizeSpfIntervals ((normalizeSpfIntervals removed).foldl
    (fun remaining range => remaining.flatMap (subtractSpfInterval · range))
    (normalizeSpfIntervals source))

end ListmonkOps.Provider
