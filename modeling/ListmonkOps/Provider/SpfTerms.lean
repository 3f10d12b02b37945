/-
The terms of an SPF record.

A record is a list of words. A word is a modifier, of the form `name=value`, or
a mechanism behind an optional qualifier. The parser accepts a record when no
modifier occurs twice, a redirect names a domain and every mechanism is one it
knows; the evaluators read the words again on their own.
-/

import ListmonkOps.Provider.Dmarc

namespace ListmonkOps.Provider

open ListmonkOps.Runtime

/-! ## Addresses of a platform -/

/-- The address syntax of the platform. -/
class IpSyntax where
  /-- `isIP`: 4 or 6 for an address of this version, 0 otherwise. -/
  isIP : Text → ℕ

/-! ## Words -/

/-- `text.split(/\s+/)` of a trimmed text, where a blank one has no words. -/
def wordsOf (text : Text) : List Text := (text.splitOnP Text.isWhiteSpace).filter (· ≠ [])

/-- The text before the last separator, and the text after it. -/
def splitAtLast (separator : UInt16) (text : Text) : Text × Option Text :=
  if separator ∈ text then
    ((text.rdropWhile (· ≠ separator)).dropLast, some (text.rtakeWhile (· ≠ separator)))
  else (text, none)

/-- `/^\d+$/`. -/
def isDecimal (text : Text) : Bool := text ≠ [] && text.all isDigit

def decimalValue (text : Text) : ℕ :=
  text.foldl (fun value unit => 10 * value + (unit.toNat - 48)) 0

/-- `/^[+?~-]/.exec(term)?.[0]`. -/
def qualifierOf (term : Text) : Option UInt16 :=
  term.head?.filter fun unit => unit = 43 || unit = 63 || unit = 126 || unit = 45

/-- `term.replace(/^[+?~-]/, "")`. -/
def mechanismOf (term : Text) : Text := if (qualifierOf term).isSome then term.tail else term

/-- `qualifier === undefined || qualifier === "+"`. -/
def isPassing (term : Text) : Bool := (qualifierOf term).all (· = 43)

/-- `/^([a-z][a-z0-9._-]*)=(.*)$/i`: the name and the value of a modifier. -/
def modifierOf (term : Text) : Option (Text × Text) :=
  match term.takeWhile (· ≠ 61), term.dropWhile (· ≠ 61) with
  | head :: rest, _ :: value =>
      if isAsciiLetter head && rest.all fun unit =>
          isAsciiLetter unit || isDigit unit || unit = 46 || unit = 95 || unit = 45
      then some (head :: rest, value)
      else none
  | _, _ => none

/-- `/^redirect=(.+)$/i`. -/
def redirectOf (term : Text) : Option Text :=
  (dropWord ("redirect=" : Text) term).filter (· ≠ [])

/-- The digits of an address with two prefix lengths: `(?:\/(\d+))?(?:\/\/(\d+))?$`. -/
def cidrPrefixes (text : Text) : Option (Option Text × Option Text) :=
  match text with
  | [] => some (none, none)
  | 47 :: 47 :: rest => if isDecimal rest then some (none, some rest) else none
  | 47 :: rest =>
      match rest.takeWhile isDigit, rest.dropWhile isDigit with
      | [], _ => none
      | digits, [] => some (some digits, none)
      | digits, 47 :: 47 :: rest => if isDecimal rest then some (some digits, some rest) else none
      | _, _ => none
  | _ => none

/-- `/^(?:a|mx)(?::([^/]+))?(?:\/(\d+))?(?:\/\/(\d+))?$/i`: the domain and the two
prefix lengths. -/
def dualCidrOf (mechanism : Text) : Option (Option Text × Option Text × Option Text) := do
  let rest ← dropWord ("a" : Text) mechanism <|> dropWord ("mx" : Text) mechanism
  match rest with
  | 58 :: rest =>
      let domain := rest.takeWhile (· ≠ 47)
      if domain = [] then none
      else (cidrPrefixes (rest.dropWhile (· ≠ 47))).map fun prefixes => (some domain, prefixes)
  | rest => (cidrPrefixes rest).map fun prefixes => (none, prefixes)

section Terms

variable [CaseMapping]

def isSpfVersionOneRecord (record : Text) : Bool :=
  (wordsOf (Text.trim record)).head?.any fun word => CaseMapping.toLowerCase word = ("v=spf1" : Text)

/-! ## Mechanisms -/

/-- `mechanism.toLowerCase().split(/[:/]/, 1)[0]`. -/
def mechanismName (mechanism : Text) : Text :=
  (CaseMapping.toLowerCase mechanism).takeWhile fun unit => unit ≠ 58 && unit ≠ 47

def isValidSpfDomainSpec (value : Text) : Bool :=
  value ≠ [] && 47 ∉ value && normalizeDomain value ≠ []

def isValidSpfDualCidrMechanism (mechanism : Text) : Bool :=
  match dualCidrOf mechanism with
  | none => false
  | some (domain, ipv4Prefix, ipv6Prefix) =>
      domain.all isValidSpfDomainSpec && ipv4Prefix.all (decimalValue · ≤ 32) &&
        ipv6Prefix.all (decimalValue · ≤ 128)

def spfMechanismUsesDns (mechanism : Text) : Bool :=
  mechanismName mechanism ∈ [("a" : Text), "mx", "ptr", "exists"]

variable [IpSyntax]

def isValidSpfIpNetwork (value : Text) (family maxPrefixLength : ℕ) : Bool :=
  let (address, prefixLength) := splitAtLast 47 value
  37 ∉ address && IpSyntax.isIP address = family &&
    prefixLength.all fun length => isDecimal length && decimalValue length ≤ maxPrefixLength

def isValidSpfMechanism (mechanism : Text) : Bool :=
  let lower := CaseMapping.toLowerCase mechanism
  let startsWith (word : Text) := word.isPrefixOf lower
  if lower = ("all" : Text) then true
  else if startsWith "include:" then isValidSpfDomainSpec (mechanism.drop 8)
  else if startsWith "ip4:" then isValidSpfIpNetwork (mechanism.drop 4) 4 32
  else if startsWith "ip6:" then isValidSpfIpNetwork (mechanism.drop 4) 6 128
  else if lower = ("a" : Text) || startsWith "a:" || startsWith "a/" then
    isValidSpfDualCidrMechanism mechanism
  else if lower = ("mx" : Text) || startsWith "mx:" || startsWith "mx/" then
    isValidSpfDualCidrMechanism mechanism
  else if lower = ("ptr" : Text) then true
  else if startsWith "ptr:" then isValidSpfDomainSpec (mechanism.drop 4)
  else if startsWith "exists:" then isValidSpfDomainSpec (mechanism.drop 7)
  else false

def isDirectSpfAuthorizer (mechanism : Text) : Bool :=
  mechanismName mechanism ≠ ("include" : Text) && isValidSpfMechanism mechanism

/-! ## Records -/

/-- Check the terms in turn against the modifiers seen. -/
def validTerms (seenModifiers : List Text) : List Text → Bool
  | [] => true
  | term :: terms =>
      match modifierOf term with
      | some (name, value) =>
          let name := CaseMapping.toLowerCase name
          if name ∈ seenModifiers then false
          else if name = ("redirect" : Text) && !isValidSpfDomainSpec value then false
          else validTerms (name :: seenModifiers) terms
      | none => isValidSpfMechanism (mechanismOf term) && validTerms seenModifiers terms

def parseValidSpfTerms (record : Text) : Option (List Text) :=
  if !isSpfVersionOneRecord record then none
  else
    let terms := (wordsOf (Text.trim record)).tail
    if validTerms [] terms then some terms else none

/-- `mechanism.indexOf(":")`, and the domain behind it. -/
def spfMechanismDomain (mechanism currentDomain : Text) : Text :=
  match mechanism.dropWhile (· ≠ 58) with
  | [] => currentDomain
  | _ :: rest => normalizeDomain (rest.takeWhile (· ≠ 47))

end Terms

end ListmonkOps.Provider
