/-
Discovery of the DMARC policy of a domain.

A policy is published at `_dmarc` below a domain and holds for the names below
it. The discovery asks for the domain and its ancestors at once, takes a record
with an explicit `psd` tag as the boundary of the organization, and selects the
record of the domain itself, then that of the organization. A lookup that fails
may have hidden a record, which is what the two flags of a discovery are about.
-/

import ListmonkOps.Provider.Domain
import ListmonkOps.Runtime.Number

namespace ListmonkOps.Provider

open ListmonkOps.Runtime

/-! ## Tags -/

/-- The tags of a record, in the order they occur. -/
abbrev Tags := List (Text × Text)

/-- `tags.get(key)`. -/
def Tags.get (tags : Tags) (key : Text) : Option Text := (tags.find? (·.1 = key)).map Prod.snd

/-- `/[A-Za-z]/`. -/
def isAsciiLetter (unit : UInt16) : Bool := (65 ≤ unit && unit ≤ 90) || (97 ≤ unit && unit ≤ 122)

/-- `/^[A-Za-z][A-Za-z0-9_]*$/`. -/
def isTagKey : Text → Bool
  | [] => false
  | head :: rest =>
      isAsciiLetter head && rest.all fun unit => isAsciiLetter unit || isDigit unit || unit = 95

section Tags

variable [CaseMapping]

/-- Take a `key=value` item into the tags; a key occurs once. -/
def parseTag (lowercaseValues : Bool) (tags : Tags) (item : Text) : Option Tags :=
  match item.idxOf? 61 with
  | none | some 0 => none
  | some separator =>
      let rawKey := Text.trim (item.take separator)
      if !isTagKey rawKey then none
      else
        let key := CaseMapping.toLowerCase rawKey
        let rawValue := Text.trim (item.drop (separator + 1))
        let value := if lowercaseValues then CaseMapping.toLowerCase rawValue else rawValue
        if tags.any (·.1 = key) then none else some (tags ++ [(key, value)])

/-- The items between semicolons; only the last one may be blank. -/
def parseTagRecord (lowercaseValues : Bool) (record : Text) : Option Tags :=
  let items := record.splitOn 59
  items.zipIdx.foldlM (fun tags (item, index) =>
    if Text.trim item = [] then
      if index = items.length - 1 ∧ 1 < items.length then some tags else none
    else parseTag lowercaseValues tags item) []

def parseDmarcTags (record : Text) : Option Tags := parseTagRecord true record

end Tags

/-! ## Policy records -/

/-- What is left of a text after a word in any case of its letters. -/
def dropWord : Text → Text → Option Text
  | [], rest => some rest
  | _ :: _, [] => none
  | unit :: word, head :: rest => if asciiLower head = unit then dropWord word rest else none

/-- `/^\s*v\s*=\s*dmarc1\s*(?:;|$)/i`. -/
def isDmarcCandidateRecord (record : Text) : Bool :=
  let skip (t : Text) := t.dropWhile Text.isWhiteSpace
  match dropWord ("v" : Text) (skip record) with
  | none => false
  | some rest =>
      match dropWord ("=" : Text) (skip rest) with
      | none => false
      | some rest =>
          match dropWord ("dmarc1" : Text) (skip rest) with
          | none => false
          | some rest => (skip rest).head?.all (· = 59)

def dmarcPolicies : List Text := ["none", "quarantine", "reject"]

section Records

variable [CaseMapping]

/-- The tags of a record that is a valid policy. -/
def validDmarcPolicyRecord (record : Text) : Option Tags := do
  if !isDmarcCandidateRecord record then none
  else
    let tags ← parseDmarcTags record
    if tags.get "v" ≠ some "dmarc1" then none
    else if !(tags.get "p").any (· ∈ dmarcPolicies) then none
    else if [("sp" : Text), "np"].any fun key => (tags.get key).any (· ∉ dmarcPolicies) then none
    else if [("adkim" : Text), "aspf"].any fun key =>
        (tags.get key).any (· ∉ [("r" : Text), "s"]) then none
    else if (tags.get "psd").any (· ∉ [("y" : Text), "n", "u"]) then none
    else some tags

structure DmarcPolicyRecord where
  domain : Text
  name : Text
  value : Text
  tags : Tags
  deriving DecidableEq

/-- The `psd` tag; `u` where it is omitted. -/
def DmarcPolicyRecord.psd (record : DmarcPolicyRecord) : Text := (record.tags.get "psd").getD "u"

/-! ## The walk towards the root -/

def maxDmarcTreeWalkQueries : ℕ := 8

/-- The domain and its ancestors; from a long name the walk goes on at seven labels. -/
def dmarcTreeWalkDomains (domain : Text) : List Text :=
  let labels := labelsOf (normalizeDomain domain)
  if labels.length ≤ maxDmarcTreeWalkQueries then
    (List.range labels.length).map fun index => joinLabels (labels.drop index)
  else
    let suffixStart := labels.length - (maxDmarcTreeWalkQueries - 1)
    joinLabels labels :: (List.range (labels.drop suffixStart).length).map fun index =>
      joinLabels (labels.drop (suffixStart + index))

/-- The name of the starting domain one label below the parent. -/
def childDomainBelow (startingDomain parentDomain : Text) : Text :=
  let startingLabels := labelsOf (normalizeDomain startingDomain)
  let parentLabels := labelsOf (normalizeDomain parentDomain)
  if startingLabels.length ≤ parentLabels.length then startingDomain
  else joinLabels (startingLabels.drop (startingLabels.length - parentLabels.length - 1))

structure DmarcLookup where
  candidate : Text
  name : Text
  result : ResolvedObservation
  deriving DecidableEq

def dmarcName (candidate : Text) : Text := ("_dmarc." : Text) ++ candidate

def dmarcLookup (txt : Text → DnsAnswer Text) (candidate : Text) : DmarcLookup where
  candidate
  name := dmarcName candidate
  result := resolveDnsObservation (dmarcName candidate) .txt (txt (dmarcName candidate))

namespace DmarcLookup

def failed (lookup : DmarcLookup) : Bool := lookup.result.outcome = .error

def candidateRecords (lookup : DmarcLookup) : List Text :=
  lookup.result.values.filter isDmarcCandidateRecord

/-- The policy found: the only candidate record, where it is valid. -/
def policyRecord? (lookup : DmarcLookup) : Option DmarcPolicyRecord :=
  match lookup.candidateRecords with
  | [value] => (validDmarcPolicyRecord value).map fun tags =>
      { domain := lookup.candidate, name := lookup.name, value, tags }
  | _ => none

end DmarcLookup

/-! ## Discovery -/

structure DmarcDiscovery where
  organizationalDomain : Text
  policy : Option DmarcPolicyRecord
  observations : List DnsObservation
  indeterminate : Bool
  organizationalDomainIndeterminate : Bool
  duplicateDomains : List Text

section Selection

variable (startingDomain : Text) (lookups : List DmarcLookup)

def dmarcRecords : List DmarcPolicyRecord := lookups.filterMap (·.policyRecord?)

/-- A record that ends the search for the organizational domain. -/
def isBoundary (record : DmarcPolicyRecord) : Bool :=
  record.psd = "n" || (record.domain ≠ startingDomain && record.psd = "y")

def organizationalEvidence : Option DmarcPolicyRecord :=
  (dmarcRecords lookups).find? (isBoundary startingDomain)

def organizationalDomain : Text :=
  match organizationalEvidence startingDomain lookups with
  | some record =>
      if record.psd = "n" then record.domain else childDomainBelow startingDomain record.domain
  | none => ((dmarcRecords lookups).getLast?.map (·.domain)).getD startingDomain

/-- `candidates.indexOf(record.domain)`. -/
def candidateIndex (record : DmarcPolicyRecord) : ℕ :=
  (lookups.map (·.candidate)).idxOf record.domain

/-- The records up to the one that ended the search. -/
def relevantRecords : List DmarcPolicyRecord :=
  let discoveryEndIndex :=
    ((organizationalEvidence startingDomain lookups).map (candidateIndex lookups)).getD
      (lookups.length - 1)
  (dmarcRecords lookups).filter (candidateIndex lookups · ≤ discoveryEndIndex)

/-- The record of the domain itself, that of the organization, or the last one. -/
def selectPolicy : Option DmarcPolicyRecord :=
  let relevant := relevantRecords startingDomain lookups
  relevant.find? (·.domain = startingDomain) <|>
    relevant.find? (·.domain = organizationalDomain startingDomain lookups) <|>
      relevant.getLast?

end Selection

def discoverDmarcPolicy (domain : Text) (txt : Text → DnsAnswer Text) : DmarcDiscovery :=
  let startingDomain := normalizeDomain domain
  let lookups := (dmarcTreeWalkDomains startingDomain).map (dmarcLookup txt)
  let candidates := lookups.map (·.candidate)
  let policy := selectPolicy startingDomain lookups
  let policyIndex := policy.elim candidates.length (candidateIndex lookups)
  let organizationalEvidenceIndex :=
    (organizationalEvidence startingDomain lookups).map (candidateIndex lookups)
  { organizationalDomain := organizationalDomain startingDomain lookups
    policy
    observations := lookups.map (·.result.observation)
    indeterminate := (lookups.take (policy.elim lookups.length fun _ => policyIndex)).any (·.failed)
    organizationalDomainIndeterminate :=
      (lookups.take (organizationalEvidenceIndex.getD lookups.length)).any (·.failed)
    duplicateDomains :=
      ((lookups.filter (1 < ·.candidateRecords.length)).map (·.candidate)).filter
        (· ∈ candidates.take (policyIndex + 1)) }

end Records

end ListmonkOps.Provider
