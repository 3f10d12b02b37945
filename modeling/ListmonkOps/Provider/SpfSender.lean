/-
Evaluation of an SPF record for one sender.

What SPF asks of a receiver, for a single address and over a zone whose answers are given.
The terms are taken in order and the first mechanism that matches decides. An include
matches where the included domain passes, and a redirect is followed where nothing has
matched. At most ten terms may query DNS, and two lookups may have no answer; every error
ends the evaluation. Macros and `ptr` are not evaluated and count as errors. The words of a
record are read as the inspections read them.
-/

import ListmonkOps.Provider.SpfAddressSets
import ListmonkOps.Provider.SpfRanges

namespace ListmonkOps.Provider

open ListmonkOps.Runtime

abbrev SpfZone := DnsType → Text → DnsAnswer Text

inductive SpfResult where
  | pass
  | fail
  | softFail
  | neutral
  deriving DecidableEq

inductive SpfError where
  | temporary
  | permanent
  | /-- The nesting is deeper than the depth given. -/
    nesting
  deriving DecidableEq

/-- The terms that queried DNS so far, and the lookups without an answer. -/
structure SpfCounters where
  terms : ℕ := 0
  void : ℕ := 0
  deriving DecidableEq

abbrev SpfCheck (α : Type) := StateT SpfCounters (Except SpfError) α

def countTerm : SpfCheck Unit := fun counters =>
  if maxSpfDnsLookups ≤ counters.terms then .error .permanent
  else .ok ((), { counters with terms := counters.terms + 1 })

/-- The result of a mechanism that matches, by its qualifier. -/
def qualifiedResult (term : Text) : SpfResult :=
  if isPassing term then .pass
  else if qualifierOf term = some 45 then .fail
  else if qualifierOf term = some 126 then .softFail
  else .neutral

section Evaluation

variable (zone : SpfZone) (sender : Address)

def query (type : DnsType) (name : Text) : SpfCheck (List Text) := fun counters =>
  match zone type name with
  | .error _ => .error .temporary
  | .ok values =>
      if values ≠ [] then .ok (values, counters)
      else if maxSpfVoidLookups ≤ counters.void then .error .permanent
      else .ok (values, { counters with void := counters.void + 1 })

def SpfIpInterval.has (range : SpfIpInterval) : Bool :=
  sender.1 = range.family && range.start ≤ sender.2 && sender.2 ≤ range.stop

variable [CaseMapping] [IpSyntax]

/-- The sender is in the network of an address of the host. -/
def hostMatches (prefixes : IpFamily → ℕ) (limit : Option ℕ) (host : Text) : SpfCheck Bool := do
  if 37 ∈ host then throw .permanent
  else
    let addresses ← query zone sender.1.addressType host
    if limit.any (· < addresses.length) then throw .permanent
    else
      match addressIntervals prefixes [(sender.1, addresses)] with
      | none => throw .permanent
      | some networks => pure (networks.any (SpfIpInterval.has sender))

/-- The sender is in the network of an address of one of the exchanges. -/
def exchangesMatch (prefixes : IpFamily → ℕ) : List Text → SpfCheck Bool
  | [] => pure false
  | exchange :: exchanges =>
      if normalizeDomain exchange = [] then throw .permanent
      else do
        let here ← hostMatches zone sender prefixes (some maxSpfMxAddressesPerExchange)
          (normalizeDomain exchange)
        let later ← exchangesMatch prefixes exchanges
        pure (here || later)

/-- A mechanism that queries DNS itself. -/
def queryMatches (mechanism domain : Text) : SpfCheck Bool :=
  let name := mechanismName mechanism
  let target := spfMechanismDomain mechanism domain
  let prefixes := spfAddressPrefixes mechanism
  if name = ("a" : Text) then hostMatches zone sender prefixes none target
  else if 37 ∈ target then throw .permanent
  else if name = ("exists" : Text) then do
    let addresses ← query zone .a target
    pure (addresses ≠ [])
  else if name = ("mx" : Text) then do
    let exchanges ← query zone .mx target
    if 10 < exchanges.length then throw .permanent
    else exchangesMatch zone sender prefixes exchanges
  else throw .permanent

section Record

variable (checkNested : Text → SpfCheck SpfResult) (domain : Text)

def mechanismMatches (mechanism : Text) : SpfCheck Bool :=
  let name := mechanismName mechanism
  if name = ("all" : Text) then pure true
  else if name ∈ [("ip4" : Text), "ip6"] then
    match parseSpfIpInterval (mechanism.drop 4) with
    | none => throw .permanent
    | some range => pure (range.has sender)
  else do
    countTerm
    if name = ("include" : Text) then do
      let result ← checkNested (mechanism.drop 8)
      pure (result = .pass)
    else queryMatches zone sender mechanism domain

def checkTerms : List Text → Option Text → SpfCheck SpfResult
  | [], none => pure .neutral
  | [], some target => do
      countTerm
      checkNested target
  | term :: terms, redirectTarget =>
      match redirectOf term with
      | some target => checkTerms terms (some target)
      | none =>
          if (modifierOf term).isSome then checkTerms terms redirectTarget
          else do
            let found ← mechanismMatches zone sender checkNested domain (mechanismOf term)
            if found then pure (qualifiedResult term) else checkTerms terms redirectTarget

def checkRecord (record : Text) : SpfCheck SpfResult :=
  match parseValidSpfTerms record with
  | none => throw .permanent
  | some terms => checkTerms zone sender checkNested domain terms none

end Record

/-- `check_host`, for domains that are nested in others. -/
def checkHost : ℕ → Text → SpfCheck SpfResult
  | 0, _ => throw .nesting
  | depth + 1, domain =>
      if 37 ∈ normalizeDomain domain then throw .permanent
      else do
        let values ← query zone .txt (normalizeDomain domain)
        match values.filter isSpfVersionOneRecord with
        | [record] => checkRecord zone sender (checkHost depth) (normalizeDomain domain) record
        | _ => throw .permanent

/-- The sender passes a record of a domain. -/
def Passes (depth : ℕ) (record domain : Text) : Prop :=
  ∃ counters, checkRecord zone sender (checkHost zone sender depth) (normalizeDomain domain) record
    {} = .ok (.pass, counters)

end Evaluation

end ListmonkOps.Provider
