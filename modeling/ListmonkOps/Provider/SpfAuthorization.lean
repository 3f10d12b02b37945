/-
Inspection of an SPF record and of the domains it includes.

A record is evaluated without a sender: a mechanism that could match some sender
counts as a match. The terms are taken in order, nested domains are evaluated in
place, and one budget is shared by all of them. It is the budget that bounds the
nesting; the programs below take a depth that is never used up.
-/

import ListmonkOps.Math.Program
import ListmonkOps.Provider.SpfIntervals

namespace ListmonkOps.Provider

open ListmonkOps.Math ListmonkOps.Runtime

/-! ## Lookups -/

/-- What an inspection does that can be seen from outside. -/
inductive SpfCall where
  | /-- A lookup, on behalf of senders with an address of these versions. -/
    lookup (type : DnsType) (name : Text) (senders : List IpFamily)
  | /-- A term that queries DNS comes up; nothing is read from the answer. -/
    charge (term : Text)
  deriving DecidableEq

/-- The nesting is deeper than the depth given. -/
inductive NestingExceeded where
  | mk

abbrev Spf (α : Type) := Fallible SpfCall (DnsAnswer Text) NestingExceeded α

def askDnsFor (senders : List IpFamily) (type : DnsType) (name : Text) : Spf (DnsAnswer Text) :=
  Fallible.ask (.lookup type name senders) .ok

def askDns : DnsType → Text → Spf (DnsAnswer Text) := askDnsFor [.v4, .v6]

def isVoidAnswer : DnsAnswer Text → Bool
  | .ok [] => true
  | _ => false

def hasValues : DnsAnswer Text → Bool
  | .ok (_ :: _) => true
  | _ => false

def hasFailed : DnsAnswer Text → Bool
  | .error _ => true
  | _ => false

/-- The lookups of addresses that a resolver offers; it always offers the others. -/
structure ProviderDnsResolver where
  a : Bool
  aaaa : Bool

/-! ## Budgets -/

def maxSpfDnsLookups : ℕ := 10

def maxSpfVoidLookups : ℕ := 2

structure SpfDnsLookupBudget where
  used : ℕ
  deriving DecidableEq

structure SpfLookupBudget extends SpfDnsLookupBudget where
  void : ℕ
  deriving DecidableEq

/-- Take a term from the budget, where it has one left. -/
def consumeSpfDnsLookup (term : Text) (budget : SpfDnsLookupBudget) :
    Spf (Option SpfDnsLookupBudget) :=
  Fallible.ask (.charge term) fun _ =>
    .ok (if maxSpfDnsLookups ≤ budget.used then none else some { used := budget.used + 1 })

def consumeSpfVoidLookups (budget : SpfLookupBudget) (count : ℕ) : Bool × SpfLookupBudget :=
  (budget.void + count ≤ maxSpfVoidLookups, { budget with void := budget.void + count })

/-! ## Mechanisms -/

structure SpfMechanismMatch where
  matchesSender : Bool := false
  indeterminate : Bool := false
  invalid : Bool := false
  deriving DecidableEq

section Inspection

variable [CaseMapping] [IpSyntax] (dns : ProviderDnsResolver)

def inspectSpfAddresses (domain : Text) (ipv4Only : Bool) (lookupBudget : SpfLookupBudget) :
    Spf (SpfMechanismMatch × SpfLookupBudget) :=
  if 37 ∈ domain then pure ({ indeterminate := true }, lookupBudget)
  else do
    let loaders := (dns.a, DnsType.a) :: if ipv4Only then [] else [(dns.aaaa, .aaaa)]
    let available := loaders.filter (·.1)
    let results ← available.mapM fun loader => askDns loader.2 domain
    let voidLookups := results.countP isVoidAnswer
    let (within, lookupBudget) :=
      if 0 < voidLookups then consumeSpfVoidLookups lookupBudget voidLookups
      else (true, lookupBudget)
    if !within then pure ({ invalid := true }, lookupBudget)
    else if results.any hasValues then pure ({ matchesSender := true }, lookupBudget)
    else if available.length ≠ loaders.length || results.any hasFailed then
      pure ({ indeterminate := true }, lookupBudget)
    else pure ({}, lookupBudget)

/-- The addresses of each exchange, on one budget. -/
def inspectExchanges :
    List Text → SpfLookupBudget → Spf (List SpfMechanismMatch × SpfLookupBudget)
  | [], lookupBudget => pure ([], lookupBudget)
  | exchange :: exchanges, lookupBudget => do
      let (result, lookupBudget) ← inspectSpfAddresses dns exchange false lookupBudget
      let (results, lookupBudget) ← inspectExchanges exchanges lookupBudget
      pure (result :: results, lookupBudget)

def inspectDirectSpfMechanism (mechanism currentDomain : Text) (lookupBudget : SpfLookupBudget) :
    Spf (SpfMechanismMatch × SpfLookupBudget) :=
  let name := mechanismName mechanism
  let domain := spfMechanismDomain mechanism currentDomain
  if name ∈ [("ip4" : Text), "ip6", "all"] then pure ({ matchesSender := true }, lookupBudget)
  else if name = ("a" : Text) then inspectSpfAddresses dns domain false lookupBudget
  else if name = ("exists" : Text) then inspectSpfAddresses dns domain true lookupBudget
  else if name = ("mx" : Text) then
    if 37 ∈ domain then pure ({ indeterminate := true }, lookupBudget)
    else do
      match ← askDns .mx domain with
      | .error _ => pure ({ indeterminate := true }, lookupBudget)
      | .ok records =>
          if 10 < records.length then pure ({ invalid := true }, lookupBudget)
          else
            let (within, lookupBudget) :=
              if records = [] then consumeSpfVoidLookups lookupBudget 1 else (true, lookupBudget)
            if !within then pure ({ invalid := true }, lookupBudget)
            else do
              let exchanges := (records.map normalizeDomain).filter (· ≠ [])
              let (results, lookupBudget) ← inspectExchanges dns exchanges lookupBudget
              if results.any (·.invalid) then pure ({ invalid := true }, lookupBudget)
              else if results.any (·.matchesSender) then
                pure ({ matchesSender := true }, lookupBudget)
              else if results.any (·.indeterminate) then
                pure ({ indeterminate := true }, lookupBudget)
              else pure ({}, lookupBudget)
  else pure ({ indeterminate := true }, lookupBudget)

/-! ## The authorization of a domain -/

structure SpfAuthorizationInspection where
  ready : Bool := false
  unconditionalPass : Bool := false
  indeterminate : Bool := false
  invalid : Bool := false
  observations : List DnsObservation
  deriving DecidableEq

/-- What a term of a record does: it decides, or the next one is taken. -/
inductive TermOutcome (ρ σ : Type) where
  | decided (result : ρ)
  | next (state : σ)

/-- The budget and the observations while a record is evaluated. -/
abbrev SpfProgress := SpfLookupBudget × List DnsObservation

/-- What the inspection of a domain gives, and the budget it leaves. -/
abbrev SpfAuthorization := SpfAuthorizationInspection × SpfLookupBudget

section Authorization

variable (nested : Text → SpfLookupBudget → Spf SpfAuthorization) (domain : Text)

def inspectAuthorizationTerm (term : Text) :
    SpfProgress → Spf (TermOutcome SpfAuthorization SpfProgress)
  | (lookupBudget, observations) =>
    let mechanism := mechanismOf term
    let name := mechanismName mechanism
    if name = ("all" : Text) then
      let passes := isPassing term && isDirectSpfAuthorizer mechanism
      pure (.decided
        ({ ready := passes, unconditionalPass := passes, observations }, lookupBudget))
    else if name = ("include" : Text) then
      let nestedDomain := mechanism.drop 8
      if nestedDomain = [] then pure (.next (lookupBudget, observations))
      else do
        match ← consumeSpfDnsLookup term lookupBudget.toSpfDnsLookupBudget with
        | none => pure (.decided ({ invalid := true, observations }, lookupBudget))
        | some used => do
            let (inspection, lookupBudget) ←
              nested nestedDomain { lookupBudget with toSpfDnsLookupBudget := used }
            let observations := observations ++ inspection.observations
            if inspection.indeterminate then
              pure (.decided ({ indeterminate := true, observations }, lookupBudget))
            else if inspection.invalid then
              pure (.decided ({ invalid := true, observations }, lookupBudget))
            else if inspection.ready && isPassing term then
              let unconditionalPass := inspection.unconditionalPass
              pure (.decided ({ ready := true, unconditionalPass, observations }, lookupBudget))
            else if inspection.ready then pure (.decided ({ observations }, lookupBudget))
            else pure (.next (lookupBudget, observations))
    else do
      match ← (if spfMechanismUsesDns mechanism then
          consumeSpfDnsLookup term lookupBudget.toSpfDnsLookupBudget
        else pure (some lookupBudget.toSpfDnsLookupBudget)) with
      | none => pure (.decided ({ invalid := true, observations }, lookupBudget))
      | some used => do
          let (found, lookupBudget) ← inspectDirectSpfMechanism dns mechanism domain
            { lookupBudget with toSpfDnsLookupBudget := used }
          if found.indeterminate then
            pure (.decided ({ indeterminate := true, observations }, lookupBudget))
          else if found.invalid then
            pure (.decided ({ invalid := true, observations }, lookupBudget))
          else if !found.matchesSender then pure (.next (lookupBudget, observations))
          else if !isPassing term then pure (.decided ({ observations }, lookupBudget))
          else if isDirectSpfAuthorizer mechanism then
            pure (.decided ({ ready := true, observations }, lookupBudget))
          else pure (.next (lookupBudget, observations))

/-- After the last term the redirect is followed, where there is one. -/
def followRedirect (redirectTarget : Option Text) : SpfProgress → Spf SpfAuthorization
  | (lookupBudget, observations) =>
    match redirectTarget with
    | none => pure ({ observations }, lookupBudget)
    | some target => do
        match ← consumeSpfDnsLookup ("redirect=" ++ target) lookupBudget.toSpfDnsLookupBudget with
        | none => pure ({ invalid := true, observations }, lookupBudget)
        | some used => do
            let (redirected, lookupBudget) ←
              nested target { lookupBudget with toSpfDnsLookupBudget := used }
            let observations := observations ++ redirected.observations
            pure ({ redirected with observations }, lookupBudget)

def inspectAuthorizationTerms :
    List Text → Option Text → SpfProgress → Spf SpfAuthorization
  | [], redirectTarget, progress => followRedirect nested redirectTarget progress
  | term :: terms, redirectTarget, progress =>
      match redirectOf term with
      | some target => inspectAuthorizationTerms terms (some target) progress
      | none =>
          if 61 ∈ term then inspectAuthorizationTerms terms redirectTarget progress
          else do
            match ← inspectAuthorizationTerm dns nested domain term progress with
            | .decided result => pure result
            | .next progress => inspectAuthorizationTerms terms redirectTarget progress

end Authorization

/-- The nested inspections of a domain go one level down. -/
def inspectSpfAuthorizationTarget :
    ℕ → Text → List Text → SpfLookupBudget → Spf SpfAuthorization
  | 0, _, _, _ => throw .mk
  | depth + 1, domain, visited, lookupBudget =>
    let normalizedDomain := normalizeDomain domain
    if maxSpfDnsLookups < lookupBudget.used ∨ normalizedDomain ∈ visited then
      pure ({ invalid := true, observations := [] }, lookupBudget)
    else if 37 ∈ normalizedDomain then
      pure ({ indeterminate := true, observations := [] }, lookupBudget)
    else do
      let answer ← askDns .txt normalizedDomain
      let lookup := resolveDnsObservation normalizedDomain .txt answer
      let observations := [lookup.observation]
      if lookup.outcome = .error then
        pure ({ indeterminate := true, observations }, lookupBudget)
      else
        let (within, lookupBudget) :=
          if lookup.values = [] then consumeSpfVoidLookups lookupBudget 1 else (true, lookupBudget)
        if !within then pure ({ invalid := true, observations }, lookupBudget)
        else
          match lookup.values.filter isSpfVersionOneRecord with
          | [record] =>
              match parseValidSpfTerms record with
              | none => pure ({ invalid := true, observations }, lookupBudget)
              | some terms =>
                  inspectAuthorizationTerms dns
                    (fun target => inspectSpfAuthorizationTarget depth target
                      (normalizedDomain :: visited))
                    normalizedDomain terms none (lookupBudget, observations)
          | _ => pure ({ invalid := true, observations }, lookupBudget)

/-! ## The path to an expected include -/

structure SpfExpectedIncludeInspection where
  found : Bool := false
  indeterminate : Bool := false
  invalid : Bool := false
  observations : List DnsObservation
  lookupBudget : SpfLookupBudget
  deriving DecidableEq

section Path

variable (nested : Text → SpfLookupBudget → Spf SpfAuthorization) (currentDomain expected : Text)

def inspectIncludePathTerm (term : Text) :
    SpfProgress → Spf (TermOutcome SpfExpectedIncludeInspection SpfProgress)
  | (lookupBudget, observations) =>
    let mechanism := mechanismOf term
    let name := mechanismName mechanism
    if name = ("all" : Text) then pure (.decided { observations, lookupBudget })
    else do
      match ← (if name = ("include" : Text) || spfMechanismUsesDns mechanism then
          consumeSpfDnsLookup term lookupBudget.toSpfDnsLookupBudget
        else pure (some lookupBudget.toSpfDnsLookupBudget)) with
      | none => pure (.decided { invalid := true, observations, lookupBudget })
      | some used =>
          let lookupBudget := { lookupBudget with toSpfDnsLookupBudget := used }
          if name = ("include" : Text) then
            let nestedDomain := mechanism.drop 8
            if isPassing term && normalizeDomain nestedDomain = expected then
              pure (.decided { found := true, observations, lookupBudget })
            else do
              let (inspection, lookupBudget) ← nested nestedDomain lookupBudget
              let observations := observations ++ inspection.observations
              if inspection.indeterminate || inspection.invalid then
                let { indeterminate, invalid, .. } := inspection
                pure (.decided { indeterminate, invalid, observations, lookupBudget })
              else if inspection.unconditionalPass then
                pure (.decided { observations, lookupBudget })
              else pure (.next (lookupBudget, observations))
          else if !spfMechanismUsesDns mechanism then pure (.next (lookupBudget, observations))
          else do
            let (found, lookupBudget) ←
              inspectDirectSpfMechanism dns mechanism currentDomain lookupBudget
            if found.indeterminate || found.invalid then
              let { indeterminate, invalid, .. } := found
              pure (.decided { indeterminate, invalid, observations, lookupBudget })
            else pure (.next (lookupBudget, observations))

def inspectIncludePathTerms :
    List Text → SpfProgress → Spf SpfExpectedIncludeInspection
  | [], (lookupBudget, observations) => pure { observations, lookupBudget }
  | term :: terms, progress =>
      if 61 ∈ term then inspectIncludePathTerms terms progress
      else do
        match ← inspectIncludePathTerm dns nested currentDomain expected term progress with
        | .decided result => pure result
        | .next progress => inspectIncludePathTerms terms progress

end Path

def inspectSpfExpectedIncludePath (depth : ℕ) (record currentDomain expectedDomain : Text) :
    Spf SpfExpectedIncludeInspection :=
  let lookupBudget : SpfLookupBudget := { used := 0, void := 0 }
  match parseValidSpfTerms record with
  | none => pure { invalid := true, observations := [], lookupBudget }
  | some terms =>
      inspectIncludePathTerms dns
        (fun target =>
          inspectSpfAuthorizationTarget dns depth target [normalizeDomain currentDomain])
        currentDomain (normalizeDomain expectedDomain) terms (lookupBudget, [])

/-- The path to an expected include, and the authorization of the include where it
was found, on one budget. -/
def inspectExpectedInclude (depth : ℕ) (record mailFromDomain expectedInclude : Text) :
    Spf (SpfExpectedIncludeInspection × Option SpfAuthorization) := do
  let path ← inspectSpfExpectedIncludePath dns depth record mailFromDomain expectedInclude
  if !path.found then pure (path, none)
  else do
    let authorization ←
      inspectSpfAuthorizationTarget dns depth expectedInclude [mailFromDomain] path.lookupBudget
    pure (path, some authorization)

end Inspection

end ListmonkOps.Provider
