/-
Inspection of an SPF record for expected senders.

The senders are ranges of addresses. A mechanism takes the part of the ranges
that it matches: it has passed, or it is kept as finally rejected. The ranges
left go on to the next term, into nested domains as well. Senders of different
versions are different evaluations with void lookups of their own.
-/

import ListmonkOps.Provider.SpfAuthorization

namespace ListmonkOps.Provider

open ListmonkOps.Math ListmonkOps.Runtime

/-! ## Budget -/

structure ExpectedSpfLookupBudget extends SpfDnsLookupBudget where
  voidByFamily : IpFamily → ℕ

/-- Count a void lookup for each version, unless one of them has none left. -/
def consumeExpectedSpfVoidLookups (budget : ExpectedSpfLookupBudget) (families : List IpFamily) :
    Bool × ExpectedSpfLookupBudget :=
  if families.any fun family => maxSpfVoidLookups < budget.voidByFamily family + 1 then
    (false, budget)
  else
    (true, { budget with
      voidByFamily := fun family =>
        if family ∈ families then budget.voidByFamily family + 1 else budget.voidByFamily family })

/-! ## Results -/

structure ExpectedSpfInspection extends SpfAuthorizationInspection where
  remaining : List SpfIpInterval

structure ExpectedSpfOptions where
  indeterminate : Bool := false
  invalid : Bool := false
  observations : List DnsObservation := []
  unconditionalPass : Bool := false

def expectedSpfInspection (remaining : List SpfIpInterval) (options : ExpectedSpfOptions) :
    ExpectedSpfInspection :=
  let normalizedRemaining := normalizeSpfIntervals remaining
  let ready := normalizedRemaining = [] && !options.indeterminate && !options.invalid
  { ready
    unconditionalPass := ready && options.unconditionalPass
    indeterminate := options.indeterminate
    invalid := options.invalid
    observations := options.observations
    remaining := normalizedRemaining }

structure ExpectedSpfDnsMatch where
  intervals : List SpfIpInterval := []
  matchesAll : Bool := false
  indeterminate : Bool := false
  invalid : Bool := false
  deriving DecidableEq

/-- `new Set(ranges.map(({ family }) => family))`. -/
def familiesOf (ranges : List SpfIpInterval) : List IpFamily := (ranges.map (·.family)).eraseDups

/-- The prefix lengths of an address mechanism; whole addresses where none are given. -/
def spfAddressPrefixes (mechanism : Text) (family : IpFamily) : ℕ :=
  match dualCidrOf mechanism, family with
  | some (_, some ipv4Prefix, _), .v4 => decimalValue ipv4Prefix
  | some (_, _, some ipv6Prefix), .v6 => decimalValue ipv6Prefix
  | _, .v4 => 32
  | _, .v6 => 128

/-- The lookup of the addresses of a version. -/
def IpFamily.addressType : IpFamily → DnsType
  | .v4 => .a
  | .v6 => .aaaa

section Inspection

variable [CaseMapping] [IpSyntax] (dns : ProviderDnsResolver)

def ProviderDnsResolver.offers : IpFamily → Bool
  | .v4 => dns.a
  | .v6 => dns.aaaa

/-! ## Mechanisms -/

/-- Count the addresses found, and take void lookups from the budget. -/
def chargeAddresses (maximumAddresses : Option ℕ) :
    List (IpFamily × List Text) → ExpectedSpfLookupBudget → Bool × ExpectedSpfLookupBudget
  | [], lookupBudget => (true, lookupBudget)
  | (family, addresses) :: results, lookupBudget =>
      if maximumAddresses.any (· < addresses.length) then (false, lookupBudget)
      else
        let (within, lookupBudget) :=
          if addresses = [] then consumeExpectedSpfVoidLookups lookupBudget [family]
          else (true, lookupBudget)
        if !within then (false, lookupBudget)
        else chargeAddresses maximumAddresses results lookupBudget

/-- The ranges of the addresses found; each address is one of its version. -/
def addressIntervals (prefixes : IpFamily → ℕ) (results : List (IpFamily × List Text)) :
    Option (List SpfIpInterval) :=
  (results.flatMap fun (family, addresses) => addresses.map (family, ·)).mapM
    fun (family, address) =>
      (parseSpfIpInterval (address ++ "/" ++ Text.ofNat (prefixes family))).filter
        (·.family = family)

def resolveExpectedSpfAddressIntervals (domain : Text) (expectedRanges : List SpfIpInterval)
    (prefixes : IpFamily → ℕ) (lookupBudget : ExpectedSpfLookupBudget)
    (maximumAddresses : Option ℕ) : Spf (ExpectedSpfDnsMatch × ExpectedSpfLookupBudget) :=
  let families := familiesOf expectedRanges
  if 37 ∈ domain || families.any (!dns.offers ·) then
    pure ({ indeterminate := true }, lookupBudget)
  else do
    let answers ← families.mapM fun family => askDnsFor [family] family.addressType domain
    match answers.mapM Except.toOption with
    | none => pure ({ indeterminate := true }, lookupBudget)
    | some found =>
        let results := families.zip found
        let (within, lookupBudget) := chargeAddresses maximumAddresses results lookupBudget
        if !within then pure ({ invalid := true }, lookupBudget)
        else
          match addressIntervals prefixes results with
          | none => pure ({ invalid := true }, lookupBudget)
          | some intervals => pure ({ intervals := normalizeSpfIntervals intervals }, lookupBudget)

def maxSpfMxAddressesPerExchange : ℕ := 10

/-- The addresses of the exchanges of a domain, one exchange after the other. -/
def inspectExpectedExchanges (expectedRanges : List SpfIpInterval) (prefixes : IpFamily → ℕ) :
    List Text → List SpfIpInterval → ExpectedSpfLookupBudget →
      Spf (ExpectedSpfDnsMatch × ExpectedSpfLookupBudget)
  | [], intervals, lookupBudget =>
      pure ({ intervals := normalizeSpfIntervals intervals }, lookupBudget)
  | exchange :: exchanges, intervals, lookupBudget =>
      let normalizedExchange := normalizeDomain exchange
      if normalizedExchange = [] || 37 ∈ normalizedExchange then
        pure ({ invalid := true }, lookupBudget)
      else do
        let (resolved, lookupBudget) ← resolveExpectedSpfAddressIntervals dns normalizedExchange
          expectedRanges prefixes lookupBudget (some maxSpfMxAddressesPerExchange)
        if resolved.indeterminate || resolved.invalid then pure (resolved, lookupBudget)
        else
          inspectExpectedExchanges expectedRanges prefixes exchanges
            (intervals ++ resolved.intervals) lookupBudget

def inspectExpectedSpfDnsMechanism (mechanism currentDomain : Text)
    (expectedRanges : List SpfIpInterval) (lookupBudget : ExpectedSpfLookupBudget) :
    Spf (ExpectedSpfDnsMatch × ExpectedSpfLookupBudget) :=
  let name := mechanismName mechanism
  let domain := spfMechanismDomain mechanism currentDomain
  let families := familiesOf expectedRanges
  if name = ("exists" : Text) then
    if 37 ∈ domain || !dns.a then pure ({ indeterminate := true }, lookupBudget)
    else do
      match ← askDnsFor families .a domain with
      | .error _ => pure ({ indeterminate := true }, lookupBudget)
      | .ok addresses =>
          let (within, lookupBudget) :=
            if addresses = [] then consumeExpectedSpfVoidLookups lookupBudget families
            else (true, lookupBudget)
          if !within then pure ({ invalid := true }, lookupBudget)
          else pure ({ matchesAll := addresses ≠ [] }, lookupBudget)
  else if name = ("ptr" : Text) then pure ({ indeterminate := true }, lookupBudget)
  else
    let prefixes := spfAddressPrefixes mechanism
    if name = ("a" : Text) then
      resolveExpectedSpfAddressIntervals dns domain expectedRanges prefixes lookupBudget none
    else if name ≠ ("mx" : Text) || 37 ∈ domain then
      pure ({ indeterminate := 37 ∈ domain, invalid := name ≠ ("mx" : Text) }, lookupBudget)
    else do
      match ← askDnsFor families .mx domain with
      | .error _ => pure ({ indeterminate := true }, lookupBudget)
      | .ok records =>
          if 10 < records.length then pure ({ invalid := true }, lookupBudget)
          else
            let (within, lookupBudget) :=
              if records = [] then consumeExpectedSpfVoidLookups lookupBudget families
              else (true, lookupBudget)
            if !within then pure ({ invalid := true }, lookupBudget)
            else inspectExpectedExchanges dns expectedRanges prefixes records [] lookupBudget

/-! ## Records and domains -/

/-- The ranges that no term has taken yet, those finally rejected, the
observations and the budget. -/
structure RangeProgress where
  remaining : List SpfIpInterval
  terminalNotPass : List SpfIpInterval := []
  observations : List DnsObservation := []
  lookupBudget : ExpectedSpfLookupBudget

abbrev ExpectedSpf := ExpectedSpfInspection × ExpectedSpfLookupBudget

namespace RangeProgress

variable (progress : RangeProgress)

/-- What is neither passed nor decided to pass. -/
def unpassed : List SpfIpInterval := progress.terminalNotPass ++ progress.remaining

/-- A matched part leaves the ranges; behind a qualifier it is rejected. -/
def take (term : Text) (matched : List SpfIpInterval) : RangeProgress :=
  { progress with
    remaining := subtractSpfIntervals progress.remaining matched
    terminalNotPass :=
      if isPassing term then progress.terminalNotPass
      else normalizeSpfIntervals (progress.terminalNotPass ++ matched) }

def finish (unconditionalPass : Bool) : ExpectedSpf :=
  let { terminalNotPass, observations, lookupBudget, .. } := progress
  (expectedSpfInspection terminalNotPass { observations, unconditionalPass }, lookupBudget)

/-- Stop for want of evidence, or of a valid record. -/
def abort (indeterminate invalid : Bool) : ExpectedSpf :=
  let { observations, lookupBudget, .. } := progress
  (expectedSpfInspection progress.unpassed { indeterminate, invalid, observations }, lookupBudget)

end RangeProgress

section Record

variable (nested : Text → List SpfIpInterval → ExpectedSpfLookupBudget → Spf ExpectedSpf)
  (currentDomain : Text) (allowUnscopedPass : Bool)

def inspectExpectedIncludeTerm (term : Text) (progress : RangeProgress) :
    Spf (TermOutcome ExpectedSpf RangeProgress) := do
  let (inspection, lookupBudget) ←
    nested ((mechanismOf term).drop 8) progress.remaining progress.lookupBudget
  let observations := progress.observations ++ inspection.observations
  let progress := { progress with observations, lookupBudget }
  if inspection.indeterminate || inspection.invalid then
    pure (.decided (progress.abort inspection.indeterminate inspection.invalid))
  else
    let passedByNested := subtractSpfIntervals progress.remaining inspection.remaining
    let terminalNotPass :=
      if !isPassing term && passedByNested ≠ [] then
        normalizeSpfIntervals (progress.terminalNotPass ++ passedByNested)
      else progress.terminalNotPass
    let progress := { progress with remaining := inspection.remaining, terminalNotPass }
    if progress.remaining = [] then
      pure (.decided (progress.finish (terminalNotPass = [] && inspection.unconditionalPass)))
    else pure (.next progress)

def inspectExpectedTerm (term : Text) (progress : RangeProgress) :
    Spf (TermOutcome ExpectedSpf RangeProgress) :=
  let mechanism := mechanismOf term
  let name := mechanismName mechanism
  if name = ("all" : Text) then
    if allowUnscopedPass && isPassing term then
      pure (.decided (progress.finish (progress.terminalNotPass = [])))
    else
      let terminalNotPass := normalizeSpfIntervals progress.unpassed
      pure (.decided ({ progress with terminalNotPass }.finish false))
  else if name ∈ [("ip4" : Text), "ip6"] then
    match parseSpfIpInterval (mechanism.drop 4) with
    | none => pure (.decided (progress.abort false true))
    | some mechanismRange =>
        let matched := intersectSpfIntervals progress.remaining [mechanismRange]
        if matched = [] then pure (.next progress)
        else
          let progress := progress.take term matched
          if progress.remaining = [] then pure (.decided (progress.finish false))
          else pure (.next progress)
  else if name ≠ ("include" : Text) && !spfMechanismUsesDns mechanism then pure (.next progress)
  else do
    match ← consumeSpfDnsLookup term progress.lookupBudget.toSpfDnsLookupBudget with
    | none => pure (.decided (progress.abort false true))
    | some used =>
        let lookupBudget := { progress.lookupBudget with toSpfDnsLookupBudget := used }
        let progress := { progress with lookupBudget }
        if name = ("include" : Text) then inspectExpectedIncludeTerm nested term progress
        else do
          let (found, lookupBudget) ← inspectExpectedSpfDnsMechanism dns mechanism currentDomain
            progress.remaining lookupBudget
          let progress := { progress with lookupBudget }
          if found.indeterminate || found.invalid then
            pure (.decided (progress.abort found.indeterminate found.invalid))
          else
            let matched :=
              if found.matchesAll then progress.remaining
              else intersectSpfIntervals progress.remaining found.intervals
            if matched = [] then pure (.next progress)
            else if found.matchesAll && name = ("exists" : Text) && !allowUnscopedPass &&
                isPassing term then
              pure (.next progress)
            else
              let progress := progress.take term matched
              if progress.remaining = [] then
                pure (.decided (progress.finish (progress.terminalNotPass = [] && found.matchesAll)))
              else pure (.next progress)

/-- After the last term the redirect takes what is left, where there is one. -/
def followExpectedRedirect (redirectTarget : Option Text) (progress : RangeProgress) :
    Spf ExpectedSpf :=
  match redirectTarget.filter fun _ => progress.remaining ≠ [] with
  | none => pure (progress.abort false false)
  | some target => do
      match ← consumeSpfDnsLookup ("redirect=" ++ target)
          progress.lookupBudget.toSpfDnsLookupBudget with
      | none => pure (progress.abort false true)
      | some used => do
          let (redirected, lookupBudget) ← nested target progress.remaining
            { progress.lookupBudget with toSpfDnsLookupBudget := used }
          let { indeterminate, invalid, .. } := redirected
          let observations := progress.observations ++ redirected.observations
          let unconditionalPass := progress.terminalNotPass = [] && redirected.unconditionalPass
          pure (expectedSpfInspection (progress.terminalNotPass ++ redirected.remaining)
            { indeterminate, invalid, observations, unconditionalPass }, lookupBudget)

def inspectExpectedTerms : List Text → Option Text → RangeProgress → Spf ExpectedSpf
  | [], redirectTarget, progress => followExpectedRedirect nested redirectTarget progress
  | term :: terms, redirectTarget, progress =>
      match redirectOf term with
      | some target => inspectExpectedTerms terms (some target) progress
      | none =>
          if 61 ∈ term then inspectExpectedTerms terms redirectTarget progress
          else do
            match ← inspectExpectedTerm dns nested currentDomain allowUnscopedPass term progress with
            | .decided result => pure result
            | .next progress => inspectExpectedTerms terms redirectTarget progress

def inspectExpectedSpfRecord (record : Text) (expectedRanges : List SpfIpInterval)
    (lookupBudget : ExpectedSpfLookupBudget) : Spf ExpectedSpf :=
  match parseValidSpfTerms record with
  | none => pure (expectedSpfInspection expectedRanges { invalid := true }, lookupBudget)
  | some terms =>
      if expectedRanges = [] then pure (expectedSpfInspection expectedRanges {}, lookupBudget)
      else
        inspectExpectedTerms dns nested currentDomain allowUnscopedPass terms none
          { remaining := normalizeSpfIntervals expectedRanges, lookupBudget }

end Record

/-- The nested inspections of a domain go one level down. -/
def inspectExpectedSpfDomain :
    ℕ → Text → List Text → List SpfIpInterval → ExpectedSpfLookupBudget → Spf ExpectedSpf
  | 0, _, _, _, _ => throw .mk
  | depth + 1, domain, visited, expectedRanges, lookupBudget =>
    let normalizedDomain := normalizeDomain domain
    if 37 ∈ normalizedDomain || normalizedDomain ∈ visited then
      let indeterminate := 37 ∈ normalizedDomain
      let invalid := normalizedDomain ∈ visited
      pure (expectedSpfInspection expectedRanges { indeterminate, invalid }, lookupBudget)
    else do
      let families := familiesOf expectedRanges
      let answer ← askDnsFor families .txt normalizedDomain
      let lookup := resolveDnsObservation normalizedDomain .txt answer
      let observations := [lookup.observation]
      if lookup.outcome = .error then
        pure (expectedSpfInspection expectedRanges { indeterminate := true, observations },
          lookupBudget)
      else
        let (within, lookupBudget) :=
          if lookup.values = [] then consumeExpectedSpfVoidLookups lookupBudget families
          else (true, lookupBudget)
        if !within then
          pure (expectedSpfInspection expectedRanges { invalid := true, observations }, lookupBudget)
        else
          match lookup.values.filter isSpfVersionOneRecord with
          | [record] => do
              let (nested, lookupBudget) ← inspectExpectedSpfRecord dns
                (fun target => inspectExpectedSpfDomain depth target (normalizedDomain :: visited))
                normalizedDomain true record expectedRanges lookupBudget
              pure ({ nested with observations := observations ++ nested.observations },
                lookupBudget)
          | _ =>
              pure (expectedSpfInspection expectedRanges { invalid := true, observations },
                lookupBudget)

def inspectExpectedDirectSpfRanges (depth : ℕ) (record currentDomain : Text)
    (expectedRanges : List Text) : Spf SpfAuthorizationInspection :=
  let parsedRanges := expectedRanges.filterMap parseSpfIpInterval
  if expectedRanges = [] || parsedRanges.length ≠ expectedRanges.length then
    pure { invalid := expectedRanges ≠ [], observations := [] }
  else do
    let currentDomain := normalizeDomain currentDomain
    let (inspection, _) ← inspectExpectedSpfRecord dns
      (fun target => inspectExpectedSpfDomain dns depth target [currentDomain])
      currentDomain false record parsedRanges { used := 0, voidByFamily := fun _ => 0 }
    pure inspection.toSpfAuthorizationInspection

end Inspection

end ListmonkOps.Provider
