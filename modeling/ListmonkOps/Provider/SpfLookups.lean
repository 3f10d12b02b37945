/-
Lookups of an inspection and of an evaluation.

Over one zone, an inspection for ranges of senders and an evaluation for one of these senders make
the same lookups. The evaluation has never counted more than the inspection, so that it may
make every lookup that the inspection was allowed, and a mechanism matches the sender
where the inspection found ranges that have it.
-/

import ListmonkOps.Provider.SpfSender

namespace ListmonkOps.Provider

open ListmonkOps.Math ListmonkOps.Runtime SpfIpInterval

/-! ## Inspections of a zone -/

def SpfZone.answer (zone : SpfZone) : SpfCall → DnsAnswer Text
  | .lookup type name _ => zone type name
  | .charge _ => .ok []

/-- What an inspection returns in a zone. -/
def Returns {α : Type} (zone : SpfZone) (inspection : Spf α) (result : α) : Prop :=
  Program.eval zone.answer inspection.run = .ok result

section Returning

variable {α β : Type} {zone : SpfZone}

theorem returns_bind {inspection : Spf α} {next : α → Spf β} {result : β} :
    Returns zone (inspection >>= next) result ↔
      ∃ a, Returns zone inspection a ∧ Returns zone (next a) result :=
  Fallible.eval_bind_eq_ok

theorem returns_pure {a result : α} : Returns zone (pure a) result ↔ a = result :=
  ⟨Except.ok.inj, congrArg Except.ok⟩

theorem returns_askDnsFor {senders : List IpFamily} {type : DnsType} {name : Text}
    {answer : DnsAnswer Text} :
    Returns zone (askDnsFor senders type name) answer ↔ zone type name = answer :=
  ⟨Except.ok.inj, congrArg Except.ok⟩

theorem returns_consumeSpfDnsLookup {term : Text} {budget : SpfDnsLookupBudget}
    {next : Option SpfDnsLookupBudget} :
    Returns zone (consumeSpfDnsLookup term budget) next ↔
      (if maxSpfDnsLookups ≤ budget.used then none else some { used := budget.used + 1 }) = next :=
  ⟨Except.ok.inj, congrArg Except.ok⟩

theorem returns_of_toOption {inspection : Spf α} {result : α}
    (h : (Program.eval zone.answer inspection.run).toOption = some result) :
    Returns zone inspection result := by
  rw [Returns]
  cases hended : Program.eval zone.answer inspection.run with
  | ok a =>
      rw [hended] at h
      exact congrArg Except.ok (Option.some.inj h)
  | error error =>
      rw [hended] at h
      cases h

theorem returns_mapM {f : α → Spf β} {xs : List α} {results : List β}
    (h : Returns zone (xs.mapM f) results) : List.Forall₂ (fun x => Returns zone (f x)) xs results := by
  induction xs generalizing results with
  | nil =>
      rw [List.mapM_nil, returns_pure] at h
      subst h
      exact .nil
  | cons x xs ih =>
      simp only [List.mapM_cons, returns_bind, returns_pure] at h
      obtain ⟨result, hresult, results, hresults, rfl⟩ := h
      exact .cons hresult (ih hresults)

end Returning

/-! ## Budgets and counters -/

structure ExpectedSpfLookupBudget.Le (before after : ExpectedSpfLookupBudget) : Prop where
  used : before.used ≤ after.used
  void : ∀ family, before.voidByFamily family ≤ after.voidByFamily family

/-- The evaluation has counted no more than the budget of its version. -/
structure Behind (family : IpFamily) (counters : SpfCounters) (budget : ExpectedSpfLookupBudget) :
    Prop where
  terms : counters.terms ≤ budget.used
  void : counters.void ≤ budget.voidByFamily family

section Counters

variable {budget budget' budget'' : ExpectedSpfLookupBudget} {family : IpFamily}
  {counters : SpfCounters}

theorem ExpectedSpfLookupBudget.Le.refl (budget : ExpectedSpfLookupBudget) : budget.Le budget :=
  ⟨le_rfl, fun _ => le_rfl⟩

theorem ExpectedSpfLookupBudget.Le.trans (h : budget.Le budget') (h' : budget'.Le budget'') :
    budget.Le budget'' :=
  ⟨h.used.trans h'.used, fun family => (h.void family).trans (h'.void family)⟩

theorem Behind.later (h : Behind family counters budget) (hle : budget.Le budget') :
    Behind family counters budget' :=
  ⟨h.terms.trans hle.used, h.void.trans (hle.void family)⟩

/-- A void lookup was within the limit, and has been counted. -/
structure VoidTaken (families : List IpFamily) (budget budget' : ExpectedSpfLookupBudget) : Prop where
  within : ∀ family ∈ families, budget.voidByFamily family + 1 ≤ maxSpfVoidLookups
  counted : ∀ family ∈ families, budget.voidByFamily family + 1 ≤ budget'.voidByFamily family

theorem VoidTaken.later {families : List IpFamily} (h : VoidTaken families budget budget')
    (hle : budget'.Le budget'') : VoidTaken families budget budget'' :=
  ⟨h.within, fun family hmem => (h.counted family hmem).trans (hle.void family)⟩

theorem VoidTaken.earlier {families : List IpFamily} (h : VoidTaken families budget' budget'')
    (hle : budget.Le budget') : VoidTaken families budget budget'' :=
  ⟨fun family hmem => (Nat.add_le_add_right (hle.void family) 1).trans (h.within family hmem),
    fun family hmem => (Nat.add_le_add_right (hle.void family) 1).trans (h.counted family hmem)⟩

theorem consumeExpectedSpfVoidLookups_taken {families : List IpFamily}
    (h : consumeExpectedSpfVoidLookups budget families = (true, budget')) :
    budget.Le budget' ∧ VoidTaken families budget budget' := by
  rw [consumeExpectedSpfVoidLookups] at h
  split_ifs at h with hover
  · cases (Prod.mk.inj h).1
  obtain rfl := (Prod.mk.inj h).2
  simp only [List.any_eq_true, decide_eq_true_eq, not_exists, not_and, not_lt] at hover
  refine ⟨⟨le_rfl, fun family => ?_⟩, hover, fun family hmem => ?_⟩
  · dsimp only
    split_ifs
    · exact Nat.le_succ _
    · exact le_rfl
  · simp only [hmem, if_true, le_refl]

theorem taken_of_missing {missing : Prop} [Decidable missing] {families : List IpFamily}
    (h : (if missing then consumeExpectedSpfVoidLookups budget families else (true, budget)) =
      (true, budget')) :
    budget.Le budget' ∧ (missing → VoidTaken families budget budget') := by
  split_ifs at h with hmissing
  · obtain ⟨hle, htaken⟩ := consumeExpectedSpfVoidLookups_taken h
    exact ⟨hle, fun _ => htaken⟩
  · obtain rfl := (Prod.mk.inj h).2
    exact ⟨.refl budget, fun h => absurd h hmissing⟩

theorem query_behind {zone : SpfZone} {type : DnsType} {name : Text} {values : List Text}
    {families : List IpFamily} (hfamily : family ∈ families) (hzone : zone type name = .ok values)
    (hle : budget.Le budget') (hvoid : values = [] → VoidTaken families budget budget')
    (h : Behind family counters budget) :
    ∃ counters', query zone type name counters = .ok (values, counters') ∧
      Behind family counters' budget' := by
  by_cases hvalues : values = []
  · obtain ⟨hwithin, hcounted⟩ := hvoid hvalues
    have hless : ¬ maxSpfVoidLookups ≤ counters.void := by
      have := hwithin family hfamily
      have := h.void
      omega
    refine ⟨{ counters with void := counters.void + 1 }, ?_, h.terms.trans hle.used, ?_⟩
    · simp only [query, hzone, hvalues, ne_eq, not_true_eq_false, if_false, if_neg hless]
    · exact (Nat.add_le_add_right h.void 1).trans (hcounted family hfamily)
  · refine ⟨counters, ?_, h.later hle⟩
    simp only [query, hzone, ne_eq, hvalues, not_false_eq_true, if_true]

/-- A part of an evaluation goes through, with what the inspection has taken from its budget,
and finds a match where the inspection does. -/
def Follows (family : IpFamily) (check : SpfCheck Bool) (found : Prop)
    (budget budget' : ExpectedSpfLookupBudget) : Prop :=
  ∀ counters, Behind family counters budget → ∃ b counters', check counters = .ok (b, counters') ∧
    (b = true ↔ found) ∧ Behind family counters' budget'

theorem check_bind {α β : Type} {check : SpfCheck α} {next : α → SpfCheck β} {a : α}
    {counters' : SpfCounters} (h : check counters = .ok (a, counters')) :
    (check >>= next) counters = next a counters' := by
  change (check counters >>= fun result => next result.1 result.2) = _
  rw [h]
  rfl

end Counters

/-! ## Addresses of hosts -/

section Lists

variable {α β : Type} {f : α → Option β} {xs : List α} {ys : List β}

theorem mem_of_mapM_eq_some (h : xs.mapM f = some ys) :
    (∀ y, y ∈ ys ↔ ∃ x ∈ xs, f x = some y) ∧ ∀ x ∈ xs, (f x).isSome := by
  induction xs generalizing ys with
  | nil =>
      obtain rfl := Option.some.inj h
      simp
  | cons x xs ih =>
      rw [List.mapM_cons] at h
      simp only [Option.bind_eq_bind, Option.bind_eq_some_iff, Option.pure_def, Option.some.injEq] at h
      obtain ⟨y, hy, rest, hrest, rfl⟩ := h
      obtain ⟨hmem, hsome⟩ := ih hrest
      refine ⟨fun z => ?_, List.forall_mem_cons.mpr ⟨by simp [hy], hsome⟩⟩
      simp [hmem, hy, eq_comm]

theorem exists_mapM_eq_some (h : ∀ x ∈ xs, (f x).isSome) : ∃ ys, xs.mapM f = some ys := by
  induction xs with
  | nil => exact ⟨[], rfl⟩
  | cons x xs ih =>
      obtain ⟨hx, hxs⟩ := List.forall_mem_cons.mp h
      obtain ⟨y, hy⟩ := Option.isSome_iff_exists.mp hx
      obtain ⟨ys, hys⟩ := ih hxs
      exact ⟨y :: ys, by simp [hy, hys]⟩

end Lists

theorem has_iff_mem_addresses {range : SpfIpInterval} {sender : Address} :
    range.has sender = true ↔ sender ∈ range.addresses := by
  simp [SpfIpInterval.has, SpfIpInterval.addresses, and_assoc]

theorem any_has_iff {ranges : List SpfIpInterval} {sender : Address} :
    ranges.any (SpfIpInterval.has sender) = true ↔ sender ∈ addressesOf ranges := by
  simp [addressesOf, has_iff_mem_addresses]

section Hosts

variable [CaseMapping] [IpSyntax] {dns : ProviderDnsResolver} {zone : SpfZone} {sender : Address}
  {ranges : List SpfIpInterval} {prefixes : IpFamily → ℕ} {budget budget' : ExpectedSpfLookupBudget}

omit [CaseMapping] [IpSyntax] in
theorem mem_familiesOf : sender ∈ addressesOf ranges → sender.1 ∈ familiesOf ranges := by
  rintro ⟨range, hrange, hfamily, -⟩
  rw [familiesOf, List.mem_eraseDups]
  exact List.mem_map.mpr ⟨range, hrange, hfamily.symm⟩

theorem isRange_parseSpfIpInterval {value : Text} {range : SpfIpInterval}
    (h : parseSpfIpInterval value = some range) : range.IsRange := by
  have hleaf : ∀ (family : IpFamily) (number : Option ℕ) (bits : ℕ),
      (number.bind fun value => some (⟨family, (value >>> bits) <<< bits,
        (value >>> bits) <<< bits ||| (2 ^ bits - 1)⟩ : SpfIpInterval)) = some range →
          range.IsRange := by
    intro family number bits hparsed
    obtain ⟨value, -, hvalue⟩ := Option.bind_eq_some_iff.mp hparsed
    obtain rfl := Option.some.inj hvalue
    exact Nat.left_le_or
  simp only [parseSpfIpInterval] at h
  split_ifs at h
  split at h
  · simp only [Option.bind_eq_bind, Option.bind_some] at h
    split at h
    · rw [if_neg (lt_irrefl _)] at h
      exact hleaf _ _ _ h
    · split_ifs at h
      · exact hleaf _ _ _ h
      · cases h
  · simp only [Option.bind_eq_bind, Option.bind_some] at h
    split at h
    · rw [if_neg (lt_irrefl _)] at h
      exact hleaf _ _ _ h
    · split_ifs at h
      · exact hleaf _ _ _ h
      · cases h
  · cases h

theorem mem_addressIntervals {results : List (IpFamily × List Text)} {intervals : List SpfIpInterval}
    (h : addressIntervals prefixes results = some intervals) :
    (∀ range, range ∈ intervals ↔ ∃ addresses, (range.family, addresses) ∈ results ∧
      ∃ address ∈ addresses, parseSpfIpInterval (address ++ "/" ++
        Text.ofNat (prefixes range.family)) = some range) ∧
    ∀ family addresses, (family, addresses) ∈ results →
      ∃ networks, addressIntervals prefixes [(family, addresses)] = some networks := by
  obtain ⟨hmem, hsome⟩ := mem_of_mapM_eq_some h
  refine ⟨fun range => ?_, fun family addresses hresult => ?_⟩
  · rw [hmem]
    simp only [List.mem_flatMap, List.mem_map, Prod.exists, Option.filter_eq_some_iff,
      decide_eq_true_eq]
    constructor
    · rintro ⟨_, address, ⟨family, addresses, hresult, _, haddress, heq⟩, hparsed, hfamily⟩
      obtain ⟨rfl, rfl⟩ := Prod.mk.inj heq
      subst hfamily
      exact ⟨addresses, hresult, _, haddress, hparsed⟩
    · rintro ⟨addresses, hresult, address, haddress, hparsed⟩
      exact ⟨_, address, ⟨_, addresses, hresult, address, haddress, rfl⟩, hparsed, rfl⟩
  · refine exists_mapM_eq_some fun pair hpair => hsome pair ?_
    rw [List.flatMap_singleton] at hpair
    exact List.mem_flatMap.mpr ⟨_, hresult, hpair⟩

omit [CaseMapping] [IpSyntax] in
theorem chargeAddresses_taken {limit : Option ℕ} {results : List (IpFamily × List Text)}
    (h : chargeAddresses limit results budget = (true, budget')) :
    budget.Le budget' ∧ ∀ family addresses, (family, addresses) ∈ results →
      limit.any (· < addresses.length) = false ∧
        (addresses = [] → VoidTaken [family] budget budget') := by
  induction results generalizing budget with
  | nil =>
      obtain rfl := (Prod.mk.inj h).2
      exact ⟨.refl budget, by simp⟩
  | cons result results ih =>
      obtain ⟨family, addresses⟩ := result
      rw [chargeAddresses] at h
      cases hlimit : limit.any (· < addresses.length) with
      | true =>
          rw [if_pos hlimit] at h
          cases (Prod.mk.inj h).1
      | false =>
          rw [if_neg (by simp [hlimit])] at h
          generalize hcharged : (if addresses = [] then
            consumeExpectedSpfVoidLookups budget [family] else (true, budget)) = charged at h
          obtain ⟨within, next⟩ := charged
          cases within with
          | false => cases (Prod.mk.inj h).1
          | true =>
              obtain ⟨hle, htaken⟩ := taken_of_missing hcharged
              obtain ⟨hrest, hresults⟩ := ih h
              refine ⟨hle.trans hrest, fun other found hmem => ?_⟩
              rcases List.mem_cons.mp hmem with hsame | hmem
              · obtain ⟨rfl, rfl⟩ := Prod.mk.inj hsame
                exact ⟨hlimit, fun hempty => (htaken hempty).later hrest⟩
              · obtain ⟨hwithin, hvoid⟩ := hresults other found hmem
                exact ⟨hwithin, fun hempty => (hvoid hempty).earlier hle⟩

omit [CaseMapping] [IpSyntax] in
theorem forall₂_addresses {domain : Text} {families : List IpFamily}
    {answers : List (DnsAnswer Text)} {found : List (List Text)}
    (h : List.Forall₂ (fun family => Returns zone (askDnsFor [family] family.addressType domain))
      families answers) (hfound : answers.mapM Except.toOption = some found) :
    List.Forall₂ (fun family addresses => zone family.addressType domain = .ok addresses)
      families found := by
  induction h generalizing found with
  | nil =>
      obtain rfl := Option.some.inj hfound
      exact .nil
  | @cons family answer families answers hanswer hrest ih =>
      rw [List.mapM_cons] at hfound
      simp only [Option.bind_eq_bind, Option.bind_eq_some_iff, Option.pure_def,
        Option.some.injEq] at hfound
      obtain ⟨addresses, haddresses, rest, hlater, rfl⟩ := hfound
      refine .cons ?_ (ih hlater)
      rw [returns_askDnsFor.mp hanswer]
      cases answer with
      | ok values => exact congrArg Except.ok (Option.some.inj haddresses)
      | error error => cases haddresses

theorem mem_addressIntervals_version {results : List (IpFamily × List Text)}
    {addresses : List Text} {intervals networks : List SpfIpInterval}
    (hintervals : addressIntervals prefixes results = some intervals)
    (hnetworks : addressIntervals prefixes [(sender.1, addresses)] = some networks)
    (hresults : ∀ found, (sender.1, found) ∈ results ↔ found = addresses) :
    sender ∈ addressesOf networks ↔ sender ∈ addressesOf intervals := by
  refine exists_congr fun range => and_congr_left fun hsender => ?_
  obtain ⟨hfamily, -⟩ := hsender
  rw [(mem_addressIntervals hintervals).1, (mem_addressIntervals hnetworks).1, ← hfamily]
  refine exists_congr fun found => and_congr_left fun _ => ?_
  rw [hresults, List.mem_singleton, Prod.mk.injEq, and_iff_right rfl]

/-- What a lookup of the inspection gives is what an evaluation of one of its versions sees. -/
theorem follows_hostMatches {domain : Text} {limit : Option ℕ} {found : ExpectedSpfDnsMatch}
    (h : Returns zone (resolveExpectedSpfAddressIntervals dns domain ranges prefixes budget limit)
      (found, budget'))
    (hindeterminate : found.indeterminate = false) (hinvalid : found.invalid = false) :
    budget.Le budget' ∧ found.matchesAll = false ∧ (∀ range ∈ found.intervals, range.IsRange) ∧
      (sender.1 ∈ familiesOf ranges → Follows sender.1 (hostMatches zone sender prefixes limit domain)
        (sender ∈ addressesOf found.intervals) budget budget') := by
  simp only [resolveExpectedSpfAddressIntervals] at h
  cases hpercent : (37 ∈ domain || (familiesOf ranges).any (!dns.offers ·)) with
  | true =>
      rw [if_pos hpercent, returns_pure] at h
      obtain rfl := (Prod.mk.inj h).1
      cases hindeterminate
  | false =>
      rw [if_neg (by simp [hpercent]), returns_bind] at h
      obtain ⟨answers, hanswers, h⟩ := h
      cases hfound : answers.mapM Except.toOption with
      | none =>
          simp only [hfound, returns_pure] at h
          obtain rfl := (Prod.mk.inj h).1
          cases hindeterminate
      | some lists =>
          have haddresses := forall₂_addresses (returns_mapM hanswers) hfound
          simp only [hfound] at h
          generalize hcharged : chargeAddresses limit ((familiesOf ranges).zip lists) budget =
            charged at h
          obtain ⟨within, next⟩ := charged
          cases within with
          | false =>
              simp only [Bool.not_false, if_true, returns_pure] at h
              obtain rfl := (Prod.mk.inj h).1
              cases hinvalid
          | true =>
              obtain ⟨hle, htaken⟩ := chargeAddresses_taken hcharged
              simp only [Bool.not_true, Bool.false_eq_true, if_false] at h
              cases hintervals : addressIntervals prefixes ((familiesOf ranges).zip lists) with
              | none =>
                  simp only [hintervals, returns_pure] at h
                  obtain rfl := (Prod.mk.inj h).1
                  cases hinvalid
              | some intervals =>
                  simp only [hintervals, returns_pure] at h
                  obtain ⟨rfl, rfl⟩ := Prod.mk.inj h
                  have hranges : ∀ range ∈ intervals, range.IsRange := by
                    intro range hrange
                    obtain ⟨_, -, _, -, hparsed⟩ :=
                      ((mem_addressIntervals hintervals).1 range).mp hrange
                    exact isRange_parseSpfIpInterval hparsed
                  obtain ⟨hcanonical, hnormalized⟩ := normalizeSpfIntervals_canonical hranges
                  refine ⟨hle, rfl, hcanonical.isRange, fun hfamily counters hbehind => ?_⟩
                  obtain ⟨hlength, hzone⟩ := List.forall₂_iff_zip.mp haddresses
                  rw [← List.map_fst_zip hlength.le] at hfamily
                  obtain ⟨⟨_, addresses⟩, hmem, rfl⟩ := List.mem_map.mp hfamily
                  have hresults : ∀ found, (sender.1, found) ∈ (familiesOf ranges).zip lists ↔
                      found = addresses := fun found =>
                    ⟨fun hfound => Except.ok.inj ((hzone hfound).symm.trans (hzone hmem)),
                      fun hsame => hsame ▸ hmem⟩
                  obtain ⟨hlimit, hvoid⟩ := htaken _ _ hmem
                  obtain ⟨networks, hnetworks⟩ := (mem_addressIntervals hintervals).2 _ _ hmem
                  obtain ⟨counters', hquery, hbehind'⟩ :=
                    query_behind (List.mem_singleton_self _) (hzone hmem) hle hvoid hbehind
                  refine ⟨networks.any (SpfIpInterval.has sender), counters', ?_, ?_, hbehind'⟩
                  · rw [hostMatches, if_neg (by simpa using (Bool.or_eq_false_iff.mp hpercent).1),
                      check_bind hquery, if_neg (by simp [hlimit])]
                    simp only [hnetworks]
                    rfl
                  · rw [any_has_iff, hnormalized]
                    exact mem_addressIntervals_version hintervals hnetworks hresults

/-- The exchanges in turn; what was found before stays. -/
theorem follows_exchangesMatch {exchanges : List Text} {intervals : List SpfIpInterval}
    {found : ExpectedSpfDnsMatch} (hintervals : ∀ range ∈ intervals, range.IsRange)
    (h : Returns zone (inspectExpectedExchanges dns ranges prefixes exchanges intervals budget)
      (found, budget'))
    (hindeterminate : found.indeterminate = false) (hinvalid : found.invalid = false) :
    budget.Le budget' ∧ found.matchesAll = false ∧ (∀ range ∈ found.intervals, range.IsRange) ∧
      ∃ later, (sender ∈ addressesOf found.intervals ↔ sender ∈ addressesOf intervals ∨ later) ∧
        (sender.1 ∈ familiesOf ranges →
          Follows sender.1 (exchangesMatch zone sender prefixes exchanges) later budget budget') := by
  induction exchanges generalizing intervals budget with
  | nil =>
      obtain ⟨rfl, rfl⟩ := Prod.mk.inj (returns_pure.mp h)
      obtain ⟨hcanonical, hnormalized⟩ := normalizeSpfIntervals_canonical hintervals
      refine ⟨.refl budget, rfl, hcanonical.isRange, False, by rw [hnormalized, or_false], ?_⟩
      exact fun _ counters hbehind => ⟨false, counters, rfl, by simp, hbehind⟩
  | cons exchange exchanges ih =>
      rw [inspectExpectedExchanges] at h
      cases hname : (normalizeDomain exchange = [] || 37 ∈ normalizeDomain exchange : Bool) with
      | true =>
          simp only [hname, if_true, returns_pure] at h
          obtain rfl := (Prod.mk.inj h).1
          cases hinvalid
      | false =>
          simp only [hname, Bool.false_eq_true, if_false, returns_bind] at h
          obtain ⟨⟨resolved, next⟩, hresolved, h⟩ := h
          dsimp only at h
          cases hflags : (resolved.indeterminate || resolved.invalid) with
          | true =>
              simp only [hflags, if_true, returns_pure] at h
              obtain rfl := (Prod.mk.inj h).1
              rw [hindeterminate, hinvalid] at hflags
              cases hflags
          | false =>
              simp only [hflags, Bool.false_eq_true, if_false] at h
              obtain ⟨hnotIndeterminate, hnotInvalid⟩ := Bool.or_eq_false_iff.mp hflags
              obtain ⟨hle, -, hresolvedRanges, hhost⟩ :=
                follows_hostMatches hresolved hnotIndeterminate hnotInvalid
              have hboth : ∀ range ∈ intervals ++ resolved.intervals, range.IsRange :=
                List.forall_mem_append.mpr ⟨hintervals, hresolvedRanges⟩
              obtain ⟨hlater, hall, hranges, later, hmem, hrest⟩ := ih hboth h
              refine ⟨hle.trans hlater, hall, hranges,
                sender ∈ addressesOf resolved.intervals ∨ later, ?_, fun hfamily counters hbehind => ?_⟩
              · rw [hmem, addressesOf_append, Set.mem_union, or_assoc]
              · obtain ⟨here, counters', hcheck, hhere, hbehind'⟩ := hhost hfamily counters hbehind
                obtain ⟨found', counters'', hchecks, hfound', hbehind''⟩ :=
                  hrest hfamily counters' hbehind'
                refine ⟨here || found', counters'', ?_, by simp [hhere, hfound'], hbehind''⟩
                rw [exchangesMatch, if_neg (by simpa using (Bool.or_eq_false_iff.mp hname).1),
                  check_bind hcheck, check_bind hchecks]
                rfl

variable (sender) in
/-- A mechanism that queries DNS matches the senders that the inspection finds. -/
theorem follows_queryMatches {mechanism domain : Text} {found : ExpectedSpfDnsMatch}
    (h : Returns zone (inspectExpectedSpfDnsMechanism dns mechanism domain ranges budget)
      (found, budget'))
    (hindeterminate : found.indeterminate = false) (hinvalid : found.invalid = false) :
    budget.Le budget' ∧ (∀ range ∈ found.intervals, range.IsRange) ∧
      (sender.1 ∈ familiesOf ranges → Follows sender.1 (queryMatches zone sender mechanism domain)
        (found.matchesAll = true ∨ sender ∈ addressesOf found.intervals) budget budget') := by
  have hexistsNeA : ("exists" : Text) ≠ "a" := by decide
  -- Where the inspection gave up, one of the two flags is set.
  have hgivenUp : ∀ {flags : ExpectedSpfDnsMatch} {next : ExpectedSpfLookupBudget},
      (flags.indeterminate || flags.invalid) = true →
        Returns zone (pure (flags, next)) (found, budget') → False := by
    rintro flags next hflags hreturns
    obtain rfl := (Prod.mk.inj (returns_pure.mp hreturns)).1
    simp [hindeterminate, hinvalid] at hflags
  rw [inspectExpectedSpfDnsMechanism] at h
  dsimp only at h
  by_cases hexists : mechanismName mechanism = ("exists" : Text)
  · rw [if_pos hexists] at h
    cases hpercent : (37 ∈ spfMechanismDomain mechanism domain || !dns.a : Bool) with
    | true =>
        rw [if_pos hpercent] at h
        exact (hgivenUp rfl h).elim
    | false =>
        rw [if_neg (by simp [hpercent]), returns_bind] at h
        obtain ⟨answer, hanswer, h⟩ := h
        rw [returns_askDnsFor] at hanswer
        subst hanswer
        cases hzone : zone .a (spfMechanismDomain mechanism domain) with
        | error error =>
            rw [hzone] at h
            exact (hgivenUp rfl h).elim
        | ok addresses =>
            rw [hzone] at h
            dsimp only at h
            generalize hcharged : (if addresses = [] then
              consumeExpectedSpfVoidLookups budget (familiesOf ranges) else (true, budget)) =
                charged at h
            obtain ⟨within, next⟩ := charged
            cases within with
            | false => exact (hgivenUp rfl h).elim
            | true =>
                obtain ⟨hle, htaken⟩ := taken_of_missing hcharged
                obtain ⟨rfl, rfl⟩ := Prod.mk.inj (returns_pure.mp h)
                refine ⟨hle, nofun, fun hfamily counters hbehind => ?_⟩
                obtain ⟨counters', hquery, hbehind'⟩ :=
                  query_behind hfamily hzone hle htaken hbehind
                refine ⟨decide (addresses ≠ []), counters', ?_, by simp, hbehind'⟩
                rw [queryMatches, if_neg (hexists ▸ hexistsNeA),
                  if_neg (by simpa using (Bool.or_eq_false_iff.mp hpercent).1), if_pos hexists,
                  check_bind hquery]
                rfl
  · rw [if_neg hexists] at h
    by_cases hptr : mechanismName mechanism = ("ptr" : Text)
    · rw [if_pos hptr] at h
      exact (hgivenUp rfl h).elim
    · rw [if_neg hptr] at h
      by_cases ha : mechanismName mechanism = ("a" : Text)
      · rw [if_pos ha] at h
        obtain ⟨hle, hall, hranges, hhost⟩ := follows_hostMatches h hindeterminate hinvalid
        refine ⟨hle, hranges, fun hfamily counters hbehind => ?_⟩
        obtain ⟨b, counters', hcheck, hb, hbehind'⟩ := hhost hfamily counters hbehind
        refine ⟨b, counters', ?_, by simp [hall, hb], hbehind'⟩
        rw [queryMatches, if_pos ha]
        exact hcheck
      · rw [if_neg ha] at h
        cases hmx : (mechanismName mechanism ≠ ("mx" : Text) ||
            37 ∈ spfMechanismDomain mechanism domain : Bool) with
        | true =>
            rw [if_pos hmx] at h
            refine (hgivenUp ?_ h).elim
            rw [Bool.or_comm]
            exact hmx
        | false =>
            rw [if_neg (ne_of_eq_of_ne hmx Bool.false_ne_true), returns_bind] at h
            obtain ⟨hname, hpercent⟩ := Bool.or_eq_false_iff.mp hmx
            have hname : mechanismName mechanism = ("mx" : Text) := by simpa using hname
            have hpercent : 37 ∉ spfMechanismDomain mechanism domain := by simpa using hpercent
            obtain ⟨answer, hanswer, h⟩ := h
            rw [returns_askDnsFor] at hanswer
            subst hanswer
            cases hzone : zone .mx (spfMechanismDomain mechanism domain) with
            | error error =>
                rw [hzone] at h
                exact (hgivenUp rfl h).elim
            | ok records =>
                rw [hzone] at h
                dsimp only at h
                by_cases hmany : 10 < records.length
                · rw [if_pos hmany] at h
                  exact (hgivenUp rfl h).elim
                rw [if_neg hmany] at h
                generalize hcharged : (if records = [] then
                  consumeExpectedSpfVoidLookups budget (familiesOf ranges) else (true, budget)) =
                    charged at h
                obtain ⟨within, next⟩ := charged
                cases within with
                | false => exact (hgivenUp rfl h).elim
                | true =>
                    obtain ⟨hle, htaken⟩ := taken_of_missing hcharged
                    obtain ⟨hlater, hall, hranges, later, hmem, hexchanges⟩ :=
                      follows_exchangesMatch (by simp) h hindeterminate hinvalid
                    refine ⟨hle.trans hlater, hranges, fun hfamily counters hbehind => ?_⟩
                    obtain ⟨counters', hquery, hbehind'⟩ :=
                      query_behind hfamily hzone hle htaken hbehind
                    obtain ⟨b, counters'', hcheck, hb, hbehind''⟩ :=
                      hexchanges hfamily counters' hbehind'
                    refine ⟨b, counters'', ?_, ?_, hbehind''⟩
                    · rw [queryMatches, if_neg ha, if_neg hpercent, if_neg hexists, if_pos hname,
                        check_bind hquery, if_neg hmany]
                      exact hcheck
                    · rw [hb, hall, hmem]
                      simp

end Hosts

end ListmonkOps.Provider
