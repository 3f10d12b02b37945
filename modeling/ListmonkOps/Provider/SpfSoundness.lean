/-
The inspection for expected senders is sound.

An inspection follows ranges of addresses through a record and the domains it names, and an
evaluation follows one address. Step by step the inspection has taken the address out of
the ranges, as passed or as rejected, where the evaluation has been decided, and has taken
no fewer terms and lookups from its budget. So an address that is missing from what is left
in the end has passed.
-/

import ListmonkOps.Provider.SpfLookups

namespace ListmonkOps.Provider

open ListmonkOps.Math ListmonkOps.Runtime SpfIpInterval

/-! ## Terms -/

def Flagged (result : ExpectedSpf) : Prop := (result.1.indeterminate || result.1.invalid) = true

/-- Ready means that nothing is left, and that the inspection has not given up. -/
def Honest (inspection : ExpectedSpfInspection) : Prop :=
  inspection.ready = true → inspection.remaining = [] ∧ inspection.indeterminate = false ∧
    inspection.invalid = false

theorem honest_expectedSpfInspection (remaining : List SpfIpInterval) (options : ExpectedSpfOptions) :
    Honest (expectedSpfInspection remaining options) := by
  intro hready
  simp only [expectedSpfInspection, Bool.and_eq_true, decide_eq_true_eq, Bool.not_eq_true'] at hready
  exact ⟨hready.1.1, hready.1.2, hready.2⟩

/-- Both lists are made of ranges, as the operations on sets of addresses need them. -/
structure RangeProgress.Ranged (progress : RangeProgress) : Prop where
  remaining : ∀ range ∈ progress.remaining, range.IsRange
  rejected : ∀ range ∈ progress.terminalNotPass, range.IsRange

/-- Nothing has been decided about the sender: it is among the ranges that remain, and was not
rejected. -/
structure RangeProgress.Open (progress : RangeProgress) (sender : Address) : Prop where
  remains : sender ∈ addressesOf progress.remaining
  unrejected : sender ∉ addressesOf progress.terminalNotPass

/-- A term takes addresses out of the ranges and may reject them. Where the sender is still open,
a check of the term goes through: without a match it stays open, and with one it is rejected or
gone, by the qualifier. Only where a pass needs no scope is it sure to be gone. -/
structure Advances (sender : Address) (allowUnscopedPass : Bool) (term : Text)
    (check : SpfCheck Bool) (progress progress' : RangeProgress) : Prop where
  le : progress.lookupBudget.Le progress'.lookupBudget
  ranged : progress'.Ranged
  remaining : addressesOf progress'.remaining ⊆ addressesOf progress.remaining
  rejected : addressesOf progress.terminalNotPass ⊆ addressesOf progress'.terminalNotPass
  bounded : addressesOf progress'.terminalNotPass ⊆
    addressesOf progress.terminalNotPass ∪ addressesOf progress.remaining
  follows : progress.Open sender → ∃ matched : Prop,
    Follows sender.1 check matched progress.lookupBudget progress'.lookupBudget ∧
      (¬ matched → progress'.Open sender) ∧
      (matched → isPassing term = false → sender ∈ addressesOf progress'.terminalNotPass) ∧
      (matched → isPassing term = true → allowUnscopedPass = true →
        sender ∉ addressesOf progress'.remaining ∧ sender ∉ addressesOf progress'.terminalNotPass)

/-- An inspection from here on: what is left has been rejected before or is left of the ranges,
and a sender that was open, and is not left, passes. -/
structure Concludes (sender : Address) (allowUnscopedPass : Bool) (check : SpfCheck SpfResult)
    (progress : RangeProgress) (result : ExpectedSpf) : Prop where
  le : progress.lookupBudget.Le result.2
  ranged : ∀ range ∈ result.1.remaining, range.IsRange
  rejected : addressesOf progress.terminalNotPass ⊆ addressesOf result.1.remaining
  bounded : addressesOf result.1.remaining ⊆
    addressesOf progress.terminalNotPass ∪ addressesOf progress.remaining
  follows : progress.Open sender → ∀ counters, Behind sender.1 counters progress.lookupBudget →
    ∃ outcome counters', check counters = .ok (outcome, counters') ∧
      Behind sender.1 counters' result.2 ∧
      (sender ∉ addressesOf result.1.remaining → outcome = .pass) ∧
      (allowUnscopedPass = true → outcome = .pass → sender ∉ addressesOf result.1.remaining)

section Courses

variable {sender : Address} {allowUnscopedPass : Bool} {term : Text} {check : SpfCheck Bool}
  {progress progress' : RangeProgress}

theorem qualifiedResult_eq_pass : qualifiedResult term = .pass ↔ isPassing term = true := by
  rw [qualifiedResult]
  split_ifs <;> simp_all

theorem concludes_finish (hranged : progress.Ranged) (hempty : progress.remaining = [])
    (unconditionalPass : Bool) (check : SpfCheck SpfResult) :
    Concludes sender allowUnscopedPass check progress (progress.finish unconditionalPass) := by
  obtain ⟨hcanonical, hnormalized⟩ := normalizeSpfIntervals_canonical hranged.rejected
  have hleft : addressesOf (progress.finish unconditionalPass).1.remaining =
      addressesOf progress.terminalNotPass := hnormalized
  refine ⟨.refl _, hcanonical.isRange, hleft.ge, hleft.le.trans Set.subset_union_left, ?_⟩
  intro hopen
  have hremains := hopen.remains
  rw [hempty, addressesOf_nil] at hremains
  exact hremains.elim

theorem Advances.concludes {rest : SpfCheck SpfResult} {result : ExpectedSpf}
    (h : Advances sender allowUnscopedPass term check progress progress')
    (hrest : Concludes sender allowUnscopedPass rest progress' result) :
    Concludes sender allowUnscopedPass
      (do
        let found ← check
        if found then pure (qualifiedResult term) else rest) progress result where
  le := h.le.trans hrest.le
  ranged := hrest.ranged
  rejected := h.rejected.trans hrest.rejected
  bounded := hrest.bounded.trans (Set.union_subset h.bounded (h.remaining.trans Set.subset_union_right))
  follows hopen counters hbehind := by
    obtain ⟨matched, hfollows, hunmatched, hrejects, hpasses⟩ := h.follows hopen
    obtain ⟨found, counters', hcheck, hfound, hbehind'⟩ := hfollows counters hbehind
    rw [check_bind hcheck]
    cases found with
    | false =>
        exact hrest.follows (hunmatched fun hmatched => Bool.false_ne_true (hfound.mpr hmatched))
          counters' hbehind'
    | true =>
        have hmatched := hfound.mp rfl
        refine ⟨qualifiedResult term, counters', rfl, hbehind'.later hrest.le, fun hleft => ?_, ?_⟩
        · rw [qualifiedResult_eq_pass]
          by_contra hfails
          exact hleft (hrest.rejected (hrejects hmatched (by simpa using hfails)))
        · intro hallow houtcome hleft
          obtain ⟨hgone, hunrejected⟩ :=
            hpasses hmatched (qualifiedResult_eq_pass.mp houtcome) hallow
          exact (hrest.bounded hleft).elim hunrejected hgone

theorem advances_same {budget : ExpectedSpfLookupBudget} (hranged : progress.Ranged)
    (hle : progress.lookupBudget.Le budget)
    (hfollows : progress.Open sender → ∃ matched : Prop,
      Follows sender.1 check matched progress.lookupBudget budget ∧
        (matched → isPassing term = true ∧ allowUnscopedPass = false)) :
    Advances sender allowUnscopedPass term check progress { progress with lookupBudget := budget } where
  le := hle
  ranged := ⟨hranged.remaining, hranged.rejected⟩
  remaining := subset_rfl
  rejected := subset_rfl
  bounded := Set.subset_union_left
  follows hopen := by
    obtain ⟨matched, hcheck, hmatched⟩ := hfollows hopen
    refine ⟨matched, hcheck, fun _ => ⟨hopen.remains, hopen.unrejected⟩, ?_, ?_⟩
    · intro h hfails
      rw [(hmatched h).1] at hfails
      cases hfails
    · intro h _ hallow
      rw [(hmatched h).2] at hallow
      cases hallow

theorem advances_take {budget : ExpectedSpfLookupBudget} {matched : List SpfIpInterval}
    (hranged : progress.Ranged) (hmatched : ∀ range ∈ matched, range.IsRange)
    (hsubset : addressesOf matched ⊆ addressesOf progress.remaining)
    (hle : progress.lookupBudget.Le budget)
    (hfollows : progress.Open sender →
      Follows sender.1 check (sender ∈ addressesOf matched) progress.lookupBudget budget) :
    Advances sender allowUnscopedPass term check progress
      ({ progress with lookupBudget := budget }.take term matched) := by
  obtain ⟨hcanonical, hremaining⟩ := subtractSpfIntervals_canonical hranged.remaining hmatched
  have hboth : ∀ range ∈ progress.terminalNotPass ++ matched, range.IsRange :=
    List.forall_mem_append.mpr ⟨hranged.rejected, hmatched⟩
  obtain ⟨hrejectedCanonical, hrejected⟩ := normalizeSpfIntervals_canonical hboth
  rw [addressesOf_append] at hrejected
  have hleft : addressesOf ({ progress with lookupBudget := budget }.take term matched).remaining =
      addressesOf progress.remaining \ addressesOf matched := hremaining
  have hopened : progress.Open sender → sender ∉ addressesOf matched →
      sender ∈ addressesOf progress.remaining \ addressesOf matched :=
    fun hopen hnot => ⟨hopen.remains, hnot⟩
  cases hpassing : isPassing term with
  | true =>
      have hsame : ({ progress with lookupBudget := budget }.take term matched).terminalNotPass =
          progress.terminalNotPass := by rw [RangeProgress.take, hpassing]; rfl
      refine ⟨hle, ⟨hcanonical.isRange, by rw [hsame]; exact hranged.rejected⟩, ?_, ?_, ?_, ?_⟩
      · rw [hleft]
        exact Set.sdiff_subset
      · rw [hsame]
      · rw [hsame]
        exact Set.subset_union_left
      · intro hopen
        refine ⟨_, hfollows hopen, fun hnot => ⟨?_, ?_⟩,
          fun _ hfails => Bool.noConfusion (hpassing.symm.trans hfails), fun h _ _ => ⟨?_, ?_⟩⟩
        · rw [hleft]
          exact hopened hopen hnot
        · rw [hsame]
          exact hopen.unrejected
        · rw [hleft]
          exact fun hmem => hmem.2 h
        · rw [hsame]
          exact hopen.unrejected
  | false =>
      have hmore : addressesOf
          ({ progress with lookupBudget := budget }.take term matched).terminalNotPass =
            addressesOf progress.terminalNotPass ∪ addressesOf matched := by
        rw [RangeProgress.take, hpassing]
        exact hrejected
      have hrangedMore : ∀ range ∈
          ({ progress with lookupBudget := budget }.take term matched).terminalNotPass,
            range.IsRange := by
        rw [RangeProgress.take, hpassing]
        exact hrejectedCanonical.isRange
      refine ⟨hle, ⟨hcanonical.isRange, hrangedMore⟩, ?_, ?_, ?_, ?_⟩
      · rw [hleft]
        exact Set.sdiff_subset
      · rw [hmore]
        exact Set.subset_union_left
      · rw [hmore]
        exact Set.union_subset_union_right _ hsubset
      · intro hopen
        refine ⟨_, hfollows hopen, fun hnot => ⟨?_, ?_⟩, fun h _ => ?_,
          fun _ hpasses => Bool.noConfusion (hpassing.symm.trans hpasses)⟩
        · rw [hleft]
          exact hopened hopen hnot
        · rw [hmore]
          exact fun hmem => hmem.elim hopen.unrejected hnot
        · rw [hmore]
          exact .inr h

end Courses

section Mechanisms

variable [CaseMapping] [IpSyntax] {mechanism : Text}

omit [IpSyntax] in
theorem mechanismName_of_word {name word : Text} {separator : UInt16}
    (hname : name.all (fun unit => unit ≠ 58 && unit ≠ 47) = true)
    (hseparator : separator = 58 ∨ separator = 47) (hword : word = name ++ [separator])
    (h : word.isPrefixOf (CaseMapping.toLowerCase mechanism) = true) :
    mechanismName mechanism = name := by
  obtain ⟨rest, hrest⟩ := List.isPrefixOf_iff_prefix.mp h
  rw [mechanismName, ← hrest, hword, List.append_assoc,
    List.takeWhile_append_of_pos (List.all_eq_true.mp hname)]
  rcases hseparator with rfl | rfl <;> simp

omit [IpSyntax] in
theorem mechanismName_of_eq {name : Text}
    (hname : name.all (fun unit => unit ≠ 58 && unit ≠ 47) = true)
    (h : CaseMapping.toLowerCase mechanism = name) : mechanismName mechanism = name := by
  rw [mechanismName, h]
  exact List.takeWhile_eq_self_iff.mpr (List.all_eq_true.mp hname)

/-- The mechanisms that the parser knows. -/
def mechanismNames : List Text := ["all", "include", "ip4", "ip6", "a", "mx", "ptr", "exists"]

/-- The parser knows no other mechanisms. -/
theorem mechanismName_of_valid (h : isValidSpfMechanism mechanism = true) :
    mechanismName mechanism ∈ mechanismNames := by
  by_contra hunknown
  have hprefix : ∀ (word name : Text) (separator : UInt16),
      name ∈ mechanismNames →
        word = name ++ [separator] → name.all (fun unit => unit ≠ 58 && unit ≠ 47) = true →
          separator = 58 ∨ separator = 47 →
            word.isPrefixOf (CaseMapping.toLowerCase mechanism) = false := by
    intro word name separator hmem hword hname hseparator
    by_contra hlower
    rw [Bool.not_eq_false] at hlower
    exact hunknown (mechanismName_of_word hname hseparator hword hlower ▸ hmem)
  have heq : ∀ name : Text,
      name ∈ mechanismNames →
        name.all (fun unit => unit ≠ 58 && unit ≠ 47) = true →
          CaseMapping.toLowerCase mechanism ≠ name := fun name hmem hname hlower =>
    hunknown (mechanismName_of_eq hname hlower ▸ hmem)
  have hnot : isValidSpfMechanism mechanism = false := by
    simp only [isValidSpfMechanism, heq "all" (by decide) (by decide),
      heq "a" (by decide) (by decide), heq "mx" (by decide) (by decide),
      heq "ptr" (by decide) (by decide),
      hprefix "include:" "include" 58 (by decide) (by decide) (by decide) (by decide),
      hprefix "ip4:" "ip4" 58 (by decide) (by decide) (by decide) (by decide),
      hprefix "ip6:" "ip6" 58 (by decide) (by decide) (by decide) (by decide),
      hprefix "a:" "a" 58 (by decide) (by decide) (by decide) (by decide),
      hprefix "a/" "a" 47 (by decide) (by decide) (by decide) (by decide),
      hprefix "mx:" "mx" 58 (by decide) (by decide) (by decide) (by decide),
      hprefix "mx/" "mx" 47 (by decide) (by decide) (by decide) (by decide),
      hprefix "ptr:" "ptr" 58 (by decide) (by decide) (by decide) (by decide),
      hprefix "exists:" "exists" 58 (by decide) (by decide) (by decide) (by decide),
      decide_false, Bool.or_false, Bool.false_eq_true, if_false]
  rw [hnot] at h
  exact Bool.false_ne_true h

end Mechanisms

/-! ## Records -/

section Records

variable [CaseMapping] [IpSyntax] {dns : ProviderDnsResolver} {zone : SpfZone} {sender : Address}
  {nested : Text → List SpfIpInterval → ExpectedSpfLookupBudget → Spf ExpectedSpf}
  {checkNested : Text → SpfCheck SpfResult} {currentDomain term : Text} {allowUnscopedPass : Bool}
  {progress : RangeProgress}

/-- What is said of nested inspections: a pass needs no scope there. -/
def NestedConcludes (zone : SpfZone) (sender : Address)
    (nested : Text → List SpfIpInterval → ExpectedSpfLookupBudget → Spf ExpectedSpf)
    (checkNested : Text → SpfCheck SpfResult) : Prop :=
  ∀ target ranges budget result, (∀ range ∈ ranges, range.IsRange) →
    Returns zone (nested target ranges budget) result → ¬ Flagged result →
      Concludes sender true (checkNested target) { remaining := ranges, lookupBudget := budget }
        result

/-- A term is done with: the next one is taken, or nothing remains. -/
def Ended (outcome : TermOutcome ExpectedSpf RangeProgress) (progress : RangeProgress) : Prop :=
  outcome = .next progress ∨
    (progress.remaining = [] ∧ ∃ u, outcome = .decided (progress.finish u))

def TermSound (zone : SpfZone) (sender : Address) (checkNested : Text → SpfCheck SpfResult)
    (currentDomain term : Text) (allowUnscopedPass : Bool) (progress : RangeProgress)
    (outcome : TermOutcome ExpectedSpf RangeProgress) : Prop :=
  (∃ result, outcome = .decided result ∧ Flagged result ∧ Honest result.1) ∨
    ∃ progress', Ended outcome progress' ∧
      Advances sender allowUnscopedPass term
        (mechanismMatches zone sender checkNested currentDomain (mechanismOf term)) progress progress'

omit [CaseMapping] [IpSyntax] in
theorem flagged_abort {indeterminate invalid : Bool} (h : (indeterminate || invalid) = true) :
    Flagged (progress.abort indeterminate invalid) ∧
      Honest (progress.abort indeterminate invalid).1 :=
  ⟨h, honest_expectedSpfInspection _ _⟩

theorem termSound_all {outcome : TermOutcome ExpectedSpf RangeProgress}
    (hname : mechanismName (mechanismOf term) = ("all" : Text)) (hranged : progress.Ranged)
    (h : Returns zone (inspectExpectedTerm dns nested currentDomain allowUnscopedPass term progress)
      outcome) :
    TermSound zone sender checkNested currentDomain term allowUnscopedPass progress outcome := by
  have hcheck : ∀ budget, Follows sender.1
      (mechanismMatches zone sender checkNested currentDomain (mechanismOf term)) True budget budget := by
    intro budget counters hbehind
    exact ⟨true, counters, by rw [mechanismMatches, if_pos hname]; rfl, by simp, hbehind⟩
  rw [inspectExpectedTerm, if_pos hname] at h
  by_cases hpasses : (allowUnscopedPass && isPassing term) = true
  · rw [if_pos hpasses, returns_pure] at h
    subst h
    refine .inr ⟨{ progress with remaining := [] }, .inr ⟨rfl, _, rfl⟩, .refl _,
      ⟨by simp, hranged.rejected⟩, by simp, subset_rfl, Set.subset_union_left, fun hopen => ?_⟩
    refine ⟨True, hcheck _, fun h => (h trivial).elim, fun _ hfails => ?_, fun _ _ _ => ?_⟩
    · rw [(Bool.and_eq_true_iff.mp hpasses).2] at hfails
      cases hfails
    · exact ⟨by simp, hopen.unrejected⟩
  · rw [if_neg hpasses, returns_pure] at h
    subst h
    have hboth : ∀ range ∈ progress.unpassed, range.IsRange :=
      List.forall_mem_append.mpr ⟨hranged.rejected, hranged.remaining⟩
    obtain ⟨hcanonical, hnormalized⟩ := normalizeSpfIntervals_canonical hboth
    rw [RangeProgress.unpassed, addressesOf_append] at hnormalized
    refine .inr ⟨{ progress with
      remaining := [], terminalNotPass := normalizeSpfIntervals progress.unpassed },
      .inr ⟨rfl, _, rfl⟩, .refl _, ⟨by simp, hcanonical.isRange⟩, by simp, ?_, hnormalized.le,
      fun hopen => ⟨True, hcheck _, fun h => (h trivial).elim, fun _ _ => ?_, ?_⟩⟩
    · exact Set.subset_union_left.trans hnormalized.ge
    · exact hnormalized.ge (.inr hopen.remains)
    · intro _ hpassing hallow
      exact absurd (Bool.and_eq_true_iff.mpr ⟨hallow, hpassing⟩) hpasses

/-- A part that is matched, unless it is empty, is taken out of the ranges. -/
theorem termSound_take {budget : ExpectedSpfLookupBudget} {matched : List SpfIpInterval}
    {outcome : TermOutcome ExpectedSpf RangeProgress} (unconditionalPass : RangeProgress → Bool)
    (hranged : progress.Ranged) (hmatched : ∀ range ∈ matched, range.IsRange)
    (hsubset : addressesOf matched ⊆ addressesOf progress.remaining)
    (hle : progress.lookupBudget.Le budget)
    (hfollows : progress.Open sender → Follows sender.1
      (mechanismMatches zone sender checkNested currentDomain (mechanismOf term))
        (sender ∈ addressesOf matched) progress.lookupBudget budget)
    (h : Returns zone
      (if matched = [] then pure (.next { progress with lookupBudget := budget })
      else
        let taken := { progress with lookupBudget := budget }.take term matched
        if taken.remaining = [] then pure (.decided (taken.finish (unconditionalPass taken)))
        else pure (.next taken)) outcome) :
    TermSound zone sender checkNested currentDomain term allowUnscopedPass progress outcome := by
  split_ifs at h with hempty
  · rw [returns_pure] at h
    subst h hempty
    refine .inr ⟨_, .inl rfl, advances_same hranged hle fun hopen => ⟨_, hfollows hopen, ?_⟩⟩
    rw [addressesOf_nil]
    exact fun h => h.elim
  · have htake : Advances sender allowUnscopedPass term
        (mechanismMatches zone sender checkNested currentDomain (mechanismOf term)) progress
        ({ progress with lookupBudget := budget }.take term matched) :=
      advances_take hranged hmatched hsubset hle hfollows
    dsimp only at h
    split_ifs at h with hdone
    · exact .inr ⟨_, .inr ⟨hdone, _, (returns_pure.mp h).symm⟩, htake⟩
    · exact .inr ⟨_, .inl (returns_pure.mp h).symm, htake⟩

theorem termSound_network {outcome : TermOutcome ExpectedSpf RangeProgress}
    (hall : mechanismName (mechanismOf term) ≠ ("all" : Text))
    (hname : mechanismName (mechanismOf term) ∈ [("ip4" : Text), "ip6"]) (hranged : progress.Ranged)
    (h : Returns zone (inspectExpectedTerm dns nested currentDomain allowUnscopedPass term progress)
      outcome) :
    TermSound zone sender checkNested currentDomain term allowUnscopedPass progress outcome := by
  rw [inspectExpectedTerm, if_neg hall, if_pos hname] at h
  cases hparsed : parseSpfIpInterval ((mechanismOf term).drop 4) with
  | none =>
      rw [hparsed, returns_pure] at h
      exact .inl ⟨_, h.symm, flagged_abort rfl⟩
  | some range =>
      rw [hparsed] at h
      have hrange : ∀ other ∈ [range], other.IsRange := by
        simpa using isRange_parseSpfIpInterval hparsed
      obtain ⟨hcanonical, hmatched⟩ := intersectSpfIntervals_canonical hranged.remaining hrange
      have hcheck : progress.Open sender → Follows sender.1
          (mechanismMatches zone sender checkNested currentDomain (mechanismOf term))
          (sender ∈ addressesOf (intersectSpfIntervals progress.remaining [range]))
          progress.lookupBudget progress.lookupBudget := by
        intro hopen counters hbehind
        refine ⟨range.has sender, counters, ?_, ?_, hbehind⟩
        · rw [mechanismMatches, if_neg hall, if_pos hname, hparsed]
          rfl
        · rw [has_iff_mem_addresses, hmatched, addressesOf_cons, addressesOf_nil, Set.union_empty]
          exact ⟨fun hsender => ⟨hopen.remains, hsender⟩, And.right⟩
      exact termSound_take (fun _ => false) hranged hcanonical.isRange
        (hmatched.le.trans Set.inter_subset_left) (.refl _) hcheck h

omit [CaseMapping] [IpSyntax] in
theorem le_of_consumed {budget : ExpectedSpfLookupBudget} {used : SpfDnsLookupBudget}
    (h : (if maxSpfDnsLookups ≤ budget.used then none
      else some ({ used := budget.used + 1 } : SpfDnsLookupBudget)) = some used) :
    budget.Le { budget with toSpfDnsLookupBudget := used } := by
  split_ifs at h
  obtain rfl := Option.some.inj h
  exact ⟨Nat.le_succ _, fun _ => le_rfl⟩

omit [CaseMapping] [IpSyntax] in
/-- The evaluation may take up the terms that the inspection takes up. -/
theorem countTerm_behind {counters : SpfCounters} {family : IpFamily}
    {budget : ExpectedSpfLookupBudget} {used : SpfDnsLookupBudget}
    (h : (if maxSpfDnsLookups ≤ budget.used then none
      else some ({ used := budget.used + 1 } : SpfDnsLookupBudget)) = some used)
    (hbehind : Behind family counters budget) :
    ∃ counters', countTerm counters = .ok ((), counters') ∧
      Behind family counters' { budget with toSpfDnsLookupBudget := used } := by
  split_ifs at h with hused
  obtain rfl := Option.some.inj h
  have hterms := hbehind.terms
  refine ⟨{ counters with terms := counters.terms + 1 }, ?_, Nat.succ_le_succ hterms, hbehind.void⟩
  rw [countTerm, if_neg (by omega)]

theorem follows_include {used : SpfDnsLookupBudget} {inspection : ExpectedSpf}
    (hname : mechanismName (mechanismOf term) = ("include" : Text))
    (hused : (if maxSpfDnsLookups ≤ progress.lookupBudget.used then none
      else some ({ used := progress.lookupBudget.used + 1 } : SpfDnsLookupBudget)) = some used)
    (h : Concludes sender true (checkNested ((mechanismOf term).drop 8))
      { remaining := progress.remaining
        lookupBudget := { progress.lookupBudget with toSpfDnsLookupBudget := used } } inspection)
    (hopen : progress.Open sender) :
    Follows sender.1 (mechanismMatches zone sender checkNested currentDomain (mechanismOf term))
      (sender ∉ addressesOf inspection.1.remaining) progress.lookupBudget inspection.2 := by
  have hall : ("include" : Text) ≠ "all" := by decide
  have hnetwork : ("include" : Text) ∉ [("ip4" : Text), "ip6"] := by decide
  intro counters hbehind
  obtain ⟨counters', hcount, hbehind'⟩ := countTerm_behind hused hbehind
  obtain ⟨result, counters'', hcheck, hbehind'', hpass, hgone⟩ :=
    h.follows ⟨hopen.remains, by simp⟩ counters' hbehind'
  refine ⟨decide (result = .pass), counters'', ?_, ?_, hbehind''⟩
  · rw [mechanismMatches, hname, if_neg hall, if_neg hnetwork, check_bind hcount, if_pos rfl,
      check_bind hcheck]
    rfl
  · rw [decide_eq_true_iff]
    exact ⟨hgone rfl, hpass⟩

/-- What the nested domain passed leaves the ranges; behind a qualifier it is rejected. -/
theorem advances_include {used : SpfDnsLookupBudget} {inspection : ExpectedSpf}
    {observations : List DnsObservation}
    (hname : mechanismName (mechanismOf term) = ("include" : Text)) (hranged : progress.Ranged)
    (hused : (if maxSpfDnsLookups ≤ progress.lookupBudget.used then none
      else some ({ used := progress.lookupBudget.used + 1 } : SpfDnsLookupBudget)) = some used)
    (h : Concludes sender true (checkNested ((mechanismOf term).drop 8))
      { remaining := progress.remaining
        lookupBudget := { progress.lookupBudget with toSpfDnsLookupBudget := used } } inspection) :
    Advances sender allowUnscopedPass term
      (mechanismMatches zone sender checkNested currentDomain (mechanismOf term)) progress
      { remaining := inspection.1.remaining
        terminalNotPass :=
          if !isPassing term && subtractSpfIntervals progress.remaining inspection.1.remaining ≠ []
          then normalizeSpfIntervals (progress.terminalNotPass ++
            subtractSpfIntervals progress.remaining inspection.1.remaining)
          else progress.terminalNotPass
        observations, lookupBudget := inspection.2 } := by
  obtain ⟨hpassedCanonical, hpassed⟩ :=
    subtractSpfIntervals_canonical hranged.remaining h.ranged
  have hboth : ∀ range ∈ progress.terminalNotPass ++
      subtractSpfIntervals progress.remaining inspection.1.remaining, range.IsRange :=
    List.forall_mem_append.mpr ⟨hranged.rejected, hpassedCanonical.isRange⟩
  obtain ⟨hrejectedCanonical, hrejected⟩ := normalizeSpfIntervals_canonical hboth
  rw [addressesOf_append, hpassed] at hrejected
  have hremaining : addressesOf inspection.1.remaining ⊆ addressesOf progress.remaining := by
    simpa using h.bounded
  have hfollows : progress.Open sender → Follows sender.1
      (mechanismMatches zone sender checkNested currentDomain (mechanismOf term))
        (sender ∉ addressesOf inspection.1.remaining) progress.lookupBudget inspection.2 :=
    follows_include hname hused h
  cases hcondition : (!isPassing term && subtractSpfIntervals progress.remaining
      inspection.1.remaining ≠ [] : Bool) with
  | true =>
      have hfails : isPassing term = false := by
        simpa using (Bool.and_eq_true_iff.mp hcondition).1
      refine ⟨(le_of_consumed hused).trans h.le, ⟨h.ranged, hrejectedCanonical.isRange⟩, hremaining,
        Set.subset_union_left.trans hrejected.ge,
        hrejected.le.trans (Set.union_subset_union_right _ Set.sdiff_subset), fun hopen => ?_⟩
      refine ⟨_, hfollows hopen, fun hleft => ?_, fun hgone _ => ?_, fun _ hpasses => ?_⟩
      · have hleft := not_not.mp hleft
        exact ⟨hleft, fun hmem => (hrejected.le hmem).elim hopen.unrejected fun h => h.2 hleft⟩
      · exact hrejected.ge (.inr ⟨hopen.remains, hgone⟩)
      · exact Bool.noConfusion (hfails.symm.trans hpasses)
  | false =>
      refine ⟨(le_of_consumed hused).trans h.le, ⟨h.ranged, hranged.rejected⟩, hremaining,
        subset_rfl, Set.subset_union_left, fun hopen => ?_⟩
      refine ⟨_, hfollows hopen, fun hleft => ⟨not_not.mp hleft, hopen.unrejected⟩, ?_,
        fun hgone _ _ => ⟨hgone, hopen.unrejected⟩⟩
      intro hgone hfails
      have hempty : subtractSpfIntervals progress.remaining inspection.1.remaining = [] := by
        simpa [hfails] using hcondition
      have hmem : sender ∈ addressesOf
          (subtractSpfIntervals progress.remaining inspection.1.remaining) :=
        hpassed.ge ⟨hopen.remains, hgone⟩
      rw [hempty, addressesOf_nil] at hmem
      exact hmem.elim

theorem termSound_include {used : SpfDnsLookupBudget}
    {outcome : TermOutcome ExpectedSpf RangeProgress}
    (hnested : NestedConcludes zone sender nested checkNested)
    (hname : mechanismName (mechanismOf term) = ("include" : Text)) (hranged : progress.Ranged)
    (hused : (if maxSpfDnsLookups ≤ progress.lookupBudget.used then none
      else some ({ used := progress.lookupBudget.used + 1 } : SpfDnsLookupBudget)) = some used)
    (h : Returns zone (inspectExpectedIncludeTerm nested term
      { progress with
        lookupBudget := { progress.lookupBudget with toSpfDnsLookupBudget := used } }) outcome) :
    TermSound zone sender checkNested currentDomain term allowUnscopedPass progress outcome := by
  rw [inspectExpectedIncludeTerm, returns_bind] at h
  obtain ⟨⟨inspection, budget⟩, hinspection, h⟩ := h
  dsimp only at h hinspection
  cases hflags : (inspection.indeterminate || inspection.invalid) with
  | true =>
      rw [if_pos hflags, returns_pure] at h
      exact .inl ⟨_, h.symm, flagged_abort hflags⟩
  | false =>
      rw [if_neg (ne_of_eq_of_ne hflags Bool.false_ne_true)] at h
      have hconcludes := hnested _ _ _ _ hranged.remaining hinspection
        (ne_of_eq_of_ne hflags Bool.false_ne_true)
      by_cases hempty : inspection.remaining = []
      · rw [if_pos hempty, returns_pure] at h
        exact .inr ⟨_, .inr ⟨hempty, _, h.symm⟩, advances_include hname hranged hused hconcludes⟩
      · rw [if_neg hempty, returns_pure] at h
        exact .inr ⟨_, .inl h.symm, advances_include hname hranged hused hconcludes⟩

theorem termSound_query {used : SpfDnsLookupBudget} {found : ExpectedSpfDnsMatch}
    {budget : ExpectedSpfLookupBudget} {outcome : TermOutcome ExpectedSpf RangeProgress}
    (hall : mechanismName (mechanismOf term) ≠ ("all" : Text))
    (hnetwork : mechanismName (mechanismOf term) ∉ [("ip4" : Text), "ip6"])
    (hinclude : mechanismName (mechanismOf term) ≠ ("include" : Text)) (hranged : progress.Ranged)
    (hused : (if maxSpfDnsLookups ≤ progress.lookupBudget.used then none
      else some ({ used := progress.lookupBudget.used + 1 } : SpfDnsLookupBudget)) = some used)
    (hfound : Returns zone (inspectExpectedSpfDnsMechanism dns (mechanismOf term) currentDomain
      progress.remaining { progress.lookupBudget with toSpfDnsLookupBudget := used })
        (found, budget))
    (hindeterminate : found.indeterminate = false) (hinvalid : found.invalid = false)
    (h : Returns zone
      (let matched :=
        if found.matchesAll then progress.remaining
        else intersectSpfIntervals progress.remaining found.intervals
      if matched = [] then pure (.next { progress with lookupBudget := budget })
      else if found.matchesAll && mechanismName (mechanismOf term) = ("exists" : Text) &&
          !allowUnscopedPass && isPassing term then
        pure (.next { progress with lookupBudget := budget })
      else
        let taken := { progress with lookupBudget := budget }.take term matched
        if taken.remaining = [] then
          pure (.decided (taken.finish (taken.terminalNotPass = [] && found.matchesAll)))
        else pure (.next taken)) outcome) :
    TermSound zone sender checkNested currentDomain term allowUnscopedPass progress outcome := by
  obtain ⟨hle, hranges, hquery⟩ := follows_queryMatches sender hfound hindeterminate hinvalid
  generalize hmatched : (if found.matchesAll then progress.remaining
    else intersectSpfIntervals progress.remaining found.intervals) = matched at h
  have hrange : ∀ range ∈ matched, range.IsRange := by
    subst hmatched
    split_ifs
    · exact hranged.remaining
    · exact (intersectSpfIntervals_canonical hranged.remaining hranges).1.isRange
  have haddresses : ∀ address ∈ addressesOf progress.remaining, address ∈ addressesOf matched ↔
      found.matchesAll = true ∨ address ∈ addressesOf found.intervals := by
    intro address haddress
    subst hmatched
    cases found.matchesAll with
    | true => simpa using haddress
    | false =>
        simp only [Bool.false_eq_true, if_false, false_or]
        rw [(intersectSpfIntervals_canonical hranged.remaining hranges).2]
        exact ⟨And.right, fun h => ⟨haddress, h⟩⟩
  have hsubset : addressesOf matched ⊆ addressesOf progress.remaining := by
    subst hmatched
    split_ifs
    · exact subset_rfl
    · exact (intersectSpfIntervals_canonical hranged.remaining hranges).2.le.trans
        Set.inter_subset_left
  have hcheck : progress.Open sender → Follows sender.1
      (mechanismMatches zone sender checkNested currentDomain (mechanismOf term))
        (sender ∈ addressesOf matched) progress.lookupBudget budget := by
    intro hopen counters hbehind
    obtain ⟨counters', hcount, hbehind'⟩ := countTerm_behind hused hbehind
    obtain ⟨b, counters'', hmechanism, hb, hbehind''⟩ :=
      hquery (mem_familiesOf hopen.remains) counters' hbehind'
    refine ⟨b, counters'', ?_, hb.trans (haddresses sender hopen.remains).symm, hbehind''⟩
    rw [mechanismMatches, if_neg hall, if_neg hnetwork, check_bind hcount, if_neg hinclude]
    exact hmechanism
  have hlater := (le_of_consumed hused).trans hle
  dsimp only at h
  by_cases hskipped : (found.matchesAll && mechanismName (mechanismOf term) = ("exists" : Text) &&
      !allowUnscopedPass && isPassing term) = true
  · rw [if_pos hskipped, ite_self, returns_pure] at h
    have hreason : isPassing term = true ∧ allowUnscopedPass = false := by
      simp only [Bool.and_eq_true, Bool.not_eq_true'] at hskipped
      exact ⟨hskipped.2, hskipped.1.2⟩
    exact .inr ⟨_, .inl h.symm, advances_same hranged hlater fun hopen =>
      ⟨_, hcheck hopen, fun _ => hreason⟩⟩
  · rw [if_neg hskipped] at h
    exact termSound_take (fun taken => taken.terminalNotPass = [] && found.matchesAll) hranged hrange
      hsubset hlater hcheck h

theorem termSound_inspectExpectedTerm {outcome : TermOutcome ExpectedSpf RangeProgress}
    (hnested : NestedConcludes zone sender nested checkNested)
    (hvalid : isValidSpfMechanism (mechanismOf term) = true) (hranged : progress.Ranged)
    (h : Returns zone (inspectExpectedTerm dns nested currentDomain allowUnscopedPass term progress)
      outcome) :
    TermSound zone sender checkNested currentDomain term allowUnscopedPass progress outcome := by
  by_cases hall : mechanismName (mechanismOf term) = ("all" : Text)
  · exact termSound_all hall hranged h
  by_cases hnetwork : mechanismName (mechanismOf term) ∈ [("ip4" : Text), "ip6"]
  · exact termSound_network hall hnetwork hranged h
  rw [inspectExpectedTerm, if_neg hall, if_neg hnetwork] at h
  have hqueries : ¬ (mechanismName (mechanismOf term) ≠ ("include" : Text) &&
      !spfMechanismUsesDns (mechanismOf term)) = true := by
    have hknown := mechanismName_of_valid hvalid
    rw [spfMechanismUsesDns]
    generalize mechanismName (mechanismOf term) = name at hall hnetwork hknown ⊢
    simp only [mechanismNames, List.mem_cons, List.not_mem_nil, or_false] at hknown
    rcases hknown with rfl | rfl | rfl | rfl | hknown
    · exact absurd rfl hall
    · decide
    · exact absurd (by decide) hnetwork
    · exact absurd (by decide) hnetwork
    · simp [hknown]
  rw [if_neg hqueries, returns_bind] at h
  obtain ⟨consumed, hconsumed, h⟩ := h
  rw [returns_consumeSpfDnsLookup] at hconsumed
  cases consumed with
  | none =>
      exact .inl ⟨_, (returns_pure.mp h).symm, flagged_abort rfl⟩
  | some used =>
      dsimp only at h
      by_cases hinclude : mechanismName (mechanismOf term) = ("include" : Text)
      · rw [if_pos hinclude] at h
        exact termSound_include hnested hinclude hranged hconsumed h
      · rw [if_neg hinclude, returns_bind] at h
        obtain ⟨⟨found, budget⟩, hfound, h⟩ := h
        dsimp only at h
        cases hflags : (found.indeterminate || found.invalid) with
        | true =>
            rw [if_pos hflags, returns_pure] at h
            exact .inl ⟨_, h.symm, flagged_abort hflags⟩
        | false =>
            rw [if_neg (ne_of_eq_of_ne hflags Bool.false_ne_true)] at h
            obtain ⟨hindeterminate, hinvalid⟩ := Bool.or_eq_false_iff.mp hflags
            exact termSound_query hall hnetwork hinclude hranged hconsumed hfound hindeterminate
              hinvalid h

omit [CaseMapping] [IpSyntax] in
theorem mem_of_modifierOf (h : (modifierOf term).isSome) : 61 ∈ term := by
  by_contra hnot
  have hdrop : term.dropWhile (· ≠ 61) = [] :=
    List.dropWhile_eq_nil_iff.mpr fun unit hunit => decide_eq_true fun heq => hnot (heq ▸ hunit)
  rw [modifierOf, hdrop] at h
  split at h <;> simp_all

/-- A term that is no modifier has no equals sign in it. -/
def PlainTerm (term : Text) : Prop := modifierOf term = none → 61 ∉ term

theorem valid_of_validTerms {terms : List Text} {seen : List Text} (h : validTerms seen terms = true) :
    ∀ term ∈ terms, modifierOf term = none → isValidSpfMechanism (mechanismOf term) = true := by
  induction terms generalizing seen with
  | nil => simp
  | cons first terms ih =>
      rw [validTerms] at h
      cases hmodifier : modifierOf first with
      | none =>
          simp only [hmodifier, Bool.and_eq_true] at h
          exact List.forall_mem_cons.mpr ⟨fun _ => h.1, ih h.2⟩
      | some modifier =>
          simp only [hmodifier] at h
          split_ifs at h
          exact List.forall_mem_cons.mpr ⟨fun hnone => by simp [hnone] at hmodifier, ih h⟩

theorem concludes_followExpectedRedirect {redirectTarget : Option Text} {result : ExpectedSpf}
    (hnested : NestedConcludes zone sender nested checkNested) (hranged : progress.Ranged)
    (h : Returns zone (followExpectedRedirect nested redirectTarget progress) result)
    (hflags : ¬ Flagged result) :
    Concludes sender allowUnscopedPass
      (checkTerms zone sender checkNested currentDomain [] redirectTarget) progress result := by
  rw [followExpectedRedirect] at h
  cases hredirect : redirectTarget.filter fun _ => progress.remaining ≠ [] with
  | none =>
      rw [hredirect, returns_pure] at h
      subst h
      have hboth : ∀ range ∈ progress.unpassed, range.IsRange :=
        List.forall_mem_append.mpr ⟨hranged.rejected, hranged.remaining⟩
      obtain ⟨hcanonical, hnormalized⟩ := normalizeSpfIntervals_canonical hboth
      rw [RangeProgress.unpassed, addressesOf_append] at hnormalized
      refine ⟨.refl _, hcanonical.isRange, Set.subset_union_left.trans hnormalized.ge,
        hnormalized.le, fun hopen counters hbehind => ?_⟩
      have hleft : sender ∈ addressesOf (progress.abort false false).1.remaining :=
        hnormalized.ge (.inr hopen.remains)
      cases redirectTarget with
      | none => exact ⟨.neutral, counters, rfl, hbehind, fun hgone => absurd hleft hgone, nofun⟩
      | some target =>
          have hempty : progress.remaining = [] := by simpa using hredirect
          have hremains := hopen.remains
          rw [hempty, addressesOf_nil] at hremains
          exact hremains.elim
  | some target =>
      obtain ⟨rfl, -⟩ := Option.filter_eq_some_iff.mp hredirect
      rw [hredirect] at h
      dsimp only at h
      rw [returns_bind] at h
      obtain ⟨consumed, hconsumed, h⟩ := h
      rw [returns_consumeSpfDnsLookup] at hconsumed
      cases consumed with
      | none =>
          obtain rfl := returns_pure.mp h
          exact absurd (flagged_abort rfl).1 hflags
      | some used =>
          dsimp only at h
          rw [returns_bind] at h
          obtain ⟨⟨redirected, budget⟩, hredirected, h⟩ := h
          obtain rfl := returns_pure.mp h
          have hconcludes := hnested _ _ _ _ hranged.remaining hredirected hflags
          have hboth : ∀ range ∈ progress.terminalNotPass ++ redirected.remaining, range.IsRange :=
            List.forall_mem_append.mpr ⟨hranged.rejected, hconcludes.ranged⟩
          obtain ⟨hcanonical, hnormalized⟩ := normalizeSpfIntervals_canonical hboth
          rw [addressesOf_append] at hnormalized
          have hremaining : addressesOf redirected.remaining ⊆ addressesOf progress.remaining := by
            simpa using hconcludes.bounded
          refine ⟨(le_of_consumed hconsumed).trans hconcludes.le, hcanonical.isRange,
            Set.subset_union_left.trans hnormalized.ge,
            hnormalized.le.trans (Set.union_subset_union_right _ hremaining),
            fun hopen counters hbehind => ?_⟩
          obtain ⟨counters', hcount, hbehind'⟩ := countTerm_behind hconsumed hbehind
          obtain ⟨outcome, counters'', hcheck, hbehind'', hpass, hgone⟩ :=
            hconcludes.follows ⟨hopen.remains, by simp⟩ counters' hbehind'
          refine ⟨outcome, counters'', ?_, hbehind'', fun hleft => ?_, fun _ houtcome hleft => ?_⟩
          · rw [checkTerms, check_bind hcount]
            exact hcheck
          · exact hpass fun hmem => hleft (hnormalized.ge (.inr hmem))
          · exact (hnormalized.le hleft).elim hopen.unrejected (hgone rfl houtcome)

omit [CaseMapping] [IpSyntax] in
theorem honest_followExpectedRedirect {redirectTarget : Option Text} {result : ExpectedSpf}
    (h : Returns zone (followExpectedRedirect nested redirectTarget progress) result) :
    Honest result.1 := by
  rw [followExpectedRedirect] at h
  cases hredirect : redirectTarget.filter fun _ => progress.remaining ≠ [] with
  | none =>
      rw [hredirect] at h
      obtain rfl := returns_pure.mp h
      exact honest_expectedSpfInspection _ _
  | some target =>
      rw [hredirect] at h
      dsimp only at h
      rw [returns_bind] at h
      obtain ⟨consumed, -, h⟩ := h
      cases consumed with
      | none =>
          obtain rfl := returns_pure.mp h
          exact honest_expectedSpfInspection _ _
      | some used =>
          dsimp only at h
          rw [returns_bind] at h
          obtain ⟨redirected, -, h⟩ := h
          obtain rfl := returns_pure.mp h
          exact honest_expectedSpfInspection _ _

/-- What comes of the terms from here on: where the inspection has not given up, the evaluation has
followed it. -/
structure TermsSound (sender : Address) (allowUnscopedPass : Bool) (check : SpfCheck SpfResult)
    (progress : RangeProgress) (result : ExpectedSpf) : Prop where
  honest : Honest result.1
  concludes : ¬ Flagged result → Concludes sender allowUnscopedPass check progress result

theorem termsSound_inspectExpectedTerms {terms : List Text} {redirectTarget : Option Text}
    {result : ExpectedSpf} (hnested : NestedConcludes zone sender nested checkNested)
    (hplain : ∀ term ∈ terms, PlainTerm term)
    (hvalid : ∀ term ∈ terms, modifierOf term = none → isValidSpfMechanism (mechanismOf term) = true)
    (hranged : progress.Ranged)
    (h : Returns zone (inspectExpectedTerms dns nested currentDomain allowUnscopedPass terms
      redirectTarget progress) result) :
    TermsSound sender allowUnscopedPass
      (checkTerms zone sender checkNested currentDomain terms redirectTarget) progress result := by
  induction terms generalizing redirectTarget progress with
  | nil =>
      exact ⟨honest_followExpectedRedirect h, concludes_followExpectedRedirect hnested hranged h⟩
  | cons term terms ih =>
      obtain ⟨hplainTerm, hplain⟩ := List.forall_mem_cons.mp hplain
      obtain ⟨hvalidTerm, hvalid⟩ := List.forall_mem_cons.mp hvalid
      rw [inspectExpectedTerms] at h
      rw [checkTerms]
      cases hredirect : redirectOf term with
      | some target =>
          rw [hredirect] at h
          exact ih hplain hvalid hranged h
      | none =>
          rw [hredirect] at h
          dsimp only at h ⊢
          cases hmodifier : modifierOf term with
          | some modifier =>
              rw [if_pos (mem_of_modifierOf (by simp [hmodifier]))] at h
              exact ih hplain hvalid hranged h
          | none =>
              rw [if_neg (hplainTerm hmodifier), returns_bind] at h
              obtain ⟨outcome, houtcome, h⟩ := h
              rcases termSound_inspectExpectedTerm hnested (hvalidTerm hmodifier) hranged houtcome with
                ⟨decided, rfl, hdecided, hhonest⟩ | ⟨progress', rfl | ⟨hempty, u, rfl⟩, hadvances⟩
              · obtain rfl := returns_pure.mp h
                exact ⟨hhonest, fun hflags => absurd hdecided hflags⟩
              · obtain ⟨hhonest, hconcludes⟩ := ih hplain hvalid hadvances.ranged h
                exact ⟨hhonest, fun hflags => hadvances.concludes (hconcludes hflags)⟩
              · obtain rfl := returns_pure.mp h
                exact ⟨honest_expectedSpfInspection _ _,
                  fun _ => hadvances.concludes (concludes_finish hadvances.ranged hempty u _)⟩

/-- No mechanism of the record has an equals sign in it. -/
def PlainRecord (record : Text) : Prop :=
  ∀ terms, parseValidSpfTerms record = some terms → ∀ term ∈ terms, PlainTerm term

/-- No record of the zone has such a mechanism. -/
def SpfZone.Plain (zone : SpfZone) : Prop :=
  ∀ name values, zone .txt name = .ok values → ∀ record ∈ values, PlainRecord record

theorem termsSound_inspectExpectedSpfRecord {record : Text} {ranges : List SpfIpInterval}
    {budget : ExpectedSpfLookupBudget} {result : ExpectedSpf}
    (hnested : NestedConcludes zone sender nested checkNested) (hplain : PlainRecord record)
    (hranges : ∀ range ∈ ranges, range.IsRange)
    (h : Returns zone (inspectExpectedSpfRecord dns nested currentDomain allowUnscopedPass record
      ranges budget) result) :
    TermsSound sender allowUnscopedPass (checkRecord zone sender checkNested currentDomain record)
      { remaining := ranges, lookupBudget := budget } result := by
  rw [inspectExpectedSpfRecord] at h
  rw [checkRecord]
  cases hterms : parseValidSpfTerms record with
  | none =>
      rw [hterms] at h
      obtain rfl := returns_pure.mp h
      exact ⟨honest_expectedSpfInspection _ _, fun hflags => absurd rfl hflags⟩
  | some terms =>
      rw [hterms] at h
      dsimp only at h ⊢
      by_cases hempty : ranges = []
      · rw [if_pos hempty] at h
        obtain rfl := returns_pure.mp h
        subst hempty
        have hranged : RangeProgress.Ranged { remaining := [], lookupBudget := budget } :=
          ⟨by simp, by simp⟩
        exact ⟨honest_expectedSpfInspection _ _, fun _ => concludes_finish hranged rfl false _⟩
      · rw [if_neg hempty] at h
        obtain ⟨hcanonical, hnormalized⟩ := normalizeSpfIntervals_canonical hranges
        have hvalid : validTerms [] terms = true := by
          rw [parseValidSpfTerms] at hterms
          split_ifs at hterms with hversion
          dsimp only at hterms
          split_ifs at hterms with hvalid
          obtain rfl := Option.some.inj hterms
          exact hvalid
        have hranged : RangeProgress.Ranged
            { remaining := normalizeSpfIntervals ranges, lookupBudget := budget } :=
          ⟨hcanonical.isRange, by simp⟩
        obtain ⟨hhonest, hconcludes⟩ : TermsSound sender allowUnscopedPass _ _ result :=
          termsSound_inspectExpectedTerms hnested (hplain terms hterms) (valid_of_validTerms hvalid)
            hranged h
        refine ⟨hhonest, fun hflags => ?_⟩
        have hconcludes := hconcludes hflags
        refine ⟨hconcludes.le, hconcludes.ranged, by simp, ?_, fun hopen => ?_⟩
        · simpa [hnormalized] using hconcludes.bounded
        · exact hconcludes.follows ⟨hnormalized.ge hopen.remains, hopen.unrejected⟩

/-- A nested domain, at any depth that is enough for the inspection. -/
theorem nestedConcludes_inspectExpectedSpfDomain (hzone : zone.Plain) (depth : ℕ) {depth' : ℕ}
    (hdepth : depth ≤ depth') (visited : List Text) :
    NestedConcludes zone sender (fun target => inspectExpectedSpfDomain dns depth target visited)
      (checkHost zone sender depth') := by
  induction depth generalizing depth' visited with
  | zero =>
      intro target ranges budget result _ h
      cases h
  | succ depth ih =>
      intro target ranges budget result hranges h hflags
      obtain ⟨depth', rfl⟩ : ∃ d, depth' = d + 1 := ⟨depth' - 1, by omega⟩
      change Returns zone (inspectExpectedSpfDomain dns (depth + 1) target visited ranges budget)
        result at h
      rw [inspectExpectedSpfDomain] at h
      dsimp only at h
      cases hstopped : (37 ∈ normalizeDomain target || normalizeDomain target ∈ visited : Bool) with
      | true =>
          rw [if_pos hstopped] at h
          obtain rfl := returns_pure.mp h
          exact absurd hstopped hflags
      | false =>
          rw [if_neg (ne_of_eq_of_ne hstopped Bool.false_ne_true), returns_bind] at h
          obtain ⟨hpercent, -⟩ := Bool.or_eq_false_iff.mp hstopped
          obtain ⟨answer, hanswer, h⟩ := h
          rw [returns_askDnsFor] at hanswer
          cases answer with
          | error error =>
              obtain rfl := returns_pure.mp h
              exact absurd rfl hflags
          | ok values =>
              have houtcome : (resolveDnsObservation (normalizeDomain target) .txt
                  (.ok values)).outcome ≠ .error := by
                simp only [resolveDnsObservation]
                split_ifs <;> simp
              rw [if_neg houtcome] at h
              have hvalues : (resolveDnsObservation (normalizeDomain target) .txt
                  (.ok values)).values = values := rfl
              simp only [hvalues] at h
              generalize hcharged : (if values = [] then
                consumeExpectedSpfVoidLookups budget (familiesOf ranges) else (true, budget)) =
                  charged at h
              obtain ⟨within, next⟩ := charged
              cases within with
              | false =>
                  obtain rfl := returns_pure.mp h
                  exact absurd rfl hflags
              | true =>
                  obtain ⟨hle, htaken⟩ := taken_of_missing hcharged
                  simp only [Bool.not_true, Bool.false_eq_true, if_false] at h
                  rcases hrecords : values.filter isSpfVersionOneRecord with _ | ⟨record, _ | _⟩
                  · rw [hrecords] at h
                    obtain rfl := returns_pure.mp h
                    exact absurd rfl hflags
                  · rw [hrecords, returns_bind] at h
                    obtain ⟨⟨inspection, budget'⟩, hinspection, h⟩ := h
                    obtain rfl := returns_pure.mp h
                    have hmem : record ∈ values.filter isSpfVersionOneRecord := by simp [hrecords]
                    have hplain := hzone _ _ hanswer record (List.mem_filter.mp hmem).1
                    have hconcludes := (termsSound_inspectExpectedSpfRecord
                      (ih (Nat.le_of_succ_le_succ hdepth) (normalizeDomain target :: visited)) hplain
                      hranges hinspection).concludes hflags
                    refine ⟨hle.trans hconcludes.le, hconcludes.ranged, hconcludes.rejected,
                      hconcludes.bounded, fun hopen counters hbehind => ?_⟩
                    obtain ⟨counters', hquery, hbehind'⟩ :=
                      query_behind (mem_familiesOf hopen.remains) hanswer hle htaken hbehind
                    rw [checkHost, if_neg (of_decide_eq_false hpercent), check_bind hquery, hrecords]
                    exact hconcludes.follows ⟨hopen.remains, hopen.unrejected⟩ counters' hbehind'
                  · rw [hrecords] at h
                    obtain rfl := returns_pure.mp h
                    exact absurd rfl hflags

/-- Every sender of the expected ranges passes where the inspection is ready. -/
theorem inspectExpectedDirectSpfRanges_sound {record : Text} {expectedRanges : List Text}
    {inspection : SpfAuthorizationInspection} {depth : ℕ} (hzone : zone.Plain)
    (hrecord : PlainRecord record)
    (h : Returns zone (inspectExpectedDirectSpfRanges dns depth record currentDomain expectedRanges)
      inspection) (hready : inspection.ready = true) {depth' : ℕ} (hdepth : depth ≤ depth') :
    ∀ value ∈ expectedRanges, ∃ range, parseSpfIpInterval value = some range ∧
      ∀ sender ∈ range.addresses, Passes zone sender depth' record currentDomain := by
  rw [inspectExpectedDirectSpfRanges] at h
  dsimp only at h
  split_ifs at h with hinput
  · obtain rfl := returns_pure.mp h
    cases hready
  · rw [returns_bind] at h
    obtain ⟨⟨result, budget⟩, hresult, h⟩ := h
    obtain rfl := returns_pure.mp h
    simp only [Bool.or_eq_true, decide_eq_true_eq, not_or, not_not,
      List.filterMap_length_eq_length] at hinput
    intro value hvalue
    obtain ⟨range, hparsed⟩ := Option.isSome_iff_exists.mp (hinput.2 value hvalue)
    refine ⟨range, hparsed, fun sender hsender => ?_⟩
    have hranges : ∀ other ∈ expectedRanges.filterMap parseSpfIpInterval, other.IsRange := by
      intro other hother
      obtain ⟨text, -, htext⟩ := List.mem_filterMap.mp hother
      exact isRange_parseSpfIpInterval htext
    have hnested : NestedConcludes zone sender (fun target => inspectExpectedSpfDomain dns depth
        target [normalizeDomain currentDomain]) (checkHost zone sender depth') :=
      nestedConcludes_inspectExpectedSpfDomain hzone depth hdepth _
    obtain ⟨hhonest, hconcludes⟩ := termsSound_inspectExpectedSpfRecord hnested hrecord hranges hresult
    obtain ⟨hempty, hindeterminate, hinvalid⟩ := hhonest hready
    have hmem : sender ∈ addressesOf (expectedRanges.filterMap parseSpfIpInterval) :=
      ⟨range, List.mem_filterMap.mpr ⟨value, hvalue, hparsed⟩, hsender⟩
    have hflags : ¬ Flagged (result, budget) := by
      rw [Flagged, hindeterminate, hinvalid]
      exact Bool.false_ne_true
    obtain ⟨outcome, counters', hcheck, -, hpass, -⟩ :=
      (hconcludes hflags).follows ⟨hmem, by simp⟩ {} ⟨le_rfl, le_rfl⟩
    obtain rfl := hpass (by rw [hempty]; simp)
    exact ⟨counters', hcheck⟩

end Records

theorem plainRecord_of_all [CaseMapping] [IpSyntax] {record : Text}
    (h : (parseValidSpfTerms record).all fun terms =>
      terms.all fun term => (modifierOf term).isSome || 61 ∉ term) : PlainRecord record := by
  intro terms hterms term hterm hmodifier
  rw [hterms, Option.all_some, List.all_eq_true] at h
  simpa [hmodifier] using h term hterm

/-- A domain that lists a network, but for a half of it. -/
def networkZone : SpfZone := fun type name =>
  if type = .txt ∧ name = ("spf.example" : Text) then
    .ok ["v=spf1 -ip4:192.0.2.128/25 ip4:192.0.2.0/24 -all"]
  else .ok []

/-- A range of the other half, behind an include. -/
theorem inspectExpectedDirectSpfRanges_sound_network :
    letI := asciiCaseMapping
    letI := dottedIpSyntax
    ∃ range, parseSpfIpInterval "192.0.2.64/26" = some range ∧
      ∀ sender ∈ range.addresses,
        Passes networkZone sender 10 "v=spf1 include:spf.example -all" "mail.example" := by
  let := asciiCaseMapping
  let := dottedIpSyntax
  have hready : ((Program.eval networkZone.answer (inspectExpectedDirectSpfRanges ⟨true, true⟩ 2
      "v=spf1 include:spf.example -all" "mail.example" ["192.0.2.64/26"]).run).toOption.map
        (·.ready)) = some true := by decide +kernel
  obtain ⟨inspection, hinspection, hready⟩ := Option.map_eq_some_iff.mp hready
  have hzone : networkZone.Plain := by
    intro name values hvalues record hrecord
    rw [networkZone] at hvalues
    split_ifs at hvalues
    · obtain rfl := Except.ok.inj hvalues
      obtain rfl := List.mem_singleton.mp hrecord
      exact plainRecord_of_all (by decide +kernel)
    · obtain rfl := Except.ok.inj hvalues
      cases hrecord
  exact inspectExpectedDirectSpfRanges_sound hzone (plainRecord_of_all (by decide +kernel))
    (returns_of_toOption hinspection) hready (by decide) _ List.mem_cons_self

end ListmonkOps.Provider
