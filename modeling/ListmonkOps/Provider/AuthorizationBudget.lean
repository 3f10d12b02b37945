/-
The budget of the authorization of a domain.

The path to an expected include and the authorization of the include share one
budget of terms and of void lookups. Every part of them either keeps the limits,
with the budget counting what the record shows, or is invalid and stops.
-/

import ListmonkOps.Provider.SpfBudget

namespace ListmonkOps.Provider

open ListmonkOps.Math ListmonkOps.Runtime

section Authorization

variable {dns : ProviderDnsResolver} {log : SpfLog} {budget : SpfLookupBudget}

/-- The budget of an authorization counts what the record shows. -/
def SpfLookupBudget.Counts (budget : SpfLookupBudget) (log : SpfLog) : Prop :=
  Provider.Counts budget.used (fun _ => budget.void) log

def SpfLookupBudget.Kept (budget : SpfLookupBudget) (log : SpfLog) : Prop :=
  Provider.Kept budget.used (fun _ => budget.void) log

theorem keeps_lookups {used void : ℕ} {domain : Text} (types : List (Bool × DnsType))
    (hlog : Program.Justified Allowed log) (hcounts : Counts used (fun _ => void) log)
    (hused : used ≤ maxSpfDnsLookups) :
    Keeps (types.mapM fun loader => askDns loader.2 domain) (fun results log' =>
      Counts used (fun _ => void + results.countP isVoidAnswer) log') log := by
  induction types generalizing log void with
  | nil => exact keeps_pure hlog hcounts
  | cons loader types ih =>
      rw [List.mapM_cons]
      refine Keeps.bind (keeps_askDnsFor hlog (hcounts.charged ▸ hused) fun answer =>
        hcounts.lookupAny loader.2 domain answer) fun answer log' hlog' hcounts' => ?_
      refine Keeps.bind (ih hlog' hcounts') fun results log'' hlog'' hcounts'' =>
        keeps_pure hlog'' ?_
      rw [List.countP_cons]
      simpa only [Nat.add_assoc, Nat.add_comm (List.countP isVoidAnswer results)] using hcounts''

/-- What is kept by a part of an evaluation on one budget. A part that is not
invalid leaves the limits kept. -/
structure Spent (budget : SpfLookupBudget) (invalid : Bool) (budget' : SpfLookupBudget)
    (log : SpfLog) : Prop where
  counts : budget'.Counts log
  used : budget'.used = budget.used
  void_le : invalid = false → budget.void ≤ maxSpfVoidLookups → budget'.void ≤ maxSpfVoidLookups

theorem Spent.trans {budget' budget'' : SpfLookupBudget} {log' : SpfLog} {invalid invalid' : Bool}
    (h : Spent budget invalid budget' log) (h' : Spent budget' invalid' budget'' log') :
    Spent budget (invalid || invalid') budget'' log' where
  counts := h'.counts
  used := h'.used.trans h.used
  void_le hvalid hvoid := by
    rw [Bool.or_eq_false_iff] at hvalid
    exact h'.void_le hvalid.2 (h.void_le hvalid.1 hvoid)

theorem Spent.mono {budget' : SpfLookupBudget} {invalid invalid' : Bool}
    (h : Spent budget invalid budget' log) (himp : invalid' = false → invalid = false) :
    Spent budget invalid' budget' log :=
  ⟨h.counts, h.used, fun hvalid => h.void_le (himp hvalid)⟩

theorem SpfLookupBudget.Counts.spent (h : budget.Counts log) (invalid : Bool) :
    Spent budget invalid budget log :=
  ⟨h, rfl, fun _ => id⟩

theorem spent_of_missing (missing : Prop) [Decidable missing] (count : ℕ)
    (h : Counts budget.used (fun _ => budget.void + if missing then count else 0) log) :
    Spent budget
      (!(if missing then consumeSpfVoidLookups budget count else (true, budget)).1)
      (if missing then consumeSpfVoidLookups budget count else (true, budget)).2 log := by
  by_cases hmissing : missing
  · simp only [hmissing, if_true] at h ⊢
    refine ⟨h, rfl, fun hwithin _ => ?_⟩
    simpa [consumeSpfVoidLookups] using hwithin
  · simp only [hmissing, if_false] at h ⊢
    exact SpfLookupBudget.Counts.spent h _

/-- What a mechanism spends; it is not invalid for want of evidence. -/
def MatchSpent (budget : SpfLookupBudget) (result : SpfMechanismMatch × SpfLookupBudget)
    (log : SpfLog) : Prop :=
  (result.1.invalid = true → result.1.indeterminate = false) ∧
    Spent budget result.1.invalid result.2 log

theorem keeps_inspectSpfAddresses {domain : Text} {ipv4Only : Bool}
    (hlog : Program.Justified Allowed log) (hcounts : budget.Counts log)
    (hused : budget.used ≤ maxSpfDnsLookups) :
    Keeps (inspectSpfAddresses dns domain ipv4Only budget)
      (MatchSpent budget) log := by
  rw [inspectSpfAddresses]
  by_cases hmacro : 37 ∈ domain
  · rw [if_pos hmacro]
    exact keeps_pure hlog ⟨fun h => (nomatch h), hcounts.spent _⟩
  rw [if_neg hmacro]
  refine Keeps.bind (keeps_lookups _ hlog hcounts hused) fun results log' hlog' hcounts' => ?_
  have hspent := spent_of_missing (0 < results.countP isVoidAnswer) (results.countP isVoidAnswer)
    (by rwa [ite_eq_left_iff.mpr fun h => by omega])
  dsimp only
  generalize (if 0 < results.countP isVoidAnswer then _ else _) = charged at hspent ⊢
  obtain ⟨within, budget'⟩ := charged
  cases within with
  | false => exact keeps_pure hlog' ⟨fun _ => rfl, hspent⟩
  | true =>
      simp only [Bool.not_true, Bool.false_eq_true, if_false]
      split_ifs <;> exact keeps_pure hlog' ⟨fun h => (nomatch h), hspent⟩

theorem keeps_inspectExchanges (exchanges : List Text)
    (hlog : Program.Justified Allowed log) (hcounts : budget.Counts log)
    (hused : budget.used ≤ maxSpfDnsLookups) :
    Keeps (inspectExchanges dns exchanges budget)
      (fun result log' => Spent budget (result.1.any (·.invalid)) result.2 log') log := by
  induction exchanges generalizing budget log with
  | nil => exact keeps_pure hlog (hcounts.spent _)
  | cons exchange exchanges ih =>
      rw [inspectExchanges]
      refine Keeps.bind (keeps_inspectSpfAddresses hlog hcounts hused)
        fun first log' hlog' hfirst => ?_
      refine Keeps.bind (ih hlog' hfirst.2.counts (hfirst.2.used ▸ hused))
        fun rest log'' hlog'' hrest => keeps_pure hlog'' ?_
      rw [List.any_cons]
      exact hfirst.2.trans hrest

/-- The limits are kept after further terms. -/
structure Advanced (budget budget' : SpfLookupBudget) (log : SpfLog) : Prop where
  kept : budget'.Kept log
  used_le : budget.used ≤ budget'.used

theorem Advanced.trans {budget' budget'' : SpfLookupBudget} {log' : SpfLog}
    (h : Advanced budget budget' log) (h' : Advanced budget' budget'' log') :
    Advanced budget budget'' log' :=
  ⟨h'.kept, h.used_le.trans h'.used_le⟩

theorem Spent.advanced {budget' budget'' : SpfLookupBudget} {log' : SpfLog} {invalid : Bool}
    (h : Spent budget' invalid budget'' log') (hbefore : Advanced budget budget' log)
    (hvalid : invalid = false) : Advanced budget budget'' log' where
  kept :=
    { toCounts := h.counts
      used_le := h.used ▸ hbefore.kept.used_le
      void_le := fun _ => h.void_le hvalid (hbefore.kept.void_le .v4) }
  used_le := h.used ▸ hbefore.used_le

theorem keeps_charge {β : Type} {term : Text} {f : Option SpfDnsLookupBudget → Spf β}
    {Q : β → SpfLog → Prop} (hlog : Program.Justified Allowed log) (hkept : budget.Kept log)
    (hrefused : ∀ log', Program.Justified Allowed log' → Keeps (f none) Q log')
    (htaken : ∀ next log', Program.Justified Allowed log' →
      Advanced budget { budget with toSpfDnsLookupBudget := next } log' →
      next.used = budget.used + 1 → Keeps (f (some next)) Q log') :
    Keeps (consumeSpfDnsLookup term budget.toSpfDnsLookupBudget >>= f) Q log := by
  refine Keeps.bind (keeps_consumeSpfDnsLookup hlog hkept (Q := fun taken log' =>
    ∀ next, taken = some next → next.used = budget.used + 1 ∧
      Kept next.used (fun _ => budget.void) log') ?_ ?_) fun taken log' hlog' htaken' => ?_
  · intro log' next h
    cases h
  · rintro log' taken hused hkept' next ⟨⟩
    exact ⟨hused, hkept'⟩
  · cases taken with
    | none => exact hrefused log' hlog'
    | some next =>
        obtain ⟨hused, hkept'⟩ := htaken' next rfl
        have hle : budget.used ≤ next.used := by omega
        exact htaken next log' hlog' ⟨hkept', hle⟩ hused

/-- The rule for a term that is taken from the budget where it queries DNS. -/
theorem keeps_chargeWhere {β : Type} {term : Text} {uses : Bool}
    {f : Option SpfDnsLookupBudget → Spf β} {Q : β → SpfLog → Prop}
    (hlog : Program.Justified Allowed log) (hkept : budget.Kept log)
    (hrefused : ∀ log', Program.Justified Allowed log' → Keeps (f none) Q log')
    (htaken : ∀ next log', Program.Justified Allowed log' →
      Advanced budget { budget with toSpfDnsLookupBudget := next } log' →
      Keeps (f (some next)) Q log') :
    Keeps ((if uses then consumeSpfDnsLookup term budget.toSpfDnsLookupBudget
      else pure (some budget.toSpfDnsLookupBudget)) >>= f) Q log := by
  cases uses with
  | true => exact keeps_charge hlog hkept hrefused fun next log' hlog' hcharged _ =>
      htaken next log' hlog' hcharged
  | false => exact htaken _ log hlog ⟨hkept, le_rfl⟩

/-- An inspection of a domain is invalid, and then nothing else, unless the limits
are kept. -/
structure Reported (budget : SpfLookupBudget) (result : SpfAuthorization) (log : SpfLog) : Prop where
  only : result.1.invalid = true → result.1.ready = false ∧ result.1.indeterminate = false
  advanced : result.1.invalid = false → Advanced budget result.2 log

/-- What is said of a nested inspection, where the depth is enough. -/
def NestedKeeps (depth : ℕ) (nested : Text → SpfLookupBudget → Spf SpfAuthorization) : Prop :=
  ∀ target budget log, Program.Justified Allowed log → budget.Kept log →
    maxSpfDnsLookups < depth + budget.used → Keeps (nested target budget) (Reported budget) log

theorem Reported.after {budget' : SpfLookupBudget} {result : SpfAuthorization} {log' : SpfLog}
    (hadvanced : Advanced budget budget' log) (h : Reported budget' result log') :
    Reported budget result log' :=
  ⟨h.only, fun hvalid => hadvanced.trans (h.advanced hvalid)⟩

theorem keeps_followRedirect {depth : ℕ}
    {nested : Text → SpfLookupBudget → Spf SpfAuthorization} (hnested : NestedKeeps depth nested)
    {redirectTarget : Option Text}
    {observations : List DnsObservation} (hlog : Program.Justified Allowed log)
    (hkept : budget.Kept log) (hdepth : maxSpfDnsLookups < depth + budget.used + 1) :
    Keeps (followRedirect nested redirectTarget (budget, observations)) (Reported budget) log := by
  cases redirectTarget with
  | none => exact keeps_pure hlog ⟨fun h => (nomatch h), fun _ => ⟨hkept, le_rfl⟩⟩
  | some target =>
      refine keeps_charge hlog hkept
        (fun log' hlog' => keeps_pure hlog' ⟨fun _ => ⟨rfl, rfl⟩, fun h => (nomatch h)⟩)
        fun next log' hlog' hcharged hnext => ?_
      refine Keeps.bind (hnested _ _ _ hlog' hcharged.kept (by rw [hnext]; omega))
        fun result log'' hlog'' hreported => keeps_pure hlog'' ?_
      exact ⟨hreported.only, fun hvalid => hcharged.trans (hreported.advanced hvalid)⟩

section Mechanisms

variable [CaseMapping]

theorem keeps_inspectDirectSpfMechanism {mechanism domain : Text}
    (hlog : Program.Justified Allowed log) (hkept : budget.Kept log) :
    Keeps (inspectDirectSpfMechanism dns mechanism domain budget)
      (MatchSpent budget) log := by
  have hcounts : budget.Counts log := hkept.toCounts
  have hused := hkept.used_le
  rw [inspectDirectSpfMechanism]
  by_cases hliteral : mechanismName mechanism ∈ [("ip4" : Text), "ip6", "all"]
  · rw [if_pos hliteral]
    exact keeps_pure hlog ⟨fun h => (nomatch h), hcounts.spent _⟩
  rw [if_neg hliteral]
  by_cases ha : mechanismName mechanism = ("a" : Text)
  · rw [if_pos ha]
    exact keeps_inspectSpfAddresses hlog hcounts hused
  rw [if_neg ha]
  by_cases hexists : mechanismName mechanism = ("exists" : Text)
  · rw [if_pos hexists]
    exact keeps_inspectSpfAddresses hlog hcounts hused
  rw [if_neg hexists]
  by_cases hmx : mechanismName mechanism = ("mx" : Text)
  · rw [if_pos hmx]
    by_cases hmacro : 37 ∈ spfMechanismDomain mechanism domain
    · rw [if_pos hmacro]
      exact keeps_pure hlog ⟨fun h => (nomatch h), hcounts.spent _⟩
    rw [if_neg hmacro]
    refine Keeps.bind (keeps_askDnsFor hlog (hcounts.charged ▸ hused) fun answer =>
      hcounts.lookupAny .mx _ answer) fun answer log' hlog' hcounts' => ?_
    cases answer with
    | error error =>
        exact keeps_pure hlog' ⟨fun h => (nomatch h), SpfLookupBudget.Counts.spent hcounts' _⟩
    | ok records =>
        have hvoid : isVoidAnswer (.ok records) = decide (records = []) := by cases records <;> rfl
        simp only [hvoid, decide_eq_true_eq] at hcounts'
        by_cases hmany : 10 < records.length
        · have hfound : records ≠ [] := by
            rintro rfl
            simp at hmany
          simp only [hmany, if_true]
          simp only [hfound, if_false] at hcounts'
          exact keeps_pure hlog' ⟨fun _ => rfl, SpfLookupBudget.Counts.spent hcounts' _⟩
        · have hspent := spent_of_missing (records = []) 1 hcounts'
          simp only [hmany, if_false]
          generalize (if records = [] then _ else _) = charged at hspent ⊢
          obtain ⟨within, budget'⟩ := charged
          cases within with
          | false => exact keeps_pure hlog' ⟨fun _ => rfl, hspent⟩
          | true =>
              refine Keeps.bind (keeps_inspectExchanges _ hlog' hspent.counts (hspent.used ▸ hused))
                fun results log'' hlog'' hrest => ?_
              have hall := hspent.trans hrest
              cases hresults : results.1.any (·.invalid) with
              | true =>
                  simp only [if_true]
                  exact keeps_pure hlog'' ⟨fun _ => rfl, hall.mono fun h => (nomatch h)⟩
              | false =>
                  rw [hresults] at hall
                  simp only [Bool.false_eq_true, if_false]
                  split_ifs <;> exact keeps_pure hlog'' ⟨fun h => (nomatch h), hall.mono fun _ => rfl⟩
  · rw [if_neg hmx]
    exact keeps_pure hlog ⟨fun h => (nomatch h), hcounts.spent _⟩

variable [IpSyntax]

section Terms

variable {depth : ℕ} {nested : Text → SpfLookupBudget → Spf SpfAuthorization} {domain : Text}

def ReportedTerm (budget : SpfLookupBudget) :
    TermOutcome SpfAuthorization SpfProgress → SpfLog → Prop
  | .decided result, log => Reported budget result log
  | .next (budget', _), log => Advanced budget budget' log

theorem keeps_inspectAuthorizationTerm (hnested : NestedKeeps depth nested) {term : Text}
    {observations : List DnsObservation} (hlog : Program.Justified Allowed log)
    (hkept : budget.Kept log) (hdepth : maxSpfDnsLookups < depth + budget.used + 1) :
    Keeps (inspectAuthorizationTerm dns nested domain term (budget, observations))
      (ReportedTerm budget) log := by
  have hself : Advanced budget budget log := ⟨hkept, le_rfl⟩
  have hinvalid : ∀ (budget' : SpfLookupBudget) (observations : List DnsObservation) (log' : SpfLog),
      Program.Justified Allowed log' → Keeps (pure (.decided
        (({ invalid := true, observations } : SpfAuthorizationInspection), budget')))
        (ReportedTerm budget) log' :=
    fun _ _ _ hlog' => keeps_pure hlog' ⟨fun _ => ⟨rfl, rfl⟩, fun h => (nomatch h)⟩
  have hvalid : ∀ {budget' : SpfLookupBudget} {log' : SpfLog}
      (inspection : SpfAuthorizationInspection), inspection.invalid = false →
      Advanced budget budget' log' → ReportedTerm budget (.decided (inspection, budget')) log' :=
    fun _ hvalid hadvanced => ⟨fun h => (nomatch hvalid.symm.trans h), fun _ => hadvanced⟩
  simp only [inspectAuthorizationTerm]
  by_cases hall : mechanismName (mechanismOf term) = ("all" : Text)
  · rw [if_pos hall]
    exact keeps_pure hlog (hvalid _ rfl hself)
  rw [if_neg hall]
  by_cases hinclude : mechanismName (mechanismOf term) = ("include" : Text)
  · rw [if_pos hinclude]
    by_cases hempty : (mechanismOf term).drop 8 = []
    · rw [if_pos hempty]
      exact keeps_pure hlog hself
    rw [if_neg hempty]
    refine keeps_charge hlog hkept (fun log' hlog' => hinvalid _ _ _ hlog')
      fun next log' hlog' hcharged hnext => ?_
    refine Keeps.bind (hnested _ _ _ hlog' hcharged.kept (by rw [hnext]; omega))
      fun result log'' hlog'' hreported => ?_
    cases hresult : result.1.invalid with
    | true =>
        have honly := hreported.only hresult
        simp only [honly.2, Bool.false_eq_true, if_false, if_true]
        exact hinvalid _ _ _ hlog''
    | false =>
        have hadvanced := hcharged.trans (hreported.advanced hresult)
        simp only [Bool.false_eq_true, if_false]
        split_ifs
        · exact keeps_pure hlog'' (hvalid _ rfl hadvanced)
        · exact keeps_pure hlog'' (hvalid _ rfl hadvanced)
        · exact keeps_pure hlog'' (hvalid _ rfl hadvanced)
        · exact keeps_pure hlog'' hadvanced
  rw [if_neg hinclude]
  -- a mechanism of the domain itself, taken from the budget where it queries DNS
  refine keeps_chargeWhere hlog hkept (fun log' hlog' => hinvalid _ _ _ hlog')
    fun next log' hlog' hadvanced => ?_
  refine Keeps.bind (keeps_inspectDirectSpfMechanism hlog' hadvanced.kept)
    fun found log'' hlog'' hspent => ?_
  cases hfound : found.1.invalid with
  | true =>
      simp only [hspent.1 hfound, Bool.false_eq_true, if_false, if_true]
      exact hinvalid _ _ _ hlog''
  | false =>
      have hspentAdvanced := hspent.2.advanced hadvanced hfound
      simp only [Bool.false_eq_true, if_false]
      split_ifs
      · exact keeps_pure hlog'' (hvalid _ rfl hspentAdvanced)
      · exact keeps_pure hlog'' hspentAdvanced
      · exact keeps_pure hlog'' (hvalid _ rfl hspentAdvanced)
      · exact keeps_pure hlog'' (hvalid _ rfl hspentAdvanced)
      · exact keeps_pure hlog'' hspentAdvanced

theorem keeps_inspectAuthorizationTerms (hnested : NestedKeeps depth nested) (terms : List Text)
    {redirectTarget : Option Text} {observations : List DnsObservation}
    (hlog : Program.Justified Allowed log) (hkept : budget.Kept log)
    (hdepth : maxSpfDnsLookups < depth + budget.used + 1) :
    Keeps (inspectAuthorizationTerms dns nested domain terms redirectTarget (budget, observations))
      (Reported budget) log := by
  induction terms generalizing redirectTarget budget observations log with
  | nil => exact keeps_followRedirect hnested hlog hkept hdepth
  | cons term terms ih =>
      rw [inspectAuthorizationTerms]
      cases redirectOf term with
      | some target => exact ih hlog hkept hdepth
      | none =>
          dsimp only
          split_ifs
          · exact ih hlog hkept hdepth
          · refine Keeps.bind (keeps_inspectAuthorizationTerm hnested hlog hkept hdepth)
              fun outcome log' hlog' houtcome => ?_
            cases outcome with
            | decided result => exact keeps_pure hlog' houtcome
            | next progress =>
                have hadvanced : Advanced budget progress.1 log' := houtcome
                have hused := hadvanced.used_le
                exact (ih hlog' hadvanced.kept (by omega)).imp fun _ _ _ hreported =>
                  hreported.after hadvanced

end Terms

/-- Ten levels are enough: every level takes a term from the budget. -/
theorem nestedKeeps_inspectSpfAuthorizationTarget (depth : ℕ) (visited : List Text) :
    NestedKeeps depth fun target => inspectSpfAuthorizationTarget dns depth target visited := by
  induction depth generalizing visited with
  | zero =>
      intro target budget log _ hkept hdepth
      exact absurd hkept.used_le (by omega)
  | succ depth ih =>
      intro target budget log hlog hkept hdepth
      have hinvalid : ∀ (budget' : SpfLookupBudget) (observations : List DnsObservation)
          (log' : SpfLog), Program.Justified Allowed log' →
          Keeps (pure (({ invalid := true, observations } : SpfAuthorizationInspection), budget'))
            (Reported budget) log' :=
        fun _ _ _ hlog' => keeps_pure hlog' ⟨fun _ => ⟨rfl, rfl⟩, fun h => (nomatch h)⟩
      simp only [inspectSpfAuthorizationTarget]
      split_ifs
      · exact hinvalid _ _ _ hlog
      · exact keeps_pure hlog ⟨fun h => (nomatch h), fun _ => ⟨hkept, le_rfl⟩⟩
      refine Keeps.bind (keeps_askDnsFor hlog (hkept.charged ▸ hkept.used_le) fun answer =>
        hkept.toCounts.lookupAny .txt _ answer) fun answer log' hlog' hcounts' => ?_
      cases answer with
      | error error =>
          exact keeps_pure hlog' ⟨fun h => (nomatch h), fun _ =>
            ⟨⟨hcounts', hkept.used_le, hkept.void_le⟩, le_rfl⟩⟩
      | ok values =>
          have hvoid : isVoidAnswer (.ok values) = decide (values = []) := by cases values <;> rfl
          simp only [hvoid, decide_eq_true_eq] at hcounts'
          have hspent := spent_of_missing
            ((resolveDnsObservation (normalizeDomain target) .txt (.ok values)).values = []) 1 hcounts'
          have houtcome : (resolveDnsObservation (normalizeDomain target) .txt
              (.ok values)).outcome ≠ .error := by
            simp only [resolveDnsObservation]
            split_ifs <;> simp
          simp only [if_neg houtcome]
          generalize (if (resolveDnsObservation _ _ (.ok values)).values = [] then
            consumeSpfVoidLookups budget 1 else _) = charged at hspent ⊢
          obtain ⟨within, budget'⟩ := charged
          cases within with
          | false => exact hinvalid _ _ _ hlog'
          | true =>
              have hadvanced := hspent.advanced ⟨hkept, le_rfl⟩ rfl
              have hused := hadvanced.used_le
              simp only [Bool.not_true, Bool.false_eq_true, if_false]
              split
              · split
                · exact hinvalid _ _ _ hlog'
                · refine (keeps_inspectAuthorizationTerms (ih _) _ hlog' hadvanced.kept
                    (by omega)).imp fun _ _ _ hreported => hreported.after hadvanced
              · exact hinvalid _ _ _ hlog'

/-! ### The path to an expected include -/

/-- A path is invalid, and then the include is not found, unless the limits are
kept; an include that was found has been taken from the budget. -/
structure PathReported (budget : SpfLookupBudget) (result : SpfExpectedIncludeInspection)
    (log : SpfLog) : Prop where
  only : result.invalid = true → result.found = false
  advanced : result.invalid = false → Advanced budget result.lookupBudget log
  used : result.found = true → 0 < result.lookupBudget.used

def PathReportedTerm (budget : SpfLookupBudget) :
    TermOutcome SpfExpectedIncludeInspection SpfProgress → SpfLog → Prop
  | .decided result, log => PathReported budget result log
  | .next (budget', _), log => Advanced budget budget' log

section Path

variable {depth : ℕ} {nested : Text → SpfLookupBudget → Spf SpfAuthorization}
  {currentDomain expected : Text}

omit [IpSyntax] in
theorem keeps_inspectIncludePathTerm (hnested : NestedKeeps depth nested) {term : Text}
    {observations : List DnsObservation} (hlog : Program.Justified Allowed log)
    (hkept : budget.Kept log) (hdepth : maxSpfDnsLookups < depth + budget.used + 1) :
    Keeps (inspectIncludePathTerm dns nested currentDomain expected term (budget, observations))
      (PathReportedTerm budget) log := by
  have hself : Advanced budget budget log := ⟨hkept, le_rfl⟩
  simp only [inspectIncludePathTerm]
  by_cases hall : mechanismName (mechanismOf term) = ("all" : Text)
  · rw [if_pos hall]
    exact keeps_pure hlog ⟨fun h => (nomatch h), fun _ => hself, fun h => (nomatch h)⟩
  rw [if_neg hall]
  by_cases hdns : (mechanismName (mechanismOf term) = ("include" : Text) ||
      spfMechanismUsesDns (mechanismOf term)) = true
  · rw [if_pos hdns]
    refine keeps_charge hlog hkept
      (fun log' hlog' => keeps_pure hlog' ⟨fun _ => rfl, fun h => (nomatch h), fun h => (nomatch h)⟩)
      fun next log' hlog' hcharged hnext => ?_
    dsimp only
    by_cases hinclude : mechanismName (mechanismOf term) = ("include" : Text)
    · rw [if_pos hinclude]
      split_ifs with hexpected
      · have hpos : 0 < next.used := by omega
        exact keeps_pure hlog' ⟨fun h => (nomatch h), fun _ => hcharged, fun _ => hpos⟩
      refine Keeps.bind (hnested _ _ _ hlog' hcharged.kept (by rw [hnext]; omega))
        fun result log'' hlog'' hreported => ?_
      cases hresult : result.1.invalid with
      | true =>
          simp only [Bool.or_true, if_true]
          exact keeps_pure hlog'' ⟨fun _ => rfl, fun h => (nomatch h), fun h => (nomatch h)⟩
      | false =>
          have hadvanced := hcharged.trans (hreported.advanced hresult)
          simp only [Bool.or_false]
          split_ifs
          · exact keeps_pure hlog'' ⟨fun _ => rfl, fun _ => hadvanced, fun h => (nomatch h)⟩
          · exact keeps_pure hlog'' ⟨fun _ => rfl, fun _ => hadvanced, fun h => (nomatch h)⟩
          · exact keeps_pure hlog'' hadvanced
    · have huses : spfMechanismUsesDns (mechanismOf term) = true := by simpa [hinclude] using hdns
      simp only [hinclude, if_false, huses, Bool.not_true, Bool.false_eq_true]
      refine Keeps.bind (keeps_inspectDirectSpfMechanism hlog' hcharged.kept)
        fun found log'' hlog'' hspent => ?_
      cases hfound : found.1.invalid with
      | true =>
          simp only [Bool.or_true, if_true]
          exact keeps_pure hlog'' ⟨fun _ => rfl, fun h => (nomatch h), fun h => (nomatch h)⟩
      | false =>
          have hadvanced := hspent.2.advanced hcharged hfound
          simp only [Bool.or_false]
          split_ifs
          · exact keeps_pure hlog'' ⟨fun _ => rfl, fun _ => hadvanced, fun h => (nomatch h)⟩
          · exact keeps_pure hlog'' hadvanced
  · rw [if_neg hdns]
    have hneither : mechanismName (mechanismOf term) ≠ ("include" : Text) ∧
        spfMechanismUsesDns (mechanismOf term) = false := by simpa using hdns
    simp only [pure_bind, hneither, if_false, Bool.not_false, if_true]
    exact keeps_pure hlog hself

omit [IpSyntax] in
theorem keeps_inspectIncludePathTerms (hnested : NestedKeeps depth nested) (terms : List Text)
    {observations : List DnsObservation} (hlog : Program.Justified Allowed log)
    (hkept : budget.Kept log) (hdepth : maxSpfDnsLookups < depth + budget.used + 1) :
    Keeps (inspectIncludePathTerms dns nested currentDomain expected terms (budget, observations))
      (PathReported budget) log := by
  induction terms generalizing budget observations log with
  | nil =>
      exact keeps_pure hlog ⟨fun _ => rfl, fun _ => ⟨hkept, le_rfl⟩, fun h => (nomatch h)⟩
  | cons term terms ih =>
      rw [inspectIncludePathTerms]
      split_ifs
      · exact ih hlog hkept hdepth
      · refine Keeps.bind (keeps_inspectIncludePathTerm hnested hlog hkept hdepth)
          fun outcome log' hlog' houtcome => ?_
        cases outcome with
        | decided result => exact keeps_pure hlog' houtcome
        | next progress =>
            have hadvanced : Advanced budget progress.1 log' := houtcome
            have hused := hadvanced.used_le
            exact (ih hlog' hadvanced.kept (by omega)).imp fun _ _ _ hreported =>
              ⟨hreported.only, fun hvalid => hadvanced.trans (hreported.advanced hvalid),
                hreported.used⟩

end Path

theorem keeps_inspectSpfExpectedIncludePath {depth : ℕ} (hdepth : maxSpfDnsLookups ≤ depth)
    (record currentDomain expectedDomain : Text) :
    Keeps (inspectSpfExpectedIncludePath dns depth record currentDomain expectedDomain)
      (PathReported { used := 0, void := 0 }) [] := by
  have hkept : SpfLookupBudget.Kept { used := 0, void := 0 } [] :=
    ⟨⟨rfl, fun _ => rfl⟩, Nat.zero_le _, fun _ => Nat.zero_le _⟩
  rw [inspectSpfExpectedIncludePath]
  split
  · exact keeps_pure Program.justified_nil ⟨fun _ => rfl, fun h => (nomatch h), fun h => (nomatch h)⟩
  · exact keeps_inspectIncludePathTerms (nestedKeeps_inspectSpfAuthorizationTarget depth _) _
      Program.justified_nil hkept (by omega)

/-- An inspection is invalid, on the path or at the include, if a limit was exceeded. -/
def ReportsLimits (result : SpfExpectedIncludeInspection × Option SpfAuthorization) (log : SpfLog) :
    Prop :=
  Exceeded log → result.1.invalid = true ∨
    ∃ authorization, result.2 = some authorization ∧ authorization.1.invalid = true ∧
      authorization.1.ready = false

theorem keeps_inspectExpectedInclude {depth : ℕ} (hdepth : maxSpfDnsLookups ≤ depth)
    (record mailFromDomain expectedInclude : Text) :
    Keeps (inspectExpectedInclude dns depth record mailFromDomain expectedInclude) ReportsLimits [] := by
  rw [inspectExpectedInclude]
  refine Keeps.bind (keeps_inspectSpfExpectedIncludePath hdepth _ _ _) fun path log hlog hpath => ?_
  cases hfound : path.found with
  | false =>
      simp only [Bool.not_false, if_true]
      refine keeps_pure hlog fun hexceeded => ?_
      cases hinvalid : path.invalid with
      | true => exact .inl rfl
      | false => exact absurd hexceeded (hpath.advanced hinvalid).kept.not_exceeded
  | true =>
      simp only [Bool.not_true, Bool.false_eq_true, if_false]
      have hvalid : path.invalid = false := by
        by_contra hinvalid
        rw [hpath.only (by simpa using hinvalid)] at hfound
        cases hfound
      have hused := hpath.used hfound
      refine Keeps.bind (nestedKeeps_inspectSpfAuthorizationTarget depth _ _ _ log hlog
        (hpath.advanced hvalid).kept (by omega)) fun authorization log' hlog' hreported => ?_
      refine keeps_pure hlog' fun hexceeded => .inr ⟨authorization, rfl, ?_⟩
      cases hinvalid : authorization.1.invalid with
      | true => exact ⟨rfl, (hreported.only hinvalid).1⟩
      | false => exact absurd hexceeded (hreported.advanced hinvalid).kept.not_exceeded

omit [CaseMapping] [IpSyntax] in
theorem charges_le_of_justified {log : SpfLog} (h : Program.Justified Allowed log) :
    charges log ≤ maxSpfDnsLookups + 1 := by
  induction log using List.reverseRecOn with
  | nil => exact Nat.zero_le _
  | append_singleton log entry ih =>
      obtain ⟨call, answer⟩ := entry
      obtain ⟨hlog, hallowed⟩ := Program.justified_concat.mp h
      rw [charges_append]
      cases call with
      | lookup type name senders => exact ih hlog
      | charge term =>
          have hcharges : charges log ≤ maxSpfDnsLookups := by
            by_contra hexceeded
            exact hallowed (.inl (not_le.mp hexceeded))
          exact Nat.succ_le_succ hcharges

/-- How an inspection ended, or was cut off: it did nothing that it may not do, ten levels were
enough, and an exceeded limit is reported. -/
structure KeepsLimits
    (ended : Option (Except NestingExceeded (SpfExpectedIncludeInspection × Option SpfAuthorization)) ×
      SpfLog) : Prop where
  justified : Program.Justified Allowed ended.2
  charged : charges ended.2 ≤ maxSpfDnsLookups + 1
  nesting : ended.1 ≠ some (.error .mk)
  reported : ∀ result, ended.1 = some (.ok result) → ReportsLimits result ended.2

/-- The limits are kept whatever a resolver answers, also where every record includes another. -/
theorem inspectExpectedInclude_keepsLimits (extra : ℕ) (record mailFromDomain expectedInclude : Text)
    (answers : List (DnsAnswer Text)) :
    KeepsLimits ((inspectExpectedInclude dns (maxSpfDnsLookups + extra) record mailFromDomain
      expectedInclude).run.run Program.recorded [] answers) := by
  have hkeeps : Keeps (inspectExpectedInclude dns (maxSpfDnsLookups + extra) record mailFromDomain
      expectedInclude) ReportsLimits [] :=
    keeps_inspectExpectedInclude (Nat.le_add_right _ _) record mailFromDomain expectedInclude
  obtain ⟨hjustified, hends⟩ := Program.Safe.run hkeeps answers
  exact ⟨hjustified, charges_le_of_justified hjustified, fun hnesting => hends _ hnesting,
    fun result hresult => hends _ hresult⟩

end Mechanisms

end Authorization

end ListmonkOps.Provider
