/-
What a discovery with failed lookups still knows.

A lookup that failed could have given anything. The flag on the organizational
domain covers every lookup that could have changed it. The flag on the policy
covers the lookups below the selected record only: where the search met no
boundary, a record above the last one that was found would have been selected in
its place, and a failure there goes unnoticed.
-/

import Mathlib.Data.List.Nodup
import ListmonkOps.Provider.TreeWalk

namespace ListmonkOps.Provider

open ListmonkOps.Runtime

/-! ## Completions -/

/-- The zone agrees with every answer that was given, and says of the other names what it likes.
-/
def Completes (zone : Text → List Text) (answers : Text → DnsAnswer Text) : Prop :=
  ∀ name values, answers name = .ok values → zone name = values

section Completions

variable {zone : Text → List Text} {answers : Text → DnsAnswer Text} {labels : List Text}

theorem failed_dmarcLookup {candidate : Text} :
    (dmarcLookup answers candidate).failed = true ↔
      ∃ error, answers (dmarcName candidate) = .error error := by
  cases hanswer : answers (dmarcName candidate) with
  | error error => simp [DmarcLookup.failed, dmarcLookup, resolveDnsObservation, hanswer]
  | ok values =>
      simp only [DmarcLookup.failed, dmarcLookup, resolveDnsObservation, hanswer]
      split_ifs <;> simp

theorem dmarcLookup_of_completes (h : Completes zone answers) {candidate : Text}
    (hanswered : (dmarcLookup answers candidate).failed = false) :
    dmarcLookup (fun name => .ok (zone name)) candidate = dmarcLookup answers candidate := by
  cases hanswer : answers (dmarcName candidate) with
  | error error => simp [failed_dmarcLookup.mpr ⟨error, hanswer⟩] at hanswered
  | ok values => simp only [dmarcLookup, h _ _ hanswer, hanswer]

theorem not_failed_of_policyRecord? [CaseMapping] {candidate : Text} {record : DmarcPolicyRecord}
    (h : (dmarcLookup answers candidate).policyRecord? = some record) :
    (dmarcLookup answers candidate).failed = false := by
  rw [← Bool.not_eq_true]
  intro hfailed
  obtain ⟨error, herror⟩ := failed_dmarcLookup.mp hfailed
  simp [DmarcLookup.policyRecord?, DmarcLookup.candidateRecords, dmarcLookup,
    resolveDnsObservation, herror] at h

/-- The part of a walk before its first failure is the same in a completion. -/
theorem walkLookups_of_completes (h : Completes zone answers) {before after : List DmarcLookup}
    (hwalk : walkLookups answers labels = before ++ after)
    (hbefore : ∀ lookup ∈ before, lookup.failed = false) :
    ∃ after', walkLookups (fun name => .ok (zone name)) labels = before ++ after' := by
  obtain ⟨first, second, hindices, rfl, rfl⟩ := List.map_eq_append_iff.mp hwalk
  refine ⟨second.map fun i => dmarcLookup (fun name => .ok (zone name)) (ancestor labels i), ?_⟩
  rw [walkLookups, hindices, List.map_append]
  congr 1
  refine List.map_congr_left fun i hi => dmarcLookup_of_completes h (hbefore _ ?_)
  exact List.mem_map_of_mem hi

theorem walkLookups_eq_of_completes (h : Completes zone answers)
    (hanswered : ∀ lookup ∈ walkLookups answers labels, lookup.failed = false) :
    walkLookups (fun name => .ok (zone name)) labels = walkLookups answers labels :=
  List.map_congr_left fun _ hi => dmarcLookup_of_completes h (hanswered _ (List.mem_map_of_mem hi))

theorem nodup_candidates (answers : Text → DnsAnswer Text) (h : LowerLabels labels) :
    ((walkLookups answers labels).map (·.candidate)).Nodup := by
  rw [walkLookups, List.map_map]
  refine List.Nodup.map_on (fun i hi j hj heq => ?_)
    ((pairwise_walkIndices _).imp fun h => Nat.ne_of_lt h)
  exact (ancestor_inj h (mem_walkIndices.mp hi).1 (mem_walkIndices.mp hj).1).mp heq

end Completions

/-! ## Selection -/

section Selection

variable [CaseMapping] {startingDomain : Text} {before after : List DmarcLookup}
  {lookup : DmarcLookup} {lookups : List DmarcLookup} {record : DmarcPolicyRecord}

theorem mem_dmarcRecords :
    record ∈ dmarcRecords lookups ↔ ∃ lookup ∈ lookups, lookup.policyRecord? = some record :=
  List.mem_filterMap

theorem dmarcRecords_inj (hnodup : (lookups.map (·.candidate)).Nodup) {record' : DmarcPolicyRecord}
    (hrecord : record ∈ dmarcRecords lookups) (hrecord' : record' ∈ dmarcRecords lookups)
    (hdomain : record.domain = record'.domain) : record = record' := by
  obtain ⟨lookup, hlookup, hrecord⟩ := mem_dmarcRecords.mp hrecord
  obtain ⟨lookup', hlookup', hrecord'⟩ := mem_dmarcRecords.mp hrecord'
  rw [policyRecord?_domain hrecord, policyRecord?_domain hrecord'] at hdomain
  obtain rfl := List.inj_on_of_nodup_map hnodup hlookup hlookup' hdomain
  exact Option.some.inj (hrecord.symm.trans hrecord')

theorem find?_domain (hnodup : (lookups.map (·.candidate)).Nodup)
    (hrecord : record ∈ dmarcRecords lookups) :
    (dmarcRecords lookups).find? (·.domain = record.domain) = some record := by
  cases hfound : (dmarcRecords lookups).find? (·.domain = record.domain) with
  | none =>
      have hnot := List.find?_eq_none.mp hfound record hrecord
      simp at hnot
  | some found =>
      have hsame : found.domain = record.domain := by simpa using List.find?_some hfound
      rw [dmarcRecords_inj hnodup (List.mem_of_find?_eq_some hfound) hrecord hsame]

theorem dmarcRecords_append :
    dmarcRecords (before ++ after) = dmarcRecords before ++ dmarcRecords after :=
  List.filterMap_append

theorem dmarcRecords_concat (before : List DmarcLookup)
    (hrecord : lookup.policyRecord? = some record) :
    dmarcRecords (before ++ [lookup]) = dmarcRecords before ++ [record] := by
  rw [dmarcRecords_append]
  exact congrArg _ (List.filterMap_cons_some hrecord)

theorem candidateIndex_eq (hnodup : ((before ++ lookup :: after).map (·.candidate)).Nodup)
    (hrecord : lookup.policyRecord? = some record) :
    candidateIndex (before ++ lookup :: after) record = before.length := by
  rw [List.map_append, List.map_cons, List.nodup_append] at hnodup
  have hnot : lookup.candidate ∉ before.map (·.candidate) := fun hmem =>
    hnodup.2.2 _ hmem _ List.mem_cons_self rfl
  rw [candidateIndex, List.map_append, policyRecord?_domain hrecord, List.map_cons,
    List.idxOf_append_of_notMem hnot, List.idxOf_cons_self, List.length_map, Nat.add_zero]

theorem exists_split_of_mem_dmarcRecords (h : record ∈ dmarcRecords lookups) :
    ∃ before lookup after, lookups = before ++ lookup :: after ∧
      lookup.policyRecord? = some record := by
  obtain ⟨lookup, hlookup, hrecord⟩ := mem_dmarcRecords.mp h
  obtain ⟨before, after, rfl⟩ := List.append_of_mem hlookup
  exact ⟨before, lookup, after, rfl, hrecord⟩

theorem relevantRecords_of_boundary (hnodup : ((before ++ lookup :: after).map (·.candidate)).Nodup)
    (hrecord : lookup.policyRecord? = some record)
    (hevidence : organizationalEvidence startingDomain (before ++ lookup :: after) = some record) :
    relevantRecords startingDomain (before ++ lookup :: after) =
      dmarcRecords (before ++ [lookup]) := by
  have hindex := candidateIndex_eq hnodup hrecord
  simp only [relevantRecords, hevidence, Option.map_some, Option.getD_some, hindex]
  conv_lhs => rw [show before ++ lookup :: after = before ++ [lookup] ++ after by simp]
  rw [dmarcRecords_append, List.filter_append, List.filter_eq_self.mpr, List.filter_eq_nil_iff.mpr,
    List.append_nil]
  · intro other hother
    obtain ⟨first, found, rest, rfl, hfound⟩ := exists_split_of_mem_dmarcRecords hother
    have hwhole : before ++ [lookup] ++ (first ++ found :: rest) =
        (before ++ lookup :: first) ++ found :: rest := by simp
    rw [hwhole, candidateIndex_eq (by rw [← hwhole]; simpa using hnodup) hfound]
    simp
  · intro other hother
    obtain ⟨first, found, rest, hsplit, hfound⟩ := exists_split_of_mem_dmarcRecords hother
    have hwhole : before ++ [lookup] ++ after = first ++ found :: (rest ++ after) := by
      rw [hsplit]
      simp
    have hlength : first.length + (rest.length + 1) = before.length + 1 := by
      simpa using (congrArg List.length hsplit).symm
    rw [hwhole, candidateIndex_eq (by rw [← hwhole]; simpa using hnodup) hfound]
    simp only [decide_eq_true_eq]
    omega

theorem relevantRecords_of_unbounded
    (hnodup : (lookups.map (·.candidate)).Nodup)
    (hevidence : organizationalEvidence startingDomain lookups = none) :
    relevantRecords startingDomain lookups = dmarcRecords lookups := by
  simp only [relevantRecords, hevidence, Option.map_none, Option.getD_none]
  refine List.filter_eq_self.mpr fun other hother => ?_
  obtain ⟨first, found, rest, rfl, hfound⟩ := exists_split_of_mem_dmarcRecords hother
  rw [candidateIndex_eq hnodup hfound]
  simp

theorem selectPolicy_own {rest : List DmarcLookup}
    (hnodup : ((lookup :: rest).map (·.candidate)).Nodup)
    (hstart : lookup.candidate = startingDomain) (hrecord : lookup.policyRecord? = some record) :
    selectPolicy startingDomain (lookup :: rest) = some record := by
  have hdomain : record.domain = startingDomain := (policyRecord?_domain hrecord).trans hstart
  have hfirst : ∀ some, dmarcRecords (lookup :: some) = record :: dmarcRecords some := fun some =>
    List.filterMap_cons_some hrecord
  have hrelevant : ∃ others, relevantRecords startingDomain (lookup :: rest) = record :: others := by
    cases hevidence : organizationalEvidence startingDomain (lookup :: rest) with
    | none => exact ⟨_, (relevantRecords_of_unbounded hnodup hevidence).trans (hfirst rest)⟩
    | some boundary =>
        obtain ⟨before, found, after, hsplit, hfound, -⟩ :=
          organizationalEvidence_eq_some_iff.mp hevidence
        rw [hsplit] at hnodup hevidence ⊢
        rw [relevantRecords_of_boundary hnodup hfound hevidence]
        cases before with
        | nil =>
            obtain ⟨rfl, -⟩ := List.cons.inj hsplit
            exact ⟨_, hfirst []⟩
        | cons head before =>
            obtain ⟨rfl, -⟩ := List.cons.inj hsplit
            exact ⟨_, hfirst (before ++ [found])⟩
  obtain ⟨others, hothers⟩ := hrelevant
  simp [selectPolicy, hothers, hdomain]

theorem selectPolicy_boundary_congr {after' : List DmarcLookup}
    (hnodup : ((before ++ lookup :: after).map (·.candidate)).Nodup)
    (hnodup' : ((before ++ lookup :: after').map (·.candidate)).Nodup)
    (hrecord : lookup.policyRecord? = some record)
    (hboundary : isBoundary startingDomain record = true)
    (hbefore : Unbounded startingDomain before) :
    selectPolicy startingDomain (before ++ lookup :: after') =
      selectPolicy startingDomain (before ++ lookup :: after) := by
  have hevidence := organizationalEvidence_eq_some_iff.mpr
    ⟨before, lookup, after, rfl, hrecord, hboundary, hbefore⟩
  have hevidence' := organizationalEvidence_eq_some_iff.mpr
    ⟨before, lookup, after', rfl, hrecord, hboundary, hbefore⟩
  simp only [selectPolicy, relevantRecords_of_boundary hnodup hrecord hevidence,
    relevantRecords_of_boundary hnodup' hrecord hevidence', organizationalDomain, hevidence,
    hevidence']

/-- No lookup of the domain itself gave a record. -/
def NoOwnRecord (startingDomain : Text) (lookups : List DmarcLookup) : Prop :=
  ∀ lookup ∈ lookups, lookup.candidate = startingDomain → lookup.policyRecord? = none

theorem NoOwnRecord.find? (h : NoOwnRecord startingDomain lookups) :
    (dmarcRecords lookups).find? (·.domain = startingDomain) = none := by
  refine List.find?_eq_none.mpr fun other hother => ?_
  obtain ⟨found, hfound, hrecord⟩ := mem_dmarcRecords.mp hother
  simp only [decide_eq_true_eq]
  intro hdomain
  rw [policyRecord?_domain hrecord] at hdomain
  simp [h found hfound hdomain] at hrecord

/-- With neither a record of its own nor a boundary a domain has the last record. -/
theorem selectPolicy_of_unbounded (hnodup : (lookups.map (·.candidate)).Nodup)
    (hunbounded : Unbounded startingDomain lookups) (hown : NoOwnRecord startingDomain lookups) :
    selectPolicy startingDomain lookups = (dmarcRecords lookups).getLast? := by
  have hevidence := organizationalEvidence_eq_none_iff.mpr hunbounded
  simp only [selectPolicy, relevantRecords_of_unbounded hnodup hevidence, hown.find?,
    organizationalDomain, hevidence, Option.orElse_eq_orElse,
    Option.orElse_eq_or, Option.none_or]
  cases hlast : (dmarcRecords lookups).getLast? with
  | none => simp [List.getLast?_eq_none_iff.mp hlast]
  | some record =>
      rw [Option.map_some, Option.getD_some,
        find?_domain hnodup (List.mem_of_getLast? hlast)]
      rfl

/-- With a boundary it is the record of the organization, or the boundary. -/
theorem selectPolicy_of_boundary (hnodup : ((before ++ lookup :: after).map (·.candidate)).Nodup)
    (hrecord : lookup.policyRecord? = some record)
    (hboundary : isBoundary startingDomain record = true)
    (hbefore : Unbounded startingDomain before)
    (hown : NoOwnRecord startingDomain (before ++ [lookup])) :
    selectPolicy startingDomain (before ++ lookup :: after) = some record ∨
      ∃ policy ∈ dmarcRecords before, policy.domain = childDomainBelow startingDomain record.domain ∧
        selectPolicy startingDomain (before ++ lookup :: after) = some policy := by
  have hevidence := organizationalEvidence_eq_some_iff.mpr
    ⟨before, lookup, after, rfl, hrecord, hboundary, hbefore⟩
  have hnodup' : ((before ++ [lookup]).map (·.candidate)).Nodup := by
    refine hnodup.sublist (List.Sublist.map _ ?_)
    exact List.Sublist.append_left (List.singleton_sublist.mpr List.mem_cons_self) before
  have hrecords := dmarcRecords_concat before hrecord
  simp only [selectPolicy, relevantRecords_of_boundary hnodup hrecord hevidence, hown.find?,
    organizationalDomain, hevidence, Option.orElse_eq_orElse,
    Option.orElse_eq_or, Option.none_or]
  by_cases hpsd : record.psd = "n"
  · rw [if_pos hpsd, find?_domain hnodup' (by simp [hrecords])]
    exact .inl rfl
  · rw [if_neg hpsd]
    cases hfound : (dmarcRecords (before ++ [lookup])).find?
        (·.domain = childDomainBelow startingDomain record.domain) with
    | none =>
        rw [hrecords, List.getLast?_concat]
        exact .inl rfl
    | some policy =>
        have hdomain : policy.domain = childDomainBelow startingDomain record.domain := by
          simpa using List.find?_some hfound
        have hmem := List.mem_of_find?_eq_some hfound
        rw [hrecords, List.mem_append, List.mem_singleton] at hmem
        rcases hmem with hmem | rfl
        · exact .inr ⟨policy, hmem, hdomain, rfl⟩
        · exact .inl rfl

end Selection

/-! ## What the flags cover -/

/-- The last record found is selected for want of a better one, and a lookup
above it failed. -/
structure Overlooks [CaseMapping] (startingDomain : Text) (before : List DmarcLookup)
    (lookup : DmarcLookup) (after : List DmarcLookup) : Prop where
  found : ∃ record, lookup.policyRecord? = some record
  last : ∀ other ∈ after, other.policyRecord? = none
  answered : ∀ other ∈ before, other.failed = false
  failed : ∃ other ∈ after, other.failed = true
  own : NoOwnRecord startingDomain (before ++ [lookup])
  unbounded : Unbounded startingDomain (before ++ [lookup])

def Overlooked [CaseMapping] (startingDomain : Text) (lookups : List DmarcLookup) : Prop :=
  ∃ before lookup after, lookups = before ++ lookup :: after ∧
    Overlooks startingDomain before lookup after

section Flags

variable [CaseMapping] [LawfulCaseMapping] {labels : List Text} {domain : Text}
  {answers : Text → DnsAnswer Text} {zone : Text → List Text} {record : DmarcPolicyRecord}

omit [CaseMapping] [LawfulCaseMapping] in
theorem eq_dmarcLookup_of_mem {lookup : DmarcLookup} (h : lookup ∈ walkLookups answers labels) :
    lookup = dmarcLookup answers lookup.candidate := by
  obtain ⟨i, -, rfl⟩ := List.mem_map.mp h
  rfl

omit [LawfulCaseMapping] in
theorem not_failed_of_mem {lookup : DmarcLookup} (h : lookup ∈ walkLookups answers labels)
    (hrecord : lookup.policyRecord? = some record) : lookup.failed = false := by
  rw [eq_dmarcLookup_of_mem h] at hrecord ⊢
  exact not_failed_of_policyRecord? hrecord

theorem discoverDmarcPolicy_eq (h : LowerLabels labels)
    (hdomain : normalizeDomain domain = joinLabels labels) :
    (discoverDmarcPolicy domain answers).policy =
        selectPolicy (joinLabels labels) (walkLookups answers labels) ∧
      (discoverDmarcPolicy domain answers).organizationalDomain =
        organizationalDomain (joinLabels labels) (walkLookups answers labels) := by
  simp only [discoverDmarcPolicy, hdomain, map_dmarcTreeWalkDomains h, and_self]

/-- Without the flag of the policy every lookup below it was answered. -/
theorem answered_of_not_indeterminate (h : LowerLabels labels)
    (hdomain : normalizeDomain domain = joinLabels labels)
    (hflag : (discoverDmarcPolicy domain answers).indeterminate = false)
    {before after : List DmarcLookup} {lookup : DmarcLookup}
    (hwalk : walkLookups answers labels = before ++ lookup :: after)
    (hrecord : lookup.policyRecord? = some record)
    (hpolicy : selectPolicy (joinLabels labels) (walkLookups answers labels) = some record) :
    ∀ other ∈ before, other.failed = false := by
  intro other hother
  have hindex := candidateIndex_eq (hwalk ▸ nodup_candidates _ h) hrecord
  rw [hwalk] at hpolicy
  simp only [discoverDmarcPolicy, hdomain, map_dmarcTreeWalkDomains h, hwalk, hpolicy,
    Option.elim_some, hindex, List.take_left, List.any_eq_false] at hflag
  simpa using hflag other hother

theorem answered_of_no_policy (h : LowerLabels labels)
    (hdomain : normalizeDomain domain = joinLabels labels)
    (hflag : (discoverDmarcPolicy domain answers).indeterminate = false)
    (hpolicy : selectPolicy (joinLabels labels) (walkLookups answers labels) = none) :
    ∀ other ∈ walkLookups answers labels, other.failed = false := by
  intro other hother
  simp only [discoverDmarcPolicy, hdomain, map_dmarcTreeWalkDomains h, hpolicy, Option.elim_none,
    List.take_length, List.any_eq_false] at hflag
  simpa using hflag other hother

/-- Without its flag the organizational domain is that of every completion. -/
theorem organizationalDomain_of_completes (h : LowerLabels labels)
    (hdomain : normalizeDomain domain = joinLabels labels) (hzone : Completes zone answers)
    (hflag : (discoverDmarcPolicy domain answers).organizationalDomainIndeterminate = false) :
    organizationalDomain (joinLabels labels) (walkLookups (fun name => .ok (zone name)) labels) =
      organizationalDomain (joinLabels labels) (walkLookups answers labels) := by
  simp only [discoverDmarcPolicy, hdomain, map_dmarcTreeWalkDomains h] at hflag
  cases hevidence : organizationalEvidence (joinLabels labels) (walkLookups answers labels) with
  | none =>
      rw [hevidence] at hflag
      simp only [Option.map_none, Option.getD_none, List.take_length, List.any_eq_false] at hflag
      rw [walkLookups_eq_of_completes hzone fun other hother => by simpa using hflag other hother]
  | some record =>
      obtain ⟨before, lookup, after, hwalk, hrecord, hboundary, hbefore⟩ :=
        organizationalEvidence_eq_some_iff.mp hevidence
      have hindex := candidateIndex_eq (hwalk ▸ nodup_candidates _ h) hrecord
      rw [hevidence] at hflag
      simp only [Option.map_some, Option.getD_some, hwalk, hindex, List.take_left,
        List.any_eq_false] at hflag
      have hanswered : ∀ other ∈ before ++ [lookup], other.failed = false := by
        intro other hother
        rcases List.mem_append.mp hother with hother | hother
        · simpa using hflag other hother
        · rw [List.mem_singleton.mp hother]
          exact not_failed_of_mem (by rw [hwalk]; simp) hrecord
      obtain ⟨after', hwalk'⟩ := walkLookups_of_completes hzone
        (hwalk.trans (List.append_cons before lookup after)) hanswered
      have hevidence' := organizationalEvidence_eq_some_iff.mpr
        ⟨before, lookup, after', hwalk'.trans (List.append_cons before lookup after').symm, hrecord,
          hboundary, hbefore⟩
      simp only [organizationalDomain, hevidence, hevidence']

theorem eq_nil_of_child {before between after : List DmarcLookup} {child lookup : DmarcLookup}
    (h : LowerLabels labels)
    (hwalk : walkLookups answers labels = before ++ child :: (between ++ lookup :: after))
    (hchild : child.candidate = childDomainBelow (joinLabels labels) lookup.candidate) :
    between = [] := by
  obtain ⟨first, rest, hindices, -, hrest⟩ := List.map_eq_append_iff.mp hwalk
  obtain ⟨i, tail, rfl, rfl, htail⟩ := List.map_eq_cons_iff.mp hrest
  obtain ⟨inner, others, rfl, rfl, hothers⟩ := List.map_eq_append_iff.mp htail
  obtain ⟨j, later, rfl, rfl, -⟩ := List.map_eq_cons_iff.mp hothers
  have hi := (mem_walkIndices.mp (show i ∈ walkIndices labels.length by simp [hindices])).1
  have hj := (mem_walkIndices.mp (show j ∈ walkIndices labels.length by simp [hindices])).1
  have hij : i = j - 1 := by
    refine (ancestor_inj h hi (by omega)).mp ?_
    rw [← childDomainBelow_ancestor h hj]
    exact hchild
  have hsorted := pairwise_walkIndices labels.length
  rw [hindices, List.pairwise_append] at hsorted
  obtain ⟨hbelow, hsorted⟩ := List.pairwise_cons.mp hsorted.2.1
  -- an index between `i` and its successor does not exist
  cases inner with
  | nil => rfl
  | cons k inner =>
      have hik := hbelow k (by simp)
      have hkj := (List.pairwise_cons.mp hsorted).1 j (by simp)
      omega

omit [LawfulCaseMapping] in
theorem selectPolicy_of_ownRecord (h : LowerLabels labels)
    (hown : (dmarcLookup answers (joinLabels labels)).policyRecord? = some record) :
    selectPolicy (joinLabels labels) (walkLookups answers labels) = some record := by
  obtain ⟨rest, hstart, -⟩ := exists_walkLookups_cons answers h
  have hnodup := nodup_candidates answers h
  rw [hstart] at hnodup ⊢
  exact selectPolicy_own hnodup rfl hown

omit [LawfulCaseMapping] in
theorem noOwnRecord_walkLookups
    (hown : (dmarcLookup answers (joinLabels labels)).policyRecord? = none) :
    NoOwnRecord (joinLabels labels) (walkLookups answers labels) := by
  intro lookup hlookup hcandidate
  rw [eq_dmarcLookup_of_mem hlookup, hcandidate, hown]

/-- Without the flag of the policy every lookup below a boundary was answered. -/
theorem answered_below_boundary (h : LowerLabels labels)
    (hdomain : normalizeDomain domain = joinLabels labels)
    (hflag : (discoverDmarcPolicy domain answers).indeterminate = false)
    (hown : (dmarcLookup answers (joinLabels labels)).policyRecord? = none)
    {before after : List DmarcLookup} {lookup : DmarcLookup}
    (hwalk : walkLookups answers labels = before ++ lookup :: after)
    (hrecord : lookup.policyRecord? = some record)
    (hboundary : isBoundary (joinLabels labels) record = true)
    (hbefore : Unbounded (joinLabels labels) before) :
    ∀ other ∈ before, other.failed = false := by
  have hnodup := nodup_candidates answers h
  have hnoOwn := noOwnRecord_walkLookups hown
  have hselected := selectPolicy_of_boundary (hwalk ▸ hnodup) hrecord hboundary hbefore
    fun other hother => hnoOwn other (by
      rw [hwalk, List.append_cons]
      exact List.mem_append_left _ hother)
  rw [← hwalk] at hselected
  rcases hselected with hpolicy | ⟨policy, hmem, hpolicyDomain, hpolicy⟩
  · exact answered_of_not_indeterminate h hdomain hflag hwalk hrecord hpolicy
  · -- the record of the organization is the one just below the boundary
    obtain ⟨first, child, between, rfl, hchild⟩ := exists_split_of_mem_dmarcRecords hmem
    have hwalk' : walkLookups answers labels =
        first ++ child :: (between ++ lookup :: after) := by simpa using hwalk
    obtain rfl : between = [] := by
      refine eq_nil_of_child h hwalk' ?_
      rw [← policyRecord?_domain hchild, hpolicyDomain, policyRecord?_domain hrecord]
    intro other hother
    rcases List.mem_append.mp hother with hother | hother
    · exact answered_of_not_indeterminate h hdomain hflag hwalk' hchild hpolicy other hother
    · rw [List.mem_singleton.mp hother]
      exact not_failed_of_mem (by rw [hwalk']; simp) hchild

omit [LawfulCaseMapping] in
theorem selectPolicy_of_completes_of_boundary (h : LowerLabels labels)
    (hzone : Completes zone answers) {before after : List DmarcLookup} {lookup : DmarcLookup}
    (hwalk : walkLookups answers labels = before ++ lookup :: after)
    (hrecord : lookup.policyRecord? = some record)
    (hboundary : isBoundary (joinLabels labels) record = true)
    (hbefore : Unbounded (joinLabels labels) before)
    (hanswered : ∀ other ∈ before, other.failed = false) :
    selectPolicy (joinLabels labels) (walkLookups (fun name => .ok (zone name)) labels) =
      selectPolicy (joinLabels labels) (walkLookups answers labels) := by
  have hkept : ∀ other ∈ before ++ [lookup], other.failed = false := by
    intro other hother
    rcases List.mem_append.mp hother with hother | hother
    · exact hanswered other hother
    · rw [List.mem_singleton.mp hother]
      exact not_failed_of_mem (by rw [hwalk]; simp) hrecord
  obtain ⟨after', hwalk'⟩ := walkLookups_of_completes hzone
    (hwalk.trans (List.append_cons before lookup after)) hkept
  rw [← List.append_cons] at hwalk'
  have hnodup := nodup_candidates answers h
  have hnodup' := nodup_candidates (fun name => .ok (zone name)) h
  rw [hwalk] at hnodup ⊢
  rw [hwalk'] at hnodup' ⊢
  exact selectPolicy_boundary_congr hnodup hnodup' hrecord hboundary hbefore

/-- Unless a failure is overlooked, the policy without its flag is that of every
completion. -/
theorem selectPolicy_of_completes (h : LowerLabels labels)
    (hdomain : normalizeDomain domain = joinLabels labels) (hzone : Completes zone answers)
    (hnot : ¬Overlooked (joinLabels labels) (walkLookups answers labels))
    (hflag : (discoverDmarcPolicy domain answers).indeterminate = false) :
    selectPolicy (joinLabels labels) (walkLookups (fun name => .ok (zone name)) labels) =
      selectPolicy (joinLabels labels) (walkLookups answers labels) := by
  cases hown : (dmarcLookup answers (joinLabels labels)).policyRecord? with
  | some own =>
      have hkept := dmarcLookup_of_completes hzone (not_failed_of_policyRecord? hown)
      rw [selectPolicy_of_ownRecord h hown, selectPolicy_of_ownRecord h (hkept ▸ hown)]
  | none =>
      cases hevidence : organizationalEvidence (joinLabels labels) (walkLookups answers labels) with
      | some record =>
          obtain ⟨before, lookup, after, hwalk, hrecord, hboundary, hbefore⟩ :=
            organizationalEvidence_eq_some_iff.mp hevidence
          exact selectPolicy_of_completes_of_boundary h hzone hwalk hrecord hboundary hbefore
            (answered_below_boundary h hdomain hflag hown hwalk hrecord hboundary hbefore)
      | none =>
          have hunbounded := organizationalEvidence_eq_none_iff.mp hevidence
          have hnoOwn := noOwnRecord_walkLookups hown
          have hlast := selectPolicy_of_unbounded (nodup_candidates _ h) hunbounded hnoOwn
          rw [walkLookups_eq_of_completes hzone]
          cases hpolicy : selectPolicy (joinLabels labels) (walkLookups answers labels) with
          | none => exact answered_of_no_policy h hdomain hflag hpolicy
          | some policy =>
              rw [hpolicy] at hlast
              obtain ⟨before, lookup, after, hwalk, hrecord, hafter⟩ :=
                getLast?_dmarcRecords.mp hlast.symm
              have hanswered :=
                answered_of_not_indeterminate h hdomain hflag hwalk hrecord hpolicy
              have hincl : ∀ other ∈ before ++ [lookup], other ∈ walkLookups answers labels := by
                intro other hother
                rw [hwalk, List.append_cons]
                exact List.mem_append_left _ hother
              intro other hother
              rw [hwalk, List.mem_append, List.mem_cons] at hother
              rcases hother with hother | rfl | hother
              · exact hanswered other hother
              · exact not_failed_of_mem (hincl _ (by simp)) hrecord
              · -- a failure above the last record is an overlooked one
                by_contra hfailed
                exact hnot ⟨before, lookup, after, hwalk, ⟨policy, hrecord⟩, hafter, hanswered,
                  ⟨other, hother, by simpa using hfailed⟩,
                  fun l hl => hnoOwn l (hincl l hl), fun l hl => hunbounded l (hincl l hl)⟩

/-! ## What a failure can hide -/

/-- A policy without a word on the boundary of the organization. -/
def plainPolicy : Text := "v=DMARC1; p=none"

def plainTags : Tags := [("v", "dmarc1"), ("p", "none")]

theorem validDmarcPolicyRecord_plainPolicy :
    validDmarcPolicyRecord plainPolicy = some plainTags := by
  have hlower : ∀ t : Text, (∀ unit ∈ t, unit < 128) →
      CaseMapping.toLowerCase t = t.map asciiLower := LawfulCaseMapping.ascii
  have hversion : parseTag true [] ("v=DMARC1" : Text) =
      some [(("v" : Text), ("dmarc1" : Text))] := by
    have hat : ("v=DMARC1" : Text).idxOf? 61 = some 1 := by decide
    have hkey : Text.trim (("v=DMARC1" : Text).take 1) = ("v" : Text) := by decide
    have hvalue : Text.trim (("v=DMARC1" : Text).drop 2) = ("DMARC1" : Text) := by decide
    simp only [parseTag, hat, hkey, hvalue, hlower ("v" : Text) (ascii_of_all (by decide)),
      hlower ("DMARC1" : Text) (ascii_of_all (by decide))]
    decide
  have hpolicy : parseTag true [(("v" : Text), ("dmarc1" : Text))] (" p=none" : Text) =
      some plainTags := by
    have hat : (" p=none" : Text).idxOf? 61 = some 2 := by decide
    have hkey : Text.trim ((" p=none" : Text).take 2) = ("p" : Text) := by decide
    have hvalue : Text.trim ((" p=none" : Text).drop 3) = ("none" : Text) := by decide
    simp only [parseTag, hat, hkey, hvalue, hlower ("p" : Text) (ascii_of_all (by decide)),
      hlower ("none" : Text) (ascii_of_all (by decide))]
    decide
  have hitems : plainPolicy.splitOn 59 = [("v=DMARC1" : Text), " p=none"] := by decide
  have hfilled : Text.trim ("v=DMARC1" : Text) ≠ [] ∧ Text.trim (" p=none" : Text) ≠ [] := by
    decide
  have htags : parseDmarcTags plainPolicy = some plainTags := by
    simp only [parseDmarcTags, parseTagRecord, hitems, List.zipIdx_cons, List.zipIdx_nil,
      List.foldlM_cons, List.foldlM_nil, if_neg hfilled.1, if_neg hfilled.2, hversion]
    simp [hpolicy]
  have hcandidate : isDmarcCandidateRecord plainPolicy = true := by decide
  simp only [validDmarcPolicyRecord, hcandidate, htags]
  decide

/-- The zone in which only one of the failed lookups would have found a policy. -/
def hiddenPolicy (answers : Text → DnsAnswer Text) (candidate name : Text) : List Text :=
  if name = dmarcName candidate then [plainPolicy] else (answers name).toOption.getD []

omit [CaseMapping] [LawfulCaseMapping] in
theorem completes_hiddenPolicy {candidate : Text}
    (hfailed : (dmarcLookup answers candidate).failed = true) :
    Completes (hiddenPolicy answers candidate) answers := by
  intro name values hanswer
  obtain ⟨error, herror⟩ := failed_dmarcLookup.mp hfailed
  have hother : name ≠ dmarcName candidate := by
    rintro rfl
    rw [herror] at hanswer
    cases hanswer
  simp [hiddenPolicy, hother, hanswer, Except.toOption]

theorem policyRecord?_hiddenPolicy (answers : Text → DnsAnswer Text) (candidate : Text) :
    ∃ record : DmarcPolicyRecord, record.psd = ("u" : Text) ∧
      (dmarcLookup (fun name => .ok (hiddenPolicy answers candidate name)) candidate).policyRecord? =
        some record := by
  refine ⟨⟨candidate, dmarcName candidate, plainPolicy, plainTags⟩,
    show (plainTags.get "psd").getD "u" = ("u" : Text) by decide, ?_⟩
  have hcandidate : [plainPolicy].filter isDmarcCandidateRecord = [plainPolicy] := by decide
  simp [DmarcLookup.policyRecord?, DmarcLookup.candidateRecords, dmarcLookup,
    resolveDnsObservation, hiddenPolicy, hcandidate, validDmarcPolicyRecord_plainPolicy]

omit [LawfulCaseMapping] in
theorem policyRecord?_hiddenPolicy_of_ne {candidate other : Text} (hne : other ≠ candidate) :
    (dmarcLookup (fun name => .ok (hiddenPolicy answers candidate name)) other).policyRecord? =
      (dmarcLookup answers other).policyRecord? := by
  have hname : dmarcName other ≠ dmarcName candidate := fun heq =>
    hne (List.append_cancel_left heq)
  cases hanswer : answers (dmarcName other) with
  | ok values =>
      simp [dmarcLookup, hiddenPolicy, hname, hanswer, Except.toOption]
  | error error =>
      simp [DmarcLookup.policyRecord?, DmarcLookup.candidateRecords, dmarcLookup,
        resolveDnsObservation, hiddenPolicy, hname, hanswer, Except.toOption]

omit [LawfulCaseMapping] in
/-- Where a failure is overlooked there is neither a boundary nor a record of the
domain itself in the whole walk. -/
theorem Overlooks.whole {startingDomain : Text} {before after : List DmarcLookup}
    {lookup : DmarcLookup} (h : Overlooks startingDomain before lookup after) :
    Unbounded startingDomain (before ++ lookup :: after) ∧
      NoOwnRecord startingDomain (before ++ lookup :: after) := by
  rw [List.append_cons]
  constructor
  · intro other hother found hfound
    rcases List.mem_append.mp hother with hother | hother
    · exact h.unbounded other hother found hfound
    · simp [h.last other hother] at hfound
  · intro other hother hstart
    exact (List.mem_append.mp hother).elim (fun hother => h.own other hother hstart) (h.last other)

theorem Overlooks.not_indeterminate (hlabels : LowerLabels labels)
    (hdomain : normalizeDomain domain = joinLabels labels) {before after : List DmarcLookup}
    {lookup : DmarcLookup} (hwalk : walkLookups answers labels = before ++ lookup :: after)
    (h : Overlooks (joinLabels labels) before lookup after)
    (hselected : selectPolicy (joinLabels labels) (before ++ lookup :: after) = some record)
    (hrecord : lookup.policyRecord? = some record) :
    (discoverDmarcPolicy domain answers).indeterminate = false := by
  have hindex := candidateIndex_eq (hwalk ▸ nodup_candidates answers hlabels) hrecord
  simp only [discoverDmarcPolicy, hdomain, map_dmarcTreeWalkDomains hlabels, hwalk, hselected,
    Option.elim_some, hindex, List.take_left, List.any_eq_false]
  intro other hother
  simp [h.answered other hother]

omit [LawfulCaseMapping] in
theorem Overlooks.candidate_ne (hlabels : LowerLabels labels) {before after : List DmarcLookup}
    {lookup other : DmarcLookup} (hwalk : walkLookups answers labels = before ++ lookup :: after)
    (h : Overlooks (joinLabels labels) before lookup after) (hother : other ∈ after)
    (hfailed : other.failed = true) : other.candidate ≠ joinLabels labels := by
  intro hstart
  obtain ⟨rest, hhead, -⟩ := exists_walkLookups_cons answers hlabels
  have hmem : other ∈ walkLookups answers labels := by simp [hwalk, hother]
  have hfirst : other = dmarcLookup answers (joinLabels labels) := by
    rw [eq_dmarcLookup_of_mem hmem, hstart]
  rw [hhead, ← hfirst] at hwalk
  cases before with
  | nil =>
      obtain ⟨rfl, -⟩ := List.cons.inj hwalk
      obtain ⟨record, hrecord⟩ := h.found
      simp [h.last other hother] at hrecord
  | cons first before =>
      obtain ⟨rfl, -⟩ := List.cons.inj hwalk
      simp [h.answered other List.mem_cons_self] at hfailed

theorem selectPolicy_hiddenPolicy (hlabels : LowerLabels labels)
    {before first second : List DmarcLookup} {lookup other : DmarcLookup}
    (hwalk : walkLookups answers labels = before ++ lookup :: (first ++ other :: second))
    (h : Overlooks (joinLabels labels) before lookup (first ++ other :: second))
    (hfailed : other.failed = true) :
    ∃ hidden, hidden.domain = other.candidate ∧
      selectPolicy (joinLabels labels) (walkLookups
        (fun name => .ok (hiddenPolicy answers other.candidate name)) labels) = some hidden := by
  let completed (l : DmarcLookup) :=
    dmarcLookup (fun name => .ok (hiddenPolicy answers other.candidate name)) l.candidate
  have hwalk' : walkLookups (fun name => .ok (hiddenPolicy answers other.candidate name)) labels =
      (walkLookups answers labels).map completed := by
    rw [walkLookups, walkLookups, List.map_map]
    rfl
  obtain ⟨hunbounded, hown⟩ := h.whole
  rw [← hwalk] at hunbounded hown
  have hnodup := nodup_candidates answers hlabels
  have hother : other ∈ walkLookups answers labels := by simp [hwalk]
  -- only the hidden record is new
  have hsame : ∀ l ∈ walkLookups answers labels, l ≠ other →
      (completed l).policyRecord? = l.policyRecord? := by
    intro l hl hne
    rw [eq_dmarcLookup_of_mem hl]
    exact policyRecord?_hiddenPolicy_of_ne fun heq =>
      hne (List.inj_on_of_nodup_map hnodup hl hother heq)
  obtain ⟨hidden, hpsd, hhidden⟩ := policyRecord?_hiddenPolicy answers other.candidate
  refine ⟨hidden, (policyRecord?_domain hhidden).trans rfl, ?_⟩
  rw [selectPolicy_of_unbounded (nodup_candidates _ hlabels), getLast?_dmarcRecords]
  · refine ⟨(before ++ lookup :: first).map completed, completed other, second.map completed,
      by simp [hwalk', hwalk], hhidden, ?_⟩
    intro l' hl'
    obtain ⟨l, hl, rfl⟩ := List.mem_map.mp hl'
    have hne : l ≠ other := by
      rintro rfl
      rw [hwalk] at hnodup
      simp only [List.map_append, List.map_cons, List.nodup_append, List.nodup_cons] at hnodup
      exact hnodup.2.1.2.2.1.1 (List.mem_map_of_mem hl)
    rw [hsame l (by simp [hwalk, hl]) hne, h.last l (by simp [hl])]
  · intro l' hl' found hfound
    rw [hwalk'] at hl'
    obtain ⟨l, hl, rfl⟩ := List.mem_map.mp hl'
    by_cases hne : l = other
    · subst hne
      obtain rfl := Option.some.inj (hhidden.symm.trans hfound)
      have hneither : ("u" : Text) ≠ "n" ∧ ("u" : Text) ≠ "y" := by decide
      simp [isBoundary, hpsd, hneither]
    · exact hunbounded l hl found (hsame l hl hne ▸ hfound)
  · intro l' hl' hstart
    rw [hwalk'] at hl'
    obtain ⟨l, hl, rfl⟩ := List.mem_map.mp hl'
    by_cases hne : l = other
    · subst hne
      have hne : l.candidate ≠ joinLabels labels :=
        h.candidate_ne hlabels hwalk (by simp) hfailed
      exact absurd hstart hne
    · rw [hsame l hl hne]
      exact hown l hl hstart

/-- No flag says that an overlooked failure could have given another policy. -/
theorem exists_changed_of_overlooked (h : LowerLabels labels)
    (hdomain : normalizeDomain domain = joinLabels labels)
    (hoverlooked : Overlooked (joinLabels labels) (walkLookups answers labels)) :
    (discoverDmarcPolicy domain answers).indeterminate = false ∧
      ∃ zone, Completes zone answers ∧
        selectPolicy (joinLabels labels) (walkLookups (fun name => .ok (zone name)) labels) ≠
          selectPolicy (joinLabels labels) (walkLookups answers labels) := by
  obtain ⟨before, lookup, after, hwalk, hoverlooks⟩ := hoverlooked
  obtain ⟨record, hrecord⟩ := hoverlooks.found
  obtain ⟨other, hother, hfailed⟩ := hoverlooks.failed
  have hnodup := nodup_candidates answers h
  obtain ⟨hunbounded, hown⟩ := hoverlooks.whole
  have hselected : selectPolicy (joinLabels labels) (before ++ lookup :: after) = some record := by
    rw [selectPolicy_of_unbounded (hwalk ▸ hnodup) hunbounded hown]
    exact getLast?_dmarcRecords.mpr ⟨before, lookup, after, rfl, hrecord, hoverlooks.last⟩
  refine ⟨hoverlooks.not_indeterminate h hdomain hwalk hselected hrecord,
    hiddenPolicy answers other.candidate, ?_, ?_⟩
  · have hmem : other ∈ walkLookups answers labels := by simp [hwalk, hother]
    exact completes_hiddenPolicy (eq_dmarcLookup_of_mem hmem ▸ hfailed)
  · obtain ⟨first, second, rfl⟩ := List.append_of_mem hother
    obtain ⟨hidden, hhidden, hselected'⟩ :=
      selectPolicy_hiddenPolicy h hwalk hoverlooks hfailed
    rw [hselected', hwalk, hselected]
    intro heq
    obtain rfl := Option.some.inj heq
    rw [policyRecord?_domain hrecord] at hhidden
    obtain rfl := List.inj_on_of_nodup_map hnodup (by simp [hwalk]) (by simp [hwalk]) hhidden
    simp [hoverlooks.last lookup hother] at hrecord

/-- The flag of the policy says when it could be another one, and so does that of
the organizational domain. -/
def FlagsCover (domain : Text) (answers : Text → DnsAnswer Text) : Prop :=
  let found := discoverDmarcPolicy domain answers
  (found.indeterminate = false → ∀ zone, Completes zone answers →
      (discoverDmarcPolicy domain fun name => .ok (zone name)).policy = found.policy) ∧
    (found.organizationalDomainIndeterminate = false → ∀ zone, Completes zone answers →
      (discoverDmarcPolicy domain fun name => .ok (zone name)).organizationalDomain =
        found.organizationalDomain)

def discoveryLookups (domain : Text) (answers : Text → DnsAnswer Text) : List DmarcLookup :=
  (dmarcTreeWalkDomains (normalizeDomain domain)).map (dmarcLookup answers)

/-- The flags cover every failed lookup but those above the last record found,
where it was selected for want of a boundary and of a record of its own. -/
theorem flagsCover_iff (h : IsDomain domain) :
    FlagsCover domain answers ↔
      ¬Overlooked (normalizeDomain domain) (discoveryLookups domain answers) := by
  obtain ⟨labels, hlabels, hdomain⟩ := exists_labels_of_isDomain h
  rw [discoveryLookups, hdomain, map_dmarcTreeWalkDomains hlabels]
  constructor
  · intro hcover hoverlooked
    obtain ⟨hflag, zone, hzone, hchanged⟩ :=
      exists_changed_of_overlooked hlabels hdomain hoverlooked
    refine hchanged ?_
    have hsame := hcover.1 hflag zone hzone
    rwa [(discoverDmarcPolicy_eq hlabels hdomain).1, (discoverDmarcPolicy_eq hlabels hdomain).1]
      at hsame
  · intro hnot
    refine ⟨fun hflag zone hzone => ?_, fun hflag zone hzone => ?_⟩
    · rw [(discoverDmarcPolicy_eq hlabels hdomain).1, (discoverDmarcPolicy_eq hlabels hdomain).1]
      exact selectPolicy_of_completes hlabels hdomain hzone hnot hflag
    · rw [(discoverDmarcPolicy_eq hlabels hdomain).2, (discoverDmarcPolicy_eq hlabels hdomain).2]
      exact organizationalDomain_of_completes hlabels hdomain hzone hflag

end Flags

/-- The answers while a top-level domain does not answer. -/
def unansweredTop (name : Text) : DnsAnswer Text :=
  if name = ("_dmarc.example.com" : Text) then .ok [plainPolicy]
  else if name = ("_dmarc.com" : Text) then .error "queryTxt ETIMEOUT _dmarc.com"
  else .ok []

/-- The policy of `example.com` is reported as certain, though a policy of `com`
would be reported in its place. -/
theorem unansweredTop_overlooked :
    letI := asciiCaseMapping
    ¬FlagsCover "a.example.com" unansweredTop := by
  let _ := asciiCaseMapping
  intro hcover
  have hflag : (discoverDmarcPolicy "a.example.com" unansweredTop).indeterminate = false := by
    decide +kernel
  have hsame := hcover.1 hflag (hiddenPolicy unansweredTop "com")
    (completes_hiddenPolicy (by decide +kernel))
  exact absurd (congrArg (Option.map (·.domain)) hsame) (by decide +kernel)

/-- With an answer of the top-level domain the flags cover everything. -/
theorem flagsCover_iff_answered :
    letI := asciiCaseMapping
    let answers (name : Text) : DnsAnswer Text := (unansweredTop name).toOption.elim (.ok []) .ok
    FlagsCover "a.example.com" answers ↔
      ¬Overlooked (normalizeDomain "a.example.com") (discoveryLookups "a.example.com" answers) := by
  let _ := asciiCaseMapping
  have := lawful_asciiCaseMapping
  exact flagsCover_iff
    ⟨["a", "example", "com"], asciiLabels_of_all (by decide) (by decide), .inl (by decide)⟩

end ListmonkOps.Provider
