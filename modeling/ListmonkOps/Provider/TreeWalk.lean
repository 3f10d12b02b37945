/-
The organizational domain of a domain.

The names the discovery asks for are the tails of the labels of a domain, of
which a long domain leaves some out. The organizational domain it finds is one
of these tails, and it is its own organizational domain: a walk that starts
there meets the record that decided the first walk.
-/

import Mathlib.Data.List.Range
import ListmonkOps.Provider.Dmarc

namespace ListmonkOps.Provider

open ListmonkOps.Runtime

/-! ## The names of a walk -/

/-- How many labels the walk leaves out for each of its names. -/
def walkIndices (n : ℕ) : List ℕ :=
  if n ≤ 8 then List.range n else 0 :: (List.range 7).map (n - 7 + ·)

theorem mem_walkIndices {n i : ℕ} : i ∈ walkIndices n ↔ i < n ∧ (i = 0 ∨ n ≤ i + 7) := by
  rw [walkIndices]
  split_ifs with hn
  · rw [List.mem_range]
    omega
  · simp only [List.mem_cons, List.mem_map, List.mem_range]
    constructor
    · rintro (rfl | ⟨k, hk, rfl⟩) <;> omega
    · rintro ⟨hi, rfl | hle⟩
      · exact .inl rfl
      · exact .inr ⟨i - (n - 7), by omega, by omega⟩

theorem pairwise_walkIndices (n : ℕ) : (walkIndices n).Pairwise (· < ·) := by
  rw [walkIndices]
  split_ifs with hn
  · exact List.pairwise_lt_range
  · rw [List.pairwise_cons, List.pairwise_map]
    refine ⟨?_, List.pairwise_lt_range.imp fun h => by omega⟩
    intro i hi
    obtain ⟨k, -, rfl⟩ := List.mem_map.mp hi
    omega

theorem walkIndices_succ (n : ℕ) : ∃ rest, walkIndices (n + 1) = 0 :: rest := by
  rw [walkIndices]
  split_ifs
  · exact ⟨_, List.range_succ_eq_map⟩
  · exact ⟨_, rfl⟩

/-- The name that leaves out the first labels. -/
def ancestor (labels : List Text) (i : ℕ) : Text := joinLabels (labels.drop i)

theorem ancestor_drop (labels : List Text) (i j : ℕ) :
    ancestor (labels.drop i) j = ancestor labels (i + j) := by
  rw [ancestor, ancestor, List.drop_drop]

section Walk

variable [CaseMapping] [LawfulCaseMapping] {labels : List Text} {i j : ℕ}

omit [CaseMapping] [LawfulCaseMapping] in
theorem ancestor_inj (h : LowerLabels labels) (hi : i < labels.length) (hj : j < labels.length) :
    ancestor labels i = ancestor labels j ↔ i = j := by
  rw [ancestor, ancestor, joinLabels_inj (h.drop hi).toAsciiLabels (h.drop hj).toAsciiLabels]
  refine ⟨fun heq => ?_, fun heq => by rw [heq]⟩
  have hlength := congrArg List.length heq
  rw [List.length_drop, List.length_drop] at hlength
  omega

theorem labelsOf_ancestor (h : LowerLabels labels) (hi : i < labels.length) :
    labelsOf (normalizeDomain (ancestor labels i)) = labels.drop i := by
  rw [ancestor, normalizeDomain_joinLabels (h.drop hi), labelsOf_joinLabels (h.drop hi).toAsciiLabels]

omit [CaseMapping] [LawfulCaseMapping] in
theorem length_pos (h : LowerLabels labels) : 0 < labels.length :=
  List.length_pos_iff.mpr h.nonempty

theorem dmarcTreeWalkDomains_eq (h : LowerLabels labels) :
    dmarcTreeWalkDomains (joinLabels labels) = (walkIndices labels.length).map (ancestor labels) := by
  have hlabels : labelsOf (normalizeDomain (joinLabels labels)) = labels :=
    labelsOf_ancestor h (length_pos h)
  rw [dmarcTreeWalkDomains, hlabels, walkIndices]
  by_cases hn : labels.length ≤ 8
  · rw [if_pos (show labels.length ≤ maxDmarcTreeWalkQueries from hn), if_pos hn]
    rfl
  · rw [if_neg (show ¬labels.length ≤ maxDmarcTreeWalkQueries from hn), if_neg hn, List.map_cons,
      List.map_map]
    have hlength : (labels.drop (labels.length - (maxDmarcTreeWalkQueries - 1))).length = 7 := by
      rw [List.length_drop, maxDmarcTreeWalkQueries]
      omega
    dsimp only
    rw [hlength]
    rfl

theorem childDomainBelow_ancestor (h : LowerLabels labels) (hi : i < labels.length) :
    childDomainBelow (joinLabels labels) (ancestor labels i) = ancestor labels (i - 1) := by
  have hlabels : labelsOf (normalizeDomain (joinLabels labels)) = labels :=
    labelsOf_ancestor h (length_pos h)
  rw [childDomainBelow, hlabels, labelsOf_ancestor h hi, List.length_drop]
  split_ifs with hle
  · obtain rfl : i = 0 := by omega
    rfl
  · rw [ancestor, show labels.length - (labels.length - i) - 1 = i - 1 by omega]

end Walk

/-! ## Records of a walk -/

section Records

variable [CaseMapping] {startingDomain : Text} {lookups : List DmarcLookup}
  {record : DmarcPolicyRecord}

theorem policyRecord?_domain {lookup : DmarcLookup} (h : lookup.policyRecord? = some record) :
    record.domain = lookup.candidate := by
  rw [DmarcLookup.policyRecord?] at h
  split at h
  · obtain ⟨tags, -, rfl⟩ := Option.map_eq_some_iff.mp h
    rfl
  · cases h

def Unbounded (startingDomain : Text) (lookups : List DmarcLookup) : Prop :=
  ∀ lookup ∈ lookups, ∀ record, lookup.policyRecord? = some record →
    isBoundary startingDomain record = false

theorem organizationalEvidence_eq_none_iff :
    organizationalEvidence startingDomain lookups = none ↔ Unbounded startingDomain lookups := by
  rw [organizationalEvidence, List.find?_eq_none, Unbounded, dmarcRecords]
  simp only [List.mem_filterMap, forall_exists_index, and_imp, Bool.not_eq_true]
  exact ⟨fun h lookup hlookup record hrecord => h record lookup hlookup hrecord,
    fun h record lookup hlookup hrecord => h lookup hlookup record hrecord⟩

theorem organizationalEvidence_eq_some_iff :
    organizationalEvidence startingDomain lookups = some record ↔
      ∃ before lookup after, lookups = before ++ lookup :: after ∧
        lookup.policyRecord? = some record ∧ isBoundary startingDomain record = true ∧
        Unbounded startingDomain before := by
  rw [organizationalEvidence, List.find?_eq_some_iff_append, dmarcRecords]
  constructor
  · rintro ⟨hboundary, earlier, later, hsplit, hearlier⟩
    obtain ⟨before, rest, rfl, rfl, hrest⟩ := List.filterMap_eq_append_iff.mp hsplit
    obtain ⟨skipped, lookup, after, rfl, hskipped, hlookup, -⟩ := List.filterMap_eq_cons_iff.mp hrest
    refine ⟨before ++ skipped, lookup, after, by simp, hlookup, hboundary, ?_⟩
    intro other hother record' hrecord'
    rcases List.mem_append.mp hother with hother | hother
    · simpa using hearlier record' (List.mem_filterMap.mpr ⟨other, hother, hrecord'⟩)
    · rw [hskipped other hother] at hrecord'
      cases hrecord'
  · rintro ⟨before, lookup, after, rfl, hlookup, hboundary, hbefore⟩
    refine ⟨hboundary, before.filterMap (·.policyRecord?), after.filterMap (·.policyRecord?), ?_, ?_⟩
    · rw [List.filterMap_append, List.filterMap_cons_some hlookup]
    · intro record' hrecord'
      obtain ⟨other, hother, hrecord'⟩ := List.mem_filterMap.mp hrecord'
      simp [hbefore other hother record' hrecord']

theorem getLast?_dmarcRecords :
    (dmarcRecords lookups).getLast? = some record ↔
      ∃ before lookup after, lookups = before ++ lookup :: after ∧
        lookup.policyRecord? = some record ∧ ∀ other ∈ after, other.policyRecord? = none := by
  rw [dmarcRecords, List.getLast?_eq_some_iff]
  constructor
  · rintro ⟨earlier, hsplit⟩
    obtain ⟨before, rest, rfl, rfl, hrest⟩ := List.filterMap_eq_append_iff.mp hsplit
    obtain ⟨skipped, lookup, after, rfl, -, hlookup, hafter⟩ := List.filterMap_eq_cons_iff.mp hrest
    exact ⟨before ++ skipped, lookup, after, by simp, hlookup,
      List.filterMap_eq_nil_iff.mp hafter⟩
  · rintro ⟨before, lookup, after, rfl, hlookup, hafter⟩
    refine ⟨before.filterMap (·.policyRecord?), ?_⟩
    rw [List.filterMap_append, List.filterMap_cons_some hlookup,
      List.filterMap_eq_nil_iff.mpr hafter]

end Records

/-! ## The organizational domain -/

section Organization

variable [CaseMapping] [LawfulCaseMapping] {labels : List Text} {txt : Text → DnsAnswer Text}
  {record : DmarcPolicyRecord}

def walkLookups (txt : Text → DnsAnswer Text) (labels : List Text) : List DmarcLookup :=
  (walkIndices labels.length).map fun i => dmarcLookup txt (ancestor labels i)

theorem map_dmarcTreeWalkDomains (h : LowerLabels labels) :
    (dmarcTreeWalkDomains (joinLabels labels)).map (dmarcLookup txt) = walkLookups txt labels := by
  rw [dmarcTreeWalkDomains_eq h, List.map_map]
  rfl

/-- The organizational domain of a name of labels. -/
def organizationOf (txt : Text → DnsAnswer Text) (labels : List Text) : Text :=
  organizationalDomain (joinLabels labels) (walkLookups txt labels)

omit [CaseMapping] [LawfulCaseMapping] in
theorem exists_of_walkLookups_eq {before after : List DmarcLookup} {lookup : DmarcLookup}
    (h : walkLookups txt labels = before ++ lookup :: after) :
    ∃ j, j ∈ walkIndices labels.length ∧ lookup = dmarcLookup txt (ancestor labels j) ∧
      ∀ i ∈ walkIndices labels.length, j < i → dmarcLookup txt (ancestor labels i) ∈ after := by
  obtain ⟨indices, rest, hsplit, -, hrest⟩ := List.map_eq_append_iff.mp h
  obtain ⟨j, later, rfl, rfl, rfl⟩ := List.map_eq_cons_iff.mp hrest
  have hsorted := pairwise_walkIndices labels.length
  rw [hsplit, List.pairwise_append] at hsorted
  refine ⟨j, by simp [hsplit], rfl, fun i hi hij => ?_⟩
  rw [hsplit, List.mem_append, List.mem_cons] at hi
  rcases hi with hi | rfl | hi
  · exact absurd (hsorted.2.2 i hi j List.mem_cons_self) (by omega)
  · exact absurd hij (lt_irrefl i)
  · exact List.mem_map_of_mem hi

omit [CaseMapping] [LawfulCaseMapping] in
theorem exists_walkLookups_cons (txt : Text → DnsAnswer Text) (h : LowerLabels labels) :
    ∃ rest, walkLookups txt labels = dmarcLookup txt (joinLabels labels) :: rest ∧
      ∀ lookup ∈ rest, ∃ i ∈ walkIndices labels.length, 0 < i ∧
        lookup = dmarcLookup txt (ancestor labels i) := by
  have hsorted := pairwise_walkIndices labels.length
  obtain ⟨n, hn⟩ := Nat.exists_eq_add_of_lt (length_pos h)
  obtain ⟨rest, hrest⟩ := walkIndices_succ n
  rw [show labels.length = n + 1 by omega, hrest, List.pairwise_cons] at hsorted
  rw [walkLookups, show labels.length = n + 1 by omega, hrest]
  refine ⟨_, rfl, fun lookup hlookup => ?_⟩
  obtain ⟨i, hi, rfl⟩ := List.mem_map.mp hlookup
  exact ⟨i, List.mem_cons_of_mem _ hi, hsorted.1 i hi, rfl⟩

omit [CaseMapping] [LawfulCaseMapping] in
theorem isBoundary_self (hdomain : record.domain = joinLabels labels) :
    isBoundary (joinLabels labels) record = decide (record.psd = "n") := by
  simp [isBoundary, hdomain]

omit [LawfulCaseMapping] in
/-- A name whose own record has `psd=n` is its own organization. -/
theorem organizationOf_self (h : LowerLabels labels)
    (hrecord : (dmarcLookup txt (joinLabels labels)).policyRecord? = some record)
    (hpsd : record.psd = "n") : organizationOf txt labels = joinLabels labels := by
  obtain ⟨rest, hwalk, -⟩ := exists_walkLookups_cons txt h
  have hdomain := policyRecord?_domain hrecord
  have hevidence : organizationalEvidence (joinLabels labels) (walkLookups txt labels) =
      some record :=
    organizationalEvidence_eq_some_iff.mpr ⟨[], _, rest, hwalk, hrecord, by
      simp [isBoundary, hpsd], by simp [Unbounded]⟩
  simp only [organizationOf, organizationalDomain, hevidence, hpsd, if_true]
  exact hdomain

theorem organizationOf_belowSuffix (h : LowerLabels labels) (hlength : 2 ≤ labels.length)
    (hshort : labels.length ≤ 8)
    (hrecord : (dmarcLookup txt (ancestor labels 1)).policyRecord? = some record)
    (hpsd : record.psd = "y") : organizationOf txt labels = joinLabels labels := by
  by_cases hself : ∃ own, (dmarcLookup txt (joinLabels labels)).policyRecord? = some own ∧
      own.psd = "n"
  · obtain ⟨own, hown, hpsd⟩ := hself
    exact organizationOf_self h hown hpsd
  obtain ⟨n, hn⟩ := Nat.exists_eq_add_of_le' hlength
  have hwalk : walkLookups txt labels = [dmarcLookup txt (joinLabels labels)] ++
      dmarcLookup txt (ancestor labels 1) ::
        (List.range n).map fun i => dmarcLookup txt (ancestor labels (i + 2)) := by
    rw [walkLookups, walkIndices, if_pos hshort, hn, List.range_succ_eq_map, List.range_succ_eq_map]
    simp [ancestor, Function.comp_def]
  have hother : record.domain ≠ joinLabels labels := by
    rw [policyRecord?_domain hrecord]
    intro heq
    have := (ancestor_inj h (i := 1) (j := 0) (by omega) (by omega)).mp heq
    omega
  have hevidence : organizationalEvidence (joinLabels labels) (walkLookups txt labels) =
      some record := by
    refine organizationalEvidence_eq_some_iff.mpr ⟨_, _, _, hwalk, hrecord, ?_, ?_⟩
    · simp [isBoundary, hother, hpsd]
    · intro lookup hlookup own hown
      obtain rfl := List.mem_singleton.mp hlookup
      rw [isBoundary_self (policyRecord?_domain hown)]
      exact decide_eq_false fun hpsd => hself ⟨own, hown, hpsd⟩
  simp only [organizationOf, organizationalDomain, hevidence]
  rw [if_neg (by simp [hpsd]), policyRecord?_domain hrecord]
  exact childDomainBelow_ancestor h (by omega)

/-- The organization of a name is one of its tails, and its own organization. -/
theorem organizationOf_spec (txt : Text → DnsAnswer Text) (h : LowerLabels labels) :
    ∃ m < labels.length, organizationOf txt labels = ancestor labels m ∧
      organizationOf txt (labels.drop m) = ancestor labels m := by
  have hself : organizationOf txt labels = joinLabels labels →
      ∃ m < labels.length, organizationOf txt labels = ancestor labels m ∧
        organizationOf txt (labels.drop m) = ancestor labels m := fun heq =>
    ⟨0, length_pos h, heq, heq⟩
  cases hevidence : organizationalEvidence (joinLabels labels) (walkLookups txt labels) with
  | some record =>
      obtain ⟨before, lookup, after, hwalk, hrecord, hboundary, -⟩ :=
        organizationalEvidence_eq_some_iff.mp hevidence
      obtain ⟨j, hj, rfl, -⟩ := exists_of_walkLookups_eq hwalk
      obtain ⟨hlt, hj⟩ := mem_walkIndices.mp hj
      have hdomain : record.domain = ancestor labels j := policyRecord?_domain hrecord
      by_cases hpsd : record.psd = "n"
      · refine ⟨j, hlt, ?_, organizationOf_self (h.drop hlt) hrecord hpsd⟩
        simp only [organizationOf, organizationalDomain, hevidence, hpsd, if_true]
        exact hdomain
      · -- the boundary is a public suffix above the name
        simp only [isBoundary, hpsd, decide_false, Bool.false_or, Bool.and_eq_true,
          decide_eq_true_eq] at hboundary
        have hpos : 0 < j := by
          rcases Nat.eq_zero_or_pos j with rfl | hpos
          · exact absurd hdomain hboundary.1
          · exact hpos
        refine ⟨j - 1, by omega, ?_, ?_⟩
        · simp only [organizationOf, organizationalDomain, hevidence, hpsd, if_false]
          rw [hdomain]
          exact childDomainBelow_ancestor h hlt
        · have hlength : (labels.drop (j - 1)).length = labels.length - (j - 1) :=
            List.length_drop
          refine organizationOf_belowSuffix (h.drop (by omega)) (by omega) (by omega) ?_ hboundary.2
          rwa [ancestor_drop, show j - 1 + 1 = j by omega]
  | none =>
      have horganization : organizationOf txt labels =
          ((dmarcRecords (walkLookups txt labels)).getLast?.map (·.domain)).getD
            (joinLabels labels) := by
        simp only [organizationOf, organizationalDomain, hevidence]
      cases hlast : (dmarcRecords (walkLookups txt labels)).getLast? with
      | none =>
          rw [hlast] at horganization
          exact hself horganization
      | some record =>
          rw [hlast] at horganization
          obtain ⟨before, lookup, after, hwalk, hrecord, hafter⟩ := getLast?_dmarcRecords.mp hlast
          have hunbounded := organizationalEvidence_eq_none_iff.mp hevidence
          obtain ⟨k, hk, rfl, hlater⟩ := exists_of_walkLookups_eq hwalk
          obtain ⟨hlt, hk⟩ := mem_walkIndices.mp hk
          have hdomain : record.domain = ancestor labels k := policyRecord?_domain hrecord
          have hpsd : record.psd ≠ "n" := by
            intro hpsd
            have hnot := hunbounded _ (by rw [hwalk]; simp) record hrecord
            simp [isBoundary, hpsd] at hnot
          rcases Nat.eq_zero_or_pos k with rfl | hpos
          · exact hself (horganization.trans hdomain)
          refine ⟨k, hlt, horganization.trans hdomain, ?_⟩
          obtain ⟨rest, hwalk', hrest⟩ := exists_walkLookups_cons txt (h.drop hlt)
          -- above the last record the second walk finds nothing either
          have hnothing : ∀ other ∈ rest, other.policyRecord? = none := by
            intro other hother
            obtain ⟨i, hi, hipos, rfl⟩ := hrest other hother
            rw [mem_walkIndices, List.length_drop] at hi
            rw [ancestor_drop]
            exact hafter _ (hlater (k + i) (mem_walkIndices.mpr (by omega)) (by omega))
          have hevidence' : organizationalEvidence (joinLabels (labels.drop k))
              (walkLookups txt (labels.drop k)) = none := by
            refine organizationalEvidence_eq_none_iff.mpr fun other hother record' hrecord' => ?_
            rw [hwalk', List.mem_cons] at hother
            rcases hother with rfl | hother
            · obtain rfl : record = record' := Option.some.inj (hrecord.symm.trans hrecord')
              rw [isBoundary_self hdomain]
              exact decide_eq_false hpsd
            · rw [hnothing other hother] at hrecord'
              cases hrecord'
          have hlast' : (dmarcRecords (walkLookups txt (labels.drop k))).getLast? = some record :=
            getLast?_dmarcRecords.mpr ⟨[], _, rest, hwalk', hrecord, hnothing⟩
          simp only [organizationOf, organizationalDomain, hevidence', hlast', Option.map_some,
            Option.getD_some]
          exact hdomain

theorem isSameOrSubdomain_ancestor (h : LowerLabels labels) {m : ℕ} (hm : m < labels.length)
    {domain : Text} (hdomain : normalizeDomain domain = joinLabels labels) :
    isSameOrSubdomain domain (ancestor labels m) = true := by
  rw [isSameOrSubdomain, hdomain, ancestor, normalizeDomain_joinLabels (h.drop hm)]
  rcases Nat.eq_zero_or_pos m with rfl | hpos
  · simp
  · obtain ⟨k, rfl⟩ := Nat.exists_eq_add_of_le' hpos
    simp [suffix_joinLabels labels hm]

/-- In a zone that answers every lookup a discovery finds an ancestor of the
domain, and finds it again from there. -/
theorem organizationalDomain_wellDefined (zone : Text → List Text) {domain : Text}
    (h : IsDomain domain) :
    let found (d : Text) := (discoverDmarcPolicy d fun name => .ok (zone name)).organizationalDomain
    isSameOrSubdomain domain (found domain) = true ∧ found (found domain) = found domain := by
  obtain ⟨labels, hlabels, hdomain⟩ := exists_labels_of_isDomain h
  have hfound : ∀ {d : Text} {tail : List Text}, LowerLabels tail →
      normalizeDomain d = joinLabels tail →
      (discoverDmarcPolicy d fun name => .ok (zone name)).organizationalDomain =
        organizationOf (fun name => .ok (zone name)) tail := by
    intro d tail htail hd
    simp only [discoverDmarcPolicy, hd, map_dmarcTreeWalkDomains htail, organizationOf]
  obtain ⟨m, hm, horganization, hagain⟩ :=
    organizationOf_spec (fun name => .ok (zone name)) hlabels
  simp only [hfound hlabels hdomain, horganization]
  refine ⟨isSameOrSubdomain_ancestor hlabels hm hdomain, ?_⟩
  exact (hfound (hlabels.drop hm) (normalizeDomain_joinLabels (hlabels.drop hm))).trans hagain

end Organization

/-- A public suffix above the domain: the organization is the domain itself. -/
theorem organizationalDomain_wellDefined_belowSuffix :
    letI := asciiCaseMapping
    let zone (name : Text) : List Text :=
      if name = ("_dmarc.com" : Text) then ["v=DMARC1; p=none; psd=y"] else []
    let found (d : Text) := (discoverDmarcPolicy d fun name => .ok (zone name)).organizationalDomain
    isSameOrSubdomain ("Example.com" : Text) (found "Example.com") = true ∧
      found (found "Example.com") = found "Example.com" := by
  let _ := asciiCaseMapping
  have := lawful_asciiCaseMapping
  exact organizationalDomain_wellDefined _
    ⟨["Example", "com"], asciiLabels_of_all (by decide) (by decide), .inl (by decide)⟩

end ListmonkOps.Provider
