/-
Exactness of the allocation.

The largest-remainder method is followed over exact rationals: for positive
weights none of its invariant errors is reached, the counts add up to the total
and every group gets its quota rounded down or up. A weight that is not positive
is refused before anything is divided.
-/

import Mathlib.Algebra.BigOperators.Fin
import Mathlib.Data.Rat.Floor
import Mathlib.Tactic.FieldSimp
import Mathlib.Tactic.Positivity
import ListmonkOps.Experiment.FilledLists
import ListmonkOps.Math.Apportionment

namespace ListmonkOps.Experiment

open ListmonkOps.Math ListmonkOps.Math.Apportionment ListmonkOps.Runtime

/-- The platform computes with exact rationals, so that what is proved is about the allocation and
not about rounding. -/
structure ExactArithmetic [AssignmentPlatform] : Prop where
  weightSum : ∀ weights, AssignmentPlatform.weightSum weights = weights.sum
  quota : ∀ total weight sum, AssignmentPlatform.quota total weight sum =
    (⌊(total * weight / sum : ℚ)⌋₊, total * weight / sum - ⌊(total * weight / sum : ℚ)⌋₊)
  complement : ∀ percentage, AssignmentPlatform.complement percentage = 100 - percentage

/-- The quota of the group at a position. -/
def idealQuota (total : ℕ) (weights : List ℚ) (index : ℕ) : ℚ :=
  total * weights[index]?.getD 0 / weights.sum

/-- What the largest-remainder method is for: the counts add up to the total, and each is its
ideal share rounded down or up, in keeping with the order of the weights. -/
structure Apportions (total : ℕ) (weights : List ℚ) (counts : List ℕ) : Prop where
  length : counts.length = weights.length
  sum : counts.sum = total
  /-- Every group has the floor or the ceiling of its quota. -/
  rounded : ∀ i < weights.length, counts[i]?.getD 0 = ⌊idealQuota total weights i⌋₊ ∨
    counts[i]?.getD 0 = ⌈idealQuota total weights i⌉₊
  /-- A larger weight never gets fewer. -/
  monotone : ∀ i < weights.length, ∀ j < weights.length,
    weights[i]?.getD 0 < weights[j]?.getD 0 → counts[i]?.getD 0 ≤ counts[j]?.getD 0
  /-- Equal weights differ by at most one, the earlier one first. -/
  ties : ∀ i j, i < j → j < weights.length → weights[i]?.getD 0 = weights[j]?.getD 0 →
    counts[j]?.getD 0 ≤ counts[i]?.getD 0 ∧ counts[i]?.getD 0 ≤ counts[j]?.getD 0 + 1

/-! ## The ranking -/

theorem getElem?_addSeats (served : List ℕ) (counts : List ℕ) (i : ℕ) :
    (served.foldl addSeat counts)[i]? = counts[i]?.map (· + served.count i) := by
  induction served generalizing counts with
  | nil => cases hi : counts[i]? <;> simp [hi]
  | cons index served ih =>
      rw [List.foldl_cons, ih, addSeat, List.getElem?_modify]
      by_cases hindex : index = i
      · subst hindex
        cases counts[index]? <;> simp [Nat.add_comm, Nat.add_left_comm]
      · cases counts[i]? <;> simp [hindex]

theorem perm_remainderRanking (quotas : List (ℕ × ℚ)) :
    (remainderRanking quotas).Perm (List.range quotas.length) := by
  rw [remainderRanking]
  refine (List.mergeSort_perm _ _).map Prod.snd |>.trans ?_
  rw [List.zipIdx_map_snd, List.range_eq_range']

/-- Before a group come those with a larger remainder, and the earlier ones with the same. -/
def Precedes (remainder : ℕ → ℚ) (i j : ℕ) : Prop :=
  remainder j < remainder i ∨ remainder i = remainder j ∧ i ≤ j

theorem pairwise_remainderRanking (quotas : List (ℕ × ℚ)) (remainder : ℕ → ℚ)
    (h : ∀ entry ∈ quotas.zipIdx, entry.1.2 = remainder entry.2) :
    (remainderRanking quotas).Pairwise (Precedes remainder) := by
  rw [remainderRanking, List.pairwise_map]
  have hsorted : (quotas.zipIdx.mergeSort fun a b =>
      b.1.2 < a.1.2 || (b.1.2 = a.1.2 && a.2 ≤ b.2)).Pairwise fun a b =>
        (b.1.2 < a.1.2 || (b.1.2 = a.1.2 && a.2 ≤ b.2) : Bool) := List.pairwise_mergeSort
    (by
      intro a b c hab hbc
      simp only [Bool.or_eq_true, Bool.and_eq_true, decide_eq_true_eq] at *
      rcases hab with hab | ⟨hab, hab'⟩ <;> rcases hbc with hbc | ⟨hbc, hbc'⟩
      · exact .inl (hbc.trans hab)
      · exact .inl (hbc ▸ hab)
      · exact .inl (hab ▸ hbc)
      · exact .inr ⟨hbc.trans hab, hab'.trans hbc'⟩)
    (by
      intro a b
      simp only [Bool.or_eq_true, Bool.and_eq_true, decide_eq_true_eq]
      rcases lt_trichotomy a.1.2 b.1.2 with hlt | heq | hgt
      · exact .inr (.inl hlt)
      · exact (le_total a.2 b.2).imp (fun hle => .inr ⟨heq.symm, hle⟩) fun hle => .inr ⟨heq, hle⟩
      · exact .inl (.inl hgt))
    quotas.zipIdx
  refine hsorted.imp_of_mem fun {a b} ha hb hab => ?_
  rw [List.mem_mergeSort] at ha hb
  simp only [Bool.or_eq_true, Bool.and_eq_true, decide_eq_true_eq] at hab
  rw [Precedes, ← h a ha, ← h b hb]
  exact hab.imp id fun hab => ⟨hab.1.symm, hab.2⟩

/-! ## Positive weights -/

section Exact

variable [AssignmentPlatform] (total : ℕ) {weights : List ℚ}

omit [AssignmentPlatform] in
theorem quotas_idealQuota (hweights : weights ≠ []) (hpositive : ∀ weight ∈ weights, 0 < weight) :
    Quotas (idealQuota total weights) (Finset.range weights.length) total := by
  have hsum : 0 < weights.sum := List.sum_pos weights hpositive hweights
  constructor
  · intro i hi
    have hweight : 0 < weights[i]?.getD 0 := by
      rw [Finset.mem_range] at hi
      rw [List.getElem?_eq_getElem hi]
      exact hpositive _ (List.getElem_mem hi)
    rw [idealQuota]
    positivity
  · calc ∑ i ∈ Finset.range weights.length, idealQuota total weights i
        = total / weights.sum * (weights.map id).sum := by
          rw [← sum_range_getD weights 0 id, Finset.mul_sum]
          exact Finset.sum_congr rfl fun i _ => by rw [idealQuota, id]; ring
      _ = total := by
          rw [List.map_id]
          field_simp

/-- The groups that get one of the seats that are left. -/
def servedGroups (total : ℕ) (weights : List ℚ) : List ℕ :=
  let quotas := weights.map fun weight =>
    AssignmentPlatform.quota total weight (AssignmentPlatform.weightSum weights)
  (remainderRanking quotas).take (total - (quotas.map Prod.fst).sum)

variable (exact : ExactArithmetic)
include exact

theorem sum_base (total : ℕ) (weights : List ℚ) :
    ((weights.map fun weight => AssignmentPlatform.quota total weight
      (AssignmentPlatform.weightSum weights)).map Prod.fst).sum =
    ∑ i ∈ Finset.range weights.length, ⌊idealQuota total weights i⌋₊ := by
  rw [List.map_map, ← sum_range_getD weights 0]
  refine Finset.sum_congr rfl fun i _ => ?_
  rw [Function.comp_apply, exact.quota, exact.weightSum, idealQuota]

theorem serves_servedGroups (hweights : weights ≠ [])
    (hpositive : ∀ weight ∈ weights, 0 < weight) :
    (servedGroups total weights).Nodup ∧
      (servedGroups total weights).length =
        total - ∑ i ∈ Finset.range weights.length, ⌊idealQuota total weights i⌋₊ ∧
      Serves (idealQuota total weights) (Finset.range weights.length)
        (servedGroups total weights).toFinset total ∧
      ∀ i j, i < j → i < weights.length → idealQuota total weights i = idealQuota total weights j →
        j ∈ servedGroups total weights → i ∈ servedGroups total weights := by
  have hquotas := quotas_idealQuota total hweights hpositive
  have hperm := perm_remainderRanking (weights.map fun weight =>
    AssignmentPlatform.quota total weight (AssignmentPlatform.weightSum weights))
  rw [List.length_map] at hperm
  have hranked := pairwise_remainderRanking
    (weights.map fun weight =>
      AssignmentPlatform.quota total weight (AssignmentPlatform.weightSum weights))
    (remainder (idealQuota total weights)) (by
    rintro ⟨entry, i⟩ hentry
    have hi := (List.mem_zipIdx_iff_getElem?.mp hentry)
    rw [List.getElem?_map, Option.map_eq_some_iff] at hi
    obtain ⟨weight, hweight, rfl⟩ := hi
    rw [exact.quota, exact.weightSum, remainder, idealQuota, hweight]
    rfl)
  have hnodup : (servedGroups total weights).Nodup :=
    (hperm.nodup_iff.mpr List.nodup_range).sublist (List.take_sublist _ _)
  have hlength : (servedGroups total weights).length =
      total - ∑ i ∈ Finset.range weights.length, ⌊idealQuota total weights i⌋₊ := by
    rw [servedGroups, List.length_take, hperm.length_eq, List.length_range, sum_base exact]
    refine min_eq_left (hquotas.left_le_card_pos.trans ((Finset.card_filter_le _ _).trans ?_))
    rw [Finset.card_range]
  refine ⟨hnodup, hlength, ⟨?_, ?_, ?_⟩, ?_⟩
  · intro i hi
    rw [List.mem_toFinset] at hi
    rw [Finset.mem_range, ← List.mem_range]
    exact hperm.subset (List.mem_of_mem_take hi)
  · rw [List.toFinset_card_of_nodup hnodup, hlength]
  · intro i hi j hj hserved
    rw [List.mem_toFinset] at hi hserved
    by_contra hlarger
    refine hserved (mem_take_of_pairwise hranked hi ?_ ?_)
    · exact hperm.symm.subset (List.mem_range.mpr (Finset.mem_range.mp hj))
    · rintro (h | h)
      · exact hlarger h.le
      · exact hlarger h.1.ge
  · intro i j hij hi hequal hj
    refine mem_take_of_pairwise hranked hj (hperm.symm.subset (List.mem_range.mpr hi)) ?_
    rintro (h | h)
    · rw [remainder, remainder, hequal] at h
      exact lt_irrefl _ h
    · omega

/-- The counts before they are checked. -/
def allocatedCounts (total : ℕ) (weights : List ℚ) : List ℕ :=
  (servedGroups total weights).foldl addSeat
    ((weights.map fun weight => AssignmentPlatform.quota total weight
      (AssignmentPlatform.weightSum weights)).map Prod.fst)

omit exact in
theorem length_allocatedCounts (total : ℕ) (weights : List ℚ) :
    (allocatedCounts total weights).length = weights.length := by
  rw [allocatedCounts, length_addSeats, List.length_map, List.length_map]

theorem allocatedCounts_getD (hweights : weights ≠ [])
    (hpositive : ∀ weight ∈ weights, 0 < weight) {i : ℕ} (hi : i < weights.length) :
    (allocatedCounts total weights)[i]?.getD 0 =
      seats (idealQuota total weights) (servedGroups total weights).toFinset i := by
  have hnodup := (serves_servedGroups total exact hweights hpositive).1
  rw [allocatedCounts, getElem?_addSeats, List.getElem?_map, List.getElem?_map,
    List.getElem?_eq_getElem hi, seats, idealQuota, List.getElem?_eq_getElem hi]
  simp only [Option.map_some, Option.getD_some, exact.quota, exact.weightSum, List.mem_toFinset,
    hnodup.count]

theorem apportions_allocatedCounts (hweights : weights ≠ [])
    (hpositive : ∀ weight ∈ weights, 0 < weight) :
    Apportions total weights (allocatedCounts total weights) := by
  obtain ⟨-, -, hserves, hties⟩ := serves_servedGroups total exact hweights hpositive
  have hquotas := quotas_idealQuota total hweights hpositive
  have hget {i : ℕ} (hi : i < weights.length) :=
    allocatedCounts_getD total exact hweights hpositive hi
  have hsum : 0 < weights.sum := List.sum_pos weights hpositive hweights
  refine ⟨length_allocatedCounts total weights, ?_, ?_, ?_, ?_⟩
  · have hall := sum_range_getD (allocatedCounts total weights) 0 id
    rw [List.map_id, length_allocatedCounts] at hall
    calc (allocatedCounts total weights).sum
        = ∑ i ∈ Finset.range weights.length,
            seats (idealQuota total weights) (servedGroups total weights).toFinset i := by
          rw [← hall]
          exact Finset.sum_congr rfl fun i hi => hget (Finset.mem_range.mp hi)
      _ = total := hserves.sum_seats hquotas
  · intro i hi
    rw [hget hi]
    exact hserves.seats_eq hquotas
  · intro i hi j hj hlt
    rw [hget hi, hget hj]
    rcases Nat.eq_zero_or_pos total with rfl | htotal
    · -- no seat is given where there is none
      have hzero := hserves.sum_seats hquotas
      rw [Finset.sum_eq_zero_iff] at hzero
      rw [hzero i (Finset.mem_range.mpr hi)]
      exact Nat.zero_le _
    · refine hserves.seats_mono (Finset.mem_range.mpr hj) ?_
      rw [idealQuota, idealQuota]
      have : (0 : ℚ) < total := Nat.cast_pos.mpr htotal
      gcongr
  · intro i j hij hj hequal
    have hi := hij.trans hj
    have hquota : idealQuota total weights i = idealQuota total weights j := by
      rw [idealQuota, idealQuota, hequal]
    rw [hget hi, hget hj, seats, seats, hquota]
    by_cases hserved : j ∈ servedGroups total weights
    · rw [if_pos (List.mem_toFinset.mpr hserved),
        if_pos (List.mem_toFinset.mpr (hties i j hij hi hquota hserved))]
      omega
    · rw [if_neg (mt List.mem_toFinset.mp hserved)]
      split_ifs <;> omega

theorem allocateByLargestRemainder_eq (hweights : weights ≠ [])
    (hpositive : ∀ weight ∈ weights, 0 < weight) :
    ∃ counts, allocateByLargestRemainder total weights = .ok counts ∧
      Apportions total weights counts := by
  have happortions := apportions_allocatedCounts total exact hweights hpositive
  obtain ⟨-, hlength, -⟩ := serves_servedGroups total exact hweights hpositive
  have hquotas := quotas_idealQuota total hweights hpositive
  have hnone : weights.any (· ≤ 0) = false := by
    simpa using hpositive
  refine ⟨allocatedCounts total weights, ?_, happortions⟩
  simp only [allocateByLargestRemainder, if_neg hweights, hnone, Bool.false_eq_true, if_false]
  split_ifs with hzero hbase hserved hsum
  · subst hzero
    -- the counts of an empty total are all zero
    have hall : ∀ count ∈ allocatedCounts 0 weights, count = 0 :=
      List.sum_eq_zero_iff.mp happortions.sum
    rw [List.eq_replicate_of_mem hall, length_allocatedCounts, List.map_const']
  · rw [sum_base exact] at hbase
    exact absurd hquotas.sum_floor_le (not_le.mpr hbase)
  · simp only [servedGroups, sum_base exact] at hlength
    simp only [sum_base exact] at hserved
    exact absurd hlength hserved
  · exact absurd happortions.sum hsum
  · rfl

theorem allocateTestAndHoldout_eq {audienceSize : ℕ} {percentage : ℚ} (hlow : 0 ≤ percentage)
    (hhigh : percentage ≤ 100) :
    ∃ testGroupSize holdoutGroupSize,
      allocateTestAndHoldout audienceSize percentage = .ok (testGroupSize, holdoutGroupSize) ∧
        testGroupSize + holdoutGroupSize = audienceSize := by
  rw [allocateTestAndHoldout, if_neg (by rw [not_or, not_lt, not_lt]; exact ⟨hlow, hhigh⟩)]
  split_ifs with hempty hzero hfull
  · exact ⟨0, 0, rfl, hempty.symm⟩
  · exact ⟨0, audienceSize, rfl, Nat.zero_add _⟩
  · exact ⟨audienceSize, 0, rfl, rfl⟩
  · rw [exact.complement]
    have hpositive : ∀ weight ∈ [percentage, 100 - percentage], 0 < weight := by
      simp only [List.mem_cons, List.not_mem_nil, or_false, forall_eq_or_imp, forall_eq]
      exact ⟨lt_of_le_of_ne hlow (Ne.symm hzero), sub_pos.mpr (lt_of_le_of_ne hhigh hfull)⟩
    obtain ⟨counts, hcounts, happortions⟩ :=
      allocateByLargestRemainder_eq audienceSize exact (by simp) hpositive
    rw [hcounts]
    obtain ⟨test, holdout, rfl⟩ := List.length_eq_two.mp happortions.length
    refine ⟨test, holdout, rfl, ?_⟩
    have hsum := happortions.sum
    simpa using hsum

/-- The allocation is exact for positive weights and refuses all others by an input error;
the two sizes of a test add up to its audience. -/
theorem allocation_exact (total : ℕ) (weights : List ℚ) (audienceSize : ℕ) (percentage : ℚ) :
    (weights ≠ [] → (∀ weight ∈ weights, 0 < weight) →
      ∃ counts, allocateByLargestRemainder total weights = .ok counts ∧
        Apportions total weights counts) ∧
    (weights = [] ∨ (∃ weight ∈ weights, weight ≤ 0) →
      ∃ message, allocateByLargestRemainder total weights =
        .error (.error "AllocationInputError" message [])) ∧
    (0 ≤ percentage → percentage ≤ 100 →
      ∃ testGroupSize holdoutGroupSize,
        allocateTestAndHoldout audienceSize percentage = .ok (testGroupSize, holdoutGroupSize) ∧
          testGroupSize + holdoutGroupSize = audienceSize) := by
  refine ⟨allocateByLargestRemainder_eq total exact, ?_, allocateTestAndHoldout_eq exact⟩
  intro hrefused
  rw [allocateByLargestRemainder]
  by_cases hweights : weights = []
  · exact ⟨_, if_pos hweights⟩
  · obtain ⟨weight, hmem, hweight⟩ := hrefused.resolve_left hweights
    have hany : weights.any (· ≤ 0) = true := List.any_eq_true.mpr ⟨weight, hmem, by simpa⟩
    rw [if_neg hweights, if_pos hany]
    exact ⟨_, rfl⟩

end Exact

/-! ## A platform that computes exactly -/

section Sample

/-- Exact quotas, with a hash function and a rendering of numbers. -/
@[reducible]
def exactPlatform (sha256 : Text → Text) (numberText : ℚ → Text) : AssignmentPlatform where
  sha256
  weightSum := List.sum
  quota total weight sum :=
    (⌊(total * weight / sum : ℚ)⌋₊, total * weight / sum - ⌊(total * weight / sum : ℚ)⌋₊)
  complement percentage := 100 - percentage
  numberText

theorem exactArithmetic_exactPlatform (sha256 : Text → Text) (numberText : ℚ → Text) :
    @ExactArithmetic (exactPlatform sha256 numberText) :=
  @ExactArithmetic.mk (exactPlatform sha256 numberText) (fun _ => rfl) (fun _ _ _ => rfl)
    fun _ => rfl

local instance sampleArithmetic : AssignmentPlatform :=
  exactPlatform samplePlatform.sha256 samplePlatform.numberText

/-- Seven seats for three groups, and an audience of ten split in three to seven. -/
theorem allocation_exact_sample :
    (∃ counts, allocateByLargestRemainder 7 [1, 1, 2] = .ok counts ∧
      Apportions 7 [1, 1, 2] counts) ∧
    ∃ testGroupSize holdoutGroupSize,
      allocateTestAndHoldout 10 30 = .ok (testGroupSize, holdoutGroupSize) ∧
        testGroupSize + holdoutGroupSize = 10 := by
  obtain ⟨hpositive, -, hsplit⟩ := allocation_exact
    (exactArithmetic_exactPlatform samplePlatform.sha256 samplePlatform.numberText)
    7 [1, 1, 2] 10 30
  exact ⟨hpositive (by decide) (by decide), hsplit (by decide) (by decide)⟩

/-- A weight of zero is refused, though the weights have a positive sum. -/
theorem zeroWeight_refused :
    (0 : ℚ) ≤ 0 ∧ (0 : ℚ) ≤ 1 ∧ 0 < ([0, 1] : List ℚ).sum ∧
      allocateByLargestRemainder 1 [0, 1] = .error (.error "AllocationInputError"
        "weights[0] must be a finite positive number, received 0" []) := by
  refine ⟨by decide, by decide, by simp, ?_⟩
  rw [allocateByLargestRemainder, if_neg (by decide), if_pos (by decide)]
  rfl

end Sample

end ListmonkOps.Experiment
