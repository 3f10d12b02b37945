/-
The assignment partitions the audience.

The manifest of a test keeps the sizes and checksums of its groups, not their
members: those are read off the ranked audience, once when the lists of the
groups are filled and again whenever a subscriber is looked up. Both readings
cut the same ranking at the same places, so they agree on every subscriber.
-/

import ListmonkOps.Experiment.Segmentation
import Mathlib.Data.List.SplitLengths

namespace ListmonkOps.Experiment

open ListmonkOps.Math ListmonkOps.Runtime

/-! ## Sorting -/

/-- Sorting by a total order of the elements forgets how they were listed. -/
theorem mergeSort_eq_of_perm {α : Type*} {le : α → α → Bool} {xs ys : List α}
    (trans : ∀ a b c, le a b → le b c → le a c) (total : ∀ a b, le a b || le b a)
    (antisymm : ∀ a ∈ xs, ∀ b ∈ xs, le a b → le b a → a = b) (h : xs.Perm ys) :
    xs.mergeSort le = ys.mergeSort le := by
  refine List.Perm.eq_of_pairwise ?_ (List.pairwise_mergeSort trans total xs)
    (List.pairwise_mergeSort trans total ys)
    ((List.mergeSort_perm xs le).trans (h.trans (List.mergeSort_perm ys le).symm))
  intro a b ha hb
  exact antisymm a (List.mem_mergeSort.mp ha) b (h.mem_iff.mpr (List.mem_mergeSort.mp hb))

/-- Whether one of the members at consecutive positions satisfies a test. -/
theorem any_range' {α : Type*} (xs : List α) (q : α → Bool) (start size : ℕ) :
    ((List.range' start size).any fun position => xs[position]?.any q) =
      ((xs.drop start).take size).any q := by
  induction size generalizing start with
  | zero => simp
  | succ size ih =>
      rw [List.range'_succ, List.any_cons, ih]
      by_cases hstart : start < xs.length
      · rw [List.drop_eq_getElem_cons hstart, List.take_succ_cons, List.any_cons,
          List.getElem?_eq_getElem hstart, Option.any_some]
      · rw [List.getElem?_eq_none (by omega), List.drop_eq_nil_of_le (by omega),
          List.drop_eq_nil_of_le (by omega)]
        simp

theorem slices_eq_splitLengths {α : Type} (sizes : List ℕ) (xs : List α) :
    slices sizes xs = sizes.splitLengths xs := by
  induction sizes generalizing xs with
  | nil => rfl
  | cons size sizes ih => rw [slices, List.splitLengths_cons, ih]

theorem slices_nil {α : Type} (sizes : List ℕ) :
    slices sizes ([] : List α) = sizes.map fun _ => [] := by
  induction sizes with
  | nil => rfl
  | cons size sizes ih => rw [slices, List.take_nil, List.drop_nil, ih, List.map_cons]

theorem mem_of_mem_slices {α : Type} {sizes : List ℕ} {xs group : List α} {x : α}
    (hgroup : group ∈ slices sizes xs) (h : x ∈ group) : x ∈ xs := by
  induction sizes generalizing xs with
  | nil => cases hgroup
  | cons size sizes ih =>
      rcases List.mem_cons.mp hgroup with rfl | hgroup
      · exact List.mem_of_mem_take h
      · exact List.mem_of_mem_drop (ih hgroup)

theorem slices_concat {α : Type} (sizes : List ℕ) (size : ℕ) (xs : List α) :
    slices (sizes ++ [size]) xs = slices sizes xs ++ [(xs.drop sizes.sum).take size] := by
  induction sizes generalizing xs with
  | nil => rfl
  | cons head sizes ih =>
      rw [List.cons_append, slices, ih, List.drop_drop]
      rfl

/-! ## Ranking -/

section Ranking

variable [AssignmentPlatform] {testId seed : Text} {members members' : List AudienceMember}

theorem perm_rankMembers : (rankMembers testId seed members).Perm members :=
  List.mergeSort_perm _ _

theorem rankMembers_eq_of_perm (hdistinct : (members.map (·.subscriberUuid)).Nodup)
    (h : members'.Perm members) :
    rankMembers testId seed members' = rankMembers testId seed members := by
  apply mergeSort_eq_of_perm _ _ _ h
  · intro a b c
    simp only [Bool.or_eq_true, Bool.and_eq_true, decide_eq_true_eq]
    rintro (hab | ⟨hab, huuid⟩) (hbc | ⟨hbc, huuid'⟩)
    · exact .inl (List.lt_trans hab hbc)
    · exact .inl (hbc ▸ hab)
    · exact .inl (hab ▸ hbc)
    · exact .inr ⟨hab.trans hbc, List.le_trans huuid huuid'⟩
  · intro a b
    simp only [Bool.or_eq_true, Bool.and_eq_true, decide_eq_true_eq]
    by_cases hab : assignmentDigest testId seed a.subscriberUuid <
        assignmentDigest testId seed b.subscriberUuid
    · exact .inl (.inl hab)
    · by_cases hba : assignmentDigest testId seed b.subscriberUuid <
          assignmentDigest testId seed a.subscriberUuid
      · exact .inr (.inl hba)
      · have hdigest := List.le_antisymm (List.not_lt.mp hba) (List.not_lt.mp hab)
        rcases List.le_total a.subscriberUuid b.subscriberUuid with hle | hle
        · exact .inl (.inr ⟨hdigest, hle⟩)
        · exact .inr (.inr ⟨hdigest.symm, hle⟩)
  · intro a ha b hb
    simp only [Bool.or_eq_true, Bool.and_eq_true, decide_eq_true_eq]
    rintro (hab | ⟨hab, huuid⟩) (hba | ⟨hba, huuid'⟩)
    · exact absurd hab (List.lt_asymm hba)
    · exact absurd (hba ▸ hab) (List.lt_irrefl _)
    · exact absurd (hab ▸ hba) (List.lt_irrefl _)
    · exact List.inj_on_of_nodup_map hdistinct (h.mem_iff.mp ha) (h.mem_iff.mp hb)
        (List.le_antisymm huuid huuid')

theorem groupChecksum_eq_of_perm {uuids uuids' : List Text} (h : uuids'.Perm uuids) :
    groupChecksum uuids' = groupChecksum uuids := by
  rw [groupChecksum, groupChecksum, mergeSort_eq_of_perm _ _ _ h]
  · intro a b c
    simp only [decide_eq_true_eq]
    exact List.le_trans
  · intro a b
    simp only [Bool.or_eq_true, decide_eq_true_eq]
    exact List.le_total a b
  · intro a _ b _
    simp only [decide_eq_true_eq]
    exact List.le_antisymm

end Ranking

/-! ## The groups of a manifest -/

section Groups

variable [AssignmentPlatform]

/-- The members of the groups, in the order of the groups. -/
def AssignmentManifest.groupMembers (manifest : AssignmentManifest) (testId : Text)
    (members : List AudienceMember) : List (List AudienceMember) :=
  slices (manifest.groups.map (·.expectedCount)) (rankMembers testId manifest.seed members)

/-- The sizes the allocation gives to the groups: one for each variant, then the
holdout. -/
def allocation (audienceSize : ℕ) (variants : List Variant) (testGroupPercentage : ℚ) :
    Except JsValue (List ℕ) := do
  let (testGroupSize, holdoutGroupSize) ←
    allocateTestAndHoldout audienceSize testGroupPercentage
  let variantSizes ← allocateByLargestRemainder testGroupSize (variants.map (·.percentage))
  pure (variantSizes ++ [holdoutGroupSize])

/-- A manifest splits an audience as the allocation says: everybody is in one group, and sizes and
checksums on record are those of the groups. -/
structure Partitions (manifest : AssignmentManifest) (testId : Text)
    (members : List AudienceMember) (variants : List Variant) (testGroupPercentage : ℚ) :
    Prop where
  /-- Every member is in a group, as often as it is in the audience. -/
  covers : (manifest.groupMembers testId members).flatten.Perm members
  /-- No two groups share a member. -/
  disjoint : (manifest.groupMembers testId members).Pairwise List.Disjoint
  /-- One group for each variant, in order, and the holdout. -/
  kinds : manifest.groups.map (·.kind) =
    variants.map (fun variant => .variant variant.id) ++ [.holdout]
  /-- The groups have the sizes of the allocation. -/
  counts : allocation members.length variants testGroupPercentage =
    .ok ((manifest.groupMembers testId members).map List.length)
  /-- These are the sizes on record. -/
  expected : manifest.groups.map (·.expectedCount) =
    (manifest.groupMembers testId members).map List.length
  /-- So are the checksums. -/
  checksums : manifest.groups.map (·.subscriberChecksum) =
    (manifest.groupMembers testId members).map fun group =>
      groupChecksum (group.map (·.subscriberUuid))

variable {testId seed : Text} {members members' : List AudienceMember}
  {variants : List Variant} {percentage : ℚ} {audience : AudienceSnapshot}
  {manifest : AssignmentManifest}

omit [AssignmentPlatform] in
theorem length_addSeats (served : List ℕ) (counts : List ℕ) :
    (served.foldl addSeat counts).length = counts.length := by
  induction served generalizing counts with
  | nil => rfl
  | cons index served ih => rw [List.foldl_cons, ih, addSeat, List.length_modify]

theorem length_allocateByLargestRemainder {total : ℕ} {weights : List ℚ} {counts : List ℕ}
    (h : allocateByLargestRemainder total weights = .ok counts) :
    counts.length = weights.length := by
  simp only [allocateByLargestRemainder] at h
  split_ifs at h
  · obtain rfl := Except.ok.inj h
    exact List.length_map _
  · obtain rfl := Except.ok.inj h
    rw [length_addSeats, List.length_map, List.length_map]

omit [AssignmentPlatform] in
theorem map_zipIdx_getD {α β : Type} {xs : List α} {ys : List β} (h : ys.length = xs.length)
    (d : β) : (xs.zipIdx.map fun entry => ys[entry.2]?.getD d) = ys := by
  refine List.ext_getElem (by simp [h]) fun i hi hi' => ?_
  simp [List.getElem?_eq_getElem hi']

/-- What a manifest was built from: sizes that use the audience up. -/
theorem buildAssignmentManifest_ok
    (h : buildAssignmentManifest testId seed audience members variants percentage =
      .ok manifest) :
    ∃ sizes holdout, allocation members.length variants percentage = .ok (sizes ++ [holdout]) ∧
      sizes.length = variants.length ∧ sizes.sum + holdout = members.length ∧
      manifest.seed = seed ∧
      manifest.audienceChecksum = groupChecksum (members.map (·.subscriberUuid)) ∧
      manifest.groups = (variants.zipIdx.map fun (variant, index) =>
          { kind := .variant variant.id
            expectedCount := sizes[index]?.getD 0
            subscriberChecksum := groupChecksum
              (((slices sizes (rankMembers testId seed members))[index]?.getD []).map
                (·.subscriberUuid)) }) ++
        [{ kind := .holdout
           expectedCount := holdout
           subscriberChecksum := groupChecksum
             (((rankMembers testId seed members).drop sizes.sum).map (·.subscriberUuid)) }] := by
  have hlength : (rankMembers testId seed members).length = members.length :=
    perm_rankMembers.length_eq
  simp only [buildAssignmentManifest] at h
  split at h
  · cases h
  split at h
  · cases h
  rw [hlength] at h
  cases hsplit : allocateTestAndHoldout members.length percentage with
  | error error =>
      rw [hsplit] at h
      cases h
  | ok split =>
      obtain ⟨test, holdout⟩ := split
      rw [hsplit] at h
      cases hsizes : allocateByLargestRemainder test (variants.map (·.percentage)) with
      | error error =>
          simp only [bind, Except.bind, hsizes] at h
          cases h
      | ok sizes =>
          simp only [bind, Except.bind, hsizes] at h
          split_ifs at h with htest htotal hdrift
          cases h
          have hcounts := length_allocateByLargestRemainder hsizes
          rw [List.length_map] at hcounts
          refine ⟨sizes, holdout, ?_, hcounts, ?_, rfl, rfl, rfl⟩
          · simp only [allocation, bind, Except.bind, hsplit, hsizes]
            rfl
          · rw [not_not, List.map_map] at htotal
            rw [← congrArg List.sum (map_zipIdx_getD hcounts 0)]
            exact htotal

/-- The groups are the slices of the ranked audience and the rest of it. -/
theorem groupMembers_of_build
    (h : buildAssignmentManifest testId seed audience members variants percentage =
      .ok manifest) :
    manifest.groups.map (·.expectedCount) =
        (manifest.groupMembers testId members).map List.length ∧
      (manifest.groupMembers testId members).flatten = rankMembers testId seed members ∧
      ∃ sizes, sizes.length = variants.length ∧
        manifest.groups.dropLast.map (·.expectedCount) = sizes ∧
        manifest.groupMembers testId members = slices sizes (rankMembers testId seed members) ++
          [(rankMembers testId seed members).drop sizes.sum] := by
  obtain ⟨sizes, holdout, -, hlength, hsum, hseed, -, hgroups⟩ := buildAssignmentManifest_ok h
  set ranked := rankMembers testId seed members with hranked
  have hperm : ranked.Perm members := perm_rankMembers
  have hcounts : manifest.groups.map (·.expectedCount) = sizes ++ [holdout] := by
    rw [hgroups, List.map_append, List.map_map]
    exact congrArg (· ++ [holdout]) (map_zipIdx_getD hlength 0)
  have hmembers : manifest.groupMembers testId members =
      (sizes ++ [holdout]).splitLengths ranked := by
    rw [AssignmentManifest.groupMembers, hcounts, hseed, slices_eq_splitLengths]
  have hall : (sizes ++ [holdout]).sum = ranked.length := by
    rw [List.sum_append, List.sum_singleton, hsum, hperm.length_eq]
  refine ⟨?_, ?_, sizes, hlength, ?_, ?_⟩
  · rw [hcounts, hmembers, List.map_splitLengths_length _ _ hall.le]
  · rw [hmembers, List.flatten_splitLengths _ _ hall.ge]
  · rw [hgroups, List.dropLast_concat, List.map_map]
    exact map_zipIdx_getD hlength 0
  · have hrest : (ranked.drop sizes.sum).take holdout = ranked.drop sizes.sum :=
      List.take_of_length_le (by rw [List.length_drop, hperm.length_eq]; omega)
    rw [hmembers, ← slices_eq_splitLengths, slices_concat, hrest]

theorem partitions_of_build (hdistinct : (members.map (·.subscriberUuid)).Nodup)
    (h : buildAssignmentManifest testId seed audience members variants percentage =
      .ok manifest) :
    Partitions manifest testId members variants percentage := by
  obtain ⟨hexpected, hflatten, sizes, hsizes, hslices, hmembers⟩ := groupMembers_of_build h
  obtain ⟨sizes', holdout, halloc, hlength, hsum, -, -, hgroups⟩ := buildAssignmentManifest_ok h
  obtain rfl : sizes' = sizes := by
    rw [← hslices, hgroups, List.dropLast_concat, List.map_map]
    exact (map_zipIdx_getD hlength 0).symm
  have hperm : (rankMembers testId seed members).Perm members := perm_rankMembers
  refine ⟨hflatten ▸ hperm, ?_, ?_, ?_, hexpected, ?_⟩
  · have hnodup : (manifest.groupMembers testId members).flatten.Nodup :=
      hflatten ▸ hperm.nodup_iff.mpr hdistinct.of_map
    exact (List.nodup_flatten.mp hnodup).2
  · rw [hgroups, List.map_append, List.map_map]
    congr 1
    calc _ = (variants.zipIdx.map Prod.fst).map fun variant => GroupKind.variant variant.id := by
            rw [List.map_map]
            rfl
      _ = _ := by rw [List.zipIdx_map_fst]
  · rw [halloc, ← hexpected, hgroups, List.map_append, List.map_map]
    exact congrArg (fun sizes => Except.ok (sizes ++ [holdout])) (map_zipIdx_getD hlength 0).symm
  · rw [hmembers, hgroups, List.map_append, List.map_append, List.map_map]
    congr 1
    calc _ = ((variants.zipIdx.map fun entry =>
              (slices sizes' (rankMembers testId seed members))[entry.2]?.getD []).map
                fun group => groupChecksum (group.map (·.subscriberUuid))) := by
            rw [List.map_map]
            rfl
      _ = _ := by
            rw [map_zipIdx_getD]
            rw [slices_eq_splitLengths, List.length_splitLengths, hlength]

theorem buildAssignmentManifest_eq_of_perm (hdistinct : (members.map (·.subscriberUuid)).Nodup)
    (h : members'.Perm members) :
    buildAssignmentManifest testId seed audience members' variants percentage =
      buildAssignmentManifest testId seed audience members variants percentage := by
  rw [buildAssignmentManifest, buildAssignmentManifest, h.length_eq,
    rankMembers_eq_of_perm hdistinct h,
    groupChecksum_eq_of_perm (h.map (·.subscriberUuid))]

/-! ## Looking a subscriber up -/

omit [AssignmentPlatform] in
/-- The first group with the subscriber, among the slices from a position on. -/
theorem groupIndexFrom_eq (ranked : List AudienceMember) (uuid : Text)
    (groups : List AssignmentGroup) (index cursor : ℕ) :
    groupIndexFrom ranked uuid groups index cursor =
      ((slices (groups.map (·.expectedCount)) (ranked.drop cursor)).findIdx?
        fun group => group.any (·.subscriberUuid = uuid)).elim (-1) fun i => ((index + i : ℕ) : ℤ) := by
  induction groups generalizing index cursor with
  | nil => rfl
  | cons group groups ih =>
      rw [groupIndexFrom, any_range', ih, List.map_cons, slices, List.findIdx?_cons, List.drop_drop]
      split
      · rfl
      · cases List.findIdx? _ (slices (groups.map (·.expectedCount))
            (ranked.drop (cursor + group.expectedCount))) with
        | none => rfl
        | some i => simp only [Option.elim_some, Option.map_some]; congr 1; omega

theorem groupIndexForUuid_eq (hdistinct : (members.map (·.subscriberUuid)).Nodup)
    (hchecksum : manifest.audienceChecksum = groupChecksum (members.map (·.subscriberUuid)))
    (h : members'.Perm members) (uuid : Text) :
    groupIndexForUuid manifest testId members' uuid =
      ((manifest.groupMembers testId members).findIdx?
        fun group => group.any (·.subscriberUuid = uuid)).elim (-1) fun i => (i : ℤ) := by
  rw [groupIndexForUuid, rankAndVerifyMembers, groupIndexOfRanked, groupIndexFrom_eq,
    groupChecksum_eq_of_perm (h.map (·.subscriberUuid)), if_neg (not_not.mpr hchecksum.symm),
    rankMembers_eq_of_perm hdistinct h, List.drop_zero]
  simp only [Nat.zero_add]
  rfl

/-- The group of a subscriber of the audience, or none for any other. -/
theorem groupIndexForUuid_eq_iff (hdistinct : (members.map (·.subscriberUuid)).Nodup)
    (hpartitions : Partitions manifest testId members variants percentage)
    (hchecksum : manifest.audienceChecksum = groupChecksum (members.map (·.subscriberUuid)))
    (h : members'.Perm members) (uuid : Text) :
    (∀ i : ℕ, groupIndexForUuid manifest testId members' uuid = i ↔
      ∃ group, (manifest.groupMembers testId members)[i]? = some group ∧
        ∃ member ∈ group, member.subscriberUuid = uuid) ∧
    (groupIndexForUuid manifest testId members' uuid = -1 ↔
      uuid ∉ members.map (·.subscriberUuid)) := by
  rw [groupIndexForUuid_eq hdistinct hchecksum h]
  set groups := manifest.groupMembers testId members
  have hmem : ∀ member : AudienceMember, member ∈ members ↔ ∃ group ∈ groups, member ∈ group := by
    intro member
    rw [← hpartitions.covers.mem_iff, List.mem_flatten]
  cases hfound : groups.findIdx? fun group => group.any (·.subscriberUuid = uuid) with
  | none =>
      have hnone : ∀ group ∈ groups, ∀ member ∈ group, member.subscriberUuid ≠ uuid := by
        simpa using hfound
      refine ⟨fun i => ⟨fun h => ?_, ?_⟩, fun _ hin => ?_, fun _ => rfl⟩
      · simp at h
      · rintro ⟨group, hgroup, member, hmember, huuid⟩
        exact absurd huuid (hnone group (List.mem_of_getElem? hgroup) member hmember)
      · obtain ⟨member, hmember, huuid⟩ := List.mem_map.mp hin
        obtain ⟨group, hgroup, hin⟩ := (hmem member).mp hmember
        exact hnone group hgroup member hin huuid
  | some j =>
      obtain ⟨hj, hany, -⟩ := List.findIdx?_eq_some_iff_getElem.mp hfound
      obtain ⟨found, hfoundIn, huuid⟩ := List.any_eq_true.mp hany
      rw [decide_eq_true_eq] at huuid
      have hfoundMem : found ∈ members := (hmem found).mpr ⟨_, List.getElem_mem hj, hfoundIn⟩
      refine ⟨fun i => ⟨fun h => ?_, ?_⟩, fun h => ?_, fun hout => ?_⟩
      · obtain rfl : j = i := by simpa using h
        exact ⟨_, List.getElem?_eq_getElem hj, found, hfoundIn, huuid⟩
      · rintro ⟨group, hgroup, member, hmember, hsame⟩
        obtain ⟨hi, rfl⟩ := List.getElem?_eq_some_iff.mp hgroup
        -- one member has the UUID, and it is in one group
        obtain rfl : member = found := List.inj_on_of_nodup_map hdistinct
          ((hmem member).mpr ⟨_, List.getElem_mem hi, hmember⟩) hfoundMem (hsame.trans huuid.symm)
        have hdisjoint := List.pairwise_iff_getElem.mp hpartitions.disjoint
        rcases lt_trichotomy i j with hlt | rfl | hlt
        · exact absurd hfoundIn (hdisjoint i j hi hj hlt hmember)
        · rfl
        · exact absurd hmember (hdisjoint j i hj hi hlt hfoundIn)
      · simp at h
      · exact absurd (List.mem_map.mpr ⟨found, hfoundMem, huuid⟩) hout

theorem groupIndexForUuid_of_drift
    (h : groupChecksum (members'.map (·.subscriberUuid)) ≠ manifest.audienceChecksum)
    (uuid : Text) : groupIndexForUuid manifest testId members' uuid = -1 := by
  rw [groupIndexForUuid, rankAndVerifyMembers, if_pos h, groupIndexOfRanked, groupIndexFrom_eq,
    List.drop_nil, slices_nil]
  have hnone : ((manifest.groups.map (·.expectedCount)).map fun _ => ([] : List AudienceMember)).findIdx?
      (fun group => group.any (·.subscriberUuid = uuid)) = none := by
    simp
  rw [hnone]
  rfl

theorem mem_of_groupIndexForUuid {uuid : Text}
    (h : groupIndexForUuid manifest testId members uuid ≠ -1) :
    uuid ∈ members.map (·.subscriberUuid) := by
  rw [groupIndexForUuid, groupIndexOfRanked, groupIndexFrom_eq, List.drop_zero] at h
  cases hfound : List.findIdx? (fun group => group.any (·.subscriberUuid = uuid))
      (slices (manifest.groups.map (·.expectedCount))
        (rankAndVerifyMembers testId manifest members)) with
  | none =>
      rw [hfound] at h
      exact absurd rfl h
  | some i =>
      obtain ⟨hi, hany, -⟩ := List.findIdx?_eq_some_iff_getElem.mp hfound
      obtain ⟨member, hmember, huuid⟩ := List.any_eq_true.mp hany
      have hranked := mem_of_mem_slices (List.getElem_mem hi) hmember
      rw [rankAndVerifyMembers] at hranked
      split at hranked
      · cases hranked
      · exact List.mem_map.mpr ⟨member, perm_rankMembers.mem_iff.mp hranked, by simpa using huuid⟩

theorem get?_groupIndexForUuids (uuids : List Text) (uuid : Text) :
    (groupIndexForUuids manifest testId members uuids).get? uuid =
      if uuid ∈ uuids then some (uuid, groupIndexForUuid manifest testId members uuid)
      else none := by
  have hloop : ∀ table : Table (Prod.fst : Text × ℤ → Text),
      (uuids.foldl (fun result uuid => result.set (uuid, groupIndexOfRanked
        (rankAndVerifyMembers testId manifest members) manifest uuid)) table).get? uuid =
      if uuid ∈ uuids then some (uuid, groupIndexForUuid manifest testId members uuid)
      else table.get? uuid := by
    induction uuids with
    | nil => exact fun table => rfl
    | cons first uuids ih =>
        intro table
        rw [List.foldl_cons, ih]
        by_cases hrest : uuid ∈ uuids
        · rw [if_pos hrest, if_pos (List.mem_cons_of_mem _ hrest)]
        · rw [if_neg hrest]
          by_cases hfirst : uuid = first
          · subst hfirst
            rw [if_pos List.mem_cons_self]
            exact Table.get?_set_self
          · rw [if_neg (by simp [hfirst, hrest])]
            exact Table.get?_set_of_ne hfirst
  exact hloop (Table.empty _)

end Groups


end ListmonkOps.Experiment
