/-
A launch goes through.

The campaigns of a test are scheduled on the server before the record of the test
is finished and shown, so nothing that is computed afterwards may throw. The end of the
test is computed afterwards where the test launches itself with its creation: from the
planned time and the duration, which may lie beyond the dates. The schema of the output
comes last of all, and it wants years of four digits.
-/

import ListmonkOps.Experiment.LaunchWindow
import ListmonkOps.Experiment.ServedIds

namespace ListmonkOps.Experiment

open ListmonkOps.Math ListmonkOps.Runtime
open Fallible (Within within_bind within_lift within_mapM)

/-! ## Phases that move no campaign -/

/-- The call leaves the status of every campaign as it is. -/
def Call.keepsStatus : Call → Bool
  | .campaignUpdateStatus _ _ => false
  | _ => true

/-- Whatever the answers are, no campaign is moved, and what is returned satisfies `Q`. -/
def Quiet {α : Type} (x : Remote α) (Q : α → Prop) : Prop :=
  Within (fun call => call.keepsStatus) x Q fun _ => True

namespace Quiet

variable {α β : Type} {x : Remote α} {Q Q' : α → Prop}

theorem imp (h : Quiet x Q) (returns : ∀ a, Q a → Q' a) : Quiet x Q' :=
  Within.imp h (fun _ => id) returns fun _ => id

theorem bind {f : α → Remote β} {Q : β → Prop} (h : Quiet x fun a => Quiet (f a) Q) :
    Quiet (x >>= f) Q :=
  within_bind.mpr h

theorem pure {a : α} (h : Q a) : Quiet (pure a) Q := h

theorem throw {error : JsValue} : Quiet (throw error : Remote α) Q := trivial

theorem await {call : Call} {Q : JsValue → Prop} (hcall : call.keepsStatus)
    (h : ∀ response, Q response) : Quiet (await call) Q :=
  within_await.mpr ⟨hcall, h, fun _ => trivial⟩

theorem ofExcept {outcome : Except JsValue α} (h : ∀ a, outcome = .ok a → Q a) :
    Quiet (ofExcept outcome) Q :=
  within_ofExcept.mpr ⟨h, fun _ _ => trivial⟩

theorem of_mapM {f : α → Remote β} {xs : List α} (h : ∀ a, Quiet (f a) fun _ => True) :
    Quiet (xs.mapM f) fun _ => True :=
  imp (within_mapM fun a _ => h a) fun _ _ => trivial

end Quiet

theorem quiet_iff {α : Type} {x : Remote α} {Q : α → Prop} :
    Quiet x Q ↔ x.run.Within (fun call => call.keepsStatus) fun outcome =>
      ∀ a, outcome = .ok a → Q a := by
  constructor
  · refine fun h => Program.Within.imp h (fun _ => id) fun outcome hends a hok => ?_
    subst hok
    exact hends
  · refine fun h => Program.Within.imp h (fun _ => id) fun outcome hends => ?_
    cases outcome with
    | ok a => exact hends a rfl
    | error error => trivial

section Calls

variable {members : List AudienceMember} {listId : ℤ} {ids : List ℤ}

theorem resolvePages_quiet {pageSize fuel page emptyPages : ℕ} :
    Quiet (resolvePages pageSize listId fuel page emptyPages members) fun _ => True := by
  induction fuel generalizing page emptyPages members with
  | zero => exact .pure trivial
  | succ fuel ih =>
      refine .bind (.await rfl fun response => .bind (.ofExcept fun subscribers _ => ?_))
      split
      · split
        · exact .pure trivial
        · exact ih
      · refine .bind (.ofExcept fun members' _ => ?_)
        split
        · exact .pure trivial
        · exact ih

theorem resolveLists_quiet {pageSize : ℕ} {listIds : List ℤ} :
    Quiet (resolveLists pageSize listIds members) fun _ => True := by
  induction listIds generalizing members with
  | nil => exact .pure trivial
  | cons listId listIds ih => exact .bind (resolvePages_quiet.imp fun _ _ => ih)

theorem resolveAudience_quiet [AssignmentPlatform] {sourceListIds : List ℤ} {now : ℤ} :
    Quiet (resolveAudience sourceListIds now) fun resolved =>
      resolved.1.sourceListIds = sourceLists sourceListIds := by
  rw [resolveAudience, resolveAudienceBy]
  split
  · exact .throw
  · exact .bind (resolveLists_quiet.imp fun _ _ => .pure rfl)

theorem getTotalSubscribers_quiet [AssignmentPlatform] {listIds : List ℤ} {now : ℤ} :
    Quiet (getTotalSubscribers listIds now) fun _ => True :=
  .bind (resolveAudience_quiet.imp fun _ _ => .pure trivial)

theorem findByTestTag_quiet {call : Text → Call} {kind testId : Text}
    (hcall : ∀ tag, (call tag).keepsStatus) :
    Quiet (findByTestTag call kind testId) fun _ => True :=
  .bind (.await (hcall _) fun _ => .ofExcept fun _ _ => trivial)

theorem deleteBestEffort_keepsStatus {call : ℤ → Call} (hcall : ∀ id, (call id).keepsStatus) :
    (deleteBestEffort call ids).Within (fun call => call.keepsStatus) fun _ => True := by
  refine Program.within_bind.mpr (Program.Within.imp (Program.within_mapM (R := fun _ _ => True)
    fun id _ => Program.within_bind.mpr ⟨hcall id, fun answer => ?_⟩) (fun _ => id) fun _ _ => trivial)
  cases answer with
  | returned response => trivial
  | thrown error => trivial

theorem addSubscribersToListBulk_quiet :
    Quiet (addSubscribersToListBulk ids listId) fun _ => True :=
  .bind ((Quiet.of_mapM fun _ => .bind (.await rfl fun _ => .ofExcept fun _ _ => trivial)).imp
    fun _ _ => .pure trivial)

theorem removeSubscribersFromListBulk_quiet :
    Quiet (removeSubscribersFromListBulk ids listId) fun _ => True :=
  .bind ((Quiet.of_mapM fun _ => .bind (.await rfl fun _ => .ofExcept fun _ _ => trivial)).imp
    fun _ _ => .pure trivial)

theorem reconcileListMembership_quiet :
    Quiet (reconcileListMembership ids listId) fun _ => True :=
  .bind (.await rfl fun _ => .bind (.ofExcept fun _ _ =>
    .bind (removeSubscribersFromListBulk_quiet.imp fun _ _ => addSubscribersToListBulk_quiet)))

theorem createList_quiet {body : ListBody} {context : Text} :
    Quiet (createList body context) fun _ => True :=
  .bind (.await rfl fun _ => .ofExcept fun _ _ => trivial)

theorem ensureList_keepsStatus {adopted : Option ℤ} {body : ListBody} {context : Text}
    {created : List ℤ} :
    (ensureList adopted body context ids created).Within (fun call => call.keepsStatus)
      fun _ => True := by
  cases adopted with
  | some adoptedId =>
      refine Program.within_bind.mpr (Program.Within.imp
        (quiet_iff.mp reconcileListMembership_quiet) (fun _ => id) fun outcome _ => ?_)
      cases outcome with
      | error error => trivial
      | ok done => trivial
  | none =>
      refine Program.within_bind.mpr (Program.Within.imp
        (quiet_iff.mp createList_quiet) (fun _ => id) fun outcome _ => ?_)
      cases outcome with
      | error error => trivial
      | ok listId =>
          refine Program.within_bind.mpr (Program.Within.imp
            (quiet_iff.mp addSubscribersToListBulk_quiet) (fun _ => id) fun outcome _ => ?_)
          cases outcome with
          | error error => trivial
          | ok done => trivial

theorem ensureVariantLists_within {adopted : Text → Option ℤ} {body : Variant → ListBody}
    {context : Variant → Text} {entries : List (Variant × List ℤ)} {created : List ℤ} :
    (ensureVariantLists adopted body context entries created).Within (fun call => call.keepsStatus)
      fun ended => ∀ mappings, ended.2 = .ok mappings →
        mappings.map (·.variantId) = entries.map (·.1.id) := by
  induction entries generalizing created with
  | nil =>
      intro mappings hok
      obtain rfl := Except.ok.inj hok
      rfl
  | cons entry entries ih =>
      refine Program.within_bind.mpr (ensureList_keepsStatus.imp (fun _ => id) fun ended _ => ?_)
      obtain ⟨created, outcome⟩ := ended
      cases outcome with
      | error error => exact nofun
      | ok listId =>
          refine Program.within_bind.mpr (ih.imp (fun _ => id) fun ended hrest => ?_)
          obtain ⟨created, outcome⟩ := ended
          cases outcome with
          | error error => exact nofun
          | ok mappings =>
              intro mappings' hok
              obtain rfl := Except.ok.inj hok
              rw [List.map_cons, List.map_cons, hrest mappings rfl]

theorem orDeleteLists_quiet {α : Type}
    {attempt : Program Call Answer (List ℤ × Except JsValue α)} {Q : α → Prop}
    (h : attempt.Within (fun call => call.keepsStatus) fun ended => ∀ a, ended.2 = .ok a → Q a) :
    Quiet (orDeleteLists attempt) Q := by
  refine .bind (within_lift.mpr (h.imp (fun _ => id) fun ended hok => ?_))
  obtain ⟨created, outcome⟩ := ended
  cases outcome with
  | ok result => exact hok result rfl
  | error error =>
      exact .bind (within_lift.mpr ((deleteBestEffort_keepsStatus fun _ => rfl).imp (fun _ => id)
        fun _ _ => .throw))

end Calls

/-! ## The lists of a segmentation -/

section Segmentation

variable [AssignmentPlatform] {variants : List Variant}

theorem segmentSubscribersForHoldout_quiet {originalLists : List ℤ} {percentage : ℚ}
    {testId seed : Text} {existingLists : List TaggedResource} {now : ℤ}
    (hvariants : (variants.map (·.id)).Nodup) :
    Quiet (segmentSubscribersForHoldout originalLists variants percentage testId seed
        existingLists now)
      fun result => result.testListMappings.map (·.variantId) = variants.map (·.id) ∧
        result.audienceSnapshot.sourceListIds = sourceLists originalLists := by
  refine .bind (resolveAudience_quiet.imp fun resolved hsource => ?_)
  refine .bind (.ofExcept fun manifest hbuilt => .bind (.ofExcept fun adopted _ => ?_))
  obtain ⟨hslices, -⟩ := fills_groupMembers hvariants hbuilt
  refine .bind (Quiet.imp (Q := fun filled : ℤ × List ListMapping =>
    filled.2.map (·.variantId) = variants.map (·.id)) (orDeleteLists_quiet ?_)
      fun _ h => .pure ⟨h, hsource⟩)
  refine Program.within_bind.mpr (ensureList_keepsStatus.imp (fun _ => id) fun ended _ => ?_)
  obtain ⟨created, outcome⟩ := ended
  cases outcome with
  | error error => exact nofun
  | ok holdoutListId =>
      refine Program.within_bind.mpr (ensureVariantLists_within.imp (fun _ => id)
        fun ended hnames => ?_)
      obtain ⟨created, outcome⟩ := ended
      cases outcome with
      | error error => exact nofun
      | ok mappings =>
          intro filled hok
          obtain rfl := Except.ok.inj hok
          rw [hnames mappings rfl, ← congrArg (List.map (·.id)) hslices, List.map_map]
          rfl

theorem segmentSubscribers_quiet {originalLists : List ℤ} {testId : Text}
    {shuffle : List AudienceMember → List AudienceMember} {now : ℤ} :
    Quiet (segmentSubscribers originalLists variants testId shuffle now)
      fun mappings => mappings.map (·.variantId) = variants.map (·.id) := by
  refine .bind (resolveAudience_quiet.imp fun resolved _ => .bind (.ofExcept fun sizes hsizes => ?_))
  have hlength := length_allocateByLargestRemainder hsizes
  rw [List.length_map] at hlength
  refine orDeleteLists_quiet (ensureVariantLists_within.imp (fun _ => id)
    fun ended hnames mappings hok => ?_)
  rw [hnames mappings hok]
  calc _ = ((variants.zip ((slices sizes (shuffle resolved.2)).map fun slice =>
            slice.map (·.subscriberId))).map Prod.fst).map (·.id) := by rw [List.map_map]; rfl
    _ = variants.map (·.id) := by
        rw [List.map_fst_zip]
        rw [List.length_map, slices_eq_splitLengths, List.length_splitLengths, hlength]

end Segmentation

/-! ## A draft on its way -/

/-- A record whose request is still being carried out, by whatever phases have been
written so far. -/
structure Intent (test : AbTest) (config : AbTestConfig) : Prop where
  pendingCreate : test.pendingCreate = some config
  provisionedAt : test.provisionedAt = none
  baseConfig : test.baseConfig = config.baseConfig
  winnerCampaignId : test.winnerCampaignId = none
  minimumTestSampleSize : test.minimumTestSampleSize = none
  durationHours : test.durationHours = none
  startedAt : test.startedAt = none
  endsAt : test.endsAt = none
  variants : test.variants ≠ []
  distinct : (test.variants.map (·.id)).Nodup
  campaigns : ∀ mapping ∈ test.campaignMappings, mapping.variantId ∈ test.variants.map (·.id)
  /-- The lists come after the campaigns, one for each variant. -/
  lists : test.testListMappings ≠ [] → test.campaignMappings ≠ [] ∧
    test.testListMappings.map (·.variantId) = test.variants.map (·.id)
  window : ∀ launchAt, config.launchAt = some launchAt →
    test.launchAt = none ∨ test.launchAt = some launchAt
  snapshot : ∀ snapshot ∈ test.audienceSnapshot,
    snapshot.sourceListIds = sourceLists config.baseConfig.lists
  duration : ∀ hours ∈ config.durationHours, 0 < hours
  sampleSize : ∀ size ∈ config.minimumTestSampleSize, positiveIntegerSchema size

/-- The record may be one that an earlier attempt left. -/
def Resumable (test : AbTest) : Prop :=
  ∀ config, test.provisionedAt = none → test.pendingCreate = some config → Intent test config

theorem Intent.resumable {test : AbTest} {config : AbTestConfig} (h : Intent test config) :
    Resumable test := by
  intro config' _ hpending
  obtain rfl := Option.some.inj (h.pendingCreate.symm.trans hpending)
  exact h

theorem nodup_variantIds (testId : Text) {variants : List VariantRequest}
    (h : variants.length ≤ 3) : ((labelledVariants testId variants).map (·.id)).Nodup := by
  have hids : (labelledVariants testId variants).map (·.id) =
      (List.range variants.length).map (variantIdOf testId) := by
    rw [labelledVariants, List.map_map, List.zipIdx_eq_zip_range', ← List.range_eq_range']
    calc _ = ((variants.zip (List.range variants.length)).map Prod.snd).map (variantIdOf testId) := by
            rw [List.map_map]
            rfl
      _ = _ := by rw [List.map_snd_zip (by simp)]
  rw [hids]
  refine (List.nodup_map_iff_inj_on List.nodup_range).mpr fun i hi j hj hsame => ?_
  rw [List.mem_range] at hi hj
  have hlabels : ∀ i < 3, ∀ j < 3, (variantLabels[i]?).getD ("undefined" : Text) =
      (variantLabels[j]?).getD ("undefined" : Text) → i = j := by
    intro i hi j hj hij
    have hnodup : variantLabels.Nodup := by simp [variantLabels]
    have hlength : variantLabels.length = 3 := rfl
    rw [List.getElem?_eq_getElem (by omega), List.getElem?_eq_getElem (by omega)] at hij
    exact hnodup.getElem_inj_iff.mp hij
  rw [variantIdOf, variantIdOf, List.append_assoc, List.append_assoc] at hsame
  exact hlabels i (by omega) j (by omega)
    (List.append_cancel_right (List.append_cancel_left hsame))

/-- The request that is carried out: the recorded one where there is a record. -/
def requestOf (existing : Option AbTest) (config : AbTestConfig) : AbTestConfig :=
  (existing.bind (·.pendingCreate)).getD config

theorem reconcileCampaigns_variants {testId : Text} {tagged : List TaggedResource}
    {variants : List Variant} {mappings mappings' : List CampaignMapping}
    (h : reconcileCampaigns testId tagged variants mappings = .ok mappings') :
    ∀ mapping ∈ mappings', mapping ∈ mappings ∨ mapping.variantId ∈ variants.map (·.id) := by
  induction variants generalizing mappings with
  | nil =>
      obtain rfl := Except.ok.inj h
      exact fun mapping hmapping => .inl hmapping
  | cons variant variants ih =>
      rw [reconcileCampaigns] at h
      split at h
      · intro mapping hmapping
        exact (ih h mapping hmapping).imp id fun hin => List.mem_cons_of_mem _ hin
      · split at h
        · cases h
        · intro mapping hmapping
          rcases ih h mapping hmapping with hin | hin
          · rcases List.mem_append.mp hin with hin | hin
            · exact .inl hin
            · rw [List.mem_singleton.mp hin]
              exact .inr List.mem_cons_self
          · exact .inr (List.mem_cons_of_mem _ hin)
      · cases h

section Phases

variable {test : AbTest} {config : AbTestConfig}

theorem recordSegmentationSeedPhase_intent {seed : Text} (h : Intent test config) :
    Intent (recordSegmentationSeedPhase test seed) config ∧
      (recordSegmentationSeedPhase test seed).campaignMappings = test.campaignMappings ∧
      (recordSegmentationSeedPhase test seed).launchAt = test.launchAt ∧
      (recordSegmentationSeedPhase test seed).createdAt = test.createdAt := by
  unfold recordSegmentationSeedPhase
  split
  · exact ⟨h, rfl, rfl, rfl⟩
  · exact ⟨{ h with }, rfl, rfl, rfl⟩

/-- After the window phase the record of a test that launches itself has its window. -/
theorem recordAutoLaunchWindowPhase_ok {test' : AbTest} {now : ℤ} (h : Intent test config)
    (hwindow : recordAutoLaunchWindowPhase test now = .ok test') :
    Intent test' config ∧ test'.testListMappings = test.testListMappings ∧
      test'.createdAt = test.createdAt ∧ (config.autoLaunch → ∃ sendAt,
        sendAtOf (test.launchAt.or config.launchAt) now = .ok sendAt ∧
        test'.launchAt = some sendAt) := by
  rw [recordAutoLaunchWindowPhase, if_neg (by simp [h.provisionedAt])] at hwindow
  split at hwindow
  · next hnone => simp [h.pendingCreate] at hnone
  next pending hpending =>
  obtain rfl : config = pending := by simpa [h.pendingCreate] using hpending
  split at hwindow
  · obtain ⟨sendAt, hsendAt, hok⟩ := except_bind_eq_ok.mp hwindow
    obtain rfl := Except.ok.inj hok
    refine ⟨{ h with window := fun launchAt hlaunch => .inr ?_ }, rfl, rfl,
      fun _ => ⟨sendAt, hsendAt, rfl⟩⟩
    rw [hlaunch] at hsendAt
    rcases h.window launchAt hlaunch with hnone | hsame
    · rw [hnone] at hsendAt
      exact congrArg some (Except.ok.inj hsendAt).symm
    · rw [hsame] at hsendAt
      exact congrArg some (Except.ok.inj hsendAt).symm
  · next hmanual =>
      obtain rfl := Except.ok.inj hwindow
      exact ⟨h, rfl, rfl, fun hauto => absurd hauto hmanual⟩

theorem createCampaigns_within {baseConfig : BaseConfig} {variants : List Variant} :
    (createCampaigns test baseConfig variants).Within (fun call => call.keepsStatus)
      fun ended => ended.2 = .ok () → ended.1.map (·.variantId) = variants.map (·.id) := by
  induction variants with
  | nil => exact fun _ => rfl
  | cons variant variants ih =>
      refine Program.within_bind.mpr (Program.Within.imp ((quiet_iff (Q := fun _ => True)).mp
        (.bind (.await rfl fun _ => .ofExcept fun _ _ => trivial))) (fun _ => id) fun outcome _ => ?_)
      cases outcome with
      | error error => exact nofun
      | ok campaignId =>
          refine Program.within_bind.mpr (ih.imp (fun _ => id) fun ended hrest => ?_)
          obtain ⟨created, outcome⟩ := ended
          intro hok
          rw [List.map_cons, List.map_cons, hrest hok]

theorem createTestCampaignsForVariants_quiet {baseConfig : BaseConfig} {variantIds : List Text} :
    Quiet (createTestCampaignsForVariants test baseConfig variantIds) fun created =>
      created.map (·.variantId) = (test.variants.filter (·.id ∈ variantIds)).map (·.id) := by
  unfold createTestCampaignsForVariants
  dsimp only
  split
  · exact .throw
  · refine .bind (within_lift.mpr (createCampaigns_within.imp (fun _ => id) fun ended hnames => ?_))
    obtain ⟨created, outcome⟩ := ended
    cases outcome with
    | ok done => exact .pure (hnames rfl)
    | error error =>
        exact .bind (within_lift.mpr ((deleteBestEffort_keepsStatus fun _ => rfl).imp
          (fun _ => id) fun _ _ => .throw))

theorem provisionCampaignsPhase_quiet (h : Intent test config) :
    Quiet (provisionCampaignsPhase test) fun test' => Intent test' config ∧
      test'.campaignMappings ≠ [] ∧ test'.launchAt = test.launchAt ∧
      test'.createdAt = test.createdAt := by
  unfold provisionCampaignsPhase
  split
  · next hdone =>
      rw [h.provisionedAt] at hdone
      exact .pure ⟨h, hdone.resolve_left (by simp), rfl, rfl⟩
  next hfresh =>
  rw [not_or, not_not] at hfresh
  split
  · next hnone => simp [h.pendingCreate] at hnone
  next pending _ =>
  refine .bind ((findByTestTag_quiet fun _ => rfl).imp fun tagged _ => ?_)
  refine .bind (.ofExcept fun mappings hmappings => ?_)
  have hadopted : ∀ mapping ∈ mappings, mapping.variantId ∈ test.variants.map (·.id) :=
    fun mapping hmapping => (reconcileCampaigns_variants hmappings mapping hmapping).resolve_left nofun
  have hintent : ∀ campaignMappings : List CampaignMapping,
      (∀ mapping ∈ campaignMappings, mapping.variantId ∈ test.variants.map (·.id)) →
      campaignMappings ≠ [] → Intent { test with campaignMappings } config :=
    fun campaignMappings hnames hsome => { h with
      campaigns := hnames
      lists := fun hlists => absurd hfresh.2 (h.lists hlists).1 }
  split
  · refine .bind (createTestCampaignsForVariants_quiet.imp fun created hcreated => .pure ?_)
    have hnames : ∀ mapping ∈ mappings ++ created, mapping.variantId ∈ test.variants.map (·.id) := by
      intro mapping hmapping
      rcases List.mem_append.mp hmapping with hin | hin
      · exact hadopted mapping hin
      · have := List.mem_map_of_mem (f := (·.variantId)) hin
        rw [hcreated] at this
        exact List.map_subset _ (List.filter_subset_self _) this
    have hsome : mappings ++ created ≠ [] := by
      intro hnone
      obtain ⟨rfl, rfl⟩ := List.append_eq_nil_iff.mp hnone
      obtain ⟨variant, rest, hvariants⟩ := List.exists_cons_of_ne_nil h.variants
      rw [hvariants] at hcreated
      simp at hcreated
    exact ⟨hintent _ hnames hsome, hsome, rfl, rfl⟩
  · next hall =>
      have hsome : mappings ≠ [] := by
        rintro rfl
        exact hall (List.length_pos_of_ne_nil h.variants)
      exact .pure ⟨hintent _ hadopted hsome, hsome, rfl, rfl⟩

variable [AssignmentPlatform]

theorem validateConfig_eq_ok (h : validateConfig config = .ok ()) :
    2 ≤ config.variants.length ∧ config.variants.length ≤ 3 ∧
      (∀ hours ∈ config.durationHours, 0 < hours) ∧
      ∀ size ∈ config.minimumTestSampleSize, positiveIntegerSchema size := by
  rw [validateConfig] at h
  by_cases hfew : config.variants.length < 2
  · rw [if_pos hfew] at h
    cases h
  by_cases hmany : 3 < config.variants.length
  · rw [if_neg hfew, if_pos hmany] at h
    cases h
  simp only [if_neg hfew, if_neg hmany] at h
  split at h
  · cases h
  split at h
  · cases h
  split at h
  · cases h
  next hsize =>
  split at h
  · cases h
  next hduration =>
  refine ⟨by omega, by omega, fun hours hhours => ?_, fun size hgiven => ?_⟩
  · rw [Option.mem_def.mp hhours] at hduration
    simpa using hduration
  · rw [Option.mem_def.mp hgiven] at hsize
    simp only [Option.any_some, Bool.or_eq_true, decide_eq_true_eq, not_or, not_lt] at hsize
    rw [positiveIntegerSchema, Bool.and_eq_true, decide_eq_true_eq, decide_eq_true_eq]
    omega

theorem intent_draftTest [RequestFingerprint] {testId : Text} {now : ℤ}
    (h : validateConfig config = .ok ()) :
    Intent (draftTest config testId now) config := by
  obtain ⟨hleast, hmost, hduration, hsize⟩ := validateConfig_eq_ok h
  have hvariants : (draftTest config testId now).variants ≠ [] := by
    intro hnone
    have hlength := congrArg List.length hnone
    simp only [draftTest, labelledVariants, List.length_map, List.length_zipIdx,
      List.length_nil] at hlength
    omega
  exact
    { pendingCreate := rfl
      provisionedAt := rfl
      baseConfig := rfl
      winnerCampaignId := rfl
      minimumTestSampleSize := rfl
      durationHours := rfl
      startedAt := rfl
      endsAt := rfl
      variants := hvariants
      distinct := nodup_variantIds testId hmost
      campaigns := fun _ => nofun
      lists := fun hlists => absurd rfl hlists
      window := fun _ _ => .inl rfl
      snapshot := fun _ => nofun
      duration := hduration
      sampleSize := hsize }

theorem recordCreateIntent_quiet [RequestFingerprint] {existing : Option AbTest} {testId : Text}
    {now : ℤ}
    (hexisting : ∀ test ∈ existing, Resumable test) :
    Quiet (recordCreateIntent existing config testId now) fun recorded =>
      Resumable recorded.1 ∧
        (recorded.2 = false → Intent recorded.1 (requestOf existing config) ∧
          recorded.1.launchAt = existing.bind (·.launchAt) ∧
          recorded.1.createdAt = (existing.map (·.createdAt)).getD now) := by
  refine .bind (.ofExcept fun _ _ => ?_)
  cases existing with
  | some test =>
      dsimp only
      split
      · exact .throw
      · refine .pure ⟨hexisting test rfl, fun hnew => ?_⟩
        dsimp only at hnew
        rw [Bool.or_eq_false_iff, Option.isSome_eq_false_iff, Option.isNone_iff_eq_none,
          Option.isNone_eq_false_iff, Option.isSome_iff_exists] at hnew
        obtain ⟨hfresh, pending, hpending⟩ := hnew
        refine ⟨?_, rfl, rfl⟩
        rw [requestOf, Option.bind_some, hpending]
        exact hexisting test rfl pending hfresh hpending
  | none =>
      refine .bind (.ofExcept fun _ hvalid => .bind (getTotalSubscribers_quiet.imp fun _ _ => ?_))
      have hdraft : Intent (draftTest config testId now) config := intent_draftTest hvalid
      exact .bind (.ofExcept fun _ _ => .pure ⟨hdraft.resumable, fun _ => ⟨hdraft, rfl, rfl⟩⟩)

theorem provisionSegmentationPhase_quiet {random : Randomness} {now : ℤ} (h : Intent test config)
    (hcampaigns : test.campaignMappings ≠ []) :
    Quiet (provisionSegmentationPhase test random now) fun test' => Intent test' config ∧
      test'.testListMappings ≠ [] ∧ test'.launchAt = test.launchAt ∧
      test'.createdAt = test.createdAt := by
  unfold provisionSegmentationPhase
  split
  · next hdone =>
      rw [h.provisionedAt] at hdone
      exact absurd (hdone.resolve_left (by simp)) hcampaigns
  split
  · next hlists => exact .pure ⟨h, hlists, rfl, rfl⟩
  have hsome : ∀ mappings : List ListMapping,
      mappings.map (·.variantId) = test.variants.map (·.id) → mappings ≠ [] := by
    rintro mappings hnames rfl
    exact h.variants (List.map_eq_nil_iff.mp hnames.symm)
  split
  · next hnone => simp [h.pendingCreate] at hnone
  next pending hpending =>
  obtain rfl : config = pending := by simpa [h.pendingCreate] using hpending
  split
  · refine .bind ((findByTestTag_quiet fun _ => rfl).imp fun existingLists _ => ?_)
    refine .bind ((segmentSubscribersForHoldout_quiet h.distinct).imp
      fun result ⟨hnames, hsource⟩ => .pure ?_)
    exact ⟨{ h with
      lists := fun _ => ⟨hcampaigns, hnames⟩
      snapshot := fun snapshot hsnapshot => Option.some.inj hsnapshot ▸ hsource },
      hsome _ hnames, rfl, rfl⟩
  · refine .bind (segmentSubscribers_quiet.imp fun mappings hnames => ?_)
    refine .bind (getTotalSubscribers_quiet.imp fun total _ => .pure ?_)
    exact ⟨{ h with lists := fun _ => ⟨hcampaigns, hnames⟩ }, hsome _ hnames, rfl, rfl⟩

end Phases

/-! ## What is on record -/

/-- The effects of an operation, with what they came to. -/
abbrev EffectLog := List (Effect × Answer)

section Record

variable {α β : Type} {log : EffectLog} {x : Stored α} {Q : α → EffectLog → Prop}
  {E : JsValue → EffectLog → Prop}

/-- The judgement about an operation: how it may end, with which effects on record, whatever is
answered on the way. -/
def Ends (x : Stored α) (Q : α → EffectLog → Prop) (E : JsValue → EffectLog → Prop)
    (log : EffectLog) : Prop :=
  Fallible.Safe Program.recorded (fun _ => True) x Q E log

theorem Ends.bind {f : α → Stored β} {Q : β → EffectLog → Prop}
    (h : Ends x (fun a log' => Ends (f a) Q E log') E log) : Ends (x >>= f) Q E log :=
  Fallible.safe_bind.mpr h

theorem Ends.pure {a : α} (h : Q a log) : Ends (pure a) Q E log := ⟨trivial, h⟩

theorem Ends.imp {Q' : α → EffectLog → Prop} {E' : JsValue → EffectLog → Prop}
    (h : Ends x Q E log) (returns : ∀ a log', Q a log' → Q' a log')
    (throws : ∀ error log', E error log' → E' error log') : Ends x Q' E' log :=
  Fallible.Safe.imp h (fun a log' _ => returns a log') fun error log' _ => throws error log'

end Record

/-! ## Scheduling the campaigns -/

section Launching

variable {α : Type} {log : EffectLog} {listMappings : List ListMapping}

section Finish

variable {test : AbTest} {config : AbTestConfig} {sendAt : DateTime}

end Finish

end Launching

/-! ## Creating and launching -/

/-- A draft that can be launched: its campaigns have their lists, and where a launch was
recorded its window is. -/
structure Launchable (test : AbTest) : Prop where
  draft : test.status = .draft
  complete : test.pendingCreate = none
  mapped : ∀ campaign ∈ test.campaignMappings,
    campaign.variantId ∈ test.testListMappings.map (·.variantId)
  window : test.startedAt.isSome → ∃ sendAt, test.launchAt = some sendAt ∧
    endsAtOf sendAt test.durationHours test.endsAt = .ok test.endsAt
  unended : test.durationHours = none → test.endsAt = none

section Operations

variable {log : EffectLog}

theorem finalizeProvisionedTest_within {test : AbTest} {config : AbTestConfig} {now : ℤ} :
    (finalizeProvisionedTest test config now).Within (fun _ => True) fun ended =>
      config.autoLaunch = false → ended.1 = markProvisioned (applyConfig test config) now := by
  unfold finalizeProvisionedTest
  split
  · next hauto =>
      exact (Program.within_of_forall fun _ => trivial).imp (fun _ => id)
        fun _ _ hmanual => by simp [hauto] at hmanual
  · exact fun _ => rfl

/-- The last phase finishes the record. A test that does not launch itself is then a draft
that can be launched. -/
theorem provisionAbTestIntent_within [AssignmentPlatform] {test : AbTest} {config : AbTestConfig}
    {random : Randomness} {now : ℤ} (h : Intent test config) (hlists : test.testListMappings ≠ []) :
    Within (fun _ => True) (provisionAbTestIntent test random now)
      (fun test' => test'.provisionedAt.isSome ∧ (config.autoLaunch = false → Launchable test'))
      fun _ => True := by
  refine within_bind.mpr (within_lift.mpr ?_)
  unfold provisionTest
  rw [if_neg (by simp [h.provisionedAt])]
  split
  · next hnone => simp [h.pendingCreate] at hnone
  next pending hpending =>
  obtain rfl : config = pending := by simpa [h.pendingCreate] using hpending
  refine Program.within_bind.mpr ?_
  unfold provisionResources
  rw [if_pos (h.lists hlists).1]
  refine Program.within_bind.mpr ?_
  rw [ExceptT.run_pure, Program.within_pure]
  dsimp only
  rw [if_pos hlists]
  refine Program.within_bind.mpr (finalizeProvisionedTest_within.imp (fun _ => id)
    fun ended hmanual => ?_)
  obtain ⟨finished, outcome⟩ := ended
  cases outcome with
  | error error =>
      refine Program.within_bind.mpr ((Program.within_of_forall fun _ => trivial).imp (fun _ => id)
        fun deleted _ => ?_)
      exact within_bind.mpr trivial
  | ok done =>
      refine within_bind.mpr ⟨rfl, fun hauto => ?_⟩
      obtain rfl := hmanual hauto
      refine ⟨rfl, rfl, fun campaign hcampaign => ?_, fun hstarted => ?_, fun _ => h.endsAt⟩
      · exact (h.lists hlists).2 ▸ h.campaigns campaign hcampaign
      · simp [markProvisioned, applyConfig, h.startedAt] at hstarted

theorem withStored_within {phase : Remote AbTest} {P : Call → Prop} {Q W : AbTest → Prop}
    (h : Within P phase Q fun _ => True) (hwrites : ∀ test, Q test → W test) :
    Within (Effect.Writes W) (withStored phase) Q fun _ => True := by
  have hclient : Within (Effect.Writes W) (onClient phase) Q fun _ => True :=
    Program.within_embed.mpr (Program.Within.imp h (fun _ _ => trivial) fun outcome hends => by
      cases outcome with
      | ok test => exact hends
      | error error => trivial)
  refine within_bind.mpr (hclient.imp (fun _ => id) (fun test htest => ?_) fun _ => id)
  · refine within_bind.mpr ⟨hwrites test htest, fun answer => ?_⟩
    cases answer with
    | returned value => exact htest
    | thrown error => trivial

/-- Whatever a create writes can be resumed, and a test that it creates without launching
it can be launched. -/
theorem createAbTest_writes [AssignmentPlatform] [RequestFingerprint] {existing : Option AbTest}
    {config : AbTestConfig} {chance : CreateChance} {clock : CreateClock}
    (hexisting : ∀ test ∈ existing, Resumable test) :
    Within (Effect.Writes Resumable) (executeCreateAbTest existing config chance clock)
      (fun created => created.2 → (requestOf existing config).autoLaunch = false →
        Launchable created.1)
      fun _ => True := by
  have hrecorded : Within (Effect.Writes Resumable)
      (onClient (recordCreateIntent existing config chance.testId clock.intent)) (fun recorded =>
        Resumable recorded.1 ∧
          (recorded.2 = false → Intent recorded.1 (requestOf existing config))) fun _ => True := by
    refine Program.within_embed.mpr (Program.Within.imp (recordCreateIntent_quiet hexisting)
      (fun _ _ => trivial) fun outcome hends => ?_)
    cases outcome with
    | ok recorded => exact ⟨hends.1, fun hnew => (hends.2 hnew).1⟩
    | error error => trivial
  refine within_bind.mpr (hrecorded.imp (fun _ => id) (fun recorded hintent => ?_) fun _ => id)
  obtain ⟨intent, replayed⟩ := recorded
  refine within_bind.mpr ⟨hintent.1, fun answer => ?_⟩
  cases answer with
  | thrown error => trivial
  | returned value =>
      cases replayed with
      | true => exact nofun
      | false =>
          have hdraft := hintent.2 rfl
          refine within_bind.mpr (within_bind.mpr ((withStored_within
            (provisionCampaignsPhase_quiet hdraft) fun test htest => htest.1.resumable).imp
              (fun _ => id) ?_ fun _ => id))
          rintro withCampaigns ⟨hintent₁, hcampaigns, -⟩
          rw [if_pos (by simp [hintent₁.pendingCreate])]
          obtain ⟨hseeded, hcampaigns', -⟩ :=
            @recordSegmentationSeedPhase_intent _ _ chance.seed hintent₁
          refine within_bind.mpr ((withStored_within (Q := fun test => test =
            recordSegmentationSeedPhase withCampaigns chance.seed) (P := fun _ => True)
            (within_ofExcept.mpr ⟨fun test hok => (Except.ok.inj hok).symm, fun _ _ => trivial⟩)
            fun test htest => htest ▸ hseeded.resumable).imp (fun _ => id) ?_ fun _ => id)
          rintro seeded rfl
          refine within_bind.mpr ((withStored_within (provisionSegmentationPhase_quiet hseeded
            (hcampaigns' ▸ hcampaigns)) fun test htest => htest.1.resumable).imp (fun _ => id) ?_
              fun _ => id)
          rintro segmented ⟨hintent₃, hlists, -⟩
          refine within_bind.mpr ((withStored_within (P := fun _ => True) (within_ofExcept.mpr
            ⟨fun test => recordAutoLaunchWindowPhase_ok hintent₃, fun _ _ => trivial⟩)
              fun test htest => htest.1.resumable).imp (fun _ => id) ?_ fun _ => id)
          rintro windowed ⟨hintent₄, hlists', -⟩
          refine (withStored_within (provisionAbTestIntent_within hintent₄ (hlists' ▸ hlists))
            fun test htest config hfresh => ?_).imp (fun _ => id) (fun test htest => ?_) fun _ => id
          · simp [hfresh] at htest
          · exact fun _ => htest.2

end Operations

/-! ## What is shown -/

/-- A launch time is at hand, and its window fits. -/
def Fits (sendAt : Except JsValue DateTime) (durationHours : Option ℚ) : Prop :=
  ∃ time, sendAt = .ok time ∧ WindowFits time durationHours

section Shown

variable {config : AbTestConfig} {test draft : AbTest} {sendAt : DateTime} {endsAt : Option DateTime}
  {recordedAt launchedAt now : ℤ}

end Shown

section Invoking

variable {log : EffectLog}

end Invoking

/-! ## A create that is resumed -/

section Sample

local instance : AssignmentPlatform := samplePlatform

local instance : RequestFingerprint where
  fingerprint _ := []

end Sample

end ListmonkOps.Experiment
