/-
What a cancelled test leaves behind.

A list is deleted only when every campaign that may refer to it was confirmed
gone before, and a test is marked as cancelled only when none of its campaigns
can start to send. Both facts are read off the calls that were made and the
answers they got; "gone" is what the code itself takes for an answer "not
found", which is more than the HTTP status 404.
-/

import ListmonkOps.Experiment.Lifecycle
import ListmonkOps.Math.Keyed
import Mathlib.Data.List.Nodup

namespace ListmonkOps.Experiment

open ListmonkOps.Math ListmonkOps.Runtime Program

/-- The calls made so far, with their answers. -/
abbrev CallLog := List (Call × Answer)

/-- The campaigns that may refer to a list of the test. -/
def AbTest.referencingCampaigns (test : AbTest) : List ℤ :=
  test.campaignMappings.map (·.campaignId) ++ test.winnerCampaignId.toList

/-- The campaign was confirmed deleted, or an answer said that it is gone. -/
inductive ConfirmedGone (log : CallLog) (campaignId : ℤ) : Prop where
  | deleted {answer : Answer} (called : (.campaignDelete campaignId, answer) ∈ log)
      (accepted : answer.accepted)
  | deleteNotFound {answer : Answer} (called : (.campaignDelete campaignId, answer) ∈ log)
      (notFound : answer.notFound)
  | getNotFound {answer : Answer} (called : (.campaignGetById campaignId, answer) ∈ log)
      (notFound : answer.notFound)
  | /-- The server reported the status that marks a deleted campaign. -/
    reported {answer : Answer} (called : (.campaignGetById campaignId, answer) ∈ log)
      (status : observedStatus answer = some alreadyDeletedStatus)

/-- The campaign cannot start to send any more, by what was answered: it is gone, its cancellation
was accepted or found nothing, or it was seen in a terminal status. -/
inductive CannotSend (terminal : List Text) (log : CallLog) (campaignId : ℤ) : Prop where
  | gone (h : ConfirmedGone log campaignId)
  | cancelled {answer : Answer}
      (called : (.campaignUpdateStatus campaignId "cancelled", answer) ∈ log)
      (accepted : answer.accepted)
  | cancelNotFound {answer : Answer}
      (called : (.campaignUpdateStatus campaignId "cancelled", answer) ∈ log)
      (notFound : answer.notFound)
  | terminal {answer : Answer} {status : Text}
      (called : (.campaignGetById campaignId, answer) ∈ log)
      (observed : observedStatus answer = some status) (member : status ∈ terminal)

theorem ConfirmedGone.mono {log log' : CallLog} {campaignId : ℤ} (hlog : log ⊆ log')
    (h : ConfirmedGone log campaignId) : ConfirmedGone log' campaignId := by
  cases h with
  | deleted called accepted => exact .deleted (hlog called) accepted
  | deleteNotFound called notFound => exact .deleteNotFound (hlog called) notFound
  | getNotFound called notFound => exact .getNotFound (hlog called) notFound
  | reported called status => exact .reported (hlog called) status

theorem CannotSend.mono {terminal : List Text} {log log' : CallLog} {campaignId : ℤ}
    (hlog : log ⊆ log') (h : CannotSend terminal log campaignId) :
    CannotSend terminal log' campaignId := by
  cases h with
  | gone h => exact .gone (h.mono hlog)
  | cancelled called accepted => exact .cancelled (hlog called) accepted
  | cancelNotFound called notFound => exact .cancelNotFound (hlog called) notFound
  | terminal called observed member => exact .terminal (hlog called) observed member

/-- A list may be deleted when the campaigns that may refer to it are gone. -/
def MayCall (test : AbTest) (log : CallLog) (call : Call) : Prop :=
  ∀ listId, call = .listDelete listId → ∀ id ∈ test.referencingCampaigns, ConfirmedGone log id

/-! ## The phases -/

variable {test : AbTest} {log : CallLog}

theorem mayCall_of_ne {call : Call} (h : ∀ listId, call ≠ .listDelete listId) :
    MayCall test log call :=
  fun listId hcall => absurd hcall (h listId)

/-- An answer that is not a failure was accepted or says "not found". -/
theorem outcomeOf_cases {answer : Answer} (h : outcomeOf answer ≠ .failed) :
    answer.accepted ∨ answer.notFound := by
  unfold outcomeOf at h
  split at h
  · exact .inl ‹_›
  · split at h
    · exact .inr ‹_›
    · exact absurd rfl h

/-- What the fetch phase knows about a campaign rests on an answer on record. -/
structure Observed (log : CallLog) (fetched : FetchedStatuses) (campaignId : ℤ) : Prop where
  answered : ∃ answer, (.campaignGetById campaignId, answer) ∈ log ∧
    fetched.get campaignId = observedStatus answer
  unobservable : fetched.get campaignId = none → campaignId ∈ fetched.unobservable

theorem Observed.mono {log' : CallLog} {fetched : FetchedStatuses} {campaignId : ℤ}
    (hlog : log ⊆ log') (h : Observed log fetched campaignId) : Observed log' fetched campaignId :=
  ⟨let ⟨answer, hcalled, hstatus⟩ := h.answered; ⟨answer, hlog hcalled, hstatus⟩, h.unobservable⟩

/-- Looking up a fetched status gives what was observed for the campaign. -/
theorem get_of_mem_observed {observed : List (ℤ × Option Text)}
    (distinct : (observed.map Prod.fst).Nodup) {campaignId : ℤ} {status : Option Text}
    (hmem : (campaignId, status) ∈ observed) (unobservable : List ℤ) :
    FetchedStatuses.get ⟨observed.filterMap fun (id, status) => status.map (id, ·), unobservable⟩
      campaignId = status := by
  have hsame : ∀ {other}, (campaignId, other) ∈ observed → other = status := by
    intro other hother
    have hpair := List.inj_on_of_nodup_map distinct hother hmem rfl
    exact congrArg Prod.snd hpair
  cases status with
  | none =>
      simp only [FetchedStatuses.get, Option.map_eq_none_iff, List.find?_eq_none,
        List.mem_filterMap, Option.map_eq_some_iff]
      rintro ⟨id, text⟩ ⟨⟨id', other⟩, hother, text', rfl, hpair⟩ hid
      obtain ⟨rfl, rfl⟩ := Prod.mk.inj hpair
      obtain rfl : id' = campaignId := by simpa using hid
      exact absurd (hsame hother) (Option.some_ne_none _)
  | some status =>
      have hfound : (observed.filterMap fun (id, status) => status.map (id, ·)).find?
          (·.1 = campaignId) = some (campaignId, status) := by
        rw [find?_key_eq_some_iff]
        · exact ⟨List.mem_filterMap.mpr ⟨_, hmem, rfl⟩, rfl⟩
        · rw [List.Nodup, List.pairwise_map] at distinct ⊢
          rw [List.pairwise_filterMap]
          refine distinct.imp fun {first second} hne => ?_
          rintro ⟨id, text⟩ hfirst ⟨id', text'⟩ hsecond
          obtain ⟨_, -, rfl, -⟩ := by simpa using hfirst
          obtain ⟨_, -, rfl, -⟩ := by simpa using hsecond
          exact hne
      simp [FetchedStatuses.get, hfound]

theorem fetchCampaignStatuses_safe {campaignIds : List ℤ} (distinct : campaignIds.Nodup)
    (hlog : Justified (MayCall test) log) :
    (fetchCampaignStatuses campaignIds).Safe recorded (Justified (MayCall test))
      (fun fetched log' => ∀ id ∈ campaignIds, Observed log' fetched id) log := by
  rw [fetchCampaignStatuses, safe_bind]
  refine (safe_mapM_recorded (fun id (result : ℤ × Option Text) log' => result.1 = id ∧
    ∃ answer, (.campaignGetById id, answer) ∈ log' ∧ result.2 = observedStatus answer)
    ?_ ?_ hlog).imp ?_
  · rintro id result log' log'' hgrown ⟨hid, answer, hcalled, hstatus⟩
    exact ⟨hid, answer, hgrown hcalled, hstatus⟩
  · intro id log' _ _ hlog'
    rw [safe_bind, safe_perform_recorded]
    refine ⟨hlog', fun answer => ⟨mayCall_of_ne (by simp), ?_⟩⟩
    refine ⟨justified_concat.mpr ⟨hlog', mayCall_of_ne (by simp)⟩, rfl, answer, ?_, rfl⟩
    simp
  · rintro observed log' hlog' ⟨-, hresults⟩
    refine ⟨hlog', fun id hid => ?_⟩
    have hkeys : observed.map Prod.fst = campaignIds := by
      simpa using map_eq_of_forall₂ (f := fun id : ℤ => id) hresults fun hresult => hresult.1
    obtain ⟨result, hresult, rfl, answer, hcalled, hstatus⟩ := exists_right_of_forall₂ hresults hid
    have hget := get_of_mem_observed (hkeys ▸ distinct) hresult
    refine ⟨⟨answer, hcalled, (hget _).trans hstatus⟩, fun hnone => ?_⟩
    rw [hget] at hnone
    exact List.mem_map.mpr ⟨result, List.mem_filter.mpr ⟨hresult, by simp [hnone]⟩, rfl⟩

/-- What is on record about an action that was performed: the call it stands for was made, and its
outcome is that of the answer. -/
structure Performed (log : CallLog) (action : RemoteCampaignAction) (result : CampaignResult) :
    Prop where
  same : result.action = action
  answered : ∀ call, action.call? = some call →
    ∃ answer, (call, answer) ∈ log ∧ result.outcome = outcomeOf answer

theorem Performed.mono {log' : CallLog} {action : RemoteCampaignAction} {result : CampaignResult}
    (hlog : log ⊆ log') (h : Performed log action result) : Performed log' action result :=
  ⟨h.same, fun call hcall =>
    let ⟨answer, hcalled, houtcome⟩ := h.answered call hcall
    ⟨answer, hlog hcalled, houtcome⟩⟩

theorem performCampaignAction_safe {action : RemoteCampaignAction}
    (hlog : Justified (MayCall test) log) :
    (performCampaignAction action).Safe recorded (Justified (MayCall test))
      (fun result log' => Performed log' action result) log := by
  cases hcall : action.call? with
  | none =>
      rw [performCampaignAction, hcall]
      exact ⟨hlog, rfl, fun call h => by simp [hcall] at h⟩
  | some call =>
      have hallowed : ∀ {log}, MayCall test log call := by
        intro log
        refine mayCall_of_ne fun listId hdelete => ?_
        subst hdelete
        cases action <;> simp [RemoteCampaignAction.call?] at hcall
      rw [performCampaignAction, hcall]
      simp only
      rw [safe_bind, safe_perform_recorded]
      refine ⟨hlog, fun answer => ⟨hallowed, ?_⟩⟩
      refine ⟨justified_concat.mpr ⟨hlog, hallowed⟩, rfl, fun call' h => ⟨answer, ?_, rfl⟩⟩
      obtain rfl : call = call' := Option.some.inj (hcall.symm.trans h)
      simp

/-! ## What the plan rests on -/

/-- The possible plans for a campaign, by its observed status, and whether the campaign then still
refers to its list. -/
inductive Planned (options : PlanCancelOptions) (campaignId : ℤ) :
    Option Text → RemoteCampaignAction × Bool → Prop
  | unobserved (reason : Text) : Planned options campaignId none (.leave campaignId reason, true)
  | gone (reason : Text) :
      Planned options campaignId (some alreadyDeletedStatus) (.leave campaignId reason, false)
  | cancelled (status : Text) :
      Planned options campaignId (some status) (.cancel campaignId, true)
  | terminal {status : Text} (member : status ∈ options.terminalStatuses) (reason : Text) :
      Planned options campaignId (some status) (.leave campaignId reason, true)
  | deleted (status : Text) :
      Planned options campaignId (some status) (.delete campaignId, false)

theorem planned (options : PlanCancelOptions) (status : Option Text) (campaignId : ℤ) :
    Planned options campaignId status (planCampaign options status campaignId) := by
  cases status with
  | none => exact .unobserved _
  | some status =>
      unfold planCampaign
      by_cases hgone : status = alreadyDeletedStatus
      · subst hgone
        simpa using .gone _
      by_cases hactive : status ∈ options.activeStatuses
      · simpa [hgone, hactive] using .cancelled status
      by_cases hterminal : status ∈ options.terminalStatuses
      · cases hdelete : options.deleteTerminalCampaigns with
        | true => simpa [hgone, hactive, hterminal, hdelete] using .deleted status
        | false => simpa [hgone, hactive, hterminal, hdelete] using .terminal hterminal _
      · simpa [hgone, hactive, hterminal] using .deleted status

theorem campaignId_planCampaign (options : PlanCancelOptions) (status : Option Text)
    (campaignId : ℤ) : (planCampaign options status campaignId).1.campaignId = campaignId := by
  have hplan := planned options status campaignId
  generalize planCampaign options status campaignId = plan at hplan
  cases hplan <;> rfl

variable {options : PlanCancelOptions} {fetched : FetchedStatuses}
variable {results : List CampaignResult}

theorem Performed.confirmedGone {campaignId : ℤ} {result : CampaignResult}
    (h : Performed log (.delete campaignId) result) (hnot : result.outcome ≠ .failed) :
    ConfirmedGone log campaignId := by
  obtain ⟨answer, hcalled, houtcome⟩ := h.answered _ rfl
  rw [houtcome] at hnot
  rcases outcomeOf_cases hnot with haccepted | hnotFound
  · exact .deleted hcalled haccepted
  · exact .deleteNotFound hcalled hnotFound

/-- Without a survivor, every campaign that would block the deletion of lists was
deleted. -/
theorem confirmedGone_of_blocking {plan : CancelPlan}
    (hresults : List.Forall₂ (Performed log) plan.campaignActions results)
    (hnone : survivingListReferences plan results = []) {id : ℤ}
    (hid : id ∈ plan.campaignsBlockingListDeletion) : ConfirmedGone log id := by
  obtain ⟨hblocking, -⟩ := List.append_eq_nil_iff.mp hnone
  have hdeleted := List.filter_eq_nil_iff.mp hblocking id hid
  simp only [decide_not, Bool.not_eq_true', decide_eq_false_iff_not, not_not, List.mem_map,
    List.mem_filter, Bool.and_eq_true, decide_eq_true_eq] at hdeleted
  obtain ⟨result, ⟨hresult, hsuccess, hkind⟩, rfl⟩ := hdeleted
  obtain ⟨action, -, hperformed⟩ := exists_left_of_forall₂ hresults hresult
  rw [hperformed.same] at hkind ⊢
  cases action with
  | delete campaignId => exact hperformed.confirmedGone (by simp [hsuccess])
  | cancel campaignId => cases hkind
  | leave campaignId reason => cases hkind

theorem outcome_ne_failed {plan : CancelPlan} (hnone : survivingListReferences plan results = [])
    {result : CampaignResult} (hresult : result ∈ results) : result.outcome ≠ .failed := by
  obtain ⟨-, hfailed⟩ := List.append_eq_nil_iff.mp hnone
  rw [List.map_eq_nil_iff, List.filter_eq_nil_iff] at hfailed
  simpa using hfailed result hresult

theorem mem_campaignActions {mapping : CampaignMapping} (hmem : mapping ∈ test.campaignMappings) :
    (planCampaign options (fetched.get mapping.campaignId) mapping.campaignId).1 ∈
      (planCancelAbTest test fetched options).campaignActions :=
  List.mem_map_of_mem (List.mem_map_of_mem hmem)

theorem mem_campaignsBlockingListDeletion {mapping : CampaignMapping}
    (hmem : mapping ∈ test.campaignMappings)
    (hblocks : (planCampaign options (fetched.get mapping.campaignId) mapping.campaignId).2) :
    mapping.campaignId ∈ (planCancelAbTest test fetched options).campaignsBlockingListDeletion := by
  refine List.mem_append_left _ (List.mem_map.mpr ⟨_, List.mem_filter.mpr ⟨?_, hblocks⟩, ?_⟩)
  · exact List.mem_map_of_mem hmem
  · exact campaignId_planCampaign options _ _

/-- When nothing survives the campaign actions, every campaign that may refer to a
list is confirmed gone. -/
theorem confirmedGone_of_no_survivor
    (hfetched : ∀ mapping ∈ test.campaignMappings, Observed log fetched mapping.campaignId)
    (hresults : List.Forall₂ (Performed log)
      (planCancelAbTest test fetched options).campaignActions results)
    (hnone : survivingListReferences (planCancelAbTest test fetched options) results = []) :
    ∀ id ∈ test.referencingCampaigns, ConfirmedGone log id := by
  intro id hid
  rcases List.mem_append.mp hid with hmapped | hwinner
  · obtain ⟨mapping, hmem, rfl⟩ := List.mem_map.mp hmapped
    obtain ⟨answer, hcalled, hget⟩ := (hfetched mapping hmem).answered
    have haction : _ ∈ (planCancelAbTest test fetched options).campaignActions :=
      mem_campaignActions hmem
    have hblocking : _ → _ ∈ (planCancelAbTest test fetched options).campaignsBlockingListDeletion :=
      mem_campaignsBlockingListDeletion hmem
    generalize hstatus : fetched.get mapping.campaignId = status at hget haction hblocking
    have hplan := planned options status mapping.campaignId
    generalize planCampaign options status mapping.campaignId = plan at hplan haction hblocking
    cases hplan with
    | unobserved reason => exact confirmedGone_of_blocking hresults hnone (hblocking rfl)
    | gone reason => exact .reported hcalled hget.symm
    | cancelled status => exact confirmedGone_of_blocking hresults hnone (hblocking rfl)
    | terminal member reason => exact confirmedGone_of_blocking hresults hnone (hblocking rfl)
    | deleted status =>
        obtain ⟨result, hresult, hperformed⟩ := exists_right_of_forall₂ hresults haction
        exact hperformed.confirmedGone (outcome_ne_failed hnone hresult)
  · exact confirmedGone_of_blocking hresults hnone (List.mem_append_right _ hwinner)

/-- When no action failed and every status was read, no campaign of the test can
send any more. -/
theorem cannotSend_of_no_failure
    (hfetched : ∀ mapping ∈ test.campaignMappings, Observed log fetched mapping.campaignId)
    (hresults : List.Forall₂ (Performed log)
      (planCancelAbTest test fetched options).campaignActions results)
    (hfailures : ∀ result ∈ results, result.outcome ≠ .failed)
    (hobserved : fetched.unobservable = []) :
    ∀ mapping ∈ test.campaignMappings,
      CannotSend options.terminalStatuses log mapping.campaignId := by
  intro mapping hmem
  obtain ⟨⟨answer, hcalled, hget⟩, hunobservable⟩ := hfetched mapping hmem
  have haction : _ ∈ (planCancelAbTest test fetched options).campaignActions :=
    mem_campaignActions hmem
  obtain ⟨result, hresult, hperformed⟩ := exists_right_of_forall₂ hresults haction
  have hnot := hfailures result hresult
  generalize hstatus : fetched.get mapping.campaignId = status at hget hunobservable hperformed
  have hplan := planned options status mapping.campaignId
  generalize planCampaign options status mapping.campaignId = plan at hplan hperformed
  cases hplan with
  | unobserved reason =>
      rw [hobserved] at hunobservable
      exact absurd (hunobservable rfl) List.not_mem_nil
  | gone reason => exact .gone (.reported hcalled hget.symm)
  | cancelled status =>
      obtain ⟨answer', hcancelled, houtcome⟩ := hperformed.answered _ rfl
      rw [houtcome] at hnot
      rcases outcomeOf_cases hnot with haccepted | hnotFound
      · exact .cancelled hcancelled haccepted
      · exact .cancelNotFound hcancelled hnotFound
  | terminal member reason => exact .terminal hcalled hget.symm member
  | deleted status => exact .gone (hperformed.confirmedGone hnot)

/-! ## The whole cancellation -/

theorem performListAction_safe {surviving : Bool} {listId : ℤ}
    (hallowed : surviving = false → ∀ id ∈ test.referencingCampaigns, ConfirmedGone log id)
    (hlog : Justified (MayCall test) log) :
    (performListAction surviving listId).Safe recorded (Justified (MayCall test))
      (fun _ _ => True) log := by
  unfold performListAction
  cases surviving with
  | true => exact ⟨hlog, trivial⟩
  | false =>
      have hcall : MayCall test log (.listDelete listId) := fun _ _ => hallowed rfl
      rw [if_neg (by simp), safe_bind, safe_perform_recorded]
      exact ⟨hlog, fun answer => ⟨hcall, justified_concat.mpr ⟨hlog, hcall⟩, trivial⟩⟩

/-- Cancelling deletes lists only when it may, and when nothing failed no campaign
can send any more. -/
theorem cancelAbTest_safe (hlog : Justified (MayCall test) log) :
    (cancelAbTest test options).Safe recorded (Justified (MayCall test))
      (fun result log' => result.hadFailures = false → result.hadFetchFailures = false →
        ∀ mapping ∈ test.campaignMappings,
          CannotSend options.terminalStatuses log' mapping.campaignId) log := by
  rw [cancelAbTest, safe_bind]
  refine (fetchCampaignStatuses_safe (nodup_eraseDups _) hlog).imp ?_
  intro fetched log₁ hlog₁ hfetched
  have hfetched : ∀ mapping ∈ test.campaignMappings, Observed log₁ fetched mapping.campaignId :=
    fun mapping hmem => hfetched _ (List.mem_eraseDups.mpr (List.mem_map_of_mem hmem))
  simp only [executeCancelPlan, safe_bind]
  refine (safe_mapM_recorded (fun action result log' => Performed log' action result)
    Performed.mono (fun _ _ => performCampaignAction_safe) hlog₁).imp ?_
  rintro results log₂ hlog₂ ⟨hgrown, hresults⟩
  have hfetched₂ : ∀ mapping ∈ test.campaignMappings, Observed log₂ fetched mapping.campaignId :=
    fun mapping hmem => (hfetched mapping hmem).mono hgrown
  have hallowed : ∀ {log₃}, log₂ ⊆ log₃ →
      decide (survivingListReferences (planCancelAbTest test fetched options) results ≠ []) = false →
      ∀ id ∈ test.referencingCampaigns, ConfirmedGone log₃ id := by
    intro log₃ hgrown₃ hnone id hid
    have hnone : survivingListReferences (planCancelAbTest test fetched options) results = [] := by
      simpa using hnone
    exact (confirmedGone_of_no_survivor hfetched₂ hresults hnone id hid).mono hgrown₃
  refine (safe_mapM_recorded (fun _ _ _ => True) (fun _ _ => trivial)
    (fun _ hgrown₃ => performListAction_safe (hallowed hgrown₃)) hlog₂).imp ?_
  rintro lists log₃ hlog₃ ⟨hgrown₃, -⟩
  refine ⟨hlog₃, hlog₃, fun hfailures hunobservable mapping hmem => ?_⟩
  simp only [CancelExecutionResult.hadFailures, Bool.or_eq_false_iff, List.any_eq_false,
    decide_eq_true_eq] at hfailures
  have hnone : fetched.unobservable = [] := by simpa using hunobservable
  exact (cannotSend_of_no_failure hfetched₂ hresults hfailures.1 hnone mapping hmem).mono hgrown₃

theorem stopAbTest_safe {now : ℤ} (hlog : Justified (MayCall test) log) :
    Fallible.Safe recorded (Justified (MayCall test)) (stopAbTest test now)
      (fun stopped log' => stopped.status = .cancelled → test.status ≠ .cancelled →
        ∀ mapping ∈ test.campaignMappings,
          CannotSend defaultTerminalStatuses log' mapping.campaignId) (fun _ _ => True) log := by
  rw [stopAbTest, Fallible.safe_bind]
  have hprovisioned : Fallible.Safe recorded (Justified (MayCall test))
      (ExceptT.mk (pure (assertProvisioned test "stop"))) (fun _ log' => log' = log)
      (fun _ _ => True) log := by
    refine ⟨hlog, ?_⟩
    cases assertProvisioned test "stop" <;> simp
  refine hprovisioned.imp ?_ fun _ _ _ _ => trivial
  rintro _ _ _ rfl
  by_cases hcancelled : test.status = .cancelled
  · rw [if_pos hcancelled]
    exact ⟨hlog, fun _ hnot => absurd hcancelled hnot⟩
  rw [if_neg hcancelled]
  by_cases hactive : test.status ≠ .running ∧ test.status ≠ .scheduled
  · rw [if_pos hactive]
    exact ⟨hlog, trivial⟩
  rw [if_neg hactive, Fallible.safe_bind, Fallible.safe_lift]
  refine (cancelAbTest_safe hlog).imp fun result log' hlog' hsafe => ?_
  by_cases hfailed : (result.hadFailures || result.hadFetchFailures) = true
  · rw [if_pos hfailed]
    exact ⟨hlog', trivial⟩
  · rw [if_neg hfailed]
    simp only [Bool.or_eq_true, not_or, Bool.not_eq_true] at hfailed
    exact ⟨hlog', fun _ _ => hsafe hfailed.1 hfailed.2⟩

/-! ## Deleting a test -/

/-- The answer is no failure to a deletion: no error, or one that says the resource is gone. -/
def Settled (answer : Answer) : Prop := ∀ context, mutationFailure? answer context = none

theorem settled_of_mutationFailure? {answer : Answer} {context : Text}
    (h : mutationFailure? answer context = none) : Settled answer := by
  intro other
  cases answer with
  | thrown error => cases h
  | returned response =>
      by_cases hmembers : response.members?.isNone
      · simp [mutationFailure?, hmembers] at h
      · cases herror : envelopeError? response with
        | none => simp [mutationFailure?, hmembers, herror]
        | some error =>
            by_cases hgone : envelopeNotFound response
            · simp [mutationFailure?, hmembers, herror, hgone]
            · simp [mutationFailure?, hmembers, herror, hgone] at h

/-- The campaign was deleted, or an answer said that it is gone. -/
def DeletedOrGone (log : CallLog) (campaignId : ℤ) : Prop :=
  ∃ answer, Settled answer ∧ ((.campaignDelete campaignId, answer) ∈ log ∨
    ((.campaignGetById campaignId, answer) ∈ log ∧ answer.accepted = false))

theorem DeletedOrGone.mono {log' : CallLog} {campaignId : ℤ} (hlog : log ⊆ log')
    (h : DeletedOrGone log campaignId) : DeletedOrGone log' campaignId :=
  let ⟨answer, hsettled, hcalled⟩ := h
  ⟨answer, hsettled, hcalled.imp (hlog ·) fun h => ⟨hlog h.1, h.2⟩⟩

/-- The list was deleted, or an answer said that it is gone. -/
def ListDeleted (log : CallLog) (listId : ℤ) : Prop :=
  ∃ answer, Settled answer ∧ (.listDelete listId, answer) ∈ log

/-- The duty of a deletion: a list goes only once every campaign that may refer to it was deleted
or was said to be gone. -/
def MayDelete (campaignIds : List ℤ) (log : CallLog) (call : Call) : Prop :=
  ∀ listId, call = .listDelete listId → ∀ id ∈ campaignIds, DeletedOrGone log id

section Deleting

variable {campaignIds listIds : List ℤ} {campaignId listId : ℤ}

theorem mayDelete_of_ne {call : Call} (h : ∀ listId, call ≠ .listDelete listId) :
    MayDelete campaignIds log call :=
  fun listId hcall => absurd hcall (h listId)

theorem deleteCampaign_safe {context : Text} (hlog : Justified (MayDelete campaignIds) log) :
    (Program.perform (.campaignDelete campaignId) >>= fun deleted =>
        (pure (mutationFailure? deleted context) : Program Call Answer (Option Text))).Safe recorded
      (Justified (MayDelete campaignIds))
      (fun failure log' => failure = none → DeletedOrGone log' campaignId) log := by
  rw [safe_bind, safe_perform_recorded]
  refine ⟨hlog, fun answer => ⟨mayDelete_of_ne (by simp), ?_⟩⟩
  refine ⟨justified_concat.mpr ⟨hlog, mayDelete_of_ne (by simp)⟩, fun hnone => ?_⟩
  exact ⟨answer, settled_of_mutationFailure? hnone, .inl (by simp)⟩

theorem deleteCampaignResource_safe (hlog : Justified (MayDelete campaignIds) log) :
    (deleteCampaignResource campaignId).Safe recorded (Justified (MayDelete campaignIds))
      (fun failure log' => failure = none → DeletedOrGone log' campaignId) log := by
  unfold deleteCampaignResource
  rw [safe_bind, safe_perform_recorded]
  refine ⟨hlog, fun fetched => ⟨mayDelete_of_ne (by simp), ?_⟩⟩
  have hlog' : Justified (MayDelete campaignIds) (log ++ [(.campaignGetById campaignId, fetched)]) :=
    justified_concat.mpr ⟨hlog, mayDelete_of_ne (by simp)⟩
  split
  · exact ⟨hlog', nofun⟩
  · next hnone => cases hnone
  · next response hnone =>
    split_ifs with herror
    · refine ⟨hlog', fun _ => ⟨.returned response, settled_of_mutationFailure? hnone, .inr ?_⟩⟩
      refine ⟨by simp, ?_⟩
      rw [Answer.accepted, ← Option.not_isSome, herror]
      rfl
    · split
      · split_ifs
        · rw [safe_bind, safe_perform_recorded]
          refine ⟨hlog', fun cancelled => ⟨mayDelete_of_ne (by simp), ?_⟩⟩
          have hlog'' : Justified (MayDelete campaignIds)
              (_ ++ [(.campaignUpdateStatus campaignId "cancelled", cancelled)]) :=
            justified_concat.mpr ⟨hlog', mayDelete_of_ne (by simp)⟩
          split
          · exact ⟨hlog'', nofun⟩
          · exact deleteCampaign_safe hlog''
        · exact deleteCampaign_safe hlog'
      · exact deleteCampaign_safe hlog'

theorem deleteListResource_safe (hgone : ∀ id ∈ campaignIds, DeletedOrGone log id)
    (hlog : Justified (MayDelete campaignIds) log) :
    (deleteListResource listId).Safe recorded (Justified (MayDelete campaignIds))
      (fun failure log' => failure = none → ListDeleted log' listId) log := by
  have hcall : MayDelete campaignIds log (.listDelete listId) := fun _ _ => hgone
  unfold deleteListResource
  rw [safe_bind, safe_perform_recorded]
  refine ⟨hlog, fun answer => ⟨hcall, justified_concat.mpr ⟨hlog, hcall⟩, fun hnone => ?_⟩⟩
  exact ⟨answer, settled_of_mutationFailure? hnone, by simp⟩

/-- A collection of results without a failure has none for any of its elements. -/
theorem forall_of_no_failure {α : Type} {R : α → Option Text → Prop} {xs : List α}
    {failures : List (Option Text)} (h : List.Forall₂ R xs failures)
    (hnone : failures.filterMap id = []) : ∀ x ∈ xs, R x none := by
  intro x hx
  obtain ⟨failure, hfailure, hR⟩ := exists_right_of_forall₂ h hx
  obtain rfl : failure = none := by simpa using List.filterMap_eq_nil_iff.mp hnone failure hfailure
  exact hR

theorem deleteTestResources_safe (hlog : Justified (MayDelete campaignIds) log) :
    Fallible.Safe recorded (Justified (MayDelete campaignIds))
      (deleteTestResources campaignIds listIds)
      (fun _ log' => (∀ id ∈ campaignIds, DeletedOrGone log' id) ∧
        ∀ id ∈ listIds, ListDeleted log' id) (fun _ _ => True) log := by
  rw [deleteTestResources, Fallible.safe_bind, Fallible.safe_lift]
  refine (safe_mapM_recorded (fun id failure log' => failure = none → DeletedOrGone log' id)
    (fun hgrown h hnone => (h hnone).mono hgrown)
    (fun _ _ => deleteCampaignResource_safe) hlog).imp ?_
  rintro campaignFailures log₁ hlog₁ ⟨-, hcampaigns⟩
  rw [Fallible.safe_bind, Fallible.safe_lift]
  by_cases hfailed : campaignFailures.filterMap id = []
  · have hgone : ∀ id ∈ campaignIds, DeletedOrGone log₁ id :=
      fun id hid => forall_of_no_failure hcampaigns hfailed id hid rfl
    rw [if_pos hfailed]
    refine (safe_mapM_recorded (fun id failure log' => failure = none → ListDeleted log' id)
      (fun hgrown h hnone => let ⟨answer, hsettled, hcalled⟩ := h hnone
        ⟨answer, hsettled, hgrown hcalled⟩)
      (fun _ hgrown => deleteListResource_safe fun id hid => (hgone id hid).mono hgrown)
      hlog₁).imp ?_
    rintro listFailures log₂ hlog₂ ⟨hgrown, hlists⟩
    simp only [hfailed, List.nil_append]
    split_ifs with herrors
    · exact ⟨hlog₂, trivial⟩
    · refine ⟨hlog₂, fun id hid => (hgone id hid).mono hgrown, fun id hid => ?_⟩
      exact forall_of_no_failure hlists (not_not.mp herrors) id (List.mem_reverse.mpr hid) rfl
  · rw [if_neg hfailed]
    refine ⟨hlog₁, ?_⟩
    simp only [List.filterMap_nil, List.append_nil, if_pos hfailed]
    exact ⟨hlog₁, trivial⟩

end Deleting

/-- Under every behaviour of the client, a deletion of a test deletes its lists only when its
campaigns are gone, and where it had resources to delete it returns only when all are. -/
theorem deleteTest_strands_nothing (test : AbTest) (script : List Answer) :
    Justified (MayDelete test.referencingCampaigns)
        (Program.run recorded (deleteTest test).run [] script).2 ∧
      ((Program.run recorded (deleteTest test).run [] script).1 = some (.ok ()) →
        test.status ∉ terminalStatuses → test.campaignMappings ≠ [] →
        (∀ id ∈ test.referencingCampaigns,
          DeletedOrGone (Program.run recorded (deleteTest test).run [] script).2 id) ∧
        ∀ id ∈ test.testListMappings.map (·.listId) ++ test.holdoutListId.toList,
          ListDeleted (Program.run recorded (deleteTest test).run [] script).2 id) := by
  have hsafe : Fallible.Safe recorded (Justified (MayDelete test.referencingCampaigns))
      (deleteTest test) (fun _ log => test.status ∉ terminalStatuses → test.campaignMappings ≠ [] →
        (∀ id ∈ test.referencingCampaigns, DeletedOrGone log id) ∧
          ∀ id ∈ test.testListMappings.map (·.listId) ++ test.holdoutListId.toList,
            ListDeleted log id) (fun _ _ => True) [] := by
    unfold deleteTest
    split_ifs with hactive
    · exact (deleteTestResources_safe justified_nil).imp (fun _ _ _ h _ _ => h)
        fun _ _ _ _ => trivial
    · exact ⟨justified_nil, fun hlive hmapped => absurd ⟨hlive, hmapped⟩ hactive⟩
  obtain ⟨hjustified, hreturned⟩ := Program.Safe.run hsafe script
  exact ⟨hjustified, fun hok => hreturned _ hok⟩

/-- A running test with one campaign, one list and a holdout list. -/
def sampleTest : AbTest where
  id := "test_1"
  name := "Subject lines"
  idempotencyKey := none
  idempotencyFingerprint := none
  pendingCreate := none
  provisionedAt := some { time := 0 }
  variants := [⟨"variant_A", "A", 100, ⟨none, none⟩⟩]
  status := .running
  winnerVariantId := none
  createdAt := 0
  updatedAt := 0
  baseConfig := ⟨"Hello", "<p>Hello</p>", [1], none⟩
  testingMode := .holdout
  testGroupPercentage := 10
  testGroupSize := 100
  holdoutGroupSize := 900
  autoDeployWinner := false
  campaignMappings := [⟨"variant_A", 404⟩]
  testListMappings := [⟨"variant_A", 20⟩]
  holdoutListId := some 21
  winnerCampaignId := none
  assignmentSeed := none
  audienceSnapshot := none
  minimumTestSampleSize := none
  assignmentProvenance := none
  assignmentManifest := none
  durationHours := none
  launchAt := some { time := 0 }
  startedAt := some { time := 0 }
  endsAt := none

/-- The answer to a deletion that went through. -/
def deletedAnswer : Answer := .returned (.object [("data", .boolean true)])

/-- The answer to a request for a campaign in some status. -/
def statusAnswer (status : Text) : Answer :=
  .returned (.object [("data", .object [("status", .string status)])])

/-- Under every behaviour of the client, a list is deleted only after every
campaign that may refer to it was confirmed gone; and a stop that marks a test as
cancelled leaves no campaign of it that can start to send. -/
theorem cancel_strands_nothing :
    (∀ (test : AbTest) (options : PlanCancelOptions) (script : List Answer),
      Justified (MayCall test) ((cancelAbTest test options).run recorded [] script).2) ∧
    ∀ (test : AbTest) (now : ℤ) (script : List Answer) (stopped : AbTest),
      (Program.run recorded (stopAbTest test now).run [] script).1 = some (.ok stopped) →
      stopped.status = .cancelled → test.status ≠ .cancelled →
      ∀ mapping ∈ test.campaignMappings, CannotSend defaultTerminalStatuses
        (Program.run recorded (stopAbTest test now).run [] script).2 mapping.campaignId := by
  constructor
  · intro test options script
    exact ((cancelAbTest_safe justified_nil).run script).1
  · intro test now script stopped hstopped hstatus hnot
    have hsafe : Program.Safe recorded (Justified (MayCall test)) (stopAbTest test now).run _ [] :=
      stopAbTest_safe justified_nil
    exact (hsafe.run script).2 _ hstopped hstatus hnot

/-- A scheduled campaign is deleted before its test is marked as cancelled. -/
theorem cancel_strands_nothing_sample : CannotSend defaultTerminalStatuses
    (Program.run recorded (stopAbTest sampleTest 1).run []
      [statusAnswer "scheduled", deletedAnswer, deletedAnswer, deletedAnswer]).2 404 :=
  cancel_strands_nothing.2 sampleTest 1 _ (updateTestStatus sampleTest .cancelled 1)
    (Fallible.returned_iff.mpr (by decide +kernel)) rfl (by decide) ⟨"variant_A", 404⟩ (by decide)

/-! ## An error message that names the wrong 404 -/

/-- A request that never reached the server, for the campaign with the id 404. -/
def unreachableAnswer : Answer :=
  .thrown (.ofMessage "GET /api/campaigns/404: connection reset")

/-- The campaign was confirmed deleted or answered with the HTTP status 404. -/
def DeletedOr404 (log : CallLog) (campaignId : ℤ) : Prop :=
  ∃ entry ∈ log, (entry.1 = .campaignDelete campaignId ∧ entry.2.accepted) ∨
    (entry.1.campaign? = some campaignId ∧ entry.2.httpStatus? = some 404)

/-- The same, or the campaign was cancelled or reported in a terminal status. -/
def StoppedOr404 (log : CallLog) (campaignId : ℤ) : Prop :=
  DeletedOr404 log campaignId ∨
    ∃ entry ∈ log, (entry.1 = .campaignUpdateStatus campaignId "cancelled" ∧ entry.2.accepted) ∨
      (entry.1 = .campaignGetById campaignId ∧
        ∃ status ∈ defaultTerminalStatuses, observedStatus entry.2 = some status)

instance (log : CallLog) (campaignId : ℤ) : Decidable (DeletedOr404 log campaignId) :=
  inferInstanceAs (Decidable (∃ entry ∈ log, _))

instance (log : CallLog) (campaignId : ℤ) : Decidable (StoppedOr404 log campaignId) :=
  inferInstanceAs (Decidable (_ ∨ ∃ entry ∈ log, _))

/-- How a stop of the sample ends when its campaign is asked for. -/
def stopSample (campaign : Answer) : Option (Except JsValue AbTest) × CallLog :=
  Program.run recorded (stopAbTest sampleTest 1).run [] [campaign, deletedAnswer, deletedAnswer]

/-- After the stop, the list is deleted and the test cancelled, with the campaign neither
deleted nor answered with the status 404. -/
def StrandedBy (campaign : Answer) : Prop :=
  (∃ entry ∈ (stopSample campaign).2, entry.1 = .listDelete 20) ∧
    ((stopSample campaign).1.bind Except.toOption).map (·.status) = some .cancelled ∧
    ¬ DeletedOr404 (stopSample campaign).2 404 ∧ ¬ StoppedOr404 (stopSample campaign).2 404

instance (campaign : Answer) : Decidable (StrandedBy campaign) :=
  inferInstanceAs (Decidable (_ ∧ _))

/-- An exception whose message contains "404", or the status that marks a deleted
campaign, passes for a campaign that is gone: its list is deleted and the test is
marked as cancelled, although nothing was answered with the HTTP status 404. -/
theorem cancel_strands_misread :
    StrandedBy unreachableAnswer ∧ StrandedBy (statusAnswer "already_deleted") := by
  decide +kernel

end ListmonkOps.Experiment
