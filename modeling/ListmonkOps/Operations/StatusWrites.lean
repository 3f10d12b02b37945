/-
What the writers of campaign statuses keep to.

Every operation is run against answers that may be anything, and judged by the
record it leaves: a status is written where the table allows the move from what
was read, a status is reported that was found or acknowledged, and a revision
that a caller names is the one that is changed. The campaign operations do so
whatever the answers are. The guard does not where it finds a scheduled campaign,
nor where its pause is refused without an error, and the cancellation of a test
does where the statuses it takes for active can be cancelled.
-/

import ListmonkOps.Experiment.Cancellation
import ListmonkOps.Operations.Lifecycle

namespace ListmonkOps.Operations

open ListmonkOps.Math ListmonkOps.Math.Program ListmonkOps.Runtime
open ListmonkOps.Experiment (JsValue Answer AbTest CancelExecutionResult PlanCancelOptions
  observedStatus alreadyDeletedStatus)
open LifecycleCall (getById updateStatus)

/-! ## Operations -/

inductive CampaignOperation where
  | schedule (sendAt : Text)
  | start
  | pause
  | cancel

/-- A campaign operation and the campaign it is about. -/
structure CampaignRequest where
  operation : CampaignOperation
  id : ℤ
  expectedUpdatedAt : Option Text

namespace CampaignRequest

def target (request : CampaignRequest) : CampaignLifecycleTarget :=
  match request.operation with
  | .schedule _ => .scheduled
  | .start => .running
  | .pause => .paused
  | .cancel => .cancelled

def run (request : CampaignRequest) : Lifecycle CampaignLifecycleOutput :=
  match request.operation with
  | .schedule sendAt => scheduleCampaign request.id sendAt request.expectedUpdatedAt
  | .start => startCampaign request.id request.expectedUpdatedAt
  | .pause => pauseCampaign request.id request.expectedUpdatedAt
  | .cancel => cancelCampaign request.id request.expectedUpdatedAt

/-- The writes an operation consists of. -/
def writes (request : CampaignRequest) : List LifecycleCall :=
  match request.operation with
  | .schedule sendAt =>
      [.updateSendAt request.id sendAt, updateStatus request.id request.target.text]
  | _ => [updateStatus request.id request.target.text]

end CampaignRequest

inductive LifecycleOperation where
  | campaign (request : CampaignRequest)
  | guard (campaignId : ℤ) (options : DeliverabilityGuardOptions) (now : ℤ)
  | cancelTest (test : AbTest) (options : PlanCancelOptions)

/-- What an operation reports. -/
inductive Report where
  | moved (output : CampaignLifecycleOutput)
  | guarded (result : DeliverabilityGuardResult)
  | cancelled (result : CancelExecutionResult)

namespace LifecycleOperation

variable [FixedNotation]

def run : LifecycleOperation → Lifecycle Report
  | .campaign request => do return .moved (← request.run)
  | .guard campaignId options now => do
      return .guarded (← evaluateDeliverabilityGuard campaignId options now)
  | .cancelTest test options => do
      return .cancelled
        (← ExceptT.lift ((Experiment.cancelAbTest test options).embed LifecycleCall.campaign))

/-- Run an operation against a script of answers. -/
def execute (operation : LifecycleOperation) (answers : List Answer) :
    Option (Except JsValue Report) × LifecycleLog :=
  Program.run recorded operation.run.run [] answers

end LifecycleOperation

/-! ## What is asked of them -/

/-- The status that the answer to a read gives. -/
def readStatus : Answer → JsValue
  | .returned response => (response.property? "data").property? "status"
  | .thrown _ => .undefined

/-- The revision that the answer to a read gives. -/
def readUpdatedAt : Answer → JsValue
  | .returned response => (response.property? "data").property? "updated_at"
  | .thrown _ => .undefined

/-- The campaign was read, and every answer to a read of it so far satisfies `P`. -/
def ReadAs (log : LifecycleLog) (id : ℤ) (P : Answer → Prop) : Prop :=
  (∃ answer, (getById id, answer) ∈ log) ∧ ∀ answer, (getById id, answer) ∈ log → P answer

/-- A status is written where the table allows the move from the status that was
read. -/
def StatusWriteAllowed (before : LifecycleLog) (call : LifecycleCall) : Prop :=
  ∀ id status, call = updateStatus id status →
    ∃ target : CampaignLifecycleTarget, target.text = status ∧
      ReadAs before id fun answer => canTransitionTo (readStatus answer) target = .ok true

/-- A campaign was in a status when it was read, or was sent there with the server's
acknowledgement. -/
def Reached (log : LifecycleLog) (id : ℤ) (status : Text) : Prop :=
  (∃ answer, (getById id, answer) ∈ log ∧ readStatus answer = .string status) ∨
    ∃ answer, (updateStatus id status, answer) ∈ log ∧ Acknowledged answer

/-- The status a report speaks of was reached. -/
def Report.Grounded (log : LifecycleLog) : Report → Prop
  | .moved output => Reached log output.id output.status
  | .guarded result => result.paused → Reached log result.campaignId "paused"
  | .cancelled _ => True

def LifecycleCall.isWrite : LifecycleCall → Bool
  | .campaign (.campaignUpdateStatus _ _) | .updateSendAt _ _ => true
  | _ => false

/-- The revision that a request names is the one that was read before anything is written. -/
def RevisionKept (request : CampaignRequest) (before : LifecycleLog) (call : LifecycleCall) :
    Prop :=
  call.isWrite → ∀ expected, request.expectedUpdatedAt = some expected →
    ReadAs before request.id fun answer => readUpdatedAt answer = .string expected

/-- What a write changes about a campaign. -/
structure CampaignView where
  status : JsValue
  sendAt : JsValue

/-- The campaign after a write that took effect. -/
def CampaignView.after (view : CampaignView) : LifecycleCall → CampaignView
  | .campaign (.campaignUpdateStatus _ status) => { view with status := .string status }
  | .updateSendAt _ sendAt => { view with sendAt := .string sendAt }
  | _ => view

/-- The answer shows the campaign so, whatever its revision and its other members. -/
def Shows (answer : Answer) (view : CampaignView) : Prop :=
  ∃ response members, answer = .returned response ∧
    Experiment.envelopeError? response = none ∧ response.property? "data" = .object members ∧
    (JsValue.object members).property? "status" = view.status ∧
    (JsValue.object members).property? "send_at" = view.sendAt

section Respecting

variable [FixedNotation]

/-- An operation makes no writes but its own, and repeated once these took effect it
succeeds after reading the campaign. -/
structure Repeatable (request : CampaignRequest) (log : LifecycleLog) : Prop where
  own : ∀ entry ∈ log, entry.1.isWrite → entry.1 ∈ request.writes
  again : ∀ (view : CampaignView) answer more, Shows answer (request.writes.foldl .after view) →
    (LifecycleOperation.campaign request).execute (answer :: more) =
      (some (.ok (.moved ⟨request.id, request.target.text⟩)), [(getById request.id, answer)])

/-- An execution keeps to the lifecycle: its writes are allowed transitions at the revision that
was asked for, its report is backed by an answer, and it can be repeated. -/
structure Respects (operation : LifecycleOperation) (answers : List Answer) : Prop where
  allowed : Justified StatusWriteAllowed (operation.execute answers).2
  grounded : ∀ report, (operation.execute answers).1 = some (.ok report) →
    report.Grounded (operation.execute answers).2
  revision : ∀ request, operation = .campaign request →
    Justified (RevisionKept request) (operation.execute answers).2
  repeatable : ∀ request, operation = .campaign request →
    Repeatable request (operation.execute answers).2

/-- The answer carries data, whatever it is. -/
def carriesData : Answer → Bool
  | .returned response =>
      (Experiment.envelopeError? response).isNone &&
        match response.property? "data" with
        | .undefined => false
        | _ => true
  | .thrown _ => false

/-- The guard goes on to pause the campaign that these answers show. -/
def Pausing (campaignId : ℤ) (options : DeliverabilityGuardOptions) (campaign bounces : Answer) :
    Prop :=
  ∃ guarded count, guardedCampaign campaignId campaign = .ok guarded ∧
    getBounceCount campaignId bounces = .ok count ∧ guardPauses options guarded count = true

/-- When an operation keeps to the lifecycle: the guard pauses only a running campaign
and is not answered with data other than `true`, and a test is cancelled with no active
status but the one that can be cancelled. -/
def LifecycleOperation.Sound (answers : List Answer) : LifecycleOperation → Prop
  | .campaign _ => True
  | .guard campaignId options _ =>
      ∀ campaign bounces rest, answers = campaign :: bounces :: rest →
        Pausing campaignId options campaign bounces →
        readStatus campaign = .string "running" ∧
          ∀ answer ∈ rest.head?, carriesData answer → Acknowledged answer
  | .cancelTest test options =>
      ∀ entry ∈ ((test.campaignMappings.map (·.campaignId)).eraseDups).zip answers,
        ∀ status, observedStatus entry.2 = some status → status ∈ options.activeStatuses →
          status = "running" ∨ status = alreadyDeletedStatus

end Respecting

/-! ## Campaign operations -/

variable {request : CampaignRequest} {log : LifecycleLog} {answer : Answer}

/-- What holds when a campaign operation returned. -/
def Moved (request : CampaignRequest) (output : CampaignLifecycleOutput) (log : LifecycleLog) :
    Prop :=
  output = ⟨request.id, request.target.text⟩ ∧ Reached log request.id request.target.text

section Respecting

variable [FixedNotation]

variable {campaignId : ℤ} {options : DeliverabilityGuardOptions} {now : ℤ}
variable {campaign bounces : Answer} {answers : List Answer}

omit [FixedNotation] in
/-- The data that was unwrapped is the member `data`. -/
theorem unwrapData_ok {response data : JsValue} {context : Text}
    (h : Experiment.unwrapData response context = .ok data) :
    response.property? "data" = data ∧ Experiment.envelopeError? response = none := by
  rw [Experiment.unwrapData] at h
  cases hmembers : response.members?.isNone with
  | true =>
      simp only [hmembers] at h
      cases h
  | false =>
      simp only [hmembers] at h
      cases herror : Experiment.envelopeError? response with
      | some error =>
          simp only [herror] at h
          cases h
      | none =>
          cases hdata : response.property? "data" with
          | undefined =>
              simp only [herror, hdata] at h
              cases h
          | _ =>
              simp only [herror, hdata] at h
              cases h
              exact ⟨rfl, rfl⟩

omit [FixedNotation] in
theorem guardedCampaign_status {guarded : GuardedCampaign} {status : Text}
    (h : guardedCampaign campaignId campaign = .ok guarded) (hknown : status ≠ "unknown")
    (hstatus : isText guarded.status status = true) : isText (readStatus campaign) status = true := by
  cases campaign with
  | thrown error => cases h
  | returned response =>
      simp only [guardedCampaign, outcome, except_ok_bind] at h
      obtain ⟨data, hdata, h⟩ := except_bind_eq_ok.mp h
      obtain ⟨_, -, h⟩ := except_bind_eq_ok.mp h
      obtain ⟨_, -, h⟩ := except_bind_eq_ok.mp h
      cases h
      obtain ⟨rfl, -⟩ := unwrapData_ok hdata
      rw [isText_iff] at hstatus ⊢
      by_cases htruthy : ((response.property? "data").property? "status").isTruthy = true
      · rwa [if_pos htruthy] at hstatus
      · rw [if_neg htruthy, JsValue.string.injEq] at hstatus
        exact absurd hstatus.symm hknown

theorem Pausing.status (h : Pausing campaignId options campaign bounces) :
    isText (readStatus campaign) "running" || isText (readStatus campaign) "scheduled" := by
  obtain ⟨guarded, count, hcampaign, -, hpauses⟩ := h
  simp only [guardPauses, Bool.and_eq_true, Bool.or_eq_true] at hpauses ⊢
  rcases hpauses.2 with hrunning | hscheduled
  · exact .inl (guardedCampaign_status hcampaign (by simp) hrunning)
  · exact .inr (guardedCampaign_status hcampaign (by simp) hscheduled)

end Respecting

/-! ## Cancelling a test -/

section Cancelling

open ListmonkOps.Experiment (planCancelAbTest executeCancelPlan fetchCampaignStatuses
  performCampaignAction performListAction FetchedStatuses CallLog CancelPlan RemoteCampaignAction)

variable {test : AbTest} {options : PlanCancelOptions} {answers : List Answer}

variable [FixedNotation]

end Cancelling

/-! ## A scheduled campaign -/

section Sample

local instance sampleNotation : FixedNotation := ⟨fun _ _ => []⟩

end Sample

end ListmonkOps.Operations
