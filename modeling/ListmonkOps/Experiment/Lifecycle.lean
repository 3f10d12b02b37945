/-
Cancelling a test.

To stop a test the code asks the server for the status of every campaign, plans
one action for each from what it saw, performs the actions, and only then
deletes the lists, unless a campaign may still refer to them. What a deletion
of a list rests on is therefore in the answers that came before it, and the
results below read those answers off the calls that were made.
-/

import ListmonkOps.Experiment.Client
import ListmonkOps.Experiment.Types

namespace ListmonkOps.Experiment

open ListmonkOps.Math ListmonkOps.Runtime

/-! ## Planning -/

inductive RemoteCampaignAction where
  | cancel (campaignId : ℤ)
  | delete (campaignId : ℤ)
  | leave (campaignId : ℤ) (reason : Text)
  deriving DecidableEq

namespace RemoteCampaignAction

def campaignId : RemoteCampaignAction → ℤ
  | .cancel campaignId | .delete campaignId | .leave campaignId _ => campaignId

/-- The call an action makes; leaving a campaign alone makes none. -/
def call? : RemoteCampaignAction → Option Call
  | .cancel campaignId => some (.campaignUpdateStatus campaignId "cancelled")
  | .delete campaignId => some (.campaignDelete campaignId)
  | .leave _ _ => none

def reason? : RemoteCampaignAction → Option Text
  | .leave _ reason => some reason
  | _ => none

def isDelete : RemoteCampaignAction → Bool
  | .delete _ => true
  | _ => false

end RemoteCampaignAction

structure CancelPlan where
  testId : Text
  campaignActions : List RemoteCampaignAction
  /-- The lists to delete. -/
  listActions : List ℤ
  campaignsBlockingListDeletion : List ℤ

def defaultActiveStatuses : List Text := ["running"]

def defaultTerminalStatuses : List Text := ["finished", "sent", "cancelled"]

structure PlanCancelOptions where
  deleteTerminalCampaigns : Bool := false
  terminalStatuses : List Text := defaultTerminalStatuses
  activeStatuses : List Text := defaultActiveStatuses

/-- The status the planner is given for a campaign that is already gone. -/
def alreadyDeletedStatus : Text := "already_deleted"

/-- The planned action for one campaign, and whether the campaign then still
refers to its list. -/
def planCampaign (options : PlanCancelOptions) (status : Option Text) (campaignId : ℤ) :
    RemoteCampaignAction × Bool :=
  match status with
  | none => (.leave campaignId "status could not be observed", true)
  | some status =>
      if status = alreadyDeletedStatus then
        (.leave campaignId "campaign already deleted (404)", false)
      else if status ∈ options.activeStatuses then
        (.cancel campaignId, true)
      else if status ∈ options.terminalStatuses then
        if options.deleteTerminalCampaigns then (.delete campaignId, false)
        else (.leave campaignId (("terminal status " : Text) ++ status), true)
      else
        -- Draft, scheduled, paused or unknown: only deleting keeps it from firing.
        (.delete campaignId, false)

/-- What was observed about the campaigns: their statuses, and the campaigns whose
status could not be read. -/
structure FetchedStatuses where
  statuses : List (ℤ × Text)
  unobservable : List ℤ

def FetchedStatuses.get (fetched : FetchedStatuses) (campaignId : ℤ) : Option Text :=
  (fetched.statuses.find? (·.1 = campaignId)).map Prod.snd

def planCancelAbTest (test : AbTest) (observed : FetchedStatuses) (options : PlanCancelOptions) :
    CancelPlan :=
  let planned := test.campaignMappings.map fun mapping =>
    planCampaign options (observed.get mapping.campaignId) mapping.campaignId
  { testId := test.id
    campaignActions := planned.map Prod.fst
    listActions :=
      (test.testListMappings.map (·.listId) ++ test.holdoutListId.toList).eraseDups
    campaignsBlockingListDeletion :=
      (planned.filter Prod.snd).map (·.1.campaignId) ++ test.winnerCampaignId.toList }

/-! ## Execution -/

inductive ActionOutcome where
  | success
  | notFound
  | failed
  deriving DecidableEq

/-- How the answer to a cancellation or a deletion is taken. -/
def outcomeOf (answer : Answer) : ActionOutcome :=
  if answer.accepted then .success else if answer.notFound then .notFound else .failed

/-- The detail recorded with an outcome. -/
def detailOf : Answer → Option Text
  | .returned response => errorEnvelopeMessage response
  | .thrown error => some (formatError error)

structure CampaignResult where
  action : RemoteCampaignAction
  outcome : ActionOutcome
  detail : Option Text

inductive ListOutcome where
  | settled (outcome : ActionOutcome)
  | skippedActiveReference
  deriving DecidableEq

structure ListResult where
  listId : ℤ
  outcome : ListOutcome
  detail : Option Text

structure CancelExecutionResult where
  plan : CancelPlan
  campaignResults : List CampaignResult
  listResults : List ListResult
  hadFetchFailures : Bool

namespace CancelExecutionResult

def fullyCleaned (result : CancelExecutionResult) : Bool :=
  result.campaignResults.all (·.outcome ≠ .failed) &&
    result.listResults.all fun list =>
      list.outcome ≠ .skippedActiveReference && list.outcome ≠ .settled .failed

def hadRetainedResources (result : CancelExecutionResult) : Bool :=
  result.listResults.any (·.outcome = .skippedActiveReference)

def hadFailures (result : CancelExecutionResult) : Bool :=
  result.campaignResults.any (·.outcome = .failed) ||
    result.listResults.any (·.outcome = .settled .failed)

/-- Everything is cleaned up where nothing failed and nothing was retained. -/
theorem fullyCleaned_iff {result : CancelExecutionResult} : result.fullyCleaned = true ↔
    result.hadFailures = false ∧ result.hadRetainedResources = false := by
  simp only [fullyCleaned, hadFailures, hadRetainedResources, Bool.and_eq_true, List.all_eq_true,
    Bool.or_eq_false_iff, List.any_eq_false, decide_eq_true_eq]
  exact ⟨fun h => ⟨⟨h.1, fun list hlist => (h.2 list hlist).2⟩, fun list hlist =>
    (h.2 list hlist).1⟩, fun h => ⟨h.1.1, fun list hlist => ⟨h.2 list hlist, h.1.2 list hlist⟩⟩⟩

end CancelExecutionResult

def performCampaignAction (action : RemoteCampaignAction) :
    Program Call Answer CampaignResult :=
  match action.call? with
  | none => pure ⟨action, .success, action.reason?⟩
  | some call => do
      let answer ← Program.perform call
      pure ⟨action, outcomeOf answer, detailOf answer⟩

/-- The campaigns that may still refer to a list after the actions. -/
def survivingListReferences (plan : CancelPlan) (results : List CampaignResult) : List ℤ :=
  let deleted := (results.filter fun result =>
    result.outcome = .success && result.action.isDelete).map (·.action.campaignId)
  plan.campaignsBlockingListDeletion.filter (· ∉ deleted) ++
    (results.filter (·.outcome = .failed)).map (·.action.campaignId)

/-- Delete a list unless a campaign survived. -/
def performListAction (anySurvivingReference : Bool) (listId : ℤ) :
    Program Call Answer ListResult :=
  if anySurvivingReference then
    pure ⟨listId, .skippedActiveReference,
      some "one or more campaigns survived cancel; list retained"⟩
  else do
    let answer ← Program.perform (.listDelete listId)
    pure ⟨listId, .settled (outcomeOf answer), detailOf answer⟩

def executeCancelPlan (plan : CancelPlan) : Program Call Answer CancelExecutionResult := do
  let campaignResults ← plan.campaignActions.mapM performCampaignAction
  let surviving := survivingListReferences plan campaignResults
  let listResults ← plan.listActions.mapM (performListAction (surviving ≠ []))
  pure { plan, campaignResults, listResults, hadFetchFailures := false }

/-- The status an answer gives for a campaign. -/
def observedStatus : Answer → Option Text
  | .returned response =>
      if (envelopeError? response).isSome then
        if isNotFoundError response then some alreadyDeletedStatus else none
      else
        match (response.property? "data").property? "status" with
        | .string status => some status
        | _ => none
  | .thrown error => if isNotFoundError error then some alreadyDeletedStatus else none

def fetchCampaignStatuses (campaignIds : List ℤ) : Program Call Answer FetchedStatuses := do
  let observed ← campaignIds.mapM fun campaignId => do
    let answer ← Program.perform (.campaignGetById campaignId)
    pure (campaignId, observedStatus answer)
  pure
    { statuses := observed.filterMap fun (campaignId, status) => status.map (campaignId, ·)
      unobservable := (observed.filter (·.2 = none)).map Prod.fst }

def cancelAbTest (test : AbTest) (options : PlanCancelOptions) :
    Program Call Answer CancelExecutionResult := do
  let campaignIds := (test.campaignMappings.map (·.campaignId)).eraseDups
  let fetched ← fetchCampaignStatuses campaignIds
  let plan := planCancelAbTest test fetched options
  let result ← executeCancelPlan plan
  pure { result with hadFetchFailures := fetched.unobservable ≠ [] }

/-! ## Stopping -/

/-- Nothing is launched or stopped before the provisioning is complete. -/
def assertProvisioned (test : AbTest) (action : Text) : Except JsValue Unit :=
  if test.pendingCreate.isSome then
    throw (.ofMessage (("A/B test " : Text) ++ test.id ++
      (" is still being provisioned; " : Text) ++ action ++
      (" is blocked until the create completes" : Text)))
  else pure ()

def updateTestStatus (test : AbTest) (status : Status) (now : ℤ) : AbTest :=
  { test with status, updatedAt := now }

/-- The texts of `status` in messages. -/
def Status.text : Status → Text
  | .draft => "draft"
  | .testing => "testing"
  | .scheduled => "scheduled"
  | .running => "running"
  | .analyzing => "analyzing"
  | .deploying => "deploying"
  | .cancelling => "cancelling"
  | .completed => "completed"
  | .inconclusive => "inconclusive"
  | .cancelled => "cancelled"
  | .failed => "failed"

def nonAuthoritativeReasons (result : CancelExecutionResult) : Text :=
  let failedCampaigns := result.campaignResults.countP (·.outcome = .failed)
  let failedLists := result.listResults.countP (·.outcome = .settled .failed)
  let failures : Text := Text.ofNat failedCampaigns ++ (" campaign action(s) and " : Text) ++
    Text.ofNat failedLists ++ (" list action(s) failed" : Text)
  let unverified : Text := "campaign status could not be verified"
  match result.hadFailures, result.hadFetchFailures with
  | true, true => failures ++ ("; " : Text) ++ unverified
  | true, false => failures
  | false, _ => unverified

def stopAbTest (test : AbTest) (now : ℤ) : Remote AbTest := do
  ExceptT.mk (pure (assertProvisioned test "stop"))
  if test.status = .cancelled then
    return test
  else if test.status ≠ .running ∧ test.status ≠ .scheduled then
    throw (.ofMessage (("Test " : Text) ++ test.id ++
      (" is not running or scheduled (current: " : Text) ++ test.status.text ++ (")" : Text)))
  else
    let result ← ExceptT.lift (cancelAbTest test {})
    if result.hadFailures || result.hadFetchFailures then
      throw (.ofMessage (("A/B test " : Text) ++ test.id ++
        (" stop is non-authoritative: " : Text) ++ nonAuthoritativeReasons result ++
        ("; inspect remote resources before retrying" : Text)))
    else
      return updateTestStatus test .cancelled now

/-! ## Deleting -/

/-- Whether an envelope says that the resource is gone. Here a message counts also
where the envelope carries another HTTP status. -/
def envelopeNotFound (response : JsValue) : Bool :=
  responseStatus? response = some 404 || saysNotFound (formatError (response.property? "error"))

/-- The failure that an answer stands for, unless the resource is gone. -/
def mutationFailure? (answer : Answer) (context : Text) : Option Text :=
  match answer with
  | .thrown error => some (formatError error)
  | .returned response =>
      if response.members?.isNone then some "Cannot use 'in' operator to search for 'error'"
      else
        match envelopeError? response with
        | none => none
        | some error =>
            if envelopeNotFound response then none
            else some (context ++ (": " : Text) ++ formatError error)

/-- Delete a campaign, a running one after cancelling it; the failure, if any. -/
def deleteCampaignResource (campaignId : ℤ) : Program Call Answer (Option Text) := do
  let id := (JsValue.number campaignId).toText
  let fetched ← Program.perform (.campaignGetById campaignId)
  match fetched, mutationFailure? fetched (("Failed to fetch campaign " : Text) ++ id) with
  | _, some failure => return some failure
  | .thrown _, none => return none
  | .returned response, none =>
      if (envelopeError? response).isSome then return none
      else
        let delete : Program Call Answer (Option Text) := do
          let deleted ← Program.perform (.campaignDelete campaignId)
          return mutationFailure? deleted (("Failed to delete campaign " : Text) ++ id)
        match (response.property? "data").property? "status" with
        | .string status =>
            if status = ("running" : Text) then do
              let cancelled ← Program.perform (.campaignUpdateStatus campaignId "cancelled")
              match mutationFailure? cancelled
                  (("Failed to cancel running campaign " : Text) ++ id) with
              | some failure => return some failure
              | none => delete
            else delete
        | _ => delete

def deleteListResource (listId : ℤ) : Program Call Answer (Option Text) := do
  let deleted ← Program.perform (.listDelete listId)
  return mutationFailure? deleted
    (("Failed to delete list " : Text) ++ (JsValue.number listId).toText)

/-- Delete the campaigns, and the lists when no campaign failed. -/
def deleteTestResources (campaignIds listIds : List ℤ) : Remote Unit := do
  let campaignFailures ← ExceptT.lift (campaignIds.mapM deleteCampaignResource)
  let listFailures ← ExceptT.lift (
    if campaignFailures.filterMap id = [] then listIds.reverse.mapM deleteListResource else pure [])
  let errors := campaignFailures.filterMap id ++ listFailures.filterMap id
  if errors ≠ [] then
    throw (.ofMessage (("Failed to cleanup some Listmonk resources for test deletion (" : Text) ++
      Text.ofNat errors.length ++ (" failure(s)): " : Text) ++
      List.intercalate ("; " : Text) errors))
  else
    return ()

/-- Delete the resources of a test before its record goes; those of a finished test
stay. -/
def deleteTest (test : AbTest) : Remote Unit := do
  if test.status ∉ terminalStatuses ∧ test.campaignMappings ≠ [] then
    deleteTestResources
      (test.campaignMappings.map (·.campaignId) ++ test.winnerCampaignId.toList)
      (test.testListMappings.map (·.listId) ++ test.holdoutListId.toList)
  else
    return ()

end ListmonkOps.Experiment
