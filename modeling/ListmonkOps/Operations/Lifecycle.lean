/-
The lifecycle of a campaign.

Which status may follow which is one table. Five operations write statuses: the
campaign operations look the move up in the table, after they read the campaign,
and take a campaign that is already where it should be for done; the
deliverability guard and the cancellation of a test decide by lists of their own.
What each of them may do is therefore stated over the record of its calls: what
it wrote, beside what it had read.
-/

import ListmonkOps.Experiment.Lifecycle
import ListmonkOps.Operations.Responses
import ListmonkOps.Runtime.Tables

namespace ListmonkOps.Operations

open ListmonkOps.Math ListmonkOps.Runtime
open ListmonkOps.Experiment (JsValue Answer AbTest CancelExecutionResult PlanCancelOptions)

/-! ## The table -/

/-- The statuses a campaign can be sent to. -/
inductive CampaignLifecycleTarget where
  | scheduled
  | running
  | paused
  | cancelled
  deriving DecidableEq

namespace CampaignLifecycleTarget

def text : CampaignLifecycleTarget → Text
  | .scheduled => "scheduled"
  | .running => "running"
  | .paused => "paused"
  | .cancelled => "cancelled"

/-- `CAMPAIGN_LIFECYCLE_VERBS`. -/
def verb : CampaignLifecycleTarget → Text
  | .scheduled => "schedule"
  | .running => "start"
  | .paused => "pause"
  | .cancelled => "cancel"

end CampaignLifecycleTarget

def campaignTransitions : List (Text × List CampaignLifecycleTarget) :=
  [("draft", [.scheduled, .running]), ("scheduled", [.running]),
    ("running", [.paused, .cancelled]), ("paused", [.running]), ("finished", []),
    ("cancelled", [])]

/-- Whether the table allows the move. Any value is a key by its text, and a name that
every object inherits finds something that is not a set. -/
def canTransitionTo (current : JsValue) (target : CampaignLifecycleTarget) :
    Except JsValue Bool :=
  match current with
  | .undefined => pure false
  | _ =>
      match readTable campaignTransitions current.toText with
      | none => pure false
      | some (.own allowed) => pure (target ∈ allowed)
      | some (.inherited _) => throw (.typeError "allowed.has is not a function")

def invalidCampaignTransitionError (current : JsValue) (target : CampaignLifecycleTarget) :
    JsValue :=
  .error "InvalidCampaignTransitionError"
    (("Campaign " : Text) ++ (orElse current (.string "<unknown>")).toText ++ (" -> " : Text) ++
      target.text ++ (" is not a valid lifecycle transition" : Text))
    [("currentStatus", current), ("targetStatus", .string target.text)]

def assertCampaignTransition (current : JsValue) (target : CampaignLifecycleTarget) :
    Except JsValue Unit := do
  unless ← canTransitionTo current target do
    throw (invalidCampaignTransitionError current target)

/-- The calls that lifecycle operations make: those of a cancelled test, and two more. -/
inductive LifecycleCall where
  | campaign (call : Experiment.Call)
  | /-- Update a campaign with nothing but a new `send_at`. -/
    updateSendAt (id : ℤ) (sendAt : Text)
  | bounceList (campaignId : ℤ)
  deriving DecidableEq

namespace LifecycleCall

abbrev getById (id : ℤ) : LifecycleCall := .campaign (.campaignGetById id)

abbrev updateStatus (id : ℤ) (status : Text) : LifecycleCall :=
  .campaign (.campaignUpdateStatus id status)

end LifecycleCall

open LifecycleCall (getById updateStatus)

abbrev Lifecycle (α : Type) := Fallible LifecycleCall Answer JsValue α

abbrev LifecycleLog := List (LifecycleCall × Answer)

/-! ## Campaign operations -/

/-- What an operation reads before it moves a campaign. -/
structure LoadedCampaign where
  id : ℤ
  status : JsValue
  sendAt : JsValue
  updatedAt : JsValue

/-- What the answer to a read says about the campaign, unless the target cannot be
reached from there. -/
def loadedCampaign (id : ℤ) (target : CampaignLifecycleTarget) (answer : Answer) :
    Except JsValue LoadedCampaign := do
  let response ← outcome answer
  let campaign ← unwrapResourceResponse response "Failed to load campaign for transition"
  let status := orElse (← campaign.property "status") (.string "<unknown>")
  -- The target status itself is a match, not a move.
  unless isText status target.text do assertCampaignTransition status target
  pure ⟨id, status, campaign.property? "send_at", campaign.property? "updated_at"⟩

def loadCampaignForTransitionForTarget (id : ℤ) (target : CampaignLifecycleTarget) :
    Lifecycle LoadedCampaign :=
  Fallible.ask (getById id) (loadedCampaign id target)

/-- Only the revision that a caller looked at is changed, where the caller names one. -/
def assertExpectedCampaignRevision (id : ℤ) (actual : JsValue) (expected : Option Text) :
    Except JsValue Unit :=
  match expected with
  | none => pure ()
  | some expected =>
      if isText actual expected then pure ()
      else throw (.ofMessage
        (("Campaign " : Text) ++ JsValue.toText (.number id) ++
          (" changed after preflight (expected updated_at " : Text) ++ expected ++
          (", current " : Text) ++ (orElse actual (.string "<missing>")).toText ++
          ("); inspect and preflight the campaign again" : Text)))

def settle {α : Type} (result : Except JsValue α) : Lifecycle α := ExceptT.mk (pure result)

/-- A mutation, which the server has to acknowledge. -/
def acknowledge (call : LifecycleCall) (context : Text) : Lifecycle Unit :=
  Fallible.ask call fun answer => do requireAcknowledgement (← outcome answer) context

/-- The campaign and its new status. -/
structure CampaignLifecycleOutput where
  id : ℤ
  status : Text
  deriving DecidableEq

def transitionCampaign (id : ℤ) (expectedUpdatedAt : Option Text)
    (target : CampaignLifecycleTarget) : Lifecycle CampaignLifecycleOutput := do
  let loaded ← loadCampaignForTransitionForTarget id target
  if isText loaded.status target.text then
    return ⟨id, target.text⟩
  else
    settle (assertExpectedCampaignRevision id loaded.updatedAt expectedUpdatedAt)
    acknowledge (updateStatus id target.text)
      (("Failed to " : Text) ++ target.verb ++ (" campaign " : Text) ++ JsValue.toText (.number id))
    return ⟨id, target.text⟩

/-- Set `send_at`, which must be there before the status changes. -/
def setSendAt (id : ℤ) (sendAt : Text) : Lifecycle Unit :=
  Fallible.ask (.updateSendAt id sendAt) fun answer => do
    let _ ← unwrapResourceResponse (← outcome answer) "Failed to set campaign send_at"

/-- The failure of a schedule that may have left `send_at` behind. -/
def partialScheduleError (id : ℤ) (sendAt : Text) (cause : JsValue) : JsValue :=
  .error "Error"
    (("Campaign " : Text) ++ JsValue.toText (.number id) ++ (" send_at was updated to " : Text) ++
      sendAt ++ (" but the status transition to scheduled failed. The campaign may be left " : Text) ++
      ("with send_at set and the prior status — verify with 'campaigns get' before retrying." : Text))
    [("cause", cause)]

def scheduleCampaign (id : ℤ) (sendAt : Text) (expectedUpdatedAt : Option Text) :
    Lifecycle CampaignLifecycleOutput := do
  let loaded ← loadCampaignForTransitionForTarget id .scheduled
  if isText loaded.status "scheduled" && isText loaded.sendAt sendAt then
    return ⟨id, "scheduled"⟩
  else
    settle (assertExpectedCampaignRevision id loaded.updatedAt expectedUpdatedAt)
    setSendAt id sendAt
    if isText loaded.status "scheduled" then
      return ⟨id, "scheduled"⟩
    else
      tryCatch
        (acknowledge (updateStatus id "scheduled")
          (("Failed to schedule campaign " : Text) ++ JsValue.toText (.number id)))
        fun error => throw (partialScheduleError id sendAt error)
      return ⟨id, "scheduled"⟩

def startCampaign (id : ℤ) (expectedUpdatedAt : Option Text) : Lifecycle CampaignLifecycleOutput :=
  transitionCampaign id expectedUpdatedAt .running

def pauseCampaign (id : ℤ) (expectedUpdatedAt : Option Text) : Lifecycle CampaignLifecycleOutput :=
  transitionCampaign id expectedUpdatedAt .paused

def cancelCampaign (id : ℤ) (expectedUpdatedAt : Option Text) :
    Lifecycle CampaignLifecycleOutput :=
  transitionCampaign id expectedUpdatedAt .cancelled

/-! ## The deliverability guard -/

/-- `Number.prototype.toFixed`. -/
class FixedNotation where
  toFixed : Float → ℕ → Text

structure DeliverabilityGuardOptions where
  bounceThreshold : Option Float := none
  openRateThreshold : Option Float := none
  clickRateThreshold : Option Float := none
  pauseOnBreach : Option Bool := none
  minimumSent : Option Float := none

structure GuardThresholds where
  bounceRate : Float
  openRate : Float
  clickRate : Float

def DeliverabilityGuardOptions.thresholds (options : DeliverabilityGuardOptions) :
    GuardThresholds where
  bounceRate := options.bounceThreshold.getD 0.05
  openRate := options.openRateThreshold.getD 0.08
  clickRate := options.clickRateThreshold.getD 0.01

structure GuardMetrics where
  sent : Float
  toSend : Float
  views : Float
  clicks : Float
  bounces : Float
  bounceRate : Float
  openRate : Float
  clickRate : Float

structure DeliverabilityGuardResult where
  campaignId : ℤ
  campaignName : Text
  status : JsValue
  checkedAt : ℤ
  metrics : GuardMetrics
  thresholds : GuardThresholds
  breaches : List Text
  paused : Bool

/-- `Math.max(0, Number(value || 0))` of a count, which the client types as a number. -/
def guardCount (value : JsValue) : Float :=
  match value with
  | .number n => if n < 0 then 0 else Float.ofInt n
  | .undefined | .null | .boolean false | .string [] => 0
  | .boolean true => 1
  | _ => 0 / 0

/-- What the guard takes from a campaign. -/
structure GuardedCampaign where
  name : Text
  sent : Float
  toSend : Float
  views : Float
  clicks : Float
  status : JsValue

/-- `campaign.name?.trim() || fallback`. -/
def guardedName (name : JsValue) (fallback : Text) : Except JsValue Text :=
  match name with
  | .undefined | .null => pure fallback
  | .string name => pure (if name.trim = [] then fallback else name.trim)
  | _ => throw (.typeError "campaign.name.trim is not a function")

def guardedCampaign (campaignId : ℤ) (answer : Answer) : Except JsValue GuardedCampaign := do
  let id := JsValue.toText (.number campaignId)
  let campaign ← Experiment.unwrapData (← outcome answer)
    (("Failed to fetch campaign " : Text) ++ id)
  let name ← guardedName (← campaign.property "name") (("Campaign " : Text) ++ id)
  let status := campaign.property? "status"
  pure
    { name
      sent := guardCount (campaign.property? "sent")
      toSend := guardCount (campaign.property? "to_send")
      views := guardCount (campaign.property? "views")
      clicks := guardCount (campaign.property? "clicks")
      status := if status.isTruthy then status else .string "unknown" }

/-- `extractResults(payload).length`. -/
def resultCount (payload : JsValue) : ℕ :=
  match payload with
  | .array items => items.length
  | _ =>
      match payload.property? "results" with
      | .array items => items.length
      | _ => 0

def getBounceCount (campaignId : ℤ) (answer : Answer) : Except JsValue ℕ := do
  let payload ← Experiment.unwrapData (← outcome answer)
    (("Failed to list bounces for campaign " : Text) ++ JsValue.toText (.number campaignId))
  pure (resultCount payload)

def guardMetrics (campaign : GuardedCampaign) (bounceCount : ℕ) : GuardMetrics :=
  let bounces := Float.ofNat bounceCount
  let rate (count : Float) : Float := if 0 < campaign.sent then count / campaign.sent else 0
  { sent := campaign.sent
    toSend := campaign.toSend
    views := campaign.views
    clicks := campaign.clicks
    bounces
    bounceRate := rate bounces
    openRate := rate campaign.views
    clickRate := rate campaign.clicks }

section Guard

variable [FixedNotation]

def breachText (metric : Text) (rate : Float) (direction : Text) (threshold : Float) : Text :=
  metric ++ (" rate " : Text) ++ FixedNotation.toFixed (rate * 100) 2 ++ ("% is " : Text) ++
    direction ++ (" " : Text) ++ FixedNotation.toFixed (threshold * 100) 2 ++ ("%" : Text)

/-- The thresholds that are not kept. Engagement counts from `minimumSent` on. -/
def guardBreaches (options : DeliverabilityGuardOptions) (metrics : GuardMetrics) : List Text :=
  let thresholds := options.thresholds
  let enough : Bool := options.minimumSent.getD 100 ≤ metrics.sent
  (if thresholds.bounceRate < metrics.bounceRate then
    [breachText "Bounce" metrics.bounceRate "above" thresholds.bounceRate] else []) ++
  (if enough && metrics.openRate < thresholds.openRate then
    [breachText "Open" metrics.openRate "below" thresholds.openRate] else []) ++
  (if enough && metrics.clickRate < thresholds.clickRate then
    [breachText "Click" metrics.clickRate "below" thresholds.clickRate] else [])

/-- Whether the guard goes on to pause the campaign. -/
def guardPauses (options : DeliverabilityGuardOptions) (campaign : GuardedCampaign)
    (bounceCount : ℕ) : Bool :=
  options.pauseOnBreach = some true &&
    guardBreaches options (guardMetrics campaign bounceCount) ≠ [] &&
    (isText campaign.status "running" || isText campaign.status "scheduled")

/-- The pause of the guard, of which only the data is asked for. -/
def pausedAnswer (campaignId : ℤ) (answer : Answer) : Except JsValue Unit := do
  let response ← outcome answer
  let _ ← Experiment.unwrapData response
    (("Failed to pause campaign " : Text) ++ JsValue.toText (.number campaignId))

def evaluateDeliverabilityGuard (campaignId : ℤ) (options : DeliverabilityGuardOptions)
    (now : ℤ) : Lifecycle DeliverabilityGuardResult := do
  let campaign ← Fallible.ask (getById campaignId) (guardedCampaign campaignId)
  let bounceCount ← Fallible.ask (.bounceList campaignId) (getBounceCount campaignId)
  let metrics := guardMetrics campaign bounceCount
  let paused := guardPauses options campaign bounceCount
  let _ ← if paused then
      Fallible.ask (updateStatus campaignId "paused") (pausedAnswer campaignId)
    else pure ()
  return {
    campaignId
    campaignName := campaign.name
    status := campaign.status
    checkedAt := now
    metrics
    thresholds := options.thresholds
    breaches := guardBreaches options metrics
    paused }

end Guard

end ListmonkOps.Operations
