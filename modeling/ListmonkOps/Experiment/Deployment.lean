/-
Deploying the winner of a holdout test.

The operations that move a test along: a run of one test, a tick over all of
them, and the manual deployment of a winner. Each works on the records read
from the store, and the records it leaves are written back only when it
returns; what it did on the server before stays. Creating the winner campaign,
starting it and writing the store are therefore three separate effects.
-/

import ListmonkOps.Experiment.Lifecycle
import ListmonkOps.Math.Keyed

namespace ListmonkOps.Experiment

open ListmonkOps.Math ListmonkOps.Runtime

/-! ## Analysis -/

/-- The figures of one variant; the rates are computed from them. -/
structure TestResults where
  variantId : Text
  sampleSize : JsValue
  opens : JsValue
  clicks : JsValue

structure TestAnalysis where
  isSignificant : Bool
  winner : Option Variant

/-- The statistics, which compute with floating-point numbers. -/
class Statistics where
  /-- The check of the pre-registered hypothesis. -/
  verifyHypothesis : AbTest → Except JsValue Unit
  /-- Significance, eligibility and the choice of the winner, at some time. -/
  analyze : AbTest → List TestResults → ℤ → Except JsValue TestAnalysis

def metricsUnavailable (testId : Text) (cause : JsValue) : JsValue :=
  .error "AbTestMetricsUnavailableError"
    (("Metrics unavailable for A/B test " : Text) ++ testId ++ (": " : Text) ++ formatError cause) []

/-- `value ?? 0`. -/
def orZero : JsValue → JsValue
  | .undefined | .null => .number 0
  | value => value

/-- The figures of a variant as its campaign reports them. -/
def readMetrics (mapping : CampaignMapping) (response : JsValue) : Except JsValue TestResults := do
  if response.members?.isNone then
    throw (.typeError "Cannot use 'in' operator to search for 'error'")
  let noData : Text := ("campaign " : Text) ++ (JsValue.number mapping.campaignId).toText ++
    (" returned no data" : Text)
  match response.member? "error", response.property? "data" with
  | some error, _ => throw (.ofMessage (noData ++ (": " : Text) ++ error.toText))
  | none, .undefined => throw (.ofMessage noData)
  | none, campaign =>
      pure
        { variantId := mapping.variantId
          sampleSize := orZero (← campaign.property "sent")
          opens := orZero (← campaign.property "views")
          clicks := orZero (← campaign.property "clicks") }

/-- Fetch the figures of one variant; any failure is a failure of the collection. -/
def collectOne (test : AbTest) (mapping : CampaignMapping) :
    Program Call Answer (Except JsValue TestResults) := do
  match ← Program.perform (.campaignGetById mapping.campaignId) with
  | .thrown error => pure (.error (metricsUnavailable test.id error))
  | .returned response =>
      match readMetrics mapping response with
      | .ok results => pure (.ok results)
      | .error error => pure (.error (metricsUnavailable test.id error))

def collect (test : AbTest) : Remote (List TestResults) := do
  if test.campaignMappings = [] then
    throw (metricsUnavailable test.id (.ofMessage "test has no backing campaign mappings"))
  else
    let collected ← ExceptT.lift (test.campaignMappings.mapM (collectOne test))
    ExceptT.mk (pure (collected.mapM id))

/-! ## Deployment -/

/-- `override || base`. -/
def orBase (override : Option Text) (base : Text) : Text :=
  match override with
  | none | some [] => base
  | some text => text

def winnerTag : Text := "winner:deployed"

def winnerCampaignBody (winner : Variant) (holdoutListId : ℤ) (baseConfig : BaseConfig)
    (testId : Text) (now : ℤ) : CampaignBody where
  name := ("A/B Test Winner - " : Text) ++ winner.name ++ (" - " : Text) ++
    (JsValue.number now).toText
  subject := orBase winner.contentOverrides.subject baseConfig.subject
  body := orBase winner.contentOverrides.body baseConfig.body
  lists := [holdoutListId]
  templateId := baseConfig.templateId
  tags := [("abtest:" : Text) ++ testId, ("variant:" : Text) ++ winner.id, winnerTag, "holdout:group"]

def deployWinnerToHoldout (winner : Variant) (holdoutListId : ℤ) (baseConfig : BaseConfig)
    (testId : Text) (now : ℤ) : Remote ℤ := do
  let result ← await (.campaignCreate (winnerCampaignBody winner holdoutListId baseConfig testId now))
  ExceptT.mk (pure do
    let created ← unwrapData result "Failed to create winner campaign"
    requireNumericId (← created.property "id") "Failed to create winner campaign")

/-- Start the winner campaign. The response is not looked at. -/
def autoDeployWinner (winnerCampaignId : ℤ) : Remote Unit := do
  let _ ← await (.campaignUpdateStatus winnerCampaignId "running")

/-- Create the winner campaign and start it when the test asks for it. -/
def launchWinner (test : AbTest) (winner : Variant) (holdoutListId : ℤ) (now : ℤ) : Remote ℤ := do
  let winnerCampaignId ←
    deployWinnerToHoldout winner holdoutListId test.baseConfig test.id now
  if test.autoDeployWinner then
    autoDeployWinner winnerCampaignId
    return winnerCampaignId
  else
    return winnerCampaignId

/-! ## Orchestration -/

/-- What a caller may expect of the record it approved. -/
structure Expected where
  status : Option Status := none
  updatedAt : Option DateTime := none
  deriving DecidableEq

/-- The record is still the one that was approved. -/
def checkExpected (test : AbTest) (expected : Expected) : Except JsValue Unit :=
  let changed : Text := ("A/B test " : Text) ++ test.id ++ (" changed after approval" : Text)
  match toISOString test.updatedAt with
  | none => .error (.error "RangeError" "Invalid time value" [])
  | some actualUpdatedAt =>
      match expected.status.filter (· ≠ test.status) with
      | some status =>
          .error (.ofMessage (changed ++ (" (expected status " : Text) ++ status.text ++
            (", current " : Text) ++ test.status.text ++ ("); inspect the test again" : Text)))
      | none =>
          -- The message also spells out the two instants.
          if expected.updatedAt.any (· ≠ actualUpdatedAt) then .error (.ofMessage changed)
          else .ok ()

/-- The report of a tick about one test. -/
structure TickResult where
  testId : Text
  status : Status
  action : Text

def previewOne (now : ℤ) (test : AbTest) : Option TickResult :=
  let report (action : Text) : Option TickResult := some ⟨test.id, test.status, action⟩
  if test.status ∈ terminalStatuses then none
  else
    match test.status with
    | .draft => report "skip:draft-not-launched"
    | .running =>
        match test.endsAt with
        | none => report "dry-run:noop:running-no-endsAt"
        | some endsAt =>
            if now < endsAt.time then report "dry-run:noop:running-before-endsAt"
            else report "dry-run:would-progress:running"
    | .scheduled =>
        if test.launchAt.any (·.time ≤ now) then report "dry-run:would-progress:scheduled"
        else report "dry-run:noop:scheduled-not-due"
    | .testing | .deploying | .cancelling =>
        report (("dry-run:noop:" : Text) ++ test.status.text ++ ("-transitional" : Text))
    | status => report (("dry-run:would-progress:" : Text) ++ status.text)

/-- The operations that may deploy a winner. -/
inductive Operation where
  | run (testId : Text) (expected : Expected)
  | tick (dryRun : Bool)
  | deployWinner (testId : Text)
  deriving DecidableEq

/-- The error for a test that is not in the store. -/
def testNotFound (testId : Text) : JsValue :=
  .error "AbTestNotFoundError"
    (("Test with ID " : Text) ++ testId ++ (" not found" : Text)) []

def onTest (tests : List AbTest) (testId : Text)
    (action : AbTest → Program Call Answer (AbTest × Except JsValue Unit)) :
    Program Call Answer (Except JsValue (List AbTest)) :=
  match tests.find? (·.id = testId) with
  | none => return .error (testNotFound testId)
  | some test => do
      match ← action test with
      | (_, .error error) => return .error error
      | (test, .ok ()) => return .ok (replaceBy (·.id) tests test)

/-! ## The server and the store -/

structure RemoteCampaign where
  id : ℤ
  lists : List ℤ
  tags : List Text
  status : Text
  /-- Whether it was ever moved to running. -/
  started : Bool
  deriving DecidableEq

structure Server where
  campaigns : List RemoteCampaign
  nextId : ℤ
  /-- The calls that reached it, oldest first. -/
  requests : List Call
  deriving DecidableEq

/-- What may happen to a call. -/
inductive Behaviour where
  | /-- It succeeds; `data` is what a read finds. -/
    serves (data : JsValue)
  | /-- It is answered with an error envelope. -/
    refuses (error : JsValue)
  | /-- It throws, before or after the server applied it. -/
    fails (error : JsValue) (applied : Bool)

namespace Server

def apply (server : Server) : Call → Server
  | .campaignCreate body =>
      { server with
        campaigns := server.campaigns ++ [⟨server.nextId, body.lists, body.tags, "draft", false⟩]
        nextId := server.nextId + 1 }
  | .campaignUpdateStatus id status =>
      { server with
        campaigns := server.campaigns.map fun campaign =>
          if campaign.id = id then
            { campaign with status, started := campaign.started || status = ("running" : Text) }
          else campaign }
  | _ => server

def dataFor (server : Server) (call : Call) (data : JsValue) : JsValue :=
  match call with
  | .campaignCreate _ => .object [("id", .number server.nextId)]
  | _ => data

def serve (server : Server) (call : Call) (behaviour : Behaviour) : Answer × Server :=
  let received := { server with requests := server.requests ++ [call] }
  match behaviour with
  | .serves data =>
      (.returned (.object [("data", server.dataFor call data)]), received.apply call)
  | .refuses error => (.returned (.object [("error", error)]), received)
  | .fails error applied => (.thrown error, if applied then received.apply call else received)

/-- The winner campaigns of a holdout list. -/
def winnerCampaigns (server : Server) (holdoutListId : ℤ) : List RemoteCampaign :=
  server.campaigns.filter fun campaign =>
    campaign.lists = [holdoutListId] && winnerTag ∈ campaign.tags

end Server

/-- The store and the server. -/
structure World where
  tests : List AbTest
  server : Server
  deriving DecidableEq

/-- One operation: when it runs, what becomes of each of its calls, and whether the
process lives to write the store. A script that ends early is a crash between two
calls. -/
structure OperationRun where
  operation : Operation
  now : ℤ
  script : List Behaviour
  committed : Bool

/-! ## The operations -/

section Operations

variable [Statistics]

def analyzeTest (test : AbTest) (now : ℤ) : Remote TestAnalysis := do
  ExceptT.mk (pure (Statistics.verifyHypothesis test))
  let results ← collect test
  ExceptT.mk (pure (Statistics.analyze test results now))

/-- Deploy the winner. The record is changed in place, so it is returned also where
the deployment throws. -/
def deployWinner (test : AbTest) (now : ℤ) :
    Program Call Answer (AbTest × Except JsValue Unit) := do
  if test.testingMode ≠ .holdout then
    return (test, .error (.ofMessage "Winner deployment is only available for holdout tests"))
  else
    match test.holdoutListId with
    | none | some 0 =>
        return (test, .error (.ofMessage "No holdout group available for winner deployment"))
    | some holdoutListId =>
        match ← (analyzeTest test now).run with
        | .error error => return (test, .error error)
        | .ok analysis =>
            match analysis.winner with
            | none => return (test, .error (.ofMessage "No statistically significant winner found"))
            | some winner =>
                -- The record is `deploying` while the two calls are under way.
                match ← (launchWinner test winner holdoutListId now).run with
                | .error error => return ({ test with status := .analyzing }, .error error)
                | .ok winnerCampaignId =>
                    return ({ test with
                      winnerCampaignId := some winnerCampaignId
                      winnerVariantId := some winner.id
                      status := .completed
                      updatedAt := now }, .ok ())

/-- Analyze a test and deploy its winner, or close it without a deployment. -/
def concludeTest (test : AbTest) (now : ℤ) :
    Program Call Answer (AbTest × Except JsValue Unit) := do
  match ← (analyzeTest test now).run with
  | .error error => return (test, .error error)
  | .ok analysis =>
      if test.autoDeployWinner && analysis.winner.isSome && test.testingMode = .holdout then
        match ← deployWinner test now with
        | (test, .error error) => return (test, .error error)
        | (test, .ok ()) => return (updateTestStatus test .completed now, .ok ())
      else
        return (updateTestStatus test
          (if analysis.isSignificant then .completed else .inconclusive) now, .ok ())

def runAbTest (test : AbTest) (expected : Expected) (now : ℤ) :
    Program Call Answer (AbTest × Except JsValue Unit) :=
  match checkExpected test expected with
  | .error error => return (test, .error error)
  | .ok () =>
      if test.status ∈ terminalStatuses then return (test, .ok ())
      else
        match test.status with
        | .scheduled =>
            if test.launchAt.any (·.time ≤ now) then
              return (updateTestStatus test .running now, .ok ())
            else return (test, .ok ())
        | .running =>
            if test.endsAt.any (·.time ≤ now) then
              return (updateTestStatus test .analyzing now, .ok ())
            else return (test, .ok ())
        | .analyzing => concludeTest test now
        | _ => return (test, .ok ())

/-- A tick leaves drafts and finished tests alone and goes on after an error. -/
def tickOne (now : ℤ) (test : AbTest) : Program Call Answer (AbTest × Option TickResult) :=
  if test.status ∈ terminalStatuses then return (test, none)
  else if test.status = .draft then
    return (test, some ⟨test.id, test.status, "skip:draft-not-launched"⟩)
  else do
    let (updated, outcome) ← runAbTest test {} now
    let action : Text :=
      match outcome with
      | .ok () =>
          if updated.status = test.status then ("noop:" : Text) ++ test.status.text
          else ("progress:" : Text) ++ test.status.text ++ ("->" : Text) ++ updated.status.text
      | .error error => ("error:" : Text) ++ formatError error
    return (updated, some ⟨test.id, updated.status, action⟩)

def tickAbTests (tests : List AbTest) (dryRun : Bool) (now : ℤ) :
    Program Call Answer (List AbTest × List TickResult) :=
  if dryRun then return (tests, tests.filterMap (previewOne now))
  else do
    let ticked ← tests.mapM (tickOne now)
    return (ticked.map Prod.fst, ticked.filterMap Prod.snd)

/-- An operation on the records of the store: the records to write back, or the
error after which nothing is written. -/
def Operation.execute (tests : List AbTest) (now : ℤ) :
    Operation → Program Call Answer (Except JsValue (List AbTest))
  | .run testId expected => onTest tests testId fun test => runAbTest test expected now
  | .deployWinner testId => onTest tests testId fun test => Experiment.deployWinner test now
  | .tick dryRun => do
      let (tests, _) ← tickAbTests tests dryRun now
      return .ok tests

/-- The store and the server after an operation. -/
def World.step (world : World) (op : OperationRun) : World :=
  let ended := (op.operation.execute world.tests op.now).run Server.serve world.server op.script
  { tests :=
      match ended.1 with
      | some (.ok tests) => if op.committed then tests else world.tests
      | _ => world.tests
    server := ended.2 }

def World.requests (world : World) (op : OperationRun) : List Call :=
  (world.step op).server.requests.drop world.server.requests.length

end Operations

end ListmonkOps.Experiment
