/-
The subscriber hygiene workflow.

A run lists the subscribers, picks the inactive ones, and mutates those of them
that the caller has echoed from a dry run. A mutation may be accepted, refused
in an error envelope that is returned without throwing, or throw; the run reads
nothing but whether it threw.
-/

import ListmonkOps.Math.Program
import ListmonkOps.Runtime.Timestamp
import Mathlib.Data.Rat.Floor

namespace ListmonkOps.Subscribers

open ListmonkOps.Math ListmonkOps.Runtime

/-! ## Subscribers and options -/

/-- `Subscriber` of the server, as far as the workflow reads it. -/
structure Subscriber where
  id : Option ℤ
  email : Option Text := none
  status : Option Text := none
  updated_at : Option Text := none
  created_at : Option Text := none
  /-- The identifiers of the lists. -/
  lists : List (Option ℤ) := []
  deriving DecidableEq

inductive SubscriberHygieneMode where
  | winback
  | sunset
  deriving DecidableEq

structure SubscriberHygieneOptions where
  mode : Option SubscriberHygieneMode := none
  inactivityDays : Option ℚ := none
  sourceListIds : Option (List ℤ) := none
  targetListId : Option ℤ := none
  blocklist : Option Bool := none
  subscriberIds : Option (List ℤ) := none
  dryRun : Option Bool := none
  maxSubscribers : Option ℚ := none

/-- A sample of the selected subscribers. -/
structure HygieneSample where
  emailMasked : Text
  updated_at : Option Text
  deriving DecidableEq

structure SubscriberHygieneResult where
  mode : SubscriberHygieneMode
  cutoffAt : DateTime
  dryRun : Bool
  totalSubscribersScanned : ℕ
  candidateSubscribers : ℕ
  processedSubscribers : ℕ
  skippedDueToLimit : ℕ
  subscriberIds : List ℤ
  targetListId : Option ℤ
  blocklist : Bool
  sample : List HygieneSample
  errors : List Text
  deriving DecidableEq

inductive HygieneError where
  | /-- An `Error` with its message. -/
    message (text : Text)
  | /-- The `Error` of an echoed set of this size that exceeds the limit. -/
    echoExceeds (size : ℕ) (maxSubscribers : ℚ)
  | /-- The `RangeError` of a cutoff that is no time value. -/
    range
  | /-- What a request threw. -/
    request (error : Text)
  deriving DecidableEq

inductive HygieneCall where
  | list
  | /-- `manageListById` with the action `add`. -/
    manageListById (id targetListId : ℤ)
  | /-- `manageBlocklistById` with the action `add`. -/
    manageBlocklistById (id : ℤ)
  deriving DecidableEq

/-- What becomes of a request. -/
inductive HygieneAnswer where
  | /-- The `data` of a list of subscribers. -/
    subscribers (results : List Subscriber)
  | /-- A mutation that the server has carried out. -/
    accepted
  | /-- An error envelope. -/
    refused (error : Text)
  | thrown (error : Text)
  deriving DecidableEq

abbrev HygieneProgram := Fallible HygieneCall HygieneAnswer HygieneError

/-! ## Selection -/

/-- `toPositiveInt`, of an optional integer. -/
def toPositiveInt (id : Option ℤ) : Option ℤ := id.filter (0 < ·)

def maskEmail (email : Text) : Text :=
  let domain := (email.reverse.takeWhile (· ≠ 64)).reverse
  let localPart := email.take (email.length - domain.length - 1)
  if 64 ∈ email ∧ localPart ≠ [] then
    localPart.take 1 ++ ("***" : Text) ++ 64 :: domain
  else "***"

example : maskEmail "jane@doe@example.com" = ("j***@example.com" : Text) ∧
    maskEmail "@example.com" = ("***" : Text) ∧ maskEmail "nobody" = ("***" : Text) := by
  decide +kernel

/-- The number that a time value is cut to. -/
def truncate (x : ℚ) : ℤ := if 0 ≤ x then ⌊x⌋ else ⌈x⌉

/-- `new Date(time)`: its time value, unless it is out of range. -/
def timeClip (time : ℚ) : Option ℤ :=
  if |time| ≤ 8640000000000000 then some (truncate time) else none

def cutoffDate (options : SubscriberHygieneOptions) (now : ℤ) : Option ℤ :=
  timeClip (now - max 1 (options.inactivityDays.getD 90) * 86400000)

/-- `maxSubscribers`. -/
def maxSubscribersOf (options : SubscriberHygieneOptions) : ℚ :=
  max 1 (options.maxSubscribers.getD 500)

/-- `mode`. -/
def modeOf (options : SubscriberHygieneOptions) : SubscriberHygieneMode :=
  options.mode.getD .winback

/-- `dryRun`. -/
def isDryRun (options : SubscriberHygieneOptions) : Bool := options.dryRun.getD true

/-- `blocklist`. -/
def blocklistOf (options : SubscriberHygieneOptions) : Bool := options.blocklist.getD false

/-- `options.targetListId`, where it is truthy. -/
def targetOf (options : SubscriberHygieneOptions) : Option ℤ := options.targetListId.filter (· ≠ 0)

section Selection

variable [CaseMapping] [DateParsing]

/-- `toDate(subscriber.updated_at || subscriber.created_at)`. -/
def updatedAtOf (subscriber : Subscriber) : Option ℤ :=
  (((subscriber.updated_at.filter (· ≠ [])).or subscriber.created_at).filter (· ≠ [])).bind
    DateParsing.parse

/-- The filter of `candidates`. A cutoff that is no time value excludes nobody. -/
def isCandidate (cutoff : Option ℤ) (sourceListIds : List ℤ) (subscriber : Subscriber) : Bool :=
  (toPositiveInt subscriber.id).isSome &&
    CaseMapping.toLowerCase (subscriber.status.getD []) = ("enabled" : Text) &&
    (updatedAtOf subscriber).any (fun time => !cutoff.any (· < time)) &&
    (sourceListIds = [] ||
      (subscriber.lists.filterMap toPositiveInt).any (· ∈ sourceListIds))

/-- `candidates`. -/
def candidatesOf (options : SubscriberHygieneOptions) (now : ℤ) (subscribers : List Subscriber) :
    List Subscriber :=
  subscribers.filter (isCandidate (cutoffDate options now) (options.sourceListIds.getD []))

/-- The checks of the echoed identifiers. -/
def checkEcho (options : SubscriberHygieneOptions) : Except HygieneError Unit := do
  let echoedIds := (options.subscriberIds.getD []).eraseDups
  if echoedIds.any fun id => !(0 < id && id ≤ maxSafeInteger) then
    .error (.message "Echoed subscriber ids must be positive safe integers")
  if !isDryRun options && options.subscriberIds = none then
    .error (.message ("Destructive hygiene runs require the exact subscriber ids a dry run " ++
      "reported"))
  if maxSubscribersOf options < echoedIds.length then
    .error (.echoExceeds echoedIds.length (maxSubscribersOf options))

def eligibleForEcho (options : SubscriberHygieneOptions) (candidates : List Subscriber) :
    List Subscriber :=
  match options.subscriberIds with
  | none => candidates
  | some echoedIds => candidates.filter fun subscriber =>
      (toPositiveInt subscriber.id).any (· ∈ echoedIds)

/-- `selected`. -/
def selectedOf (options : SubscriberHygieneOptions) (now : ℤ) (subscribers : List Subscriber) :
    List Subscriber :=
  (eligibleForEcho options (candidatesOf options now subscribers)).take ⌊maxSubscribersOf options⌋₊

/-- The checks of the mutations that a destructive run asks for. -/
def checkMutations (options : SubscriberHygieneOptions) : Except HygieneError Unit := do
  if modeOf options = .winback && targetOf options = none then
    .error (.message "targetListId is required for winback mode when dryRun=false")
  if modeOf options = .sunset && !blocklistOf options && targetOf options = none then
    .error (.message ("blocklist=true or targetListId is required for sunset mode when " ++
      "dryRun=false"))

/-! ## The run -/

/-- The mutations that a run asks for one subscriber, in their order. -/
def requestedCalls (options : SubscriberHygieneOptions) (id : ℤ) : List HygieneCall :=
  ((targetOf options).map (.manageListById id)).toList ++
    if modeOf options = .sunset ∧ blocklistOf options = true then [.manageBlocklistById id] else []

/-- What the loop learns about a subscriber. -/
structure Attempt where
  mutated : Bool
  failed : Bool
  deriving DecidableEq

/-- The mutations of one subscriber: the first that throws ends them. -/
def mutate : List HygieneCall → Bool → Program HygieneCall HygieneAnswer Attempt
  | [], mutated => pure { mutated, failed := false }
  | call :: calls, mutated => do
      match ← Program.perform call with
      | .thrown _ => pure { mutated, failed := true }
      | _ => mutate calls true

/-- `unwrapResponseData` and `extractResults`, on the answer to the list request. -/
def readSubscribers : HygieneAnswer → Except HygieneError (List Subscriber)
  | .subscribers results => .ok results
  | .accepted =>
      .error (.message "Failed to list subscribers for hygiene workflow: received empty data")
  | .refused error =>
      .error (.message (("Failed to list subscribers for hygiene workflow: " : Text) ++ error))
  | .thrown error => .error (.request error)

/-- The warning about a blocklist that winback ignores. -/
def warningsOf (options : SubscriberHygieneOptions) : List Text :=
  if modeOf options = .winback ∧ blocklistOf options = true then
    [("Warning: blocklist=true is ignored in winback mode; use sunset mode for blocklisting" : Text)]
  else []

/-- The report of a mutation that threw. -/
def mutationFailed : Text := "Subscriber mutation failed"

/-- The identifiers of the selected subscribers. -/
def idsOf (selected : List Subscriber) : List ℤ := selected.filterMap (toPositiveInt ·.id)

def resultOf (options : SubscriberHygieneOptions) (now : ℤ) (subscribers : List Subscriber)
    (attempts : List Attempt) : Except HygieneError SubscriberHygieneResult :=
  let candidates := candidatesOf options now subscribers
  let selected := selectedOf options now subscribers
  match cutoffDate options now with
  | none => .error .range
  | some cutoff =>
      .ok {
        mode := modeOf options
        cutoffAt := { time := cutoff }
        dryRun := isDryRun options
        totalSubscribersScanned := subscribers.length
        candidateSubscribers := candidates.length
        processedSubscribers := attempts.countP (·.mutated)
        skippedDueToLimit := (eligibleForEcho options candidates).length - selected.length
        subscriberIds := idsOf selected
        targetListId := options.targetListId
        blocklist := blocklistOf options
        sample := (selected.take 20).map fun candidate =>
          { emailMasked := maskEmail (candidate.email.getD [])
            updated_at := candidate.updated_at }
        errors := warningsOf options ++
          (attempts.filter (·.failed)).map fun _ => mutationFailed }

def runSubscriberHygiene (options : SubscriberHygieneOptions) (now : ℤ) :
    HygieneProgram SubscriberHygieneResult := do
  let subscribers ← Fallible.ask .list readSubscribers
  liftM (checkEcho options)
  if isDryRun options then
    liftM (resultOf options now subscribers [])
  else
    liftM (checkMutations options)
    let attempts ← liftM ((idsOf (selectedOf options now subscribers)).mapM fun id =>
      mutate (requestedCalls options id) false)
    liftM (resultOf options now subscribers attempts)

end Selection

end ListmonkOps.Subscribers
