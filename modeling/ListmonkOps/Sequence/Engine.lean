/-
The sequence engine.

A tick claims the enrollments that are due and executes each one's current
step: it computes the next record of the enrollment and hands it back to the
repository. A send step looks the subscriber up and sends a transactional
message under a key that names the enrollment, its revision and the step; every
error on the way becomes a status of the enrollment. What an operator does with
an enrollment whose message may or may not have been sent is at the end.
-/

import ListmonkOps.Sequence.Repository
import Mathlib.Algebra.Order.Floor.Ring
import Mathlib.Data.Rat.Floor

namespace ListmonkOps.Sequence

open ListmonkOps.Math ListmonkOps.Runtime ListmonkOps.Transactional

def sequenceRetryBaseDelayMs : ℕ := 5000

def sequenceRetryMaxDelayMs : ℕ := 5 * 60000

def sequenceRetryMaxAttempts : ℕ := 24

def truncateError (error : Thrown) : Text := error.message.take 1000

/-- `nextStep`: the step after the current one, if there is one. -/
def nextStep (revision : SequenceRevision) (currentStepId : StepId) :
    Except Thrown (Option SequenceStep) :=
  match stepIndex revision.steps currentStepId with
  | none => .error { message := ("Sequence revision " : Text) ++ Text.ofNat revision.revision ++
      (" does not contain current step " : Text) ++ currentStepId }
  | some index => .ok revision.steps[index + 1]?

/-! ## Conditions -/

/-- `resolvePath`, by the segments of the path. -/
def resolvePath : Json → List Text → Option Json
  | value, [] => some value
  | .object members, segment :: segments =>
      (members.lookup segment).bind fun value => resolvePath value segments
  | _, _ :: _ => none

def evaluateCondition (step : SequenceConditionStep) (context : List (Text × Json)) : Bool :=
  let actual := resolvePath (.object context) (step.path.val.splitOn 46)
  match step.operator with
  | .exists => actual.isSome
  | .equals => Json.optionDeepStrictEqual actual step.value
  | .notEquals => !Json.optionDeepStrictEqual actual step.value

/-! ## The next record -/

/-- `Partial<SequenceEnrollment>`, as far as the engine uses it. -/
structure EnrollmentChanges where
  status : SequenceEnrollmentStatus
  retryCount : Option ℕ := none
  currentStepId : Option StepId := none
  nextRunAt : Option DateTime := none
  lastError : Option (Option Text) := none

/-- `now.toISOString()` in the engine. -/
def isoString (time : ℤ) : Except Thrown DateTime :=
  match toISOString time with
  | some d => .ok d
  | none => .error invalidTimeValue

def withoutLease (enrollment : SequenceEnrollment) (changes : EnrollmentChanges) (now : ℤ) :
    Except Thrown UnleasedEnrollment := do
  let updatedAt ← isoString now
  return ⟨{ enrollment with
      status := changes.status
      retryCount := changes.retryCount.getD enrollment.retryCount
      currentStepId := changes.currentStepId.getD enrollment.currentStepId
      nextRunAt := changes.nextRunAt.getD enrollment.nextRunAt
      leaseToken := none
      leaseExpiresAt := none
      lastError := changes.lastError.getD enrollment.lastError
      lastTransitionAt := updatedAt
      updatedAt }, rfl, rfl⟩

/-- The changes of an enrollment that goes on at a step. -/
def advanceTo (status : SequenceEnrollmentStatus) (stepId : StepId) (nextRunAt : DateTime) :
    EnrollmentChanges :=
  { status, retryCount := some 0, currentStepId := some stepId, nextRunAt := some nextRunAt,
    lastError := some none }

/-- The changes of an enrollment that has run its last step. -/
def completed : EnrollmentChanges :=
  { status := .completed, retryCount := some 0, lastError := some none }

/-- The changes of an enrollment that ends with a message. -/
def ended (status : SequenceEnrollmentStatus) (lastError : Text) : EnrollmentChanges :=
  { status, retryCount := some 0, lastError := some (some lastError) }

/-- `transitionToNext`; no caller passes overrides. -/
def transitionToNext (claimed : ClaimedSequenceEnrollment) (now : ℤ) :
    Except Thrown UnleasedEnrollment := do
  match ← nextStep claimed.revision claimed.enrollment.currentStepId with
  | none => withoutLease claimed.enrollment completed now
  | some step =>
      let nextRunAt ← isoString now
      withoutLease claimed.enrollment (advanceTo .pending step.id nextRunAt) now

/-- The delay before an attempt, without jitter. -/
def cappedDelayMs (retryCount : ℕ) : ℕ :=
  min (sequenceRetryBaseDelayMs * 2 ^ min (retryCount - 1) 16) sequenceRetryMaxDelayMs

/-- The jitter between 0 and 1; `none` stands for a number that is not finite. -/
def normalizedJitter : Option ℚ → ℚ
  | some jitter => min (max jitter 0) 1
  | none => 1 / 2

def retryDelayMs (retryCount : ℕ) (jitter : Option ℚ) : ℤ :=
  ⌊(cappedDelayMs retryCount : ℚ) / 2 + (cappedDelayMs retryCount : ℚ) / 2 *
    normalizedJitter jitter + 1 / 2⌋

/-- The message of an enrollment that has used up its attempts. -/
def retriesExhaustedError (retryCount : ℕ) (error : Thrown) : Text :=
  ("Sequence delivery failed after " : Text) ++ Text.ofNat retryCount ++
    (" retryable attempts: " : Text) ++ truncateError error

def retryEnrollment (enrollment : SequenceEnrollment) (now : ℤ) (error : Thrown)
    (jitter : Option ℚ) : Except Thrown UnleasedEnrollment :=
  let retryCount := enrollment.retryCount + 1
  if sequenceRetryMaxAttempts ≤ retryCount then
    withoutLease enrollment
      { status := .failed
        retryCount := some retryCount
        lastError := some (some (retriesExhaustedError retryCount error)) } now
  else do
    let nextRunAt ← isoString (now + retryDelayMs retryCount jitter)
    withoutLease enrollment
      { status := .pending
        retryCount := some retryCount
        nextRunAt := some nextRunAt
        lastError := some (some (truncateError error)) } now

/-! ## The send step -/

/-- A list of a subscriber; `none` when its status is not a string. -/
structure SubscriberList where
  subscriptionStatus : Option Text := none

/-- What the engine reads of a subscriber. -/
structure Subscriber where
  status : Option Text := none
  lists : Option (List SubscriberList) := none

def deterministicSendKey (enrollment : SequenceEnrollment) : Text :=
  ("sequence:" : Text) ++ enrollment.id ++ (":revision:" : Text) ++
    Text.ofNat enrollment.revision ++ (":step:" : Text) ++ enrollment.currentStepId

/-- The spread `{ ...left, ...right }` of two objects. -/
def spread (left right : List (Text × Json)) : List (Text × Json) :=
  left.map (fun (name, value) => (name, (right.lookup name).getD value)) ++
    right.filter fun (name, _) => (left.lookup name).isNone

def sendPayload (enrollment : SequenceEnrollment) (step : SequenceSendStep)
    (fromEmail : Option Text) : DispatchPayload where
  templateId := step.templateId
  subscriberId := some enrollment.subscriberId
  fromEmail := fromEmail
  data := some (spread (spread (step.data.getD []) enrollment.context)
    [("sequence_id", .string enrollment.sequenceId),
      ("sequence_revision", .number enrollment.revision),
      ("sequence_enrollment_id", .string enrollment.id),
      ("sequence_step_id", .string step.id)])
  contentType := step.contentType
  messenger := step.messenger
  subject := step.subject
  altbody := step.altBody

section Execution

variable [MailboxContract] [CaseMapping]

open MailboxContract CaseMapping

/-- `transactionalFromEmailSchema.optional()` on the stored sender; the outer
`none` is a failure. -/
def parseFromEmail (step : SequenceSendStep) : Option (Option Text) :=
  match step.fromEmail with
  | none => some none
  | some fromEmail => (transactionalFromEmailSchema fromEmail).map some

def subscriberCannotReceive (subscriber : Subscriber) : Option Text :=
  let status := subscriber.status.map toLowerCase
  let lists := subscriber.lists.getD []
  if status = some "blocklisted" ∨ status = some "disabled" then
    some (("subscriber is " : Text) ++ status.getD [])
  else if lists ≠ [] ∧ lists.all fun list =>
      list.subscriptionStatus.any (toLowerCase · = ("unsubscribed" : Text)) then
    some "subscriber is unsubscribed from every list"
  else none

/-- What the lookup of the subscriber decides: the next record, or (`none`) that
the message is to be sent. -/
def afterLookup (enrollment : SequenceEnrollment) (now : ℤ) (reply : Except Thrown Subscriber) :
    Except Thrown (Option UnleasedEnrollment) := do
  let subscriber ← reply
  match subscriberCannotReceive subscriber with
  | some cannotReceive =>
      let next ← withoutLease enrollment (ended .cancelled
        (("Sequence delivery cancelled because " : Text) ++ cannotReceive)) now
      return some next
  | none => return none

/-- What the result of the send decides. -/
def afterSend (claimed : ClaimedSequenceEnrollment) (now : ℤ)
    (result : Except Thrown SendTransactionalOutput) : Except Thrown UnleasedEnrollment := do
  let output ← result
  if !output.sent then
    withoutLease claimed.enrollment (ended .failed "Listmonk rejected the sequence message") now
  else transitionToNext claimed now

/-- The `catch` clause of `executeSendStep`. -/
def catchSendError (enrollment : SequenceEnrollment) (now : ℤ) (jitter : Option ℚ)
    (error : Thrown) : Except Thrown UnleasedEnrollment :=
  match error.kind with
  | .reconcile _ .pending => retryEnrollment enrollment now error jitter
  | .reconcile _ _ =>
      withoutLease enrollment
        { status := .ambiguous, lastError := some (some (truncateError error)) } now
  | _ =>
      if isResourceMissingError error then
        withoutLease enrollment (ended .cancelled
          "Sequence delivery cancelled because the subscriber no longer exists") now
      else if isDefinitivePreDispatchError error then
        retryEnrollment enrollment now error jitter
      else withoutLease enrollment (ended .failed (truncateError error)) now

/-- The record of an enrollment whose stored sender is not a mailbox. -/
def invalidSender (enrollment : SequenceEnrollment) (now : ℤ) :
    Except Thrown UnleasedEnrollment :=
  withoutLease enrollment (ended .failed
    "Sequence delivery failed because its stored From mailbox is invalid") now

/-- The `try` statement of `executeSendStep`. -/
def catching (enrollment : SequenceEnrollment) (now : ℤ) (jitter : Option ℚ)
    (body : Except Thrown UnleasedEnrollment) : Except Thrown UnleasedEnrollment :=
  match body with
  | .ok next => .ok next
  | .error error => catchSendError enrollment now jitter error

/-- `executeSendStep`, by the answers of the subscriber lookup and the send. -/
def executeSendStep (claimed : ClaimedSequenceEnrollment) (step : SequenceSendStep) (now : ℤ)
    (lookup : Except Thrown Subscriber) (result : Except Thrown SendTransactionalOutput)
    (jitter : Option ℚ) : Except Thrown UnleasedEnrollment :=
  catching claimed.enrollment now jitter <|
    match parseFromEmail step with
    | none => invalidSender claimed.enrollment now
    | some _ => do
        match ← afterLookup claimed.enrollment now lookup with
        | some next => return next
        | none => afterSend claimed now result

/-! ## The other steps -/

/-- A wait: the following step after a number of seconds. -/
def executeWait (claimed : ClaimedSequenceEnrollment) (id : StepId) (durationSeconds : ℕ)
    (now : ℤ) : Except Thrown UnleasedEnrollment := do
  match ← nextStep claimed.revision id with
  | some following =>
      let nextRunAt ← isoString (now + durationSeconds * 1000)
      withoutLease claimed.enrollment (advanceTo .waiting following.id nextRunAt) now
  | none => withoutLease claimed.enrollment completed now

/-- A wait for an instant: the following step then, or at once. -/
def executeWaitUntil (claimed : ClaimedSequenceEnrollment) (id : StepId) (at_ now : ℤ) :
    Except Thrown UnleasedEnrollment := do
  match ← nextStep claimed.revision id with
  | some following =>
      let status := if now < at_ then SequenceEnrollmentStatus.waiting else .pending
      let nextRunAt ← isoString (if now < at_ then at_ else now)
      withoutLease claimed.enrollment (advanceTo status following.id nextRunAt) now
  | none => withoutLease claimed.enrollment completed now

def executeCondition (claimed : ClaimedSequenceEnrollment) (step : SequenceConditionStep)
    (now : ℤ) : Except Thrown UnleasedEnrollment := do
  let targetId :=
    if evaluateCondition step claimed.enrollment.context then step.onTrue else step.onFalse
  let nextRunAt ← isoString now
  withoutLease claimed.enrollment (advanceTo .pending targetId nextRunAt) now

def currentStep (claimed : ClaimedSequenceEnrollment) : Option SequenceStep :=
  claimed.revision.steps.find? fun candidate => candidate.id = claimed.enrollment.currentStepId

/-- The record of an enrollment whose step is missing. -/
def missingStep (claimed : ClaimedSequenceEnrollment) (now : ℤ) :
    Except Thrown UnleasedEnrollment :=
  withoutLease claimed.enrollment (ended .failed (("Current step " : Text) ++
    claimed.enrollment.currentStepId ++ (" is missing from revision " : Text) ++
    Text.ofNat claimed.revision.revision)) now

/-- `executeClaimedEnrollment`, up to the record it passes to `completeClaim`. -/
def executeClaimedEnrollment (claimed : ClaimedSequenceEnrollment) (now : ℤ)
    (lookup : Except Thrown Subscriber) (result : Except Thrown SendTransactionalOutput)
    (jitter : Option ℚ) : Except Thrown UnleasedEnrollment :=
  match currentStep claimed with
  | none => missingStep claimed now
  | some (.send step) => executeSendStep claimed step now lookup result jitter
  | some (.wait id durationSeconds) => executeWait claimed id durationSeconds now
  | some (.waitUntil id at_) => executeWaitUntil claimed id at_.val.time now
  | some (.condition step) => executeCondition claimed step now
  | some (.stop _) => withoutLease claimed.enrollment completed now

end Execution

/-! ## Resolving an ambiguous enrollment -/

inductive SequenceAmbiguousResolution where
  | sent
  | notSent
  deriving DecidableEq

/-- The first check of `reconcileAmbiguousSequenceEnrollment`. -/
def checkAmbiguous (enrollment : SequenceEnrollment) : Except Thrown Unit :=
  if enrollment.status ≠ .ambiguous then
    .error { message := ("Sequence enrollment " : Text) ++ enrollment.id ++
      (" is not ambiguous (status: " : Text) ++ enrollment.status.text ++ (")" : Text) }
  else .ok ()

/-- The revision and the send step an ambiguous enrollment stands on. -/
def ambiguousStep (enrollment : SequenceEnrollment) (definition : SequenceDefinition) :
    Except Thrown (SequenceRevision × SequenceSendStep) :=
  match definition.findRevision enrollment.revision with
  | none => .error { message := ("Sequence enrollment " : Text) ++ enrollment.id ++
      (" references missing revision " : Text) ++ Text.ofNat enrollment.revision }
  | some revision =>
      match revision.steps.find? fun candidate => candidate.id = enrollment.currentStepId with
      | some (.send step) => .ok (revision, step)
      | _ => .error { message := ("Ambiguous sequence enrollment " : Text) ++ enrollment.id ++
          (" is not positioned on a send step" : Text) }

/-- The record a resolution may start from. -/
def reconcilableRecord (key : Text) (record : Option TransactionalSendRecord)
    (resolution : SequenceAmbiguousResolution) : Except Thrown TransactionalSendRecord :=
  match record with
  | none => .error { message := ("Transactional idempotency record " : Text) ++ key ++
      (" is missing" : Text) }
  | some record =>
      match record.status, resolution with
      | .pending, _ => .error { message := ("Transactional idempotency record " : Text) ++ key ++
          (" is still pending and cannot be reconciled while delivery may be in flight" : Text) }
      | .accepted, .notSent => .error
          { message := ("Transactional idempotency record " : Text) ++ key ++
            (" was already accepted and must be reconciled as sent" : Text) }
      | .failed, .sent => .error
          { message := ("Transactional idempotency record " : Text) ++ key ++
            (" was rejected and cannot be reconciled as sent" : Text) }
      | _, _ => .ok record

/-- The record of an enrollment that was resolved. -/
def resolvedEnrollment (enrollment : SequenceEnrollment) (revision : SequenceRevision)
    (step : SequenceSendStep) (resolution : SequenceAmbiguousResolution) (now : ℤ) :
    Except Thrown UnleasedEnrollment := do
  match resolution with
  | .sent =>
      match ← nextStep revision step.id with
      | some following =>
          let nextRunAt ← isoString now
          withoutLease enrollment (advanceTo .pending following.id nextRunAt) now
      | none => withoutLease enrollment completed now
  | .notSent =>
      let nextRunAt ← isoString now
      withoutLease enrollment
        { status := .pending
          retryCount := some 0
          nextRunAt := some nextRunAt
          lastError := some none } now

/-! ## What a step can do -/

section Effects

variable {enrollment : SequenceEnrollment} {claimed : ClaimedSequenceEnrollment}
variable {changes : EnrollmentChanges} {next : UnleasedEnrollment} {now : ℤ}

theorem isoString_eq_ok {time : ℤ} {d : DateTime} (h : isoString time = .ok d) :
    d = { time } := by
  unfold isoString at h
  split at h
  · next hiso =>
      obtain rfl := Except.ok.inj h
      exact toISOString_eq_some hiso
  · simp at h

theorem withoutLease_eq_ok (h : withoutLease enrollment changes now = .ok next) :
    next.val =
      { enrollment with
        status := changes.status
        retryCount := changes.retryCount.getD enrollment.retryCount
        currentStepId := changes.currentStepId.getD enrollment.currentStepId
        nextRunAt := changes.nextRunAt.getD enrollment.nextRunAt
        leaseToken := none
        leaseExpiresAt := none
        lastError := changes.lastError.getD enrollment.lastError
        lastTransitionAt := { time := now }
        updatedAt := { time := now } } := by
  obtain ⟨updatedAt, hupdated, h⟩ := except_bind_eq_ok.mp h
  obtain rfl := isoString_eq_ok hupdated
  obtain rfl := Except.ok.inj h
  rfl

/-- The fields an enrollment keeps for life, whoever completes, resolves or reconciles it. -/
structure SameIdentity (before after : SequenceEnrollment) : Prop where
  id : after.id = before.id
  sequenceId : after.sequenceId = before.sequenceId
  revision : after.revision = before.revision
  subscriberId : after.subscriberId = before.subscriberId
  context : after.context = before.context
  createdAt : after.createdAt = before.createdAt

theorem SameIdentity.trans {first second third : SequenceEnrollment}
    (h : SameIdentity first second) (h' : SameIdentity second third) : SameIdentity first third where
  id := h'.id.trans h.id
  sequenceId := h'.sequenceId.trans h.sequenceId
  revision := h'.revision.trans h.revision
  subscriberId := h'.subscriberId.trans h.subscriberId
  context := h'.context.trans h.context
  createdAt := h'.createdAt.trans h.createdAt

theorem sameIdentity_of_withoutLease (h : withoutLease enrollment changes now = .ok next) :
    SameIdentity enrollment next.val := by
  rw [withoutLease_eq_ok h]
  exact ⟨rfl, rfl, rfl, rfl, rfl, rfl⟩

/-- Where the record that follows a step stands: the enrollment has ended, or
stays ambiguous on a send step, or goes on at a later step, or tries the step
again. -/
inductive Progress (steps : List SequenceStep) (before after : SequenceEnrollment) : Prop
  | ended (terminal : enrollmentIsTerminal after.status = true)
      (same : after.currentStepId = before.currentStepId)
  | ambiguous (status : after.status = .ambiguous)
      (same : after.currentStepId = before.currentStepId)
      (onSend : ∃ step : SequenceSendStep, .send step ∈ steps ∧ step.id = before.currentStepId)
  | later (status : after.status = .pending ∨ after.status = .waiting)
      (position : ∃ (i j : ℕ) (step step' : SequenceStep), i < j ∧ steps[i]? = some step ∧
        step.id = before.currentStepId ∧ steps[j]? = some step' ∧ step'.id = after.currentStepId)
      (fresh : after.retryCount = 0)
  | retry (status : after.status = .pending)
      (same : after.currentStepId = before.currentStepId)
      (counted : after.retryCount = before.retryCount + 1)
      (below : after.retryCount < sequenceRetryMaxAttempts)

variable {steps : List SequenceStep}

theorem progress_of_completed (h : withoutLease enrollment completed now = .ok next) :
    Progress steps enrollment next.val := by
  rw [withoutLease_eq_ok h]
  exact .ended rfl rfl

theorem progress_of_ended {status : SequenceEnrollmentStatus} {lastError : Text}
    (hterminal : enrollmentIsTerminal status = true)
    (h : withoutLease enrollment (ended status lastError) now = .ok next) :
    Progress steps enrollment next.val := by
  rw [withoutLease_eq_ok h]
  exact .ended hterminal rfl

theorem progress_of_advanceTo {status : SequenceEnrollmentStatus} {step step' : SequenceStep}
    {nextRunAt : DateTime} {i j : ℕ} (hstatus : status = .pending ∨ status = .waiting)
    (hij : i < j) (hi : steps[i]? = some step) (hid : step.id = enrollment.currentStepId)
    (hj : steps[j]? = some step')
    (h : withoutLease enrollment (advanceTo status step'.id nextRunAt) now = .ok next) :
    Progress steps enrollment next.val := by
  rw [withoutLease_eq_ok h]
  exact .later hstatus ⟨i, j, step, step', hij, hi, hid, hj, rfl⟩ rfl

theorem retryEnrollment_eq_ok {error : Thrown} {jitter : Option ℚ}
    (h : retryEnrollment enrollment now error jitter = .ok next) :
    SameIdentity enrollment next.val ∧ Progress steps enrollment next.val := by
  unfold retryEnrollment at h
  dsimp only at h
  split at h
  · refine ⟨sameIdentity_of_withoutLease h, ?_⟩
    rw [withoutLease_eq_ok h]
    exact .ended rfl rfl
  · next hbelow =>
      obtain ⟨nextRunAt, -, h⟩ := except_bind_eq_ok.mp h
      refine ⟨sameIdentity_of_withoutLease h, ?_⟩
      rw [withoutLease_eq_ok h]
      exact .retry rfl rfl rfl (by simpa using hbelow)

theorem nextStep_eq_ok {revision : SequenceRevision} {id : StepId} {following : SequenceStep}
    (hordered : WellOrdered revision.steps) (h : nextStep revision id = .ok (some following)) :
    ∃ (i : ℕ) (step : SequenceStep), revision.steps[i]? = some step ∧ step.id = id ∧
      revision.steps[i + 1]? = some following := by
  unfold nextStep at h
  split at h
  · simp at h
  · next i hindex =>
      obtain ⟨step, hstep, hid⟩ := (stepIndex_eq_some_iff hordered.distinct).mp hindex
      exact ⟨i, step, hstep, hid, Except.ok.inj h⟩

theorem progress_of_following {id : StepId} {following : SequenceStep}
    {status : SequenceEnrollmentStatus} {nextRunAt : DateTime}
    (hordered : WellOrdered claimed.revision.steps)
    (hid : id = claimed.enrollment.currentStepId)
    (hfollowing : nextStep claimed.revision id = .ok (some following))
    (hstatus : status = .pending ∨ status = .waiting)
    (h : withoutLease claimed.enrollment (advanceTo status following.id nextRunAt) now =
      .ok next) :
    SameIdentity claimed.enrollment next.val ∧
      Progress claimed.revision.steps claimed.enrollment next.val := by
  obtain ⟨i, step, hi, hstep, hj⟩ := nextStep_eq_ok hordered hfollowing
  exact ⟨sameIdentity_of_withoutLease h,
    progress_of_advanceTo hstatus (Nat.lt_succ_self i) hi (hstep.trans hid) hj h⟩

theorem transitionToNext_eq_ok (hordered : WellOrdered claimed.revision.steps)
    (h : transitionToNext claimed now = .ok next) :
    SameIdentity claimed.enrollment next.val ∧
      Progress claimed.revision.steps claimed.enrollment next.val := by
  obtain ⟨following, hfollowing, h⟩ := except_bind_eq_ok.mp h
  cases following with
  | none => exact ⟨sameIdentity_of_withoutLease h, progress_of_completed h⟩
  | some step =>
      obtain ⟨nextRunAt, -, h⟩ := except_bind_eq_ok.mp h
      exact progress_of_following hordered rfl hfollowing (.inl rfl) h

variable [CaseMapping]

/-- Every error of a send ends the enrollment, leaves it ambiguous, or tries
again. -/
theorem catchSendError_eq_ok {error : Thrown} {jitter : Option ℚ}
    (hsend : ∃ step : SequenceSendStep, .send step ∈ steps ∧ step.id = enrollment.currentStepId)
    (h : catchSendError enrollment now jitter error = .ok next) :
    SameIdentity enrollment next.val ∧ Progress steps enrollment next.val := by
  unfold catchSendError at h
  split at h
  · exact retryEnrollment_eq_ok h
  · refine ⟨sameIdentity_of_withoutLease h, ?_⟩
    rw [withoutLease_eq_ok h]
    exact .ambiguous rfl rfl hsend
  · split at h
    · exact ⟨sameIdentity_of_withoutLease h, progress_of_ended rfl h⟩
    · split at h
      · exact retryEnrollment_eq_ok h
      · exact ⟨sameIdentity_of_withoutLease h, progress_of_ended rfl h⟩

variable [MailboxContract]

theorem executeSendStep_eq_ok {step : SequenceSendStep} {lookup : Except Thrown Subscriber}
    {result : Except Thrown SendTransactionalOutput} {jitter : Option ℚ}
    (hordered : WellOrdered claimed.revision.steps) (hmem : .send step ∈ claimed.revision.steps)
    (hid : step.id = claimed.enrollment.currentStepId)
    (h : executeSendStep claimed step now lookup result jitter = .ok next) :
    SameIdentity claimed.enrollment next.val ∧
      Progress claimed.revision.steps claimed.enrollment next.val := by
  unfold executeSendStep catching at h
  split at h
  · next body hbody =>
      obtain rfl := Except.ok.inj h
      split at hbody
      · exact ⟨sameIdentity_of_withoutLease hbody, progress_of_ended rfl hbody⟩
      · obtain ⟨decided, hdecided, hbody⟩ := except_bind_eq_ok.mp hbody
        cases decided with
        | some decided =>
            obtain rfl := Except.ok.inj hbody
            obtain ⟨subscriber, -, hdecided⟩ := except_bind_eq_ok.mp hdecided
            split at hdecided
            · obtain ⟨cancelled, hcancelled, hdecided⟩ := except_bind_eq_ok.mp hdecided
              obtain rfl := Option.some.inj (Except.ok.inj hdecided)
              exact ⟨sameIdentity_of_withoutLease hcancelled, progress_of_ended rfl hcancelled⟩
            · simp [pure, Except.pure] at hdecided
        | none =>
            obtain ⟨output, -, hbody⟩ := except_bind_eq_ok.mp hbody
            split at hbody
            · exact ⟨sameIdentity_of_withoutLease hbody, progress_of_ended rfl hbody⟩
            · exact transitionToNext_eq_ok hordered hbody
  · exact catchSendError_eq_ok ⟨step, hmem, hid⟩ h

/-- Whatever a step meets, the record it produces is the same enrollment and has
made progress. -/
theorem executeClaimedEnrollment_eq_ok {lookup : Except Thrown Subscriber}
    {result : Except Thrown SendTransactionalOutput} {jitter : Option ℚ}
    (hordered : WellOrdered claimed.revision.steps)
    (h : executeClaimedEnrollment claimed now lookup result jitter = .ok next) :
    SameIdentity claimed.enrollment next.val ∧
      Progress claimed.revision.steps claimed.enrollment next.val := by
  unfold executeClaimedEnrollment at h
  cases hstep : currentStep claimed with
  | none =>
      rw [hstep] at h
      exact ⟨sameIdentity_of_withoutLease h, progress_of_ended rfl h⟩
  | some step =>
      rw [hstep] at h
      have hmem : step ∈ claimed.revision.steps := List.mem_of_find?_eq_some hstep
      have hid : step.id = claimed.enrollment.currentStepId := by
        simpa using List.find?_some hstep
      cases step with
      | send step => exact executeSendStep_eq_ok hordered hmem hid h
      | wait id durationSeconds =>
          obtain ⟨following, hfollowing, h⟩ := except_bind_eq_ok.mp h
          cases following with
          | none => exact ⟨sameIdentity_of_withoutLease h, progress_of_completed h⟩
          | some following =>
              obtain ⟨nextRunAt, -, h⟩ := except_bind_eq_ok.mp h
              exact progress_of_following hordered hid hfollowing (.inr rfl) h
      | waitUntil id at_ =>
          obtain ⟨following, hfollowing, h⟩ := except_bind_eq_ok.mp h
          cases following with
          | none => exact ⟨sameIdentity_of_withoutLease h, progress_of_completed h⟩
          | some following =>
              obtain ⟨nextRunAt, -, h⟩ := except_bind_eq_ok.mp h
              refine progress_of_following hordered hid hfollowing ?_ h
              split
              · exact .inr rfl
              · exact .inl rfl
      | condition step =>
          obtain ⟨nextRunAt, -, h⟩ := except_bind_eq_ok.mp h
          obtain ⟨i, hi⟩ := List.mem_iff_getElem?.mp hmem
          obtain ⟨j, target, hij, hj, htarget⟩ := hordered.branches_forward i step hi
            (if evaluateCondition step claimed.enrollment.context then step.onTrue
              else step.onFalse) (by split <;> simp)
          rw [← htarget] at h
          exact ⟨sameIdentity_of_withoutLease h,
            progress_of_advanceTo (.inl rfl) hij hi hid hj h⟩
      | stop id => exact ⟨sameIdentity_of_withoutLease h, progress_of_completed h⟩

omit [MailboxContract] [CaseMapping]

/-- An operator resolves an enrollment on a send step of its revision. -/
theorem ambiguousStep_eq_ok {definition : SequenceDefinition} {revision : SequenceRevision}
    {step : SequenceSendStep} (h : ambiguousStep enrollment definition = .ok (revision, step)) :
    definition.findRevision enrollment.revision = some revision ∧
      .send step ∈ revision.steps ∧ step.id = enrollment.currentStepId := by
  unfold ambiguousStep at h
  split at h
  · simp at h
  · next hrevision =>
      split at h
      · next hstep =>
          obtain ⟨rfl, rfl⟩ := Prod.mk.inj (Except.ok.inj h)
          have hid := List.find?_some hstep
          exact ⟨hrevision, List.mem_of_find?_eq_some hstep, of_decide_eq_true hid⟩
      · simp at h

/-- A resolved enrollment is pending on a step of its revision, or completed. -/
theorem resolvedEnrollment_eq_ok {revision : SequenceRevision} {step : SequenceSendStep}
    {resolution : SequenceAmbiguousResolution} (hordered : WellOrdered revision.steps)
    (hmem : .send step ∈ revision.steps) (hid : step.id = enrollment.currentStepId)
    (h : resolvedEnrollment enrollment revision step resolution now = .ok next) :
    SameIdentity enrollment next.val ∧
      (next.val.status = .pending ∨ next.val.status = .completed) ∧
      ∃ step' ∈ revision.steps, step'.id = next.val.currentStepId := by
  unfold resolvedEnrollment at h
  cases resolution with
  | sent =>
      obtain ⟨following, hfollowing, h⟩ := except_bind_eq_ok.mp h
      cases following with
      | none =>
          refine ⟨sameIdentity_of_withoutLease h, ?_⟩
          rw [withoutLease_eq_ok h]
          exact ⟨.inr rfl, _, hmem, hid⟩
      | some following =>
          obtain ⟨nextRunAt, -, h⟩ := except_bind_eq_ok.mp h
          obtain ⟨i, current, -, -, hnext⟩ := nextStep_eq_ok hordered hfollowing
          refine ⟨sameIdentity_of_withoutLease h, ?_⟩
          rw [withoutLease_eq_ok h]
          exact ⟨.inl rfl, following, List.mem_of_getElem? hnext, rfl⟩
  | notSent =>
      obtain ⟨nextRunAt, -, h⟩ := except_bind_eq_ok.mp h
      refine ⟨sameIdentity_of_withoutLease h, ?_⟩
      rw [withoutLease_eq_ok h]
      exact ⟨.inl rfl, _, hmem, hid⟩

end Effects

end ListmonkOps.Sequence
