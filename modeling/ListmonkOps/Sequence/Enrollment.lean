/-
Enrollments of subscribers in a sequence.

An enrollment pins one revision of its definition and stands on one of its
steps. While a worker executes it, it carries a lease; the records that a
worker hands back have none, so they are values of a subtype here.
-/

import ListmonkOps.Sequence.Definition

namespace ListmonkOps.Sequence

open ListmonkOps.Runtime

inductive SequenceEnrollmentStatus where
  | pending
  | running
  | waiting
  | paused
  | completed
  | failed
  | ambiguous
  | cancelled
  deriving DecidableEq

def SequenceEnrollmentStatus.text : SequenceEnrollmentStatus → Text
  | .pending => "pending"
  | .running => "running"
  | .waiting => "waiting"
  | .paused => "paused"
  | .completed => "completed"
  | .failed => "failed"
  | .ambiguous => "ambiguous"
  | .cancelled => "cancelled"

def enrollmentIsTerminal (status : SequenceEnrollmentStatus) : Bool :=
  status ∈ [SequenceEnrollmentStatus.completed, .failed, .cancelled]

structure SequenceEnrollment where
  id : Text
  sequenceId : Text
  revision : ℕ
  subscriberId : ℕ
  context : List (Text × Json)
  status : SequenceEnrollmentStatus
  retryCount : ℕ
  currentStepId : StepId
  nextRunAt : DateTime
  leaseToken : Option Text := none
  leaseExpiresAt : Option DateTime := none
  lastError : Option Text := none
  lastTransitionAt : DateTime
  createdAt : DateTime
  updatedAt : DateTime

def enrollmentSchema (enrollment : SequenceEnrollment) : Bool :=
  isUuid enrollment.id && isUuid enrollment.sequenceId &&
    isPositiveInt enrollment.revision && isPositiveInt enrollment.subscriberId &&
    enrollment.retryCount ≤ maxSafeInteger &&
    isoDateTimeSchema enrollment.nextRunAt &&
    enrollment.leaseToken.all isUuid && enrollment.leaseExpiresAt.all isoDateTimeSchema &&
    enrollment.lastError.all (·.length ≤ 1000) &&
    isoDateTimeSchema enrollment.lastTransitionAt &&
    isoDateTimeSchema enrollment.createdAt && isoDateTimeSchema enrollment.updatedAt

theorem isUuid_of_schema {enrollment : SequenceEnrollment}
    (h : enrollmentSchema enrollment = true) : isUuid enrollment.id = true := by
  simp only [enrollmentSchema, Bool.and_eq_true] at h
  exact h.1.1.1.1.1.1.1.1.1.1.1

theorem lastError_length_of_schema {enrollment : SequenceEnrollment} {message : Text}
    (h : enrollmentSchema enrollment = true) (hmessage : enrollment.lastError = some message) :
    message.length ≤ 1000 := by
  simp only [enrollmentSchema, hmessage, Option.all_some, Bool.and_eq_true,
    decide_eq_true_eq] at h
  exact h.1.1.1.2

def parseSequenceEnrollment (value : SequenceEnrollment) :
    Except SequenceError SequenceEnrollment := do
  require (enrollmentSchema value)
  return value

theorem parseSequenceEnrollment_eq_ok_iff {value parsed : SequenceEnrollment} :
    parseSequenceEnrollment value = .ok parsed ↔ enrollmentSchema value = true ∧ parsed = value := by
  rw [parseSequenceEnrollment, require_bind_eq_ok]
  exact and_congr_right fun _ => ⟨fun h => (Except.ok.inj h).symm, fun h => by rw [h]; rfl⟩

/-- `Omit<SequenceEnrollment, "leaseToken" | "leaseExpiresAt">`. -/
abbrev UnleasedEnrollment :=
  { enrollment : SequenceEnrollment //
    enrollment.leaseToken = none ∧ enrollment.leaseExpiresAt = none }

/-- `CreateSequenceEnrollmentInput`; its definition is passed next to it. -/
structure CreateSequenceEnrollmentInput where
  id : Option Text := none
  subscriberId : ℕ
  context : Option (List (Text × Json)) := none
  startAt : Option DateTime := none

/-- `createSequenceEnrollment`, with the UUID it would draw. -/
def createSequenceEnrollment (definition : SequenceDefinition)
    (input : CreateSequenceEnrollmentInput) (newId : Text) (now : ℤ) :
    Except SequenceError SequenceEnrollment :=
  if definition.status ≠ .active then
    .error (.conflict (("Cannot enroll into paused sequence: " : Text) ++ definition.id))
  else
    match definition.findRevision definition.currentRevision with
    | some { revision, steps := firstStep :: _, .. } => do
        let createdAt ← timestamp now
        parseSequenceEnrollment
          { id := input.id.getD newId
            sequenceId := definition.id
            revision
            subscriberId := input.subscriberId
            context := input.context.getD []
            status := .pending
            retryCount := 0
            currentStepId := firstStep.id
            nextRunAt := input.startAt.getD createdAt
            lastTransitionAt := createdAt
            createdAt
            updatedAt := createdAt }
    | _ => .error (.conflict (("Sequence " : Text) ++ definition.id ++
        (" has no executable current revision" : Text)))

/-- The enrollment `createSequenceEnrollment` returns stands, pending and without
a lease, on the first step of the current revision. -/
theorem createSequenceEnrollment_eq_ok {definition : SequenceDefinition}
    {input : CreateSequenceEnrollmentInput} {newId : Text} {now : ℤ}
    {enrollment : SequenceEnrollment}
    (h : createSequenceEnrollment definition input newId now = .ok enrollment) :
    enrollmentSchema enrollment = true ∧ enrollment.id = input.id.getD newId ∧
      enrollment.sequenceId = definition.id ∧ enrollment.status = .pending ∧
      enrollment.retryCount = 0 ∧ enrollment.leaseToken = none ∧
      enrollment.leaseExpiresAt = none ∧
      ∃ revision firstStep, definition.findRevision definition.currentRevision = some revision ∧
        revision.steps.head? = some firstStep ∧ enrollment.revision = revision.revision ∧
        enrollment.currentStepId = firstStep.id := by
  unfold createSequenceEnrollment at h
  split at h
  · simp at h
  · split at h
    · next revision firstStep rest createdAt hfound =>
        obtain ⟨createdAt, -, h⟩ := except_bind_eq_ok.mp h
        obtain ⟨hschema, rfl⟩ := parseSequenceEnrollment_eq_ok_iff.mp h
        exact ⟨hschema, rfl, rfl, rfl, rfl, rfl, rfl, _, firstStep, hfound, rfl, rfl, rfl⟩
    · simp at h

end ListmonkOps.Sequence
