/-
Which records the engine can store.

A step whose record the repository refuses leaves its enrollment leased until
the lease expires, and is then executed again. The records are refused for two
reasons only: an instant beyond the year 9999, and the message of an enrollment
that has used up its attempts, whose prefix is added after the error was cut to
the length that the schema allows. Everything else a step can meet leads to a
record that is stored and has made progress.
-/

import ListmonkOps.Sequence.History

namespace ListmonkOps.Sequence

open ListmonkOps.Math ListmonkOps.Runtime ListmonkOps.Transactional

/-- A claim of a tick at `now`, on a step of its revision. -/
structure ClaimedOn (claimed : ClaimedSequenceEnrollment) (step : SequenceStep) (now : ℤ) :
    Prop where
  ordered : WellOrdered claimed.revision.steps
  current : currentStep claimed = some step
  schema : enrollmentSchema claimed.enrollment = true
  claimedAt : claimed.enrollment.updatedAt = { time := now }

theorem claimedOn_of_claimDue [MailboxContract] [CaseMapping] {store store' : SequenceStore}
    (h : StoreInvariant store) {options : ClaimDueOptions}
    {entries : List ClaimedSequenceEnrollment}
    (hcall : claimDue options store = (store', .ok entries))
    {claimed : ClaimedSequenceEnrollment} (hmem : claimed ∈ entries) :
    ∃ step, ClaimedOn claimed step options.now := by
  obtain ⟨-, -, -, hclaims⟩ := claimDue_eq_ok h.stored h.enrollmentIds hcall
  obtain ⟨token, candidate, hof⟩ := hclaims claimed hmem
  obtain ⟨hfits, -⟩ := h.claimFits hof
  obtain ⟨step, hstep, hid⟩ := hfits.step
  have hfound : (currentStep claimed).isSome = true :=
    List.find?_isSome.mpr ⟨step, hstep, by simpa using hid⟩
  obtain ⟨current, hcurrent⟩ := Option.isSome_iff_exists.mp hfound
  exact ⟨current, hfits.stored.wellOrdered hfits.revision, hcurrent, hfits.schema,
    by rw [hof.leased]⟩

theorem ClaimedOn.hasFourDigitYear {claimed : ClaimedSequenceEnrollment} {step : SequenceStep}
    {now : ℤ} (h : ClaimedOn claimed step now) : hasFourDigitYear now = true := by
  have hschema := h.schema
  simp only [enrollmentSchema, h.claimedAt, Bool.and_eq_true] at hschema
  exact hschema.2

/-! ## Records that are accepted -/

/-- The engine produced a record, and the repository would store it. -/
def Accepted (outcome : Except Thrown UnleasedEnrollment) : Prop :=
  ∃ next, outcome = .ok next ∧ enrollmentSchema next.val = true

/-- The changes the schema takes: a count, an instant and a message in range. -/
structure EnrollmentChanges.Recordable (changes : EnrollmentChanges) : Prop where
  count : ∀ retryCount, changes.retryCount = some retryCount → retryCount ≤ maxSafeInteger
  instant : ∀ nextRunAt, changes.nextRunAt = some nextRunAt → isoDateTimeSchema nextRunAt = true
  message : ∀ lastError, changes.lastError = some (some lastError) → lastError.length ≤ 1000

section Records

variable {enrollment : SequenceEnrollment} {changes : EnrollmentChanges} {now time : ℤ}

theorem isoString_of_hasFourDigitYear (h : hasFourDigitYear time = true) :
    isoString time = .ok { time } := by
  simp [isoString, toISOString_of_hasFourDigitYear h]

/-- Of a record that passes the schema, the next one passes it exactly when its
changes are in range. -/
theorem accepted_withoutLease_iff (changes : EnrollmentChanges)
    (hschema : enrollmentSchema enrollment = true) (hnow : hasFourDigitYear now = true) :
    Accepted (withoutLease enrollment changes now) ↔ changes.Recordable := by
  have hrun : withoutLease enrollment changes now = .ok _ :=
    except_bind_eq_ok.mpr ⟨_, isoString_of_hasFourDigitYear hnow, rfl⟩
  simp only [Accepted, hrun, Except.ok.injEq, exists_eq_left']
  simp only [enrollmentSchema, Bool.and_eq_true, decide_eq_true_eq] at hschema ⊢
  obtain ⟨⟨⟨⟨⟨⟨⟨⟨hids, hcount⟩, hinstant⟩, -⟩, -⟩, hmessage⟩, -⟩, hcreated⟩, -⟩ := hschema
  obtain ⟨status, retryCount, currentStepId, nextRunAt, lastError⟩ := changes
  constructor
  · rintro ⟨⟨⟨⟨⟨⟨⟨⟨-, hcount'⟩, hinstant'⟩, -⟩, -⟩, hmessage'⟩, -⟩, -⟩, -⟩
    refine ⟨?_, ?_, ?_⟩
    · rintro count rfl
      exact hcount'
    · rintro instant rfl
      exact hinstant'
    · rintro message rfl
      simpa using hmessage'
  · rintro ⟨hcount', hinstant', hmessage'⟩
    refine ⟨⟨⟨⟨⟨⟨⟨⟨hids, ?_⟩, ?_⟩, rfl⟩, rfl⟩, ?_⟩, hnow⟩, hcreated⟩, hnow⟩
    · cases retryCount with
      | none => exact hcount
      | some count => exact hcount' count rfl
    · cases nextRunAt with
      | none => exact hinstant
      | some instant => exact hinstant' instant rfl
    · rcases lastError with _ | _ | message
      · exact hmessage
      · rfl
      · simpa using hmessage' message rfl

theorem accepted_completed (hschema : enrollmentSchema enrollment = true)
    (hnow : hasFourDigitYear now = true) : Accepted (withoutLease enrollment completed now) :=
  (accepted_withoutLease_iff _ hschema hnow).mpr
    ⟨by simp [completed, maxSafeInteger], by simp [completed], by simp [completed]⟩

/-- A record that ends with a message is accepted if the message is short. -/
theorem accepted_ended (hschema : enrollmentSchema enrollment = true)
    (hnow : hasFourDigitYear now = true) (status : SequenceEnrollmentStatus) {message : Text}
    (hmessage : message.length ≤ 1000) :
    Accepted (withoutLease enrollment (ended status message) now) :=
  (accepted_withoutLease_iff _ hschema hnow).mpr
    ⟨by simp [ended, maxSafeInteger], by simp [ended], by simpa [ended] using hmessage⟩

/-- An enrollment goes on at another step exactly if it can be told when. -/
theorem accepted_advanceTo_iff (time : ℤ) (hschema : enrollmentSchema enrollment = true)
    (hnow : hasFourDigitYear now = true) (status : SequenceEnrollmentStatus) (id : StepId) :
    Accepted (isoString time >>= fun nextRunAt =>
        withoutLease enrollment (advanceTo status id nextRunAt) now) ↔
      hasFourDigitYear time = true := by
  have hrecord := accepted_withoutLease_iff (advanceTo status id { time }) hschema hnow
  constructor
  · rintro ⟨next, hnext, haccepted⟩
    obtain ⟨nextRunAt, hiso, hnext⟩ := except_bind_eq_ok.mp hnext
    obtain rfl := isoString_eq_ok hiso
    exact (hrecord.mp ⟨next, hnext, haccepted⟩).instant _ rfl
  · intro htime
    obtain ⟨next, hnext, haccepted⟩ := hrecord.mpr
      ⟨by simp [advanceTo, maxSafeInteger], by simpa [advanceTo] using htime, by simp [advanceTo]⟩
    exact ⟨next, except_bind_eq_ok.mpr ⟨_, isoString_of_hasFourDigitYear htime, hnext⟩, haccepted⟩

theorem length_truncateError (error : Thrown) :
    (truncateError error).length = min error.message.length 1000 := by
  rw [truncateError, List.length_take, min_comm]

/-- The message of the last attempt has a prefix of 52 units and a number. -/
theorem length_retriesExhaustedError (retryCount : ℕ) (error : Thrown) :
    (retriesExhaustedError retryCount error).length =
      (Text.ofNat retryCount).length + min error.message.length 1000 + 52 := by
  have hbegin : ("Sequence delivery failed after " : Text).length = 31 := by decide
  have hinfix : (" retryable attempts: " : Text).length = 21 := by decide
  rw [retriesExhaustedError, List.length_append, List.length_append, List.length_append,
    length_truncateError, hbegin, hinfix]
  omega

/-- Can the outcome of a failed attempt be recorded? The last attempt needs a
message short enough for its prefix, the others an instant for the next one. -/
def RetryRecordable (enrollment : SequenceEnrollment) (now : ℤ) (error : Thrown)
    (jitter : Option ℚ) : Prop :=
  if sequenceRetryMaxAttempts ≤ enrollment.retryCount + 1 then
    enrollment.retryCount + 1 ≤ maxSafeInteger ∧
      (Text.ofNat (enrollment.retryCount + 1)).length + min error.message.length 1000 ≤ 948
  else hasFourDigitYear (now + retryDelayMs (enrollment.retryCount + 1) jitter) = true

theorem accepted_retryEnrollment_iff (hschema : enrollmentSchema enrollment = true)
    (hnow : hasFourDigitYear now = true) (error : Thrown) (jitter : Option ℚ) :
    Accepted (retryEnrollment enrollment now error jitter) ↔
      RetryRecordable enrollment now error jitter := by
  unfold retryEnrollment RetryRecordable
  dsimp only
  split
  · rw [accepted_withoutLease_iff _ hschema hnow]
    have hlength := length_retriesExhaustedError (enrollment.retryCount + 1) error
    constructor
    · intro h
      exact ⟨h.count _ rfl, by have := h.message _ rfl; omega⟩
    · rintro ⟨hcount, hmessage⟩
      exact ⟨by simpa using hcount, by simp, by simp; omega⟩
  · next hbelow =>
      have hrecord := accepted_withoutLease_iff
        { status := .pending
          retryCount := some (enrollment.retryCount + 1)
          nextRunAt := some { time := now + retryDelayMs (enrollment.retryCount + 1) jitter }
          lastError := some (some (truncateError error)) } hschema hnow
      constructor
      · rintro ⟨next, hnext, haccepted⟩
        obtain ⟨nextRunAt, hiso, hnext⟩ := except_bind_eq_ok.mp hnext
        obtain rfl := isoString_eq_ok hiso
        exact (hrecord.mp ⟨next, hnext, haccepted⟩).instant _ rfl
      · intro htime
        have hlength := length_truncateError error
        obtain ⟨next, hnext, haccepted⟩ := hrecord.mpr
          ⟨by simp [sequenceRetryMaxAttempts, maxSafeInteger] at hbelow ⊢; omega,
            by simpa using htime, by simp; omega⟩
        exact ⟨next, except_bind_eq_ok.mpr ⟨_, isoString_of_hasFourDigitYear htime, hnext⟩,
          haccepted⟩

end Records

/-! ## Steps that are accepted -/

section Steps

variable [MailboxContract] [CaseMapping]
variable {enrollment : SequenceEnrollment} {claimed : ClaimedSequenceEnrollment}
variable {step : SequenceStep} {now : ℤ} {lookup : Except Thrown Subscriber}
variable {result : Except Thrown SendTransactionalOutput} {jitter : Option ℚ}

/-- The error of a send step, of its lookup or of its send. -/
def sendFailure (step : SequenceSendStep) (lookup : Except Thrown Subscriber)
    (result : Except Thrown SendTransactionalOutput) : Option Thrown :=
  match parseFromEmail step, lookup with
  | none, _ => none
  | some _, .error error => some error
  | some _, .ok subscriber =>
      match subscriberCannotReceive subscriber, result with
      | none, .error error => some error
      | _, _ => none

/-- Is an error one that the engine tries again? -/
def isRetried (error : Thrown) : Bool :=
  match error.kind with
  | .reconcile _ status => status = .pending
  | _ => !isResourceMissingError error && isDefinitivePreDispatchError error

/-- The condition under which a step leads to a record that can be stored. -/
def StepRecordable (claimed : ClaimedSequenceEnrollment) (step : SequenceStep) (now : ℤ)
    (lookup : Except Thrown Subscriber) (result : Except Thrown SendTransactionalOutput)
    (jitter : Option ℚ) : Prop :=
  match step with
  | .send step => ∀ error, sendFailure step lookup result = some error → isRetried error = true →
      RetryRecordable claimed.enrollment now error jitter
  | .wait _ durationSeconds => hasFourDigitYear (now + durationSeconds * 1000) = true
  | .waitUntil _ at_ => now < at_.val.time → hasFourDigitYear at_.val.time = true
  | .condition _ | .stop _ => True

omit [MailboxContract] in
theorem length_subscriberCannotReceive {subscriber : Subscriber} {reason : Text}
    (h : subscriberCannotReceive subscriber = some reason) : reason.length ≤ 42 := by
  simp only [subscriberCannotReceive] at h
  split at h
  · next hstatus =>
      obtain rfl := Option.some.inj h
      rcases hstatus with hstatus | hstatus <;> rw [hstatus] <;> decide
  · split at h
    · obtain rfl := Option.some.inj h
      decide
    · simp at h

omit [MailboxContract] in
/-- So is the message of an enrollment that is cancelled for such a reason. -/
theorem length_cancelled {subscriber : Subscriber} {reason : Text}
    (h : subscriberCannotReceive subscriber = some reason) :
    (("Sequence delivery cancelled because " : Text) ++ reason).length ≤ 1000 := by
  have hlength := length_subscriberCannotReceive h
  have hbegin : ("Sequence delivery cancelled because " : Text).length = 36 := by decide
  rw [List.length_append, hbegin]
  omega

omit [MailboxContract] in
theorem accepted_catchSendError_iff (hschema : enrollmentSchema enrollment = true)
    (hnow : hasFourDigitYear now = true) (error : Thrown) (jitter : Option ℚ) :
    Accepted (catchSendError enrollment now jitter error) ↔
      (isRetried error = true → RetryRecordable enrollment now error jitter) := by
  have hretry := accepted_retryEnrollment_iff hschema hnow error jitter
  have hmessage : (truncateError error).length ≤ 1000 := by
    rw [length_truncateError]
    omega
  have hfailed := accepted_ended hschema hnow .failed hmessage
  have hambiguous : Accepted (withoutLease enrollment
      { status := .ambiguous, lastError := some (some (truncateError error)) } now) :=
    (accepted_withoutLease_iff _ hschema hnow).mpr ⟨by simp, by simp, by simpa using hmessage⟩
  have hmissing := accepted_ended hschema hnow .cancelled (show
    ("Sequence delivery cancelled because the subscriber no longer exists" : Text).length ≤ 1000 by
      decide)
  by_cases hreconcile : ∃ key status, error.kind = .reconcile key status
  · obtain ⟨key, status, hkind⟩ := hreconcile
    cases status <;> simpa [catchSendError, isRetried, hkind]
  · have hcatch : catchSendError enrollment now jitter error =
        if isResourceMissingError error then
          withoutLease enrollment (ended .cancelled
            "Sequence delivery cancelled because the subscriber no longer exists") now
        else if isDefinitivePreDispatchError error then
          retryEnrollment enrollment now error jitter
        else withoutLease enrollment (ended .failed (truncateError error)) now := by
      unfold catchSendError
      split <;> simp_all
    have hretried : isRetried error =
        (!isResourceMissingError error && isDefinitivePreDispatchError error) := by
      unfold isRetried
      split <;> simp_all
    rw [hcatch, hretried]
    by_cases hgone : isResourceMissingError error = true
    · simpa [hgone] using hmissing
    · by_cases hdefinitive : isDefinitivePreDispatchError error = true
      · simpa [hgone, hdefinitive] using hretry
      · simpa [hgone, hdefinitive] using hfailed

omit [MailboxContract] [CaseMapping] in
theorem nextStep_of_mem {revision : SequenceRevision} (hmem : step ∈ revision.steps) :
    ∃ following, nextStep revision step.id = .ok following := by
  cases hindex : stepIndex revision.steps step.id with
  | none =>
      rw [stepIndex, List.findIdx?_eq_none_iff] at hindex
      simpa using hindex step hmem
  | some index => exact ⟨revision.steps[index + 1]?, by simp [nextStep, hindex]⟩

omit [MailboxContract] [CaseMapping] in
theorem ClaimedOn.following (h : ClaimedOn claimed step now) (hwait : step.waitType ≠ none) :
    ∃ following, nextStep claimed.revision step.id = .ok (some following) := by
  have hmem : step ∈ claimed.revision.steps := List.mem_of_find?_eq_some h.current
  obtain ⟨i, hi⟩ := List.mem_iff_getElem?.mp hmem
  have hindex := (stepIndex_eq_some_iff h.ordered.distinct).mpr ⟨step, hi, rfl⟩
  have hlast := h.ordered.wait_followed i step hi hwait
  exact ⟨claimed.revision.steps[i + 1], by simp [nextStep, hindex, List.getElem?_eq_getElem hlast]⟩

omit [MailboxContract] [CaseMapping] in
theorem ClaimedOn.id_eq (h : ClaimedOn claimed step now) :
    step.id = claimed.enrollment.currentStepId := by
  simpa using List.find?_some h.current

omit [MailboxContract] [CaseMapping] in
theorem ClaimedOn.accepted_transitionToNext (h : ClaimedOn claimed step now) :
    Accepted (transitionToNext claimed now) := by
  obtain ⟨following, hfollowing⟩ := nextStep_of_mem (List.mem_of_find?_eq_some h.current)
  unfold transitionToNext
  rw [← h.id_eq, hfollowing]
  cases following with
  | none => exact accepted_completed h.schema h.hasFourDigitYear
  | some following =>
      exact (accepted_advanceTo_iff _ h.schema h.hasFourDigitYear .pending following.id).mpr
        h.hasFourDigitYear

omit [MailboxContract] in
theorem accepted_catching {body : Except Thrown UnleasedEnrollment} (h : Accepted body) :
    Accepted (catching enrollment now jitter body) := by
  obtain ⟨next, rfl, hschema⟩ := h
  exact ⟨next, rfl, hschema⟩

theorem ClaimedOn.accepted_executeSendStep_iff (h : ClaimedOn claimed step now)
    (send : SequenceSendStep) :
    Accepted (executeSendStep claimed send now lookup result jitter) ↔
      ∀ error, sendFailure send lookup result = some error → isRetried error = true →
        RetryRecordable claimed.enrollment now error jitter := by
  have hcatch := fun error : Thrown =>
    accepted_catchSendError_iff h.schema h.hasFourDigitYear error jitter
  cases hfromEmail : parseFromEmail send with
  | none =>
      simpa [executeSendStep, sendFailure, hfromEmail, invalidSender] using accepted_catching
        (accepted_ended h.schema h.hasFourDigitYear .failed (by decide))
  | some fromEmail =>
      cases lookup with
      | error error =>
          simpa [executeSendStep, sendFailure, hfromEmail, afterLookup, catching] using hcatch error
      | ok subscriber =>
          cases hreceive : subscriberCannotReceive subscriber with
          | some reason =>
              obtain ⟨next, hnext, haccepted⟩ := accepted_ended h.schema h.hasFourDigitYear
                .cancelled (length_cancelled hreceive)
              have hbody : Accepted (catching claimed.enrollment now jitter (.ok next)) :=
                accepted_catching ⟨next, rfl, haccepted⟩
              simpa [executeSendStep, sendFailure, hfromEmail, afterLookup, hreceive, hnext, pure,
                Except.pure] using hbody
          | none =>
              cases result with
              | error error =>
                  simpa [executeSendStep, sendFailure, hfromEmail, afterLookup, hreceive, afterSend,
                    catching, pure, Except.pure] using hcatch error
              | ok output =>
                  have hbody : Accepted (afterSend claimed now (.ok output)) := by
                    simp only [afterSend, except_ok_bind]
                    split
                    · exact accepted_ended h.schema h.hasFourDigitYear .failed (by decide)
                    · exact h.accepted_transitionToNext
                  simpa [executeSendStep, sendFailure, hfromEmail, afterLookup, hreceive, pure,
                    Except.pure] using accepted_catching hbody

/-- The record of a step is accepted exactly under the condition on its inputs. -/
theorem ClaimedOn.accepted_iff (h : ClaimedOn claimed step now) :
    Accepted (executeClaimedEnrollment claimed now lookup result jitter) ↔
      StepRecordable claimed step now lookup result jitter := by
  have hnow := h.hasFourDigitYear
  unfold executeClaimedEnrollment
  rw [h.current]
  cases step with
  | send send => exact h.accepted_executeSendStep_iff send
  | wait id durationSeconds =>
      obtain ⟨following, hfollowing⟩ := h.following (by simp [SequenceStep.waitType])
      change nextStep claimed.revision id = _ at hfollowing
      simpa [executeWait, hfollowing, StepRecordable] using
        accepted_advanceTo_iff _ h.schema hnow .waiting following.id
  | waitUntil id at_ =>
      obtain ⟨following, hfollowing⟩ := h.following (by simp [SequenceStep.waitType])
      change nextStep claimed.revision id = _ at hfollowing
      by_cases hlater : now < at_.val.time
      · simpa [executeWaitUntil, hfollowing, StepRecordable, hlater] using
          accepted_advanceTo_iff _ h.schema hnow .waiting following.id
      · simpa [executeWaitUntil, hfollowing, StepRecordable, hlater, hnow] using
          accepted_advanceTo_iff now h.schema hnow .pending following.id
  | condition condition =>
      simpa [executeCondition, StepRecordable, hnow] using
        accepted_advanceTo_iff now h.schema hnow .pending _
  | stop id => simpa [StepRecordable] using accepted_completed h.schema hnow

/-- An accepted record has made progress, so a claim whose step meets the
condition, and no other, is completed with progress. -/
theorem ClaimedOn.progress_iff (h : ClaimedOn claimed step now) :
    (∃ next, executeClaimedEnrollment claimed now lookup result jitter = .ok next ∧
        enrollmentSchema next.val = true ∧
        Progress claimed.revision.steps claimed.enrollment next.val) ↔
      StepRecordable claimed step now lookup result jitter := by
  rw [← h.accepted_iff]
  constructor
  · rintro ⟨next, hnext, hschema, -⟩
    exact ⟨next, hnext, hschema⟩
  · rintro ⟨next, hnext, hschema⟩
    exact ⟨next, hnext, hschema, (executeClaimedEnrollment_eq_ok h.ordered hnext).2⟩

end Steps

end ListmonkOps.Sequence
