/-
How often an enrollment is executed.

Ticks complete the claims of an enrollment until it ends or becomes ambiguous.
Every completion either goes on at a later step or uses up one of the attempts
that a step has, so that the number of completions is bounded by the number of
steps of the pinned revision. The number is counted here in whole histories of
the repository and its clients: completions by stale claims do not happen,
because a lease fences them off.
-/

import ListmonkOps.Sequence.Fencing
import ListmonkOps.Sequence.Progress

namespace ListmonkOps.Sequence

open ListmonkOps.Math ListmonkOps.Runtime ListmonkOps.Transactional

/-! ## The calls of clients -/

section Calls

variable [MailboxContract] [CaseMapping] {w w' : RepositoryWorld} {action : RepositoryAction}

/-- The repository call that an action comes to, if it comes to one. -/
def RepositoryWorld.call (w : RepositoryWorld) : RepositoryAction → Option RepositoryCall
  | .createDefinition input newId now =>
      (createSequenceDefinition input newId now).toOption.map .createDefinition
  | .updateDefinition id input now => some (.updateDefinition id input now)
  | .deleteDefinition id => some (.deleteDefinition id)
  | .setDefinitionStatus id status now => some (.setDefinitionStatus id status now)
  | .createEnrollment definition input newId now => do
      let definition ← w.returned[definition]?
      let enrollment ← (createSequenceEnrollment definition input newId now).toOption
      return .createEnrollment enrollment
  | .claimDue options => some (.claimDue options)
  | .completeClaim claim lookup result jitter => do
      let (claimed, now) ← w.claims[claim]?
      let next ← (executeClaimedEnrollment claimed now lookup result jitter).toOption
      return .completeClaim claimed.enrollment next
  | .resolveAmbiguous enrollment definition resolution now => do
      let enrollment ← w.read[enrollment]?
      let definition ← w.returned[definition]?
      let (revision, step) ← (ambiguousStep enrollment definition).toOption
      let next ← (resolvedEnrollment enrollment revision step resolution now).toOption
      return .resolveAmbiguous enrollment next
  | .reconcile options => some (.reconcile options)
  | .getDefinition _ | .getEnrollment _ => none

theorem RepositoryWorld.store_of_step (hstep : w.Step action w') :
    w'.store = (w.call action).elim w.store fun call => (performCall w.store call).1 := by
  cases action with
  | createDefinition input newId now =>
      simp only [Step, step] at hstep
      cases hcreate : createSequenceDefinition input newId now with
      | error error =>
          obtain rfl := Option.some.inj (by simpa [hcreate] using hstep)
          simp [call, hcreate, Except.toOption]
      | ok definition =>
          simp only [hcreate] at hstep
          split at hstep
          · simp at hstep
          · obtain rfl := Option.some.inj hstep
            simp [call, hcreate, Except.toOption, performCall, afterDefinition]
  | updateDefinition id input now =>
      simp only [Step, step] at hstep
      split at hstep
      · obtain rfl := Option.some.inj hstep
        rfl
      · simp at hstep
  | deleteDefinition id =>
      simp only [Step, step] at hstep
      split at hstep
      · next hcall =>
          obtain rfl := Option.some.inj hstep
          simp [call, performCall, hcall]
      · next hcall =>
          obtain rfl := Option.some.inj hstep
          simp [call, performCall, hcall]
  | setDefinitionStatus id status now =>
      obtain rfl := Option.some.inj hstep
      rfl
  | getDefinition id =>
      obtain rfl := Option.some.inj hstep
      rfl
  | getEnrollment id =>
      obtain rfl := Option.some.inj hstep
      rfl
  | createEnrollment definition input newId now =>
      simp only [Step, step, Option.bind_eq_bind, Option.bind_eq_some_iff] at hstep
      obtain ⟨definition, hdefinition, hstep⟩ := hstep
      cases hcreate : createSequenceEnrollment definition input newId now with
      | error error =>
          obtain rfl := Option.some.inj (by simpa [hcreate] using hstep)
          simp [call, hdefinition, hcreate, Except.toOption]
      | ok enrollment =>
          simp only [hcreate] at hstep
          split at hstep
          · simp at hstep
          · obtain rfl := Option.some.inj hstep
            simp [call, hdefinition, hcreate, Except.toOption, performCall]
  | claimDue options =>
      simp only [Step, step, Option.some.injEq] at hstep
      subst hstep
      rcases hcall : Sequence.claimDue options w.store with ⟨store, error | claimed⟩ <;>
        simp [call, performCall, hcall]
  | completeClaim claim lookup result jitter =>
      simp only [Step, step, Option.bind_eq_bind, Option.bind_eq_some_iff] at hstep
      obtain ⟨⟨claimed, now⟩, hclaim, hstep⟩ := hstep
      cases hexecute : executeClaimedEnrollment claimed now lookup result jitter with
      | error error =>
          obtain rfl := Option.some.inj (by simpa [hexecute] using hstep)
          simp [call, hclaim, hexecute, Except.toOption]
      | ok next =>
          obtain rfl := Option.some.inj (by simpa [hexecute] using hstep)
          rcases hcall : Sequence.completeClaim claimed.enrollment next w.store with
            ⟨store, error | completed⟩ <;>
              simp [call, hclaim, hexecute, Except.toOption, performCall, hcall]
  | resolveAmbiguous enrollment definition resolution now =>
      simp only [Step, step, Option.bind_eq_bind, Option.bind_eq_some_iff] at hstep
      obtain ⟨enrollment, henrollment, definition, hdefinition, hstep⟩ := hstep
      split at hstep
      · simp at hstep
      · cases hambiguous : ambiguousStep enrollment definition with
        | error error =>
            obtain rfl := Option.some.inj (by simpa [hambiguous] using hstep)
            simp [call, henrollment, hdefinition, hambiguous, Except.toOption]
        | ok position =>
            obtain ⟨revision, send⟩ := position
            cases hnext : resolvedEnrollment enrollment revision send resolution now with
            | error error =>
                obtain rfl := Option.some.inj (by simpa [hambiguous, hnext] using hstep)
                simp [call, henrollment, hdefinition, hambiguous, hnext, Except.toOption]
            | ok next =>
                obtain rfl := Option.some.inj (by simpa [hambiguous, hnext] using hstep)
                rcases hcall : Sequence.resolveAmbiguous enrollment next w.store with
                  ⟨store, error | resolved⟩ <;>
                    simp [call, henrollment, hdefinition, hambiguous, hnext, Except.toOption,
                      performCall, hcall]
  | reconcile options =>
      obtain rfl := Option.some.inj hstep
      rcases hcall : Sequence.reconcile options w.store with ⟨store, error | result⟩ <;>
        simp [call, performCall, hcall]

/-- The claims after an action are those before, and those its call was granted. -/
theorem RepositoryWorld.claims_of_step (hstep : w.Step action w')
    {entry : ClaimedSequenceEnrollment × ℤ} (hmem : entry ∈ w'.claims) :
    entry ∈ w.claims ∨ ∃ call entries, w.call action = some call ∧
      (performCall w.store call).2 = .claimed entries ∧ entry.1 ∈ entries := by
  cases action with
  | claimDue options =>
      simp only [Step, step, Option.some.injEq] at hstep
      subst hstep
      rcases hcall : Sequence.claimDue options w.store with ⟨store, error | claimed⟩
      · exact .inl (by simpa [hcall, Except.toOption] using hmem)
      · rcases List.mem_append.mp hmem with hold | hnew
        · exact .inl hold
        · rw [hcall] at hnew
          obtain ⟨claim, hclaim, rfl⟩ := List.mem_map.mp hnew
          exact .inr ⟨.claimDue options, claimed, rfl, by simp [performCall, hcall], hclaim⟩
  | createDefinition | updateDefinition | deleteDefinition | setDefinitionStatus | getDefinition
    | createEnrollment | getEnrollment | completeClaim | resolveAmbiguous | reconcile =>
      refine .inl ?_
      simp only [Step, step, Option.bind_eq_bind, Option.bind_eq_some_iff] at hstep
      grind [afterDefinition]

theorem RepositoryWorld.seen_of_step (hstep : w.Step action w') :
    w.claims <+: w'.claims ∧ w.returned <+: w'.returned ∧ w.read <+: w'.read := by
  cases action with
  | createDefinition | updateDefinition | deleteDefinition | setDefinitionStatus | getDefinition
    | createEnrollment | getEnrollment | claimDue | completeClaim | resolveAmbiguous | reconcile =>
      simp only [Step, step, Option.bind_eq_bind, Option.bind_eq_some_iff] at hstep
      grind [afterDefinition, List.prefix_append]

/-- Clients make admissible calls only. -/
theorem WorldInvariant.admissible (h : WorldInvariant w) {call : RepositoryCall}
    (hcall : w.call action = some call) : call.Admissible := by
  cases action with
  | createEnrollment definition input newId now =>
      simp only [RepositoryWorld.call, Option.bind_eq_bind, Option.bind_eq_some_iff] at hcall
      obtain ⟨definition, -, enrollment, hcreate, hcall⟩ := hcall
      obtain rfl := Option.some.inj hcall
      obtain ⟨-, -, -, -, -, htoken, hlease, -⟩ :=
        createSequenceEnrollment_eq_ok (toOption_eq_some_iff.mp hcreate)
      exact ⟨htoken, hlease⟩
  | completeClaim claim lookup result jitter =>
      simp only [RepositoryWorld.call, Option.bind_eq_bind, Option.bind_eq_some_iff] at hcall
      obtain ⟨⟨claimed, now⟩, hclaim, next, hexecute, hcall⟩ := hcall
      obtain rfl := Option.some.inj hcall
      obtain ⟨hfits, -⟩ := h.claims _ (List.mem_of_getElem? hclaim)
      exact (executeClaimedEnrollment_eq_ok (hfits.stored.wellOrdered hfits.revision)
        (toOption_eq_some_iff.mp hexecute)).1.id
  | resolveAmbiguous enrollment definition resolution now =>
      simp only [RepositoryWorld.call, Option.bind_eq_bind, Option.bind_eq_some_iff] at hcall
      obtain ⟨enrollment, -, definition, hdefinition, ⟨revision, step⟩, hambiguous, next, hnext,
        hcall⟩ := hcall
      obtain rfl := Option.some.inj hcall
      obtain ⟨hstored, -⟩ := h.returned definition (List.mem_of_getElem? hdefinition)
      obtain ⟨hrevision, hsend, hid⟩ := ambiguousStep_eq_ok (toOption_eq_some_iff.mp hambiguous)
      obtain ⟨hpinned, -⟩ := hstored.findRevision_eq_some_iff.mp hrevision
      exact (resolvedEnrollment_eq_ok (hstored.wellOrdered hpinned) hsend hid
        (toOption_eq_some_iff.mp hnext)).1.id
  | createDefinition input newId now =>
      simp only [RepositoryWorld.call, Option.map_eq_some_iff] at hcall
      obtain ⟨definition, -, rfl⟩ := hcall
      trivial
  | updateDefinition | deleteDefinition | setDefinitionStatus | claimDue | reconcile =>
      obtain rfl := Option.some.inj hcall
      trivial
  | getDefinition | getEnrollment => simp [RepositoryWorld.call] at hcall

end Calls

/-! ## Where the records of a call come from -/

/-- Has an enrollment stopped, for good or until an operator resolves it? -/
def isHalted (status : SequenceEnrollmentStatus) : Bool :=
  enrollmentIsTerminal status || status = .ambiguous

/-- A record that is in the same position, after the same number of attempts. -/
structure Continues (before after : SequenceEnrollment) : Prop where
  identity : SameIdentity before after
  step : after.currentStepId = before.currentStepId
  attempts : after.retryCount = before.retryCount
  halted : isHalted after.status = isHalted before.status

theorem Continues.refl (enrollment : SequenceEnrollment) : Continues enrollment enrollment :=
  ⟨.refl enrollment, rfl, rfl, rfl⟩

/-- The enrollments whose claims an event completes. -/
def completedIds : RepositoryEvent → List Text
  | .completed enrollment => [enrollment.id]
  | _ => []

/-- Where a record that a call leaves in the document comes from: it was there before, it is new,
or it is the next record of a claim or of a resolution. -/
inductive Origin (store : SequenceStore) :
    RepositoryCall → RepositoryEvent → SequenceEnrollment → Prop
  /-- A record that was there, in the same position. -/
  | continued {call : RepositoryCall} {event : RepositoryEvent}
      {before after : SequenceEnrollment} (mem : before ∈ store.enrollments)
      (continues : Continues before after) (other : after.id ∉ completedIds event) :
      Origin store call event after
  /-- A new record. -/
  | created {enrollment : SequenceEnrollment}
      (fresh : ∀ old ∈ store.enrollments, old.id ≠ enrollment.id) :
      Origin store (.createEnrollment enrollment) .other enrollment
  /-- The next record of a claim. -/
  | completed {enrollment : SequenceEnrollment} {next : UnleasedEnrollment} :
      Origin store (.completeClaim enrollment next) (.completed enrollment) next.val
  /-- The next record of an ambiguous enrollment. -/
  | resolved {enrollment : SequenceEnrollment} {next : UnleasedEnrollment} :
      Origin store (.resolveAmbiguous enrollment next) (.resolved enrollment) next.val

section Origins

variable [MailboxContract] [CaseMapping] {store store' : SequenceStore} {call : RepositoryCall}
  {event : RepositoryEvent} {enrollment : SequenceEnrollment}

omit [MailboxContract] [CaseMapping] in
theorem Origin.kept (hmem : enrollment ∈ store.enrollments)
    (hother : enrollment.id ∉ completedIds event) : Origin store call event enrollment :=
  .continued hmem (.refl enrollment) hother

omit [MailboxContract] [CaseMapping] in
theorem ClaimOf.continues {options : ClaimDueOptions} {token : Text}
    {claimed : ClaimedSequenceEnrollment} {candidate : SequenceEnrollment}
    (h : ClaimOf options store token claimed candidate) :
    Continues candidate claimed.enrollment := by
  have hdue := h.due
  simp only [isDue, Bool.and_eq_true, decide_eq_true_eq, List.mem_cons, List.not_mem_nil,
    or_false] at hdue
  rw [h.leased]
  refine ⟨⟨rfl, rfl, rfl, rfl, rfl, rfl⟩, rfl, rfl, ?_⟩
  rcases hdue.1.1 with hstatus | hstatus | hstatus <;>
    simp [isHalted, enrollmentIsTerminal, hstatus]

theorem StoreInvariant.origin (h : StoreInvariant store) (hadmissible : call.Admissible)
    (hcall : performCall store call = (store', event)) (hmem : enrollment ∈ store'.enrollments) :
    Origin store call event enrollment := by
  have hfailed : ∀ {call : RepositoryCall}, (store, RepositoryEvent.other) = (store', event) →
      Origin store call event enrollment := by
    intro call hsame
    obtain ⟨rfl, rfl⟩ := Prod.mk.inj hsame
    exact .kept hmem (by simp [completedIds])
  cases call with
  | createDefinition definition =>
      rcases hresult : Sequence.createDefinition definition store with ⟨after, error | result⟩
      · obtain rfl := createDefinition_error hresult
        exact hfailed (by simpa [performCall, hresult] using hcall)
      · obtain ⟨-, -, rfl⟩ := createDefinition_eq_ok h.stored hresult
        obtain ⟨rfl, rfl⟩ : _ ∧ _ := by simpa [performCall, hresult] using hcall
        exact .kept hmem (by simp [completedIds])
  | updateDefinition id input now =>
      rcases hresult : Sequence.updateDefinition id input now store with ⟨after, error | result⟩
      · obtain rfl := exec_error hresult
        exact hfailed (by simpa [performCall, hresult] using hcall)
      · obtain ⟨rfl, rfl⟩ : _ ∧ _ := by simpa [performCall, hresult] using hcall
        obtain ⟨-, -, ⟨rfl, -⟩ | ⟨-, -, -, -, -, -, -, -, rfl⟩⟩ :=
          updateDefinition_eq_ok h.stored hresult <;>
            exact .kept hmem (by simp [completedIds])
  | setDefinitionStatus id status now =>
      rcases hresult : Sequence.setDefinitionStatus id status now store with
        ⟨after, error | result⟩
      · obtain rfl := exec_error hresult
        exact hfailed (by simpa [performCall, hresult] using hcall)
      · obtain ⟨rfl, rfl⟩ : _ ∧ _ := by simpa [performCall, hresult] using hcall
        obtain ⟨-, -, ⟨rfl, -⟩ | ⟨-, -, rfl⟩⟩ := setDefinitionStatus_eq_ok h.stored hresult <;>
          exact .kept hmem (by simp [completedIds])
  | deleteDefinition id =>
      rcases hresult : Sequence.deleteDefinition id store with ⟨after, error | result⟩
      · obtain rfl := exec_error hresult
        exact hfailed (by simpa [performCall, hresult] using hcall)
      · obtain ⟨rfl, rfl⟩ : _ ∧ _ := by simpa [performCall, hresult] using hcall
        obtain ⟨-, -, rfl⟩ := deleteDefinition_eq_ok h.stored hresult
        exact .kept (List.mem_filter.mp hmem).1 (by simp [completedIds])
  | createEnrollment created =>
      rcases hresult : Sequence.createEnrollment created store with ⟨after, error | result⟩
      · obtain rfl := exec_error hresult
        exact hfailed (by simpa [performCall, hresult] using hcall)
      · obtain ⟨rfl, rfl⟩ : _ ∧ _ := by simpa [performCall, hresult] using hcall
        obtain ⟨-, hfresh, -, -, rfl⟩ := createEnrollment_eq_ok h.stored hresult
        rcases List.mem_append.mp hmem with hold | hnew
        · exact .kept hold (by simp [completedIds])
        · obtain rfl := List.mem_singleton.mp hnew
          exact .created fun old hold => (hfresh old hold).1
  | claimDue options =>
      rcases hresult : Sequence.claimDue options store with ⟨after, error | entries⟩
      · obtain rfl := exec_error hresult
        exact hfailed (by simpa [performCall, hresult] using hcall)
      · obtain ⟨rfl, rfl⟩ : _ ∧ _ := by simpa [performCall, hresult] using hcall
        obtain ⟨rfl, hids, -, hclaims⟩ := claimDue_eq_ok h.stored h.enrollmentIds hresult
        rcases (mem_replaceAllBy (by rw [List.map_map]; exact hids)).mp hmem with
          ⟨hnew, -⟩ | ⟨hold, -⟩
        · obtain ⟨entry, hentry, rfl⟩ := List.mem_map.mp hnew
          obtain ⟨token, candidate, hof⟩ := hclaims entry hentry
          exact .continued hof.stored hof.continues (by simp [completedIds])
        · exact .kept hold (by simp [completedIds])
  | completeClaim claim next =>
      rcases hresult : Sequence.completeClaim claim next store with ⟨after, error | result⟩
      · obtain rfl := exec_error hresult
        exact hfailed (by simpa [performCall, hresult] using hcall)
      · obtain ⟨rfl, rfl⟩ : _ ∧ _ := by simpa [performCall, hresult] using hcall
        obtain ⟨-, -, -, -, -, -, rfl⟩ := completeClaim_eq_ok h.stored hresult
        rcases mem_replaceBy.mp hmem with ⟨rfl, -⟩ | ⟨hold, hne⟩
        · exact .completed
        · refine .kept hold ?_
          rw [completedIds, List.mem_singleton, ← hadmissible]
          exact hne
  | resolveAmbiguous ambiguous next =>
      rcases hresult : Sequence.resolveAmbiguous ambiguous next store with ⟨after, error | result⟩
      · obtain rfl := exec_error hresult
        exact hfailed (by simpa [performCall, hresult] using hcall)
      · obtain ⟨rfl, rfl⟩ : _ ∧ _ := by simpa [performCall, hresult] using hcall
        obtain ⟨-, -, -, -, -, -, rfl⟩ := resolveAmbiguous_eq_ok h.stored hresult
        rcases mem_replaceBy.mp hmem with ⟨rfl, -⟩ | ⟨hold, -⟩
        · exact .resolved
        · exact .kept hold (by simp [completedIds])
  | reconcile options =>
      rcases hresult : Sequence.reconcile options store with ⟨after, error | result⟩
      · obtain rfl := exec_error hresult
        exact hfailed (by simpa [performCall, hresult] using hcall)
      · obtain ⟨rfl, rfl⟩ : _ ∧ _ := by simpa [performCall, hresult] using hcall
        obtain ⟨-, hforall⟩ := reconcile_eq_ok h.stored h.enrollmentIds hresult
        obtain ⟨i, hi, rfl⟩ := List.mem_iff_getElem.mp hmem
        have hlength := hforall.length_eq
        have hi' : i < store.enrollments.length := by omega
        have hbefore : store.enrollments[i] ∈ store.enrollments := List.getElem_mem hi'
        rcases (List.forall₂_iff_get.mp hforall).2 i hi' hi with
          ⟨-, hsame⟩ | ⟨-, hexpired, hrecovered⟩
        · simp only [List.get_eq_getElem] at hsame
          rw [hsame]
          exact .kept hbefore (by simp [completedIds])
        · simp only [List.get_eq_getElem] at hexpired hrecovered
          refine .continued hbefore ?_ (by simp [completedIds])
          rw [(recoverEnrollment_eq_ok hrecovered).1]
          refine ⟨⟨rfl, rfl, rfl, rfl, rfl, rfl⟩, rfl, rfl, ?_⟩
          simp only [leaseExpired, Bool.and_eq_true] at hexpired
          have hleased : store.enrollments[i].leaseExpiresAt.isSome = true :=
            Option.isSome_of_any hexpired.1
          have hrunning := (h.leased _ hbefore).2.mp hleased
          simp [isHalted, enrollmentIsTerminal, hrunning]

omit [MailboxContract] [CaseMapping] in
theorem mem_completedIds {id : Text} (h : id ∈ completedIds event) :
    ∃ enrollment, event = .completed enrollment ∧ enrollment.id = id := by
  cases event with
  | completed enrollment => exact ⟨enrollment, rfl, (List.mem_singleton.mp h).symm⟩
  | claimed | recovered | resolved | other => simp [completedIds] at h

/-- A claim is completed by the call that says so. -/
theorem completeClaim_of_completed (hcall : performCall store call = (store', .completed enrollment)) :
    ∃ next result, call = .completeClaim enrollment next ∧
      completeClaim enrollment next store = (store', .ok result) := by
  cases call with
  | completeClaim claim next =>
      simp only [performCall] at hcall
      split at hcall
      · next store'' result hcomplete =>
          obtain ⟨rfl, hevent⟩ := Prod.mk.inj hcall
          obtain rfl := RepositoryEvent.completed.inj hevent
          exact ⟨next, result, rfl, hcomplete⟩
      · simp at hcall
  | claimDue options =>
      simp only [performCall] at hcall
      split at hcall <;> simp at hcall
  | resolveAmbiguous ambiguous next =>
      simp only [performCall] at hcall
      split at hcall <;> simp at hcall
  | reconcile options =>
      simp only [performCall] at hcall
      split at hcall <;> simp at hcall
  | createDefinition | updateDefinition | deleteDefinition | setDefinitionStatus
    | createEnrollment => simp [performCall] at hcall

end Origins

/-! ## The attempts that remain -/

/-- The attempts an enrollment has left on the steps of its revision. -/
def remainingAttempts (steps : List SequenceStep) (enrollment : SequenceEnrollment) : ℕ :=
  if isHalted enrollment.status then 0
  else
    (steps.length - (stepIndex steps enrollment.currentStepId).getD steps.length) *
      sequenceRetryMaxAttempts - enrollment.retryCount

theorem Continues.remainingAttempts_eq {before after : SequenceEnrollment}
    (h : Continues before after) (steps : List SequenceStep) :
    remainingAttempts steps after = remainingAttempts steps before := by
  rw [remainingAttempts, remainingAttempts, h.halted, h.step, h.attempts]

theorem remainingAttempts_le (steps : List SequenceStep) (enrollment : SequenceEnrollment) :
    remainingAttempts steps enrollment ≤ steps.length * sequenceRetryMaxAttempts := by
  unfold remainingAttempts
  split
  · exact Nat.zero_le _
  · exact (Nat.sub_le _ _).trans (Nat.mul_le_mul_right _ (Nat.sub_le _ _))

theorem remainingAttempts_of_index {steps : List SequenceStep} {enrollment : SequenceEnrollment}
    {i : ℕ} (hactive : isHalted enrollment.status = false)
    (hindex : stepIndex steps enrollment.currentStepId = some i) :
    remainingAttempts steps enrollment =
      (steps.length - i) * sequenceRetryMaxAttempts - enrollment.retryCount := by
  simp [remainingAttempts, hactive, hindex]

/-- Progress uses up an attempt, and leaves one to an enrollment that goes on. -/
theorem Progress.remainingAttempts_lt {steps : List SequenceStep}
    {before after : SequenceEnrollment} (h : Progress steps before after)
    (hordered : WellOrdered steps) (hactive : isHalted before.status = false)
    (hposition : ∃ step ∈ steps, step.id = before.currentStepId)
    (hbelow : before.retryCount < sequenceRetryMaxAttempts) :
    remainingAttempts steps after < remainingAttempts steps before ∧
      (isHalted after.status = false → after.retryCount < sequenceRetryMaxAttempts) := by
  obtain ⟨current, hcurrent, hid⟩ := hposition
  obtain ⟨i, hi⟩ := List.mem_iff_getElem?.mp hcurrent
  have hindex := (stepIndex_eq_some_iff hordered.distinct).mpr ⟨current, hi, hid⟩
  have hlength := (List.getElem?_eq_some_iff.mp hi).1
  have hbefore := remainingAttempts_of_index hactive hindex
  unfold sequenceRetryMaxAttempts at hbefore hbelow ⊢
  cases h with
  | ended terminal same =>
      have hhalted : isHalted after.status = true := by simp [isHalted, terminal]
      refine ⟨?_, by simp [hhalted]⟩
      rw [remainingAttempts, if_pos hhalted]
      omega
  | ambiguous status same onSend =>
      have hhalted : isHalted after.status = true := by simp [isHalted, status]
      refine ⟨?_, by simp [hhalted]⟩
      rw [remainingAttempts, if_pos hhalted]
      omega
  | later status position fresh =>
      obtain ⟨i', j, step, step', hij, hi', hid', hj, hid''⟩ := position
      have hactive' : isHalted after.status = false := by
        rcases status with status | status <;> simp [isHalted, enrollmentIsTerminal, status]
      have hindex' := (stepIndex_eq_some_iff hordered.distinct).mpr ⟨step', hj, hid''⟩
      have hsame : i' = i := Option.some.inj
        (((stepIndex_eq_some_iff hordered.distinct).mpr ⟨step, hi', hid'⟩).symm.trans hindex)
      have hafter := remainingAttempts_of_index hactive' hindex'
      have hjlength := (List.getElem?_eq_some_iff.mp hj).1
      unfold sequenceRetryMaxAttempts at hafter
      exact ⟨by omega, fun _ => by omega⟩
  | retry status same counted below =>
      have hactive' : isHalted after.status = false := by
        simp [isHalted, enrollmentIsTerminal, status]
      have hafter := remainingAttempts_of_index hactive' (same ▸ hindex)
      unfold sequenceRetryMaxAttempts at hafter below
      exact ⟨by omega, fun _ => below⟩

/-! ## Histories -/

/-- A repository and its clients, with the events so far. -/
structure RecordedWorld where
  world : RepositoryWorld := {}
  events : List RepositoryEvent := []

/-- How often claims of an enrollment were completed. -/
def completions (id : Text) (events : List RepositoryEvent) : ℕ :=
  (events.flatMap completedIds).count id

@[simp]
theorem completions_append (id : Text) (events later : List RepositoryEvent) :
    completions id (events ++ later) = completions id events + completions id later := by
  simp [completions]

theorem completions_singleton_of_notMem {id : Text} {event : RepositoryEvent}
    (h : id ∉ completedIds event) : completions id [event] = 0 := by
  simpa [completions, List.count_eq_zero] using h

/-- The completions of an enrollment so far and the attempts it has left do not
exceed the attempts of its revision. -/
def AttemptsBounded (definitions : List SequenceDefinition) (events : List RepositoryEvent)
    (enrollment : SequenceEnrollment) : Prop :=
  ∃ definition ∈ definitions, definition.id = enrollment.sequenceId ∧
    ∃ revision ∈ definition.revisions, revision.revision = enrollment.revision ∧
      (isHalted enrollment.status = false → enrollment.retryCount < sequenceRetryMaxAttempts) ∧
      completions enrollment.id events + remainingAttempts revision.steps enrollment ≤
        revision.steps.length * sequenceRetryMaxAttempts

section Histories

variable [MailboxContract] [CaseMapping]

def RecordedWorld.step (r : RecordedWorld) (action : RepositoryAction) : Option RecordedWorld := do
  let world ← r.world.step action
  return {
    world
    events := r.events ++
      (r.world.call action).toList.map fun call => (performCall r.world.store call).2 }

/-- The step relation of recorded worlds. -/
def RecordedWorld.Step (r : RecordedWorld) (action : RepositoryAction) (r' : RecordedWorld) :
    Prop :=
  r.step action = some r'

/-- The invariants of a repository and of its leases; every claim that a client
holds was granted. -/
structure RecordedInvariant (r : RecordedWorld) : Prop where
  world : WorldInvariant r.world
  fencing : FencingInvariant r.events r.world.store
  granted : ∀ entry ∈ r.world.claims, ∃ entries, .claimed entries ∈ r.events ∧ entry.1 ∈ entries

/-- The invariant that bounds the attempts of one enrollment: its completions so far and the
attempts it has left never exceed those of its revision. -/
structure AttemptInvariant (id : Text) (r : RecordedWorld) : Prop where
  world : WorldInvariant r.world
  fencing : FencingInvariant r.events r.world.store
  granted : ∀ entry ∈ r.world.claims, ∃ entries, .claimed entries ∈ r.events ∧ entry.1 ∈ entries
  absent : (∀ enrollment ∈ r.world.store.enrollments, enrollment.id ≠ id) →
    id ∉ r.world.deletedEnrollments → completions id r.events = 0
  bounded : ∀ enrollment ∈ r.world.store.enrollments, enrollment.id = id →
    AttemptsBounded r.world.store.definitions r.events enrollment

variable {id : Text} {r r' : RecordedWorld} {action : RepositoryAction}

theorem attemptInvariant_empty (id : Text) : AttemptInvariant id ({} : RecordedWorld) where
  world := worldInvariant_empty
  fencing := fencingInvariant_empty
  granted := by simp
  absent _ _ := rfl
  bounded := by simp

theorem RecordedWorld.step_of_no_call (hstep : r.Step action r')
    (hcall : r.world.call action = none) :
    r.world.Step action r'.world ∧ r'.events = r.events ∧ r'.world.store = r.world.store := by
  simp only [Step, step, Option.bind_eq_bind, Option.bind_eq_some_iff] at hstep
  obtain ⟨world, hworld, hstep⟩ := hstep
  obtain rfl := Option.some.inj hstep
  have hstore := RepositoryWorld.store_of_step hworld
  rw [hcall] at hstore
  exact ⟨hworld, by simp [hcall], hstore⟩

theorem RecordedWorld.step_of_call (hstep : r.Step action r') {call : RepositoryCall}
    (hcall : r.world.call action = some call) :
    r.world.Step action r'.world ∧ ∃ event, r'.events = r.events ++ [event] ∧
      performCall r.world.store call = (r'.world.store, event) := by
  simp only [Step, step, Option.bind_eq_bind, Option.bind_eq_some_iff] at hstep
  obtain ⟨world, hworld, hstep⟩ := hstep
  obtain rfl := Option.some.inj hstep
  have hstore := RepositoryWorld.store_of_step hworld
  rw [hcall] at hstore
  exact ⟨hworld, _, by rw [hcall]; rfl, by simp [hstore]⟩

theorem RecordedWorld.Step.world (hstep : r.Step action r') : r.world.Step action r'.world := by
  simp only [Step, step, Option.bind_eq_bind, Option.bind_eq_some_iff] at hstep
  obtain ⟨world, hworld, hstep⟩ := hstep
  obtain rfl := Option.some.inj hstep
  exact hworld

theorem RecordedWorld.events_extend (hstep : r.Step action r') : r.events <+: r'.events := by
  simp only [Step, step, Option.bind_eq_bind, Option.bind_eq_some_iff] at hstep
  obtain ⟨world, -, hstep⟩ := hstep
  obtain rfl := Option.some.inj hstep
  exact List.prefix_append _ _

theorem recordedInvariant_empty : RecordedInvariant ({} : RecordedWorld) where
  world := worldInvariant_empty
  fencing := fencingInvariant_empty
  granted := by simp

/-- The claims after a step are those before, and those the step was granted. -/
theorem RecordedWorld.claims_of_step (hstep : r.Step action r')
    {entry : ClaimedSequenceEnrollment × ℤ} (hentry : entry ∈ r'.world.claims) :
    entry ∈ r.world.claims ∨
      ∃ entries, r'.events = r.events ++ [.claimed entries] ∧ entry.1 ∈ entries := by
  rcases RepositoryWorld.claims_of_step hstep.world hentry with
    hold | ⟨call, entries, hcall, hclaimed, hnew⟩
  · exact .inl hold
  · obtain ⟨-, event, hevents, hperform⟩ := RecordedWorld.step_of_call hstep hcall
    rw [hperform] at hclaimed
    exact .inr ⟨entries, by rw [hevents, ← hclaimed], hnew⟩

theorem RecordedInvariant.step (h : RecordedInvariant r) (hstep : r.Step action r') :
    RecordedInvariant r' ∧ Stable r.world r'.world := by
  obtain ⟨hworld, hstable⟩ := h.world.step hstep.world
  refine ⟨⟨hworld, ?_, fun entry hentry => ?_⟩, hstable⟩
  · cases hcall : r.world.call action with
    | none =>
        obtain ⟨-, hevents, hstore⟩ := RecordedWorld.step_of_no_call hstep hcall
        rw [hevents, hstore]
        exact h.fencing
    | some call =>
        obtain ⟨-, event, hevents, hperform⟩ := RecordedWorld.step_of_call hstep hcall
        rw [hevents]
        exact h.fencing.step ⟨call, h.world.admissible hcall, hperform⟩
  · rcases RecordedWorld.claims_of_step hstep hentry with hold | ⟨entries, hevents, hnew⟩
    · obtain ⟨entries, hgranted, hin⟩ := h.granted entry hold
      exact ⟨entries, (RecordedWorld.events_extend hstep).subset hgranted, hin⟩
    · exact ⟨entries, by simp [hevents], hnew⟩

/-- A call that creates an enrollment brings one that was built for it. -/
theorem RepositoryWorld.created_of_call {w : RepositoryWorld} {enrollment : SequenceEnrollment}
    (hcall : w.call action = some (.createEnrollment enrollment)) :
    enrollment.status = .pending ∧ enrollment.retryCount = 0 := by
  cases action with
  | createEnrollment definition input newId now =>
      simp only [call, Option.bind_eq_bind, Option.bind_eq_some_iff] at hcall
      obtain ⟨definition, -, created, hcreate, hcall⟩ := hcall
      obtain rfl := RepositoryCall.createEnrollment.inj (Option.some.inj hcall)
      obtain ⟨-, -, -, hstatus, hcount, -⟩ :=
        createSequenceEnrollment_eq_ok (toOption_eq_some_iff.mp hcreate)
      exact ⟨hstatus, hcount⟩
  | createDefinition | updateDefinition | deleteDefinition | setDefinitionStatus | getDefinition
    | getEnrollment | claimDue | completeClaim | resolveAmbiguous | reconcile =>
      simp [call, Option.bind_eq_some_iff] at hcall

/-- A completion is one of a granted claim, with the record the engine made. -/
theorem RepositoryWorld.claim_of_completed {w : RepositoryWorld} {enrollment : SequenceEnrollment}
    {next : UnleasedEnrollment} (hcall : w.call action = some (.completeClaim enrollment next)) :
    ∃ claim claimed now lookup result jitter, action = .completeClaim claim lookup result jitter ∧
      w.claims[claim]? = some (claimed, now) ∧ enrollment = claimed.enrollment ∧
      executeClaimedEnrollment claimed now lookup result jitter = .ok next := by
  cases action with
  | completeClaim claim lookup result jitter =>
      simp only [call, Option.bind_eq_bind, Option.bind_eq_some_iff] at hcall
      obtain ⟨⟨claimed, now⟩, hclaim, produced, hexecute, hcall⟩ := hcall
      obtain ⟨rfl, rfl⟩ := RepositoryCall.completeClaim.inj (Option.some.inj hcall)
      exact ⟨claim, claimed, now, lookup, result, jitter, rfl, hclaim, rfl,
        toOption_eq_some_iff.mp hexecute⟩
  | createDefinition | updateDefinition | deleteDefinition | setDefinitionStatus | getDefinition
    | getEnrollment | claimDue | createEnrollment | resolveAmbiguous | reconcile =>
      simp [call, Option.bind_eq_some_iff] at hcall

theorem WorldInvariant.resolved_of_call {w : RepositoryWorld} (h : WorldInvariant w)
    {enrollment : SequenceEnrollment} {next : UnleasedEnrollment}
    (hcall : w.call action = some (.resolveAmbiguous enrollment next)) :
    next.val.id = enrollment.id ∧ (next.val.status = .pending ∨ next.val.status = .completed) := by
  cases action with
  | resolveAmbiguous snapshot definition resolution now =>
      simp only [RepositoryWorld.call, Option.bind_eq_bind, Option.bind_eq_some_iff] at hcall
      obtain ⟨snapshot, -, definition, hdefinition, ⟨revision, step⟩, hambiguous, produced, hnext,
        hcall⟩ := hcall
      obtain ⟨rfl, rfl⟩ := RepositoryCall.resolveAmbiguous.inj (Option.some.inj hcall)
      obtain ⟨hstored, -⟩ := h.returned definition (List.mem_of_getElem? hdefinition)
      obtain ⟨hrevision, hsend, hid⟩ := ambiguousStep_eq_ok (toOption_eq_some_iff.mp hambiguous)
      obtain ⟨hpinned, -⟩ := hstored.findRevision_eq_some_iff.mp hrevision
      obtain ⟨hsame, hstatus, -⟩ := resolvedEnrollment_eq_ok (hstored.wellOrdered hpinned) hsend hid
        (toOption_eq_some_iff.mp hnext)
      exact ⟨hsame.id, hstatus⟩
  | createDefinition | updateDefinition | deleteDefinition | setDefinitionStatus | getDefinition
    | getEnrollment | claimDue | createEnrollment | completeClaim | reconcile =>
      simp [RepositoryWorld.call, Option.bind_eq_some_iff] at hcall

/-- A bound carries over to a later world, for a record that continues another. -/
theorem AttemptsBounded.continue {before after : SequenceEnrollment}
    (h : AttemptsBounded r.world.store.definitions r.events before)
    (hworld : WorldInvariant r'.world) (hstable : Stable r.world r'.world)
    (hmem : after ∈ r'.world.store.enrollments) (hcontinues : Continues before after)
    (hcount : completions after.id r'.events = completions after.id r.events) :
    AttemptsBounded r'.world.store.definitions r'.events after := by
  obtain ⟨definition, hdefinition, hid, revision, hrevision, hnumber, hbelow, hbound⟩ := h
  obtain ⟨definition', hdefinition', hextends⟩ := hworld.definition_of_known
    (hstable.history definition hdefinition) hmem (hid.trans hcontinues.identity.sequenceId.symm)
  refine ⟨definition', hdefinition', ?_, revision, hextends.history.subset hrevision, ?_, ?_, ?_⟩
  · rw [hextends.id, hid, hcontinues.identity.sequenceId]
  · rw [hnumber, hcontinues.identity.revision]
  · rw [hcontinues.halted, hcontinues.attempts]
    exact hbelow
  · rw [hcontinues.remainingAttempts_eq, hcount, hcontinues.identity.id]
    exact hbound

/-- The bound of an enrollment whose claim was completed. -/
theorem AttemptInvariant.completed (h : AttemptInvariant id r)
    (hdistinct : (r.events.flatMap drawnTokens).Nodup) {enrollment : SequenceEnrollment}
    {next : UnleasedEnrollment} (hcall : r.world.call action = some (.completeClaim enrollment next))
    {store : SequenceStore} {result : SequenceEnrollment}
    (hcomplete : completeClaim enrollment next r.world.store = (store, .ok result))
    (hid : next.val.id = id) :
    AttemptsBounded r.world.store.definitions (r.events ++ [.completed enrollment]) next.val := by
  obtain ⟨claim, claimed, now, lookup, result, jitter, -, hclaim, rfl, hexecute⟩ :=
    RepositoryWorld.claim_of_completed hcall
  replace hclaim := List.mem_of_getElem? hclaim
  obtain ⟨hfits, hknown, -⟩ := h.world.claims _ hclaim
  obtain ⟨entries, hgranted, hentry⟩ := h.granted _ hclaim
  dsimp only at hfits hknown hentry
  obtain ⟨i, hgrant⟩ := List.mem_iff_getElem?.mp hgranted
  obtain ⟨stored, hfound, hleased, htoken, -⟩ := completeClaim_eq_ok h.fencing.stored hcomplete
  obtain ⟨hmem, -⟩ := h.world.store.find?_enrollment.mp hfound
  -- the stored record is the one the engine started from
  obtain ⟨rfl, -⟩ :=
    h.fencing.eq_claim_of_token hdistinct hgrant hentry hmem hleased htoken
  have hrunning := h.fencing.running_of_leased hmem hleased
  have hordered := hfits.stored.wellOrdered hfits.revision
  obtain ⟨hsame, hprogress⟩ := executeClaimedEnrollment_eq_ok hordered hexecute
  obtain ⟨definition, hdefinition, hsequence, revision, hrevision, hnumber, hbelow, hbound⟩ :=
    h.bounded claimed.enrollment hmem (hsame.id.symm.trans hid)
  -- and its revision is the pinned one
  obtain ⟨current, hcurrent, hextends⟩ := h.world.definition_of_known hknown hmem hfits.sequence
  obtain rfl : current = definition := List.inj_on_of_nodup_map h.world.store.definitionIds hcurrent
    hdefinition ((hextends.id.trans hfits.sequence).trans hsequence.symm)
  obtain rfl : claimed.revision = revision := List.inj_on_of_nodup_map
    (h.world.store.stored.definitions current hcurrent).numbers_distinct
    (hextends.history.subset hfits.revision) hrevision (hfits.number.trans hnumber.symm)
  have hactive : isHalted claimed.enrollment.status = false := by
    simp [isHalted, enrollmentIsTerminal, hrunning]
  obtain ⟨hless, hbelow'⟩ :=
    hprogress.remainingAttempts_lt hordered hactive hfits.step (hbelow hactive)
  refine ⟨current, hcurrent, hsequence.trans hsame.sequenceId.symm, claimed.revision, hrevision,
    hnumber.trans hsame.revision.symm, hbelow', ?_⟩
  have hone : completions claimed.enrollment.id [.completed claimed.enrollment] = 1 := by
    simp [completions, completedIds]
  rw [hsame.id, completions_append, hone]
  omega

/-- Every step keeps the invariant, unless an operator resolves the enrollment. -/
theorem AttemptInvariant.step (h : AttemptInvariant id r) (hstep : r.Step action r')
    (hdistinct : (r'.events.flatMap drawnTokens).Nodup)
    (hunresolved : ∀ enrollment, .resolved enrollment ∈ r'.events → enrollment.id ≠ id) :
    AttemptInvariant id r' := by
  obtain ⟨⟨hworld, hfencing, hgranted⟩, hstable⟩ :=
    RecordedInvariant.step ⟨h.world, h.fencing, h.granted⟩ hstep
  cases hcall : r.world.call action with
  | none =>
      obtain ⟨-, hevents, hstore⟩ := RecordedWorld.step_of_no_call hstep hcall
      refine ⟨hworld, hfencing, hgranted, fun habsent hdeleted => ?_,
        fun enrollment hmem hid => ?_⟩
      · rw [hevents]
        rw [hstore] at habsent
        exact h.absent habsent fun hmem => hdeleted (hstable.deletedEnrollments hmem)
      · exact (h.bounded enrollment (hstore ▸ hmem) hid).continue hworld hstable hmem
          (.refl enrollment) (by rw [hevents])
  | some call =>
      obtain ⟨-, event, hevents, hperform⟩ := RecordedWorld.step_of_call hstep hcall
      have hadmissible := h.world.admissible hcall
      have hdistinct' : (r.events.flatMap drawnTokens).Nodup := by
        rw [hevents, List.flatMap_append] at hdistinct
        exact (List.nodup_append.mp hdistinct).1
      refine ⟨hworld, hfencing, hgranted, fun habsent hdeleted => ?_,
        fun enrollment hmem hid => ?_⟩
      · -- an enrollment that is not there has not been there
        have hbefore : ∀ enrollment ∈ r.world.store.enrollments, enrollment.id ≠ id := by
          rintro enrollment hmem rfl
          rcases hstable.identity enrollment hmem with hgone | ⟨after, hafter, hsame⟩
          · exact hdeleted hgone
          · exact habsent after hafter hsame.id
        rw [hevents, completions_append, h.absent hbefore fun hgone =>
          hdeleted (hstable.deletedEnrollments hgone), Nat.zero_add]
        refine completions_singleton_of_notMem fun hin => ?_
        obtain ⟨enrollment, rfl, rfl⟩ := mem_completedIds hin
        obtain ⟨next, result, -, hcomplete⟩ := completeClaim_of_completed hperform
        obtain ⟨stored, hfound, -⟩ := completeClaim_eq_ok h.fencing.stored hcomplete
        obtain ⟨hmem, hstored⟩ := h.world.store.find?_enrollment.mp hfound
        exact hbefore stored hmem hstored
      · cases h.world.store.origin hadmissible hperform hmem with
        | continued hold hcontinues hother =>
            refine (h.bounded _ hold (hcontinues.identity.id.symm.trans hid)).continue hworld
              hstable hmem hcontinues ?_
            rw [hevents, completions_append, completions_singleton_of_notMem hother, Nat.add_zero]
        | created hfresh =>
            obtain ⟨definition, hdefinition, hsequence, revision, hrevision, hnumber, -⟩ :=
              hworld.store.positioned enrollment hmem
            refine ⟨definition, hdefinition, hsequence, revision, hrevision, hnumber, fun _ => ?_, ?_⟩
            · rw [(RepositoryWorld.created_of_call hcall).2]
              decide
            · have hnone : completions enrollment.id r'.events = 0 := by
                rw [hevents, completions_append, hid, h.absent (fun old hold => hid ▸ hfresh old hold)
                  fun hgone => hworld.enrollmentsAlive enrollment hmem
                    (hstable.deletedEnrollments (hid ▸ hgone)), Nat.zero_add]
                exact completions_singleton_of_notMem (by simp [completedIds])
              rw [hnone, Nat.zero_add]
              exact remainingAttempts_le _ _
        | completed =>
            obtain ⟨next, result, hsame, hcomplete⟩ := completeClaim_of_completed hperform
            obtain ⟨-, rfl⟩ := RepositoryCall.completeClaim.inj hsame
            have hbound := h.completed hdistinct' hcall hcomplete hid
            obtain ⟨-, -, -, -, -, -, hstore⟩ := completeClaim_eq_ok h.fencing.stored hcomplete
            rw [hevents, hstore]
            exact hbound
        | @resolved ambiguous next =>
            have hother := hunresolved ambiguous (by rw [hevents]; simp)
            exact absurd (hadmissible.symm.trans hid) hother

theorem attemptInvariant_of_run {actions : List RepositoryAction}
    (hrun : Run RecordedWorld.Step {} actions r)
    (hdistinct : (r.events.flatMap drawnTokens).Nodup)
    (hunresolved : ∀ enrollment, .resolved enrollment ∈ r.events → enrollment.id ≠ id) :
    AttemptInvariant id r := by
  generalize hstart : ({} : RecordedWorld) = start at hrun
  induction hrun with
  | refl => exact hstart ▸ attemptInvariant_empty id
  | snoc before last ih =>
      have hextended := RecordedWorld.events_extend last
      refine (ih ?_ ?_).step last hdistinct hunresolved
      · obtain ⟨later, hlater⟩ := hextended
        rw [← hlater, List.flatMap_append] at hdistinct
        exact (List.nodup_append.mp hdistinct).1
      · exact fun enrollment hmem => hunresolved enrollment (hextended.subset hmem)

/-- A claimed enrollment is completed with progress exactly when what it meets can
be recorded: in particular unless its last attempt fails with a long message.
However that may be, without an operator an enrollment is completed at most as
often as its revision has attempts. -/
theorem executeClaimedEnrollment_progress :
    (∀ (claimed : ClaimedSequenceEnrollment) (step : SequenceStep) (now : ℤ)
      (lookup : Except Thrown Subscriber) (result : Except Thrown SendTransactionalOutput)
      (jitter : Option ℚ), ClaimedOn claimed step now →
        ((∃ next, executeClaimedEnrollment claimed now lookup result jitter = .ok next ∧
            enrollmentSchema next.val = true ∧
            Progress claimed.revision.steps claimed.enrollment next.val) ↔
          StepRecordable claimed step now lookup result jitter)) ∧
      ∀ (actions : List RepositoryAction) (r : RecordedWorld),
        Run RecordedWorld.Step {} actions r → (r.events.flatMap drawnTokens).Nodup →
          ∀ enrollment ∈ r.world.store.enrollments,
            (∀ resolved, .resolved resolved ∈ r.events → resolved.id ≠ enrollment.id) →
              ∀ definition ∈ r.world.store.definitions, definition.id = enrollment.sequenceId →
                ∀ revision ∈ definition.revisions, revision.revision = enrollment.revision →
                  completions enrollment.id r.events ≤
                    revision.steps.length * sequenceRetryMaxAttempts := by
  refine ⟨fun claimed step now lookup result jitter hclaimed => hclaimed.progress_iff,
    fun actions r hrun hdistinct enrollment hmem hunresolved definition hdefinition hsequence
      revision hrevision hnumber => ?_⟩
  have h := attemptInvariant_of_run hrun hdistinct hunresolved
  obtain ⟨definition', hdefinition', hsequence', revision', hrevision', hnumber', -, hbound⟩ :=
    h.bounded enrollment hmem rfl
  obtain rfl : definition = definition' := List.inj_on_of_nodup_map h.world.store.definitionIds
    hdefinition hdefinition' (hsequence.trans hsequence'.symm)
  obtain rfl : revision = revision' := List.inj_on_of_nodup_map
    (h.world.store.stored.definitions definition hdefinition).numbers_distinct hrevision hrevision'
    (hnumber.trans hnumber'.symm)
  omega

end Histories

/-! ## A step that is recorded, and one that is not -/

theorem wellOrdered_onboardingRevision : WellOrdered onboardingRevision.steps :=
  (validateSequenceStepTopology_eq_ok
    (show validateSequenceStepTopology onboardingRevision.steps = .ok _ from rfl)).2

theorem claimedOn_onboardingClaim : ClaimedOn onboardingClaim welcomeStep 1000 where
  ordered := wellOrdered_onboardingRevision
  current := rfl
  schema := by decide
  claimedAt := rfl

/-- Does a recorded world hold the sample enrollment on a revision with one step,
with distinct tokens and no resolution? -/
def holdsSample (r : RecordedWorld) : Bool :=
  decide (r.events.flatMap drawnTokens).Nodup &&
    r.events.all (fun event => match event with
      | .resolved _ => false
      | _ => true) &&
    r.world.store.enrollments.any fun enrollment =>
      enrollment.id = sampleEnrollmentId && enrollment.status = .completed &&
        r.world.store.definitions.any fun definition =>
          definition.id = enrollment.sequenceId && definition.revisions.any fun revision =>
            revision.revision = enrollment.revision && revision.steps.length = 1

theorem executeClaimedEnrollment_progress_onboarding :
    letI := plainMailboxContract
    letI := asciiCaseMapping
    (∃ next, executeClaimedEnrollment onboardingClaim 1000 (.ok {})
        (.ok { sent := true, status := .accepted }) none = .ok next ∧
      enrollmentSchema next.val = true ∧
      Progress onboardingRevision.steps claimedEnrollment next.val) ∧
      ∃ r, Run RecordedWorld.Step {} sampleHistory r ∧
        completions sampleEnrollmentId r.events ≤ 24 := by
  let := plainMailboxContract
  let := asciiCaseMapping
  obtain ⟨hprogress, hbound⟩ := executeClaimedEnrollment_progress
  refine ⟨(hprogress onboardingClaim welcomeStep 1000 (.ok {})
    (.ok { sent := true, status := .accepted }) none claimedOn_onboardingClaim).mpr
      (by simp [StepRecordable, welcomeStep, sendFailure, parseFromEmail,
        subscriberCannotReceive]), ?_⟩
  have hsample : (sampleHistory.foldlM RecordedWorld.step {}).map holdsSample = some true := by
    decide
  obtain ⟨r, hr, hholds⟩ := Option.map_eq_some_iff.mp hsample
  have hrun : Run RecordedWorld.Step {} sampleHistory r := Run.of_foldlM hr
  simp only [holdsSample, Bool.and_eq_true, decide_eq_true_eq, List.all_eq_true,
    List.any_eq_true] at hholds
  obtain ⟨⟨hdistinct, hunresolved⟩, enrollment, hmem, ⟨hid, -⟩, definition, hdefinition, hsequence,
    revision, hrevision, hnumber, hlength⟩ := hholds
  have hcount := hbound sampleHistory r hrun hdistinct enrollment hmem
    (fun resolved hresolved => by simpa using hunresolved _ hresolved)
    definition hdefinition hsequence revision hrevision hnumber
  rw [hid, hlength] at hcount
  exact ⟨r, hrun, hcount⟩

/-- An enrollment that has made 23 attempts. -/
def lastAttemptClaim : ClaimedSequenceEnrollment :=
  { onboardingClaim with enrollment := { claimedEnrollment with retryCount := 23 } }

/-- A refused connection, described at length. -/
def refusedAtLength : Thrown where
  message := List.replicate 947 0x61
  code := some "ECONNREFUSED"

/-- The last attempt cannot be recorded when it fails with a long message: the
record the engine produces breaks the limit of its own schema. -/
theorem executeClaimedEnrollment_progress_fails :
    letI := plainMailboxContract
    letI := asciiCaseMapping
    ClaimedOn lastAttemptClaim welcomeStep 1000 ∧
      ¬ ∃ next, executeClaimedEnrollment lastAttemptClaim 1000 (.error refusedAtLength)
          (.ok { sent := true, status := .accepted }) none = .ok next ∧
        enrollmentSchema next.val = true ∧
        Progress lastAttemptClaim.revision.steps lastAttemptClaim.enrollment next.val := by
  let := plainMailboxContract
  let := asciiCaseMapping
  have hclaimed : ClaimedOn lastAttemptClaim welcomeStep 1000 :=
    ⟨wellOrdered_onboardingRevision, rfl, by decide, rfl⟩
  refine ⟨hclaimed, fun hprogress => ?_⟩
  have hretried : isRetried refusedAtLength = true := by
    have hcode : (collectErrorCodes refusedAtLength).any (codeSignals.contains ·) = true := by decide
    simp only [isRetried, isDefinitivePreDispatchError, hcode, Bool.or_true]
    rfl
  have hrecordable := hclaimed.progress_iff.mp hprogress refusedAtLength rfl hretried
  have hmessage : refusedAtLength.message.length = 947 := List.length_replicate
  have hlength := hrecordable.2
  rw [hmessage] at hlength
  exact absurd hlength (by decide)

end ListmonkOps.Sequence
