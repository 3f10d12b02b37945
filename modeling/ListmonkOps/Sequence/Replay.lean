/-
Enrolling again.

A subscriber has at most one active enrollment in a sequence, so an enroll
request that is sent twice meets its own enrollment. It is then reported as a
replay when the enrollment looks untouched: pending, never tried again, on the
first step, and with its last transition at its creation. What makes a touched
enrollment look like that is a lease that was taken back before anything about
the enrollment changed, and a resolution in the instant of its creation; in a
run without these two, what looks untouched is untouched.
-/

import ListmonkOps.Sequence.AtMostOnce

namespace ListmonkOps.Sequence

open ListmonkOps.Math ListmonkOps.Runtime ListmonkOps.Transactional

/-! ## The operation -/

/-- The options of `listEnrollments`. -/
structure ListEnrollmentsOptions where
  sequenceId : Option Text := none
  status : Option SequenceEnrollmentStatus := none
  subscriberId : Option ℕ := none
  limit : ℕ := 100

/-- `compareByCreatedAtThenId`, as the order it sorts by. -/
def compareByCreatedAtThenId (left right : SequenceEnrollment) : Bool :=
  left.createdAt.time < right.createdAt.time ||
    (left.createdAt.time = right.createdAt.time && left.id ≤ right.id)

/-- `toEnrollmentOutput`. -/
structure EnrollmentOutput where
  id : Text
  sequenceId : Text
  revision : ℕ
  status : SequenceEnrollmentStatus
  retryCount : ℕ
  currentStepId : StepId
  nextRunAt : DateTime
  lastErrorPresent : Bool
  createdAt : DateTime
  updatedAt : DateTime
  deriving DecidableEq

@[inherit_doc EnrollmentOutput]
def toEnrollmentOutput (enrollment : SequenceEnrollment) : EnrollmentOutput where
  id := enrollment.id
  sequenceId := enrollment.sequenceId
  revision := enrollment.revision
  status := enrollment.status
  retryCount := enrollment.retryCount
  currentStepId := enrollment.currentStepId
  nextRunAt := enrollment.nextRunAt
  lastErrorPresent := enrollment.lastError.isSome
  createdAt := enrollment.createdAt
  updatedAt := enrollment.updatedAt

/-- `sequenceEnrollInputSchema`. -/
structure SequenceEnrollInput where
  id : Text
  subscriberId : ℕ
  context : List (Text × Json) := []
  startAt : Option DateTime := none

/-- What `executeSequenceEnrollOperation` returns. -/
structure SequenceEnrollOutput where
  enrollment : EnrollmentOutput
  created : Bool
  deriving DecidableEq

/-- `untouched`, `startMatches` and the comparison of the contexts. -/
def isReplay (input : SequenceEnrollInput) (enrollment active : SequenceEnrollment) : Bool :=
  active.retryCount = 0 && active.lastTransitionAt = active.createdAt &&
    active.revision = enrollment.revision && active.currentStepId = enrollment.currentStepId &&
    input.startAt.all (active.nextRunAt = ·) &&
    sameJsonObject (some active.context) (some input.context)

section Operation

variable [MailboxContract]

def listEnrollments (options : ListEnrollmentsOptions) (store : SequenceStore) :
    Except SequenceError (List SequenceEnrollment) := do
  let current ← parseStore store
  let matching := current.enrollments.filter fun enrollment =>
    options.sequenceId.all (enrollment.sequenceId = ·) &&
      options.status.all (enrollment.status = ·) &&
      options.subscriberId.all (enrollment.subscriberId = ·)
  return (matching.insertionSort (compareByCreatedAtThenId · ·)).take options.limit

/-- What the operation makes of a conflict. -/
def replayOrThrow (input : SequenceEnrollInput) (enrollment : SequenceEnrollment)
    (message : Text) (listed : SequenceStore) : Except SequenceError SequenceEnrollOutput := do
  let matching ← listEnrollments
    { sequenceId := some input.id
      subscriberId := some input.subscriberId
      status := some .pending } listed
  match matching.head? with
  | none => .error (.conflict message)
  | some active =>
      if isReplay input enrollment active then
        return { enrollment := toEnrollmentOutput active, created := false }
      else .error (.conflict message)

/-- `executeSequenceEnrollOperation`, with the document as it is when the
definition is read, when the enrollment is created, and when enrollments are
listed; others may have changed it in between. -/
def executeSequenceEnroll (input : SequenceEnrollInput) (newId : Text) (now : ℤ)
    (read created listed : SequenceStore) : Except SequenceError SequenceEnrollOutput := do
  let definition ← getDefinition input.id read
  let enrollment ← createSequenceEnrollment definition
    { subscriberId := input.subscriberId
      context := some input.context
      startAt := input.startAt } newId now
  match (createEnrollment enrollment created).2 with
  | .ok stored => return { enrollment := toEnrollmentOutput stored, created := true }
  | .error (.conflict message) => replayOrThrow input enrollment message listed
  | .error error => .error error

end Operation

/-! ## What looks untouched -/

/-- The enrollment stands on the first step of its revision. -/
def StandsOnFirstStep (definitions : List SequenceDefinition) (enrollment : SequenceEnrollment) :
    Prop :=
  ∃ definition ∈ definitions, definition.id = enrollment.sequenceId ∧
    ∃ revision ∈ definition.revisions, revision.revision = enrollment.revision ∧
      ∃ step ∈ revision.steps.head?, step.id = enrollment.currentStepId

/-- The enrollment looks as it did when it was created, its status apart. -/
structure LooksUntouched (definitions : List SequenceDefinition)
    (enrollment : SequenceEnrollment) : Prop where
  untried : enrollment.retryCount = 0
  unmoved : enrollment.lastTransitionAt = enrollment.createdAt
  first : StandsOnFirstStep definitions enrollment

instance (definitions : List SequenceDefinition) (enrollment : SequenceEnrollment) :
    Decidable (StandsOnFirstStep definitions enrollment) :=
  inferInstanceAs (Decidable (∃ definition ∈ definitions, _ ∧
    ∃ revision ∈ definition.revisions, _ ∧ ∃ step ∈ revision.steps.head?, _))

theorem looksUntouched_iff {definitions : List SequenceDefinition}
    {enrollment : SequenceEnrollment} : LooksUntouched definitions enrollment ↔
      enrollment.retryCount = 0 ∧ enrollment.lastTransitionAt = enrollment.createdAt ∧
        StandsOnFirstStep definitions enrollment :=
  ⟨fun h => ⟨h.untried, h.unmoved, h.first⟩, fun h => ⟨h.1, h.2.1, h.2.2⟩⟩

instance (definitions : List SequenceDefinition) (enrollment : SequenceEnrollment) :
    Decidable (LooksUntouched definitions enrollment) :=
  decidable_of_iff' _ looksUntouched_iff

/-- The call does not give its untouched look back to an enrollment: a reconcile
takes no lease from one that still has it, and nobody resolves one on its first
step as not sent in the instant of its creation. -/
def RepositoryAction.Spares (w : RepositoryWorld) : RepositoryAction → Prop
  | .reconcile options => ∀ enrollment ∈ w.store.enrollments,
      enrollment.id ∈ recoveredIds options w.store.enrollments →
        ¬ LooksUntouched w.store.definitions enrollment
  | .resolveAmbiguous enrollment _ .notSent now => ∀ snapshot ∈ w.read[enrollment]?,
      StandsOnFirstStep w.store.definitions snapshot → snapshot.createdAt ≠ { time := now }
  | _ => True

instance (w : RepositoryWorld) (options : ReconcileOptions) :
    Decidable ((RepositoryAction.reconcile options).Spares w) :=
  inferInstanceAs (Decidable (∀ enrollment ∈ w.store.enrollments, _ → ¬ _))

/-- The same of a step of a worker, an operator or another client. -/
def EngineWorld.Spares (w : EngineWorld) : EngineAction → Prop
  | .repository action => action.Spares w.repository.world
  | .resolve i => ∀ operator ∈ w.operators[i]?, ∀ enrollment definition ref record,
      operator.phase = .recordLoaded enrollment definition ref record →
        (RepositoryAction.resolveAmbiguous enrollment definition operator.resolution
          operator.now).Spares w.repository.world
  | _ => True

/-- The identifiers of the enrollments that were claimed. -/
def claimedIds (events : List RepositoryEvent) : List Text :=
  events.flatMap fun
    | .claimed entries => entries.map (·.enrollment.id)
    | _ => []

/-- No worker has claimed the enrollment, executed it or sent a message for it. -/
structure EngineWorld.NeverTouched (w : EngineWorld) (id : Text) : Prop where
  claimed : id ∉ claimedIds w.repository.events
  executed : ∀ task ∈ w.tasks, task.claimed.enrollment.id ≠ id
  dispatched : ∀ ref outcome, .dispatched ref outcome ∈ w.events → ref.enrollmentId ≠ id

@[simp]
theorem claimedIds_append (events later : List RepositoryEvent) :
    claimedIds (events ++ later) = claimedIds events ++ claimedIds later := by
  simp [claimedIds]

theorem mem_claimedIds {events : List RepositoryEvent} {entries : List ClaimedSequenceEnrollment}
    {claimed : ClaimedSequenceEnrollment} (hevent : .claimed entries ∈ events)
    (hclaimed : claimed ∈ entries) : claimed.enrollment.id ∈ claimedIds events :=
  List.mem_flatMap.mpr ⟨_, hevent, List.mem_map_of_mem hclaimed⟩

theorem exists_of_mem_claimedIds {event : RepositoryEvent} {id : Text}
    (h : id ∈ claimedIds [event]) : ∃ entries claimed, event = .claimed entries ∧
      claimed ∈ entries ∧ claimed.enrollment.id = id := by
  cases event with
  | claimed entries =>
      obtain ⟨claimed, hclaimed, hid⟩ : ∃ claimed ∈ entries, claimed.enrollment.id = id := by
        simpa [claimedIds] using h
      exact ⟨entries, claimed, rfl, hclaimed, hid⟩
  | completed | recovered | resolved | other => simp [claimedIds] at h

/-! ## Standing on the first step -/

section Positions

variable [MailboxContract] [CaseMapping] {store : SequenceStore}
  {enrollment before after : SequenceEnrollment} {definition : SequenceDefinition}
  {revision : SequenceRevision}

theorem StoreInvariant.first_of_standsOnFirstStep (h : StoreInvariant store)
    (hdefinition : definition ∈ store.definitions) (hid : definition.id = enrollment.sequenceId)
    (hrevision : revision ∈ definition.revisions)
    (hnumber : revision.revision = enrollment.revision)
    (hfirst : StandsOnFirstStep store.definitions enrollment) :
    ∃ step ∈ revision.steps.head?, step.id = enrollment.currentStepId := by
  obtain ⟨definition', hdefinition', hid', revision', hrevision', hnumber', hstep⟩ := hfirst
  obtain rfl : definition = definition' := List.inj_on_of_nodup_map h.definitionIds hdefinition
    hdefinition' (hid.trans hid'.symm)
  obtain rfl : revision = revision' := List.inj_on_of_nodup_map
    (h.stored.definitions definition hdefinition).numbers_distinct hrevision hrevision'
    (hnumber.trans hnumber'.symm)
  exact hstep

theorem StoreInvariant.not_standsOnFirstStep (h : StoreInvariant store)
    (hdefinition : definition ∈ store.definitions) (hid : definition.id = enrollment.sequenceId)
    (hrevision : revision ∈ definition.revisions)
    (hnumber : revision.revision = enrollment.revision) {j : ℕ} {step : SequenceStep}
    (hj : 0 < j) (hstep : revision.steps[j]? = some step)
    (hcurrent : step.id = enrollment.currentStepId) :
    ¬ StandsOnFirstStep store.definitions enrollment := by
  intro hfirst
  have hordered := (h.stored.definitions definition hdefinition).wellOrdered hrevision
  obtain ⟨first, hhead, hsame⟩ :=
    h.first_of_standsOnFirstStep hdefinition hid hrevision hnumber hfirst
  have hzero : revision.steps[0]? = some first := by
    rw [← List.head?_eq_getElem?]
    exact hhead
  have hindex := (stepIndex_eq_some_iff hordered.distinct).mpr ⟨first, hzero, hsame⟩
  have hindex' := (stepIndex_eq_some_iff hordered.distinct).mpr ⟨step, hstep, hcurrent⟩
  have : 0 = j := Option.some.inj (hindex.symm.trans hindex')
  omega

variable {w w' : RepositoryWorld}

/-- The definitions that were added or changed since do not make a record of an
enrollment stand on its first step. -/
theorem WorldInvariant.standsOnFirstStep_of_later (h : WorldInvariant w) (h' : WorldInvariant w')
    (hstable : Stable w w') (hbefore : before ∈ w.store.enrollments)
    (hafter : after ∈ w'.store.enrollments) (hsame : SameIdentity before after)
    (hrecord : SameIdentity enrollment after)
    (hstep : after.currentStepId = enrollment.currentStepId)
    (hfirst : StandsOnFirstStep w'.store.definitions after) :
    StandsOnFirstStep w.store.definitions enrollment := by
  obtain ⟨definition, hdefinition, hid, revision, hrevision, hnumber, -⟩ :=
    h.store.positioned before hbefore
  obtain ⟨definition', hdefinition', hextends⟩ := h'.definition_of_known
    (hstable.history definition hdefinition) hafter (hid.trans hsame.sequenceId.symm)
  obtain ⟨first, hhead, hcurrent⟩ := h'.store.first_of_standsOnFirstStep hdefinition'
    ((hextends.id.trans hid).trans hsame.sequenceId.symm) (hextends.history.subset hrevision)
    (hnumber.trans hsame.revision.symm) hfirst
  have hidentity := hsame.trans hrecord.symm
  exact ⟨definition, hdefinition, hid.trans hidentity.sequenceId.symm, revision, hrevision,
    hnumber.trans hidentity.revision.symm, first, hhead, hcurrent.trans hstep⟩

end Positions

/-! ## Pending enrollments -/

/-- The origin of a pending record that a call leaves in the document. -/
inductive PendingOrigin (store : SequenceStore) :
    RepositoryCall → RepositoryEvent → SequenceEnrollment → Prop
  /-- A record that was there, and was not claimed. -/
  | kept {call : RepositoryCall} {event : RepositoryEvent} {enrollment : SequenceEnrollment}
      (mem : enrollment ∈ store.enrollments) (unclaimed : enrollment.id ∉ claimedIds [event]) :
      PendingOrigin store call event enrollment
  /-- A new record. -/
  | created {enrollment : SequenceEnrollment}
      (fresh : ∀ old ∈ store.enrollments, old.id ≠ enrollment.id) :
      PendingOrigin store (.createEnrollment enrollment) .other enrollment
  /-- The next record of a claim. -/
  | completed {enrollment : SequenceEnrollment} {next : UnleasedEnrollment} :
      PendingOrigin store (.completeClaim enrollment next) (.completed enrollment) next.val
  /-- The next record of an ambiguous enrollment. -/
  | resolved {enrollment stored : SequenceEnrollment} {next : UnleasedEnrollment}
      (mem : stored ∈ store.enrollments) (same : stored.id = enrollment.id) :
      PendingOrigin store (.resolveAmbiguous enrollment next) (.resolved enrollment) next.val
  /-- The record of an enrollment whose lease was taken back. -/
  | recovered {options : ReconcileOptions} {ids : List Text} {before after : SequenceEnrollment}
      (mem : before ∈ store.enrollments)
      (taken : before.id ∈ recoveredIds options store.enrollments)
      (recover : recoverEnrollment options.now before = .ok after) :
      PendingOrigin store (.reconcile options) (.recovered ids) after

section Origins

variable [MailboxContract] [CaseMapping] {store store' : SequenceStore} {call : RepositoryCall}
  {event : RepositoryEvent} {enrollment : SequenceEnrollment}

theorem StoreInvariant.pendingOrigin (h : StoreInvariant store)
    (hcall : performCall store call = (store', event)) (hmem : enrollment ∈ store'.enrollments)
    (hpending : enrollment.status = .pending) : PendingOrigin store call event enrollment := by
  have hfailed : ∀ {call : RepositoryCall}, (store, RepositoryEvent.other) = (store', event) →
      PendingOrigin store call event enrollment := by
    intro call hsame
    obtain ⟨rfl, rfl⟩ := Prod.mk.inj hsame
    exact .kept hmem (by simp [claimedIds])
  cases call with
  | createDefinition definition =>
      rcases hresult : Sequence.createDefinition definition store with ⟨after, error | result⟩
      · obtain rfl := createDefinition_error hresult
        exact hfailed (by simpa [performCall, hresult] using hcall)
      · obtain ⟨-, -, rfl⟩ := createDefinition_eq_ok h.stored hresult
        obtain ⟨rfl, rfl⟩ : _ ∧ _ := by simpa [performCall, hresult] using hcall
        exact .kept hmem (by simp [claimedIds])
  | updateDefinition id input now =>
      rcases hresult : Sequence.updateDefinition id input now store with ⟨after, error | result⟩
      · obtain rfl := exec_error hresult
        exact hfailed (by simpa [performCall, hresult] using hcall)
      · obtain ⟨rfl, rfl⟩ : _ ∧ _ := by simpa [performCall, hresult] using hcall
        obtain ⟨-, -, ⟨rfl, -⟩ | ⟨-, -, -, -, -, -, -, -, rfl⟩⟩ :=
          updateDefinition_eq_ok h.stored hresult <;>
            exact .kept hmem (by simp [claimedIds])
  | setDefinitionStatus id status now =>
      rcases hresult : Sequence.setDefinitionStatus id status now store with
        ⟨after, error | result⟩
      · obtain rfl := exec_error hresult
        exact hfailed (by simpa [performCall, hresult] using hcall)
      · obtain ⟨rfl, rfl⟩ : _ ∧ _ := by simpa [performCall, hresult] using hcall
        obtain ⟨-, -, ⟨rfl, -⟩ | ⟨-, -, rfl⟩⟩ := setDefinitionStatus_eq_ok h.stored hresult <;>
          exact .kept hmem (by simp [claimedIds])
  | deleteDefinition id =>
      rcases hresult : Sequence.deleteDefinition id store with ⟨after, error | result⟩
      · obtain rfl := exec_error hresult
        exact hfailed (by simpa [performCall, hresult] using hcall)
      · obtain ⟨rfl, rfl⟩ : _ ∧ _ := by simpa [performCall, hresult] using hcall
        obtain ⟨-, -, rfl⟩ := deleteDefinition_eq_ok h.stored hresult
        exact .kept (List.mem_filter.mp hmem).1 (by simp [claimedIds])
  | createEnrollment created =>
      rcases hresult : Sequence.createEnrollment created store with ⟨after, error | result⟩
      · obtain rfl := exec_error hresult
        exact hfailed (by simpa [performCall, hresult] using hcall)
      · obtain ⟨rfl, rfl⟩ : _ ∧ _ := by simpa [performCall, hresult] using hcall
        obtain ⟨-, hfresh, -, -, rfl⟩ := createEnrollment_eq_ok h.stored hresult
        rcases List.mem_append.mp hmem with hold | hnew
        · exact .kept hold (by simp [claimedIds])
        · obtain rfl := List.mem_singleton.mp hnew
          exact .created fun old hold => (hfresh old hold).1
  | claimDue options =>
      rcases hresult : Sequence.claimDue options store with ⟨after, error | entries⟩
      · obtain rfl := exec_error hresult
        exact hfailed (by simpa [performCall, hresult] using hcall)
      · obtain ⟨rfl, rfl⟩ : _ ∧ _ := by simpa [performCall, hresult] using hcall
        obtain ⟨rfl, hids, -, hclaims⟩ := claimDue_eq_ok h.stored h.enrollmentIds hresult
        rcases (mem_replaceAllBy (by rw [List.map_map]; exact hids)).mp hmem with
          ⟨hnew, -⟩ | ⟨hold, hother⟩
        · -- a record that was claimed is running
          obtain ⟨entry, hentry, rfl⟩ := List.mem_map.mp hnew
          obtain ⟨token, candidate, hof⟩ := hclaims entry hentry
          simp [hof.leased] at hpending
        · refine .kept hold fun hclaimed => ?_
          obtain ⟨entry, hentry, hid⟩ : ∃ entry ∈ entries, entry.enrollment.id = enrollment.id := by
            simpa [claimedIds] using hclaimed
          exact hother _ (List.mem_map_of_mem hentry) hid
  | completeClaim claim next =>
      rcases hresult : Sequence.completeClaim claim next store with ⟨after, error | result⟩
      · obtain rfl := exec_error hresult
        exact hfailed (by simpa [performCall, hresult] using hcall)
      · obtain ⟨rfl, rfl⟩ : _ ∧ _ := by simpa [performCall, hresult] using hcall
        obtain ⟨-, -, -, -, -, -, rfl⟩ := completeClaim_eq_ok h.stored hresult
        rcases mem_replaceBy.mp hmem with ⟨rfl, -⟩ | ⟨hold, -⟩
        · exact .completed
        · exact .kept hold (by simp [claimedIds])
  | resolveAmbiguous ambiguous next =>
      rcases hresult : Sequence.resolveAmbiguous ambiguous next store with ⟨after, error | result⟩
      · obtain rfl := exec_error hresult
        exact hfailed (by simpa [performCall, hresult] using hcall)
      · obtain ⟨rfl, rfl⟩ : _ ∧ _ := by simpa [performCall, hresult] using hcall
        obtain ⟨stored, hfound, -, -, -, -, rfl⟩ := resolveAmbiguous_eq_ok h.stored hresult
        obtain ⟨hstored, hid⟩ := h.find?_enrollment.mp hfound
        rcases mem_replaceBy.mp hmem with ⟨rfl, -⟩ | ⟨hold, -⟩
        · exact .resolved hstored hid
        · exact .kept hold (by simp [claimedIds])
  | reconcile options =>
      rcases hresult : Sequence.reconcile options store with ⟨after, error | result⟩
      · obtain rfl := exec_error hresult
        exact hfailed (by simpa [performCall, hresult] using hcall)
      · obtain ⟨rfl, rfl⟩ : _ ∧ _ := by simpa [performCall, hresult] using hcall
        obtain ⟨-, hforall⟩ := reconcile_eq_ok h.stored h.enrollmentIds hresult
        obtain ⟨i, hi, rfl⟩ := List.mem_iff_getElem.mp hmem
        have hlength := hforall.length_eq
        have hi' : i < store.enrollments.length := by omega
        rcases (List.forall₂_iff_get.mp hforall).2 i hi' hi with
          ⟨-, hsame⟩ | ⟨htaken, -, hrecovered⟩
        · simp only [List.get_eq_getElem] at hsame
          rw [hsame]
          exact .kept (List.getElem_mem hi') (by simp [claimedIds])
        · exact .recovered (List.getElem_mem hi') htaken hrecovered

end Origins

/-! ## Runs of the repository -/

section Histories

variable [MailboxContract] [CaseMapping] {r r' : RecordedWorld} {action : RepositoryAction}

/-- A resolution is one of an enrollment that was read, with its definition. -/
theorem RepositoryWorld.resolution_of_call {w w' : RepositoryWorld}
    {enrollment : SequenceEnrollment} {next : UnleasedEnrollment} (hstep : w.Step action w')
    (hcall : w.call action = some (.resolveAmbiguous enrollment next)) :
    ∃ snapshot position definition resolution now revision step,
      action = .resolveAmbiguous snapshot position resolution now ∧
        w.read[snapshot]? = some enrollment ∧ w.returned[position]? = some definition ∧
        definition.id = enrollment.sequenceId ∧
        ambiguousStep enrollment definition = .ok (revision, step) ∧
        resolvedEnrollment enrollment revision step resolution now = .ok next := by
  cases action with
  | resolveAmbiguous snapshot position resolution now =>
      simp only [call, Option.bind_eq_bind, Option.bind_eq_some_iff] at hcall
      obtain ⟨record, hrecord, definition, hdefinition, ⟨revision, step⟩, hambiguous, produced,
        hnext, hcall⟩ := hcall
      obtain ⟨rfl, rfl⟩ := RepositoryCall.resolveAmbiguous.inj (Option.some.inj hcall)
      have hsequence : definition.id = record.sequenceId := by
        by_contra hne
        simp [Step, RepositoryWorld.step, hrecord, hdefinition, hne] at hstep
      exact ⟨snapshot, position, definition, resolution, now, revision, step, rfl, hrecord,
        hdefinition, hsequence, toOption_eq_some_iff.mp hambiguous, toOption_eq_some_iff.mp hnext⟩
  | createDefinition | updateDefinition | deleteDefinition | setDefinitionStatus | getDefinition
    | getEnrollment | claimDue | createEnrollment | completeClaim | reconcile =>
      simp [call, Option.bind_eq_some_iff] at hcall

theorem RepositoryWorld.reconcile_of_call {w : RepositoryWorld} {options : ReconcileOptions}
    (hcall : w.call action = some (.reconcile options)) : action = .reconcile options := by
  cases action with
  | reconcile options' =>
      obtain rfl := RepositoryCall.reconcile.inj (Option.some.inj hcall)
      rfl
  | createDefinition | updateDefinition | deleteDefinition | setDefinitionStatus | getDefinition
    | getEnrollment | claimDue | createEnrollment | completeClaim | resolveAmbiguous =>
      simp [call, Option.bind_eq_some_iff] at hcall

/-- The enrollments that were claimed are still there or deleted, and one that is
pending again does not look untouched. -/
structure TouchInvariant (r : RecordedWorld) : Prop where
  recorded : RecordedInvariant r
  known : ∀ id ∈ claimedIds r.events, id ∈ r.world.deletedEnrollments ∨
    ∃ enrollment ∈ r.world.store.enrollments, enrollment.id = id
  marked : ∀ enrollment ∈ r.world.store.enrollments, enrollment.status = .pending →
    enrollment.id ∈ claimedIds r.events → ¬ LooksUntouched r.world.store.definitions enrollment

theorem touchInvariant_empty : TouchInvariant ({} : RecordedWorld) where
  recorded := recordedInvariant_empty
  known := by simp [claimedIds]
  marked := by simp

/-- An enrollment whose claim was completed, and that is pending again, has gone on
or has been tried. -/
theorem TouchInvariant.completed (h : TouchInvariant r) (h' : RecordedInvariant r')
    (hstable : Stable r.world r'.world) {enrollment : SequenceEnrollment}
    {next : UnleasedEnrollment}
    (hcall : r.world.call action = some (.completeClaim enrollment next))
    (hnext : next.val ∈ r'.world.store.enrollments) (hpending : next.val.status = .pending) :
    ¬ LooksUntouched r'.world.store.definitions next.val := by
  obtain ⟨claim, claimed, now, lookup, result, jitter, -, hclaim, rfl, hexecute⟩ :=
    RepositoryWorld.claim_of_completed hcall
  obtain ⟨hfits, hdefinition, henrollment⟩ :=
    h.recorded.world.claims _ (List.mem_of_getElem? hclaim)
  dsimp only at hfits hdefinition henrollment
  obtain ⟨hsame, hprogress⟩ :=
    executeClaimedEnrollment_eq_ok (hfits.stored.wellOrdered hfits.revision) hexecute
  intro huntouched
  cases hprogress with
  | ended terminal same => simp [enrollmentIsTerminal, hpending] at terminal
  | ambiguous status same onSend => simp [hpending] at status
  | later status position fresh =>
      obtain ⟨i, j, step, step', hij, -, -, hj, hcurrent⟩ := position
      obtain ⟨current, hcurrentMem, hextends⟩ := h'.world.definition_of_known
        (hdefinition.mono hstable) hnext (hfits.sequence.trans hsame.sequenceId.symm)
      exact h'.world.store.not_standsOnFirstStep hcurrentMem
        ((hextends.id.trans hfits.sequence).trans hsame.sequenceId.symm)
        (hextends.history.subset hfits.revision) (hfits.number.trans hsame.revision.symm)
        (by omega) hj hcurrent huntouched.first
  | retry status same counted below =>
      have := huntouched.untried
      omega

/-- An enrollment that was resolved, and is pending again, has gone on or was resolved
after its creation. -/
theorem TouchInvariant.resolved (h : TouchInvariant r) (hstep : r.world.Step action r'.world)
    (hspares : action.Spares r.world) {enrollment stored : SequenceEnrollment}
    {next : UnleasedEnrollment}
    (hcall : r.world.call action = some (.resolveAmbiguous enrollment next))
    (hstored : stored ∈ r.world.store.enrollments) (hid : stored.id = enrollment.id)
    (hnext : next.val ∈ r'.world.store.enrollments) (hpending : next.val.status = .pending) :
    ¬ LooksUntouched r'.world.store.definitions next.val := by
  obtain ⟨hworld', hstable⟩ := h.recorded.world.step hstep
  obtain ⟨snapshot, position, definition, resolution, now, revision, step, rfl, hsnapshot,
    hdefinition, hsequence, hambiguous, hresolved⟩ :=
    RepositoryWorld.resolution_of_call hstep hcall
  obtain ⟨hstoredDefinition, -, hknown⟩ :=
    h.recorded.world.returned definition (List.mem_of_getElem? hdefinition)
  obtain ⟨hrevision, hsend, hsendId⟩ := ambiguousStep_eq_ok hambiguous
  obtain ⟨hpinned, hnumber⟩ := hstoredDefinition.findRevision_eq_some_iff.mp hrevision
  have hidentity := h.recorded.world.enrollment_of_known
    (h.recorded.world.read enrollment (List.mem_of_getElem? hsnapshot)).2 hstored hid
  intro huntouched
  cases resolution with
  | sent =>
      obtain ⟨following, hfollowing, hresolved⟩ := except_bind_eq_ok.mp hresolved
      cases following with
      | none => simp [withoutLease_eq_ok hresolved, Sequence.completed] at hpending
      | some following =>
          obtain ⟨nextRunAt, -, hresolved⟩ := except_bind_eq_ok.mp hresolved
          have hsame := sameIdentity_of_withoutLease hresolved
          obtain ⟨i, current, -, -, hj⟩ :=
            nextStep_eq_ok (hstoredDefinition.wellOrdered hpinned) hfollowing
          obtain ⟨holder, hholder, hextends⟩ := hworld'.definition_of_known (hknown.mono hstable)
            hnext (hsequence.trans hsame.sequenceId.symm)
          refine hworld'.store.not_standsOnFirstStep hholder
            ((hextends.id.trans hsequence).trans hsame.sequenceId.symm)
            (hextends.history.subset hpinned) (hnumber.trans hsame.revision.symm)
            (Nat.succ_pos i) hj ?_ huntouched.first
          rw [withoutLease_eq_ok hresolved]
          rfl
  | notSent =>
      obtain ⟨nextRunAt, -, hresolved⟩ := except_bind_eq_ok.mp hresolved
      have hsame := sameIdentity_of_withoutLease hresolved
      have hmoment := huntouched.unmoved
      have hcurrent : next.val.currentStepId = enrollment.currentStepId := by
        rw [withoutLease_eq_ok hresolved]
        rfl
      rw [withoutLease_eq_ok hresolved] at hmoment
      exact hspares enrollment hsnapshot (h.recorded.world.standsOnFirstStep_of_later hworld'
        hstable hstored hnext (hidentity.symm.trans hsame) hsame hcurrent huntouched.first)
        hmoment.symm

theorem TouchInvariant.step (h : TouchInvariant r) (hstep : r.Step action r')
    (hspares : action.Spares r.world) : TouchInvariant r' := by
  obtain ⟨hrecorded, hstable⟩ := h.recorded.step hstep
  have hknown : ∀ id ∈ claimedIds r.events, id ∈ r'.world.deletedEnrollments ∨
      ∃ enrollment ∈ r'.world.store.enrollments, enrollment.id = id := by
    intro id hid
    rcases h.known id hid with hdeleted | ⟨enrollment, hmem, rfl⟩
    · exact .inl (hstable.deletedEnrollments hdeleted)
    · rcases hstable.identity enrollment hmem with hdeleted | ⟨after, hafter, hsame⟩
      · exact .inl hdeleted
      · exact .inr ⟨after, hafter, hsame.id⟩
  have hback : ∀ {before after : SequenceEnrollment}, before ∈ r.world.store.enrollments →
      after ∈ r'.world.store.enrollments → SameIdentity before after →
        after.currentStepId = before.currentStepId → after.retryCount = before.retryCount →
          after.lastTransitionAt = before.lastTransitionAt →
            LooksUntouched r'.world.store.definitions after →
              LooksUntouched r.world.store.definitions before := by
    intro before after hbefore hafter hsame hcurrent hretries hmoment huntouched
    exact ⟨hretries ▸ huntouched.untried,
      (hmoment.symm.trans huntouched.unmoved).trans hsame.createdAt,
      h.recorded.world.standsOnFirstStep_of_later hrecorded.world hstable hbefore hafter hsame
        hsame hcurrent huntouched.first⟩
  cases hcall : r.world.call action with
  | none =>
      obtain ⟨-, hevents, hstore⟩ := RecordedWorld.step_of_no_call hstep hcall
      refine ⟨hrecorded, hevents ▸ hknown, fun enrollment hmem hpending hclaimed huntouched => ?_⟩
      rw [hevents] at hclaimed
      have hold := hstore ▸ hmem
      exact h.marked enrollment hold hpending hclaimed
        (hback hold hmem (.refl enrollment) rfl rfl rfl huntouched)
  | some call =>
      obtain ⟨hworld, event, hevents, hperform⟩ := RecordedWorld.step_of_call hstep hcall
      refine ⟨hrecorded, fun id hid => ?_, fun enrollment hmem hpending hclaimed huntouched => ?_⟩
      · rw [hevents, claimedIds_append] at hid
        rcases List.mem_append.mp hid with hold | hnew
        · exact hknown id hold
        · obtain ⟨entries, claimed, rfl, hclaimed, rfl⟩ := exists_of_mem_claimedIds hnew
          have hlive : claimed.enrollment ∈ liveClaims r'.events := by
            rw [hevents, liveClaims_snoc, mem_liveAfterEvent]
            exact .inr ⟨entries, rfl, List.mem_map_of_mem hclaimed⟩
          exact .inr ⟨_, ((hrecorded.fencing.leased _).mp hlive).1, rfl⟩
      · rw [hevents, claimedIds_append, List.mem_append] at hclaimed
        cases h.recorded.world.store.pendingOrigin hperform hmem hpending with
        | kept hold hunclaimed =>
            exact h.marked enrollment hold hpending (hclaimed.resolve_right hunclaimed)
              (hback hold hmem (.refl enrollment) rfl rfl rfl huntouched)
        | created hfresh =>
            rcases hclaimed with hold | hnew
            · rcases h.known _ hold with hdeleted | ⟨old, hold, hid⟩
              · exact hrecorded.world.enrollmentsAlive enrollment hmem
                  (hstable.deletedEnrollments hdeleted)
              · exact hfresh old hold hid
            · simp [claimedIds] at hnew
        | completed =>
            exact h.completed hrecorded hstable hcall hmem hpending huntouched
        | resolved hstored hid =>
            exact h.resolved hworld hspares hcall hstored hid hmem hpending huntouched
        | recovered hbefore htaken hrecover =>
            obtain rfl := RepositoryWorld.reconcile_of_call hcall
            obtain ⟨rfl, -⟩ := recoverEnrollment_eq_ok hrecover
            exact hspares _ hbefore htaken
              (hback hbefore hmem ⟨rfl, rfl, rfl, rfl, rfl, rfl⟩ rfl rfl rfl huntouched)

end Histories

/-! ## Runs of workers and operators -/

section Engine

variable [MailboxContract] [CaseMapping] {w w' : EngineWorld} {action : EngineAction}

/-- A step of the engine that does not give an enrollment its untouched look back. -/
def EngineWorld.SparingStep (w : EngineWorld) (action : EngineAction) (w' : EngineWorld) : Prop :=
  w.Step action w' ∧ w.Spares action

/-- Such a step is one step of the repository that spares, too, or none. -/
theorem EngineWorld.Moves.repository_spares (h : EngineWorld.Moves w action w')
    (hspares : w.Spares action) : w'.repository = w.repository ∨
      ∃ called, w.repository.Step called w'.repository ∧ called.Spares w.repository.world := by
  cases h with
  | repository _ called => exact .inr ⟨_, called, hspares⟩
  | start | lookUp | claim | dispatch | settle | loadNothing | loadRecord | settleResolution =>
      exact .inl rfl
  | complete _ _ called => exact .inr ⟨_, called, trivial⟩
  | readNothing called => exact .inr ⟨_, called, trivial⟩
  | readEnrollment called => exact .inr ⟨_, called, trivial⟩
  | readDefinition _ _ called _ => exact .inr ⟨_, called, trivial⟩
  | resolveRefused found phase _ _ called _ =>
      exact .inr ⟨_, called, hspares _ found _ _ _ _ phase⟩
  | resolve found phase _ _ called _ => exact .inr ⟨_, called, hspares _ found _ _ _ _ phase⟩

/-- Whatever a worker does, it does for an enrollment that was claimed. -/
structure EngineTouched (w : EngineWorld) : Prop where
  linked : Linked w
  touch : TouchInvariant w.repository
  dispatched : ∀ ref outcome, .dispatched ref outcome ∈ w.events →
    ref.enrollmentId ∈ claimedIds w.repository.events

theorem engineTouched_empty : EngineTouched ({} : EngineWorld) where
  linked := linked_empty
  touch := touchInvariant_empty
  dispatched := by simp

theorem EngineTouched.task (h : EngineTouched w) {task : EngineTask} (hmem : task ∈ w.tasks) :
    task.claimed.enrollment.id ∈ claimedIds w.repository.events := by
  obtain ⟨now, hclaim⟩ := h.linked.tasks task hmem
  obtain ⟨entries, hgranted, hentry⟩ :=
    h.touch.recorded.granted _ (List.mem_of_getElem? hclaim)
  exact mem_claimedIds hgranted hentry

theorem EngineTouched.neverTouched (h : EngineTouched w) {id : Text}
    (hid : id ∉ claimedIds w.repository.events) : w.NeverTouched id where
  claimed := hid
  executed _ hmem hsame := hid (hsame ▸ h.task hmem)
  dispatched ref outcome hmem hsame := hid (hsame ▸ h.dispatched ref outcome hmem)

theorem EngineTouched.step (h : EngineTouched w) (hstep : w.SparingStep action w') :
    EngineTouched w' ∧ Stable w.repository.world w'.repository.world := by
  have hmove := EngineWorld.moves_of_step hstep.1
  have hrepository : TouchInvariant w'.repository ∧
      Stable w.repository.world w'.repository.world ∧
        claimedIds w.repository.events ⊆ claimedIds w'.repository.events := by
    rcases hmove.repository_spares hstep.2 with hsame | ⟨called, hcalled, hspares⟩
    · rw [hsame]
      exact ⟨h.touch, .refl _, List.Subset.refl _⟩
    · obtain ⟨later, hlater⟩ := RecordedWorld.events_extend hcalled
      refine ⟨h.touch.step hcalled hspares, (h.touch.recorded.step hcalled).2, ?_⟩
      rw [← hlater, claimedIds_append]
      exact List.subset_append_left _ _
  obtain ⟨htouch, hstable, hclaimed⟩ := hrepository
  refine ⟨⟨h.linked.step hmove, htouch, fun ref outcome hmem => ?_⟩, hstable⟩
  rcases hmove.events_cases with ⟨new, hevents, hnew⟩ | ⟨task, htask, _, _, _, _, -, hevents⟩
  · rw [hevents] at hmem
    rcases List.mem_append.mp hmem with hold | hlast
    · exact hclaimed (h.dispatched ref outcome hold)
    · exact absurd hlast (hnew ref outcome)
  · rw [hevents] at hmem
    rcases List.mem_append.mp hmem with hold | hlast
    · exact hclaimed (h.dispatched ref outcome hold)
    · obtain ⟨rfl, -⟩ := EngineEvent.dispatched.inj (List.mem_singleton.mp hlast)
      exact hclaimed (h.task htask)

theorem EngineTouched.run (h : EngineTouched w) {actions : List EngineAction}
    (hrun : Run EngineWorld.SparingStep w actions w') :
    EngineTouched w' ∧ Stable w.repository.world w'.repository.world := by
  induction hrun with
  | refl => exact ⟨h, .refl _⟩
  | snoc before last ih =>
      obtain ⟨hmiddle, hstable⟩ := ih
      obtain ⟨hlast, hstable'⟩ := hmiddle.step last
      exact ⟨hlast, hstable.trans hstable'⟩

/-! ## Replays -/

omit [CaseMapping] in
theorem mem_listEnrollments {options : ListEnrollmentsOptions} {store : SequenceStore}
    {listed : List SequenceEnrollment} {enrollment : SequenceEnrollment} (hstored : store.Stored)
    (h : listEnrollments options store = .ok listed) (hmem : enrollment ∈ listed) :
    enrollment ∈ store.enrollments ∧ options.sequenceId.all (enrollment.sequenceId = ·) = true ∧
      options.status.all (enrollment.status = ·) = true ∧
      options.subscriberId.all (enrollment.subscriberId = ·) = true := by
  obtain ⟨current, hcurrent, h⟩ := except_bind_eq_ok.mp h
  obtain rfl := Except.ok.inj (hstored.parse.symm.trans hcurrent)
  obtain rfl := Except.ok.inj h
  have hsorted := List.mem_of_mem_take hmem
  rw [(List.perm_insertionSort _ _).mem_iff, List.mem_filter] at hsorted
  obtain ⟨hmem, hmatches⟩ := hsorted
  simp only [Bool.and_eq_true] at hmatches
  exact ⟨hmem, hmatches.1.1, hmatches.1.2, hmatches.2⟩

variable {input : SequenceEnrollInput} {newId : Text} {now : ℤ}
  {read created listed : SequenceStore} {output : SequenceEnrollOutput}

omit [CaseMapping] in
/-- A replay is reported of a pending enrollment of the sequence that passes for the
requested one. -/
theorem replayOrThrow_eq_ok {enrollment : SequenceEnrollment} {message : Text}
    (hstored : listed.Stored) (h : replayOrThrow input enrollment message listed = .ok output) :
    ∃ active ∈ listed.enrollments, active.status = .pending ∧ active.sequenceId = input.id ∧
      isReplay input enrollment active = true ∧
      output = { enrollment := toEnrollmentOutput active, created := false } := by
  obtain ⟨matching, hmatching, h⟩ := except_bind_eq_ok.mp h
  cases hhead : matching.head? with
  | none => simp [hhead] at h
  | some active =>
      simp only [hhead] at h
      split at h
      · next hreplay =>
          obtain ⟨hmem, hsequence, hstatus, -⟩ :=
            mem_listEnrollments hstored hmatching (List.mem_of_head? hhead)
          exact ⟨active, hmem, by simpa using hstatus, by simpa using hsequence, hreplay,
            (Except.ok.inj h).symm⟩
      · simp at h

omit [CaseMapping] in
theorem replayOrThrow_cases {enrollment : SequenceEnrollment} {message : Text}
    (hstored : listed.Stored) :
    (∃ output, replayOrThrow input enrollment message listed = .ok output ∧
        output.created = false) ∨
      replayOrThrow input enrollment message listed = .error (.conflict message) := by
  obtain ⟨matching, hmatching⟩ : ∃ matching, listEnrollments
      { sequenceId := some input.id
        subscriberId := some input.subscriberId
        status := some .pending } listed = .ok matching :=
    ⟨_, by rw [listEnrollments, hstored.parse]; rfl⟩
  rw [replayOrThrow, hmatching, except_ok_bind]
  split
  · exact .inr rfl
  · split
    · exact .inl ⟨_, rfl, rfl⟩
    · exact .inr rfl

omit [CaseMapping] in
theorem executeSequenceEnroll_eq_ok
    (h : executeSequenceEnroll input newId now read created listed = .ok output)
    (hreplay : output.created = false) :
    ∃ definition enrollment message, getDefinition input.id read = .ok definition ∧
      createSequenceEnrollment definition
        { subscriberId := input.subscriberId
          context := some input.context
          startAt := input.startAt } newId now = .ok enrollment ∧
      (createEnrollment enrollment created).2 = .error (.conflict message) ∧
      replayOrThrow input enrollment message listed = .ok output := by
  obtain ⟨definition, hdefinition, h⟩ := except_bind_eq_ok.mp h
  obtain ⟨enrollment, henrollment, h⟩ := except_bind_eq_ok.mp h
  split at h
  · obtain rfl := Except.ok.inj h
    simp at hreplay
  · next message hconflict =>
      exact ⟨definition, enrollment, message, hdefinition, henrollment, hconflict, h⟩
  · simp at h

/-- An enrollment that passes for a fresh one of a definition looks untouched, also when
the definition was read some time ago. -/
theorem WorldInvariant.looksUntouched_of_isReplay {w w' : RepositoryWorld} (h : WorldInvariant w)
    (h' : WorldInvariant w') (hstable : Stable w w') {definition : SequenceDefinition}
    {fresh : CreateSequenceEnrollmentInput} {enrollment active : SequenceEnrollment}
    (hdefinition : Sequence.getDefinition input.id w.store = .ok definition)
    (hfresh : createSequenceEnrollment definition fresh newId now = .ok enrollment)
    (hactive : active ∈ w'.store.enrollments) (hsequence : active.sequenceId = input.id)
    (hreplay : isReplay input enrollment active = true) :
    LooksUntouched w'.store.definitions active := by
  simp only [isReplay, Bool.and_eq_true, decide_eq_true_eq] at hreplay
  obtain ⟨⟨⟨⟨⟨huntried, hunmoved⟩, hrevision⟩, hcurrent⟩, -⟩, -⟩ := hreplay
  rw [Sequence.getDefinition, h.store.stored.parse] at hdefinition
  obtain ⟨hmem, hid⟩ := h.store.find?_definition.mp (getFileDefinition_eq_ok hdefinition)
  obtain ⟨-, -, -, -, -, -, -, revision, first, hfound, hhead, hnumber, hstep⟩ :=
    createSequenceEnrollment_eq_ok hfresh
  obtain ⟨hpinned, -⟩ :=
    (h.store.stored.definitions definition hmem).findRevision_eq_some_iff.mp hfound
  obtain ⟨holder, hholder, hextends⟩ := h'.definition_of_known (hstable.history definition hmem)
    hactive (hid.trans hsequence.symm)
  exact ⟨huntried, hunmoved, holder, hholder, (hextends.id.trans hid).trans hsequence.symm,
    revision, hextends.history.subset hpinned, (hrevision.trans hnumber).symm, first, hhead,
    (hcurrent.trans hstep).symm⟩

/-- Enrolling again is reported as a replay for untouched enrollments only. In every run
of workers, operators and other clients, crashes included, in which no reconcile takes
the lease of an enrollment that still looks untouched, and nobody resolves an enrollment
as not sent on its first step in the instant of its creation: when the operation reports
a replay, no worker has claimed the enrollment, executed it or sent a message for it.
Where it has met a conflict and reports no replay, it reports the conflict. -/
theorem executeSequenceEnroll_replay {first second third : EngineWorld}
    {actions actions' actions'' : List EngineAction}
    (hread : Run EngineWorld.SparingStep {} actions first)
    (hcreate : Run EngineWorld.SparingStep first actions' second)
    (hlist : Run EngineWorld.SparingStep second actions'' third)
    (input : SequenceEnrollInput) (newId : Text) (now : ℤ) :
    (∀ output, executeSequenceEnroll input newId now first.store second.store third.store =
      .ok output → output.created = false → third.NeverTouched output.enrollment.id) ∧
      ∀ definition enrollment message, getDefinition input.id first.store = .ok definition →
        createSequenceEnrollment definition
          { subscriberId := input.subscriberId
            context := some input.context
            startAt := input.startAt } newId now = .ok enrollment →
          (createEnrollment enrollment second.store).2 = .error (.conflict message) →
            (∃ output, executeSequenceEnroll input newId now first.store second.store
                third.store = .ok output ∧ output.created = false) ∨
              executeSequenceEnroll input newId now first.store second.store third.store =
                .error (.conflict message) := by
  obtain ⟨hfirst, -⟩ := engineTouched_empty.run hread
  obtain ⟨hthird, hstable⟩ := hfirst.run (hcreate.trans hlist)
  have hstored := hthird.touch.recorded.world.store.stored
  constructor
  · intro output hoperation hreplay
    obtain ⟨definition, enrollment, message, hdefinition, henrollment, -, hreported⟩ :=
      executeSequenceEnroll_eq_ok hoperation hreplay
    obtain ⟨active, hactive, hpending, hsequence, hpasses, rfl⟩ :=
      replayOrThrow_eq_ok hstored hreported
    have huntouched := hfirst.touch.recorded.world.looksUntouched_of_isReplay
      hthird.touch.recorded.world hstable hdefinition henrollment hactive hsequence hpasses
    exact hthird.neverTouched fun hclaimed =>
      hthird.touch.marked active hactive hpending hclaimed huntouched
  · intro definition enrollment message hdefinition henrollment hconflict
    have hoperation : executeSequenceEnroll input newId now first.store second.store third.store =
        replayOrThrow input enrollment message third.store := by
      rw [executeSequenceEnroll, hdefinition, except_ok_bind, henrollment, except_ok_bind,
        hconflict]
    rw [hoperation]
    exact replayOrThrow_cases hstored

end Engine

/-! ## Two replays -/

/-- The request that enrolled the sample subscriber. -/
def sampleEnroll : SequenceEnrollInput where
  id := sampleSequenceId
  subscriberId := 7

/-- The identifier of another enrollment. -/
def otherEnrollmentId : Text := "55555555-5555-4555-8555-555555555555"

def reminderStep : SequenceStep :=
  .send { id := ⟨"reminder", by decide⟩, templateId := ⟨2, by decide⟩ }

/-- A worker takes another subscriber through the first of two steps; a second worker claims
that enrollment and stops, and the sample subscriber is enrolled. -/
def enrolledBeside : List EngineAction :=
  [.repository (.createDefinition { sampleDefinition with steps := [welcomeStep, reminderStep] }
      [] 0),
    .repository (.createEnrollment 0 { id := some otherEnrollmentId, subscriberId := 8 } [] 0),
    .repository (.claimDue
      { limit := 10, now := 1000, leaseMs := 90000, newLeaseToken := fun _ => sampleLeaseToken }),
    .start 0 sampleContext,
    .lookUp 0 (.ok {}),
    .claim 0 1000 "first" none,
    .dispatch 0 (.responded (some (.bool true)) none none),
    .settle 0 1500 none,
    .complete 0 none,
    .repository (.claimDue
      { limit := 10, now := 2000, leaseMs := 90000, newLeaseToken := fun _ => laterLeaseToken }),
    .repository (.createEnrollment 0 { id := some sampleEnrollmentId, subscriberId := 7 } [] 3000)]

/-- Leases that have expired are taken back. -/
def reconcileLeases : ReconcileOptions := { now := 100000, limit := 10, dryRun := false }

/-- The document after a history of the engine, for a second enroll request. -/
def enrollAgain [MailboxContract] [CaseMapping] (w : EngineWorld) :
    Option SequenceEnrollOutput :=
  (executeSequenceEnroll sampleEnroll laterLeaseToken 200000 w.store w.store w.store).toOption

/-- A lease is taken back from an enrollment that has been moved on, and enrolling the sample
subscriber again is reported as a replay. -/
theorem executeSequenceEnroll_replay_enrolledBeside :
    letI := plainMailboxContract
    letI := asciiCaseMapping
    ∃ w output, Run EngineWorld.SparingStep {}
        (enrolledBeside ++ [.repository (.reconcile reconcileLeases)]) w ∧
      otherEnrollmentId ∈ claimedIds w.repository.events ∧
      w.store.enrollments.map (·.status) = [.pending, .pending] ∧
      executeSequenceEnroll sampleEnroll laterLeaseToken 200000 w.store w.store w.store =
        .ok output ∧ output.created = false ∧ w.NeverTouched output.enrollment.id := by
  let := plainMailboxContract
  let := asciiCaseMapping
  have hsample : (enrolledBeside.foldlM EngineWorld.step {}).map (fun w =>
      (decide ((RepositoryAction.reconcile reconcileLeases).Spares w.repository.world),
        (w.step (.repository (.reconcile reconcileLeases))).map fun w' =>
          (decide (otherEnrollmentId ∈ claimedIds w'.repository.events),
            w'.store.enrollments.map (·.status), (enrollAgain w').map (·.created)))) =
        some (true, some (true, [.pending, .pending], some false)) := by decide +kernel
  obtain ⟨w, hw, hafter⟩ := Option.map_eq_some_iff.mp hsample
  obtain ⟨hspares, hafter⟩ := Prod.mk.inj hafter
  obtain ⟨w', hw', hafter⟩ := Option.map_eq_some_iff.mp hafter
  obtain ⟨hclaimed, hafter⟩ := Prod.mk.inj hafter
  obtain ⟨hstatus, hagain⟩ := Prod.mk.inj hafter
  obtain ⟨output, houtput, hreplay⟩ := Option.map_eq_some_iff.mp hagain
  have hoperation := toOption_eq_some_iff.mp houtput
  have hbefore : Run EngineWorld.SparingStep {} enrolledBeside w :=
    (Run.of_foldlM hw).and_of_labels (by simp [enrolledBeside, EngineWorld.Spares,
      RepositoryAction.Spares])
  have hspares : (RepositoryAction.reconcile reconcileLeases).Spares w.repository.world :=
    of_decide_eq_true hspares
  have hrun := hbefore.snoc (show EngineWorld.SparingStep w
    (.repository (.reconcile reconcileLeases)) w' from ⟨hw', hspares⟩)
  exact ⟨w', output, hrun, of_decide_eq_true hclaimed, hstatus, hoperation, hreplay,
    (executeSequenceEnroll_replay hrun (.refl w') (.refl w') sampleEnroll laterLeaseToken
      200000).1 output hoperation hreplay⟩

/-- A worker claims the sample enrollment, sends its message and stops, and its lease is
taken back when it has expired. -/
def recoveredAfterSend : List EngineAction :=
  claimedTask ++
    [.dispatch 0 (.responded (some (.bool true)) none none),
      .repository (.reconcile { now := 100000, limit := 10, dryRun := false })]

/-- The message of the first step was sent, and enrolling again is still reported as a
replay. -/
theorem executeSequenceEnroll_replay_fails :
    letI := plainMailboxContract
    letI := asciiCaseMapping
    ∃ w output, Run EngineWorld.Step {} recoveredAfterSend w ∧
      executeSequenceEnroll sampleEnroll laterLeaseToken 200000 w.store w.store w.store =
        .ok output ∧ output.created = false ∧ output.enrollment.id = sampleEnrollmentId ∧
      sampleEnrollmentId ∈ claimedIds w.repository.events ∧
      .dispatched welcomeRef (.ok true) ∈ w.events := by
  let := plainMailboxContract
  let := asciiCaseMapping
  have hsample : (recoveredAfterSend.foldlM EngineWorld.step {}).map (fun w =>
      ((enrollAgain w).map fun output => (output.created, output.enrollment.id),
        decide (sampleEnrollmentId ∈ claimedIds w.repository.events ∧
          .dispatched welcomeRef (.ok true) ∈ w.events))) =
        some (some (false, sampleEnrollmentId), true) := by decide +kernel
  obtain ⟨w, hw, hagain⟩ := Option.map_eq_some_iff.mp hsample
  obtain ⟨hagain, htouched⟩ := Prod.mk.inj hagain
  obtain ⟨output, houtput, hreplay⟩ := Option.map_eq_some_iff.mp hagain
  obtain ⟨hcreated, hid⟩ := Prod.mk.inj hreplay
  exact ⟨w, output, Run.of_foldlM hw, toOption_eq_some_iff.mp houtput, hcreated, hid,
    of_decide_eq_true htouched⟩

end ListmonkOps.Sequence
