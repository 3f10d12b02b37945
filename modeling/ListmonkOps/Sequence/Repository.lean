/-
The file-backed sequence repository.

The repository is one JSON document with definitions and enrollments. Each of
its operations is one locked update of the document, so an operation is a
function from the document to the next one and a result; an operation that
throws leaves the document as it was. The workers' heartbeats live in the same
document and concern none of the operations here.
-/

import ListmonkOps.Math.Keyed
import ListmonkOps.Sequence.Enrollment
import Mathlib.Data.List.Sort

namespace ListmonkOps.Sequence

open ListmonkOps.Math ListmonkOps.Runtime

structure SequenceStore where
  definitions : List SequenceDefinition := []
  enrollments : List SequenceEnrollment := []

/-! ## Comparing steps -/

/-- Two records of data with the same canonical JSON. -/
def sameJsonObject (left right : Option (List (Text × Json))) : Bool :=
  Json.optionDeepStrictEqual (left.map .object) (right.map .object)

/-- Two steps with the same canonical JSON, which ignores the order of members
and drops what is `undefined`. -/
def sameCanonicalStep : SequenceStep → SequenceStep → Bool
  | .send left, .send right =>
      left.id = right.id && left.templateId = right.templateId &&
        left.fromEmail = right.fromEmail && sameJsonObject left.data right.data &&
        left.contentType = right.contentType && left.messenger = right.messenger &&
        left.subject = right.subject && left.altBody = right.altBody
  | .wait id durationSeconds, .wait id' durationSeconds' =>
      id = id' && durationSeconds = durationSeconds'
  | .waitUntil id at_, .waitUntil id' at_' => id = id' && at_ = at_'
  | .condition left, .condition right =>
      left.id = right.id && left.path = right.path && left.operator = right.operator &&
        Json.optionDeepStrictEqual left.value right.value &&
        left.onTrue = right.onTrue && left.onFalse = right.onFalse
  | .stop id, .stop id' => id = id'
  | _, _ => false

/-- `canonicalStepsJson(left) === canonicalStepsJson(right)`. -/
def sameCanonicalSteps : List SequenceStep → List SequenceStep → Bool
  | [], [] => true
  | left :: lefts, right :: rights => sameCanonicalStep left right && sameCanonicalSteps lefts rights
  | _, _ => false

/-! ## The document -/

section Operations

variable [MailboxContract] [CaseMapping]

def parseStore (store : SequenceStore) : Except SequenceError SequenceStore := do
  let definitions ← store.definitions.mapM parsePersistedSequenceDefinition
  let enrollments ← store.enrollments.mapM parseSequenceEnrollment
  return { definitions, enrollments }

def createSequenceStore : JsonFileStore SequenceStore SequenceError where
  createDefault := {}
  parse := parseStore
  invalid := .document

def getFileDefinition (store : SequenceStore) (id : Text) :
    Except SequenceError SequenceDefinition :=
  match store.definitions.find? fun candidate => candidate.id = id with
  | some definition => .ok definition
  | none => .error (.notFound "definition" id)

def getFileEnrollment (store : SequenceStore) (id : Text) :
    Except SequenceError SequenceEnrollment :=
  match store.enrollments.find? fun candidate => candidate.id = id with
  | some enrollment => .ok enrollment
  | none => .error (.notFound "enrollment" id)

/-! ## Operations on definitions -/

def getDefinition (id : Text) (store : SequenceStore) : Except SequenceError SequenceDefinition :=
  parseStore store >>= (getFileDefinition · id)

def createDefinition (definition : SequenceDefinition) (store : SequenceStore) :
    SequenceStore × Except SequenceError SequenceDefinition :=
  match parseSequenceDefinition definition with
  | .error error => (store, .error error)
  | .ok validatedDefinition =>
      createSequenceStore.exec (fun current =>
        if current.definitions.any fun candidate =>
            candidate.id = validatedDefinition.id ||
              CaseMapping.toLowerCase candidate.name =
                CaseMapping.toLowerCase validatedDefinition.name then
          .error (.conflict (("Sequence ID or name already exists: " : Text) ++
            validatedDefinition.name))
        else
          .ok ({ current with definitions := current.definitions ++ [validatedDefinition] },
            validatedDefinition)) store

structure UpdateSequenceDefinitionInput where
  name : Option Text := none
  description : Option Text := none
  steps : List SequenceStep

structure SequenceUpdateResult where
  definition : SequenceDefinition
  updated : Bool

/-- Is the update one that the latest revision already carries? -/
def alreadyApplied (previous : SequenceDefinition) (input : UpdateSequenceDefinitionInput)
    (steps : List SequenceStep) : Bool :=
  let latestRevision :=
    (previous.revisions.insertionSort fun left right => right.revision ≤ left.revision).head?
  input.name.all (previous.name = ·) &&
    input.description.all (previous.description = some ·) &&
    latestRevision.any fun latest => sameCanonicalSteps latest.steps steps

def updateDefinition (id : Text) (input : UpdateSequenceDefinitionInput) (now : ℤ) :
    SequenceStore → SequenceStore × Except SequenceError SequenceUpdateResult :=
  createSequenceStore.exec fun current => do
    let previous ← getFileDefinition current id
    if input.name.any fun name => current.definitions.any fun candidate =>
        candidate.id ≠ id &&
          CaseMapping.toLowerCase candidate.name = CaseMapping.toLowerCase name then
      .error (.conflict (("Sequence name already exists: " : Text) ++ input.name.getD []))
    else
      let steps ← validateSequenceSteps input.steps
      if alreadyApplied previous input steps then
        return (current, { definition := previous, updated := false })
      else
        let revision := previous.currentRevision + 1
        let createdAt ← timestamp now
        let updated ← parsePersistedSequenceDefinition
          { previous with
            name := input.name.getD previous.name
            description := input.description <|> previous.description
            currentRevision := revision
            revisions := previous.revisions ++ [{ revision, steps, createdAt }]
            updatedAt := createdAt }
        return ({ current with
            definitions := replaceBy SequenceDefinition.id current.definitions updated },
          { definition := updated, updated := true })

def deleteDefinition (id : Text) :
    SequenceStore → SequenceStore × Except SequenceError SequenceDefinition :=
  createSequenceStore.exec fun current => do
    let definition ← getFileDefinition current id
    if current.enrollments.any fun enrollment =>
        enrollment.sequenceId = id && !enrollmentIsTerminal enrollment.status then
      .error (.conflict (("Sequence " : Text) ++ id ++
        (" still has non-terminal enrollments" : Text)))
    else
      return ({ definitions := current.definitions.filter (·.id ≠ id)
                enrollments := current.enrollments.filter (·.sequenceId ≠ id) }, definition)

def setDefinitionStatus (id : Text) (status : SequenceDefinitionStatus) (now : ℤ) :
    SequenceStore → SequenceStore × Except SequenceError SequenceDefinition :=
  createSequenceStore.exec fun current => do
    let previous ← getFileDefinition current id
    if previous.status = status then return (current, previous)
    else
      let updatedAt ← timestamp now
      let updated ← parsePersistedSequenceDefinition { previous with status, updatedAt }
      return ({ current with
        definitions := replaceBy SequenceDefinition.id current.definitions updated }, updated)

/-! ## Operations on enrollments -/

def getEnrollment (id : Text) (store : SequenceStore) : Except SequenceError SequenceEnrollment :=
  parseStore store >>= (getFileEnrollment · id)

def createEnrollment (enrollment : SequenceEnrollment) :
    SequenceStore → SequenceStore × Except SequenceError SequenceEnrollment :=
  createSequenceStore.exec fun current => do
    let _ ← getFileDefinition current enrollment.sequenceId
    if current.enrollments.any fun candidate =>
        candidate.id = enrollment.id ||
          (candidate.sequenceId = enrollment.sequenceId &&
            candidate.subscriberId = enrollment.subscriberId &&
            !enrollmentIsTerminal candidate.status) then
      .error (.conflict (("Subscriber " : Text) ++ Text.ofNat enrollment.subscriberId ++
        (" already has an active enrollment for sequence " : Text) ++ enrollment.sequenceId))
    else
      return ({ current with enrollments := current.enrollments ++ [enrollment] }, enrollment)

structure ClaimedSequenceEnrollment where
  enrollment : SequenceEnrollment
  definition : SequenceDefinition
  revision : SequenceRevision

/-- The arguments of `claimDue`, with the lease tokens it would draw. -/
structure ClaimDueOptions where
  limit : ℕ
  now : ℤ
  leaseMs : ℤ
  newLeaseToken : ℕ → Text

/-- Can a candidate be claimed at a given time? -/
def isDue (candidate : SequenceEnrollment) (now : ℤ) : Bool :=
  candidate.status ∈ [SequenceEnrollmentStatus.pending, .running, .waiting] &&
    candidate.nextRunAt.time ≤ now && candidate.leaseExpiresAt.all (·.time ≤ now)

/-- The active definition and the revision a candidate is claimed with. -/
def claimTarget (definitions : List SequenceDefinition) (candidate : SequenceEnrollment) :
    Option (SequenceDefinition × SequenceRevision) := do
  let definition ← definitions.find? fun item => item.id = candidate.sequenceId
  if definition.status ≠ .active then none
  else
    let revision ← definition.findRevision candidate.revision
    return (definition, revision)

def leaseEnrollment (options : ClaimDueOptions) (candidate : SequenceEnrollment) (token : Text) :
    Except SequenceError SequenceEnrollment := do
  let leaseExpiresAt ← timestamp (options.now + options.leaseMs)
  let updatedAt ← timestamp options.now
  parseSequenceEnrollment
    { candidate with
      status := .running
      leaseToken := some token
      leaseExpiresAt := some leaseExpiresAt
      updatedAt }

/-- The loop of `claimDue` over its candidates. -/
def claimCandidates (options : ClaimDueOptions) (definitions : List SequenceDefinition) :
    List SequenceEnrollment → List SequenceEnrollment → List ClaimedSequenceEnrollment →
      Except SequenceError (List SequenceEnrollment × List ClaimedSequenceEnrollment)
  | [], enrollments, claimed => .ok (enrollments, claimed)
  | candidate :: candidates, enrollments, claimed =>
      if options.limit ≤ claimed.length then .ok (enrollments, claimed)
      else if !isDue candidate options.now then
        claimCandidates options definitions candidates enrollments claimed
      else
        match claimTarget definitions candidate with
        | none => claimCandidates options definitions candidates enrollments claimed
        | some (definition, revision) => do
            let leased ← leaseEnrollment options candidate (options.newLeaseToken claimed.length)
            claimCandidates options definitions candidates
              (replaceBy SequenceEnrollment.id enrollments leased)
              (claimed ++ [{ enrollment := leased, definition, revision }])

def claimDue (options : ClaimDueOptions) :
    SequenceStore → SequenceStore × Except SequenceError (List ClaimedSequenceEnrollment) :=
  createSequenceStore.exec fun current => do
    let candidates := current.enrollments.insertionSort fun left right =>
      left.nextRunAt.time ≤ right.nextRunAt.time
    let (enrollments, claimed) ←
      claimCandidates options current.definitions candidates current.enrollments []
    return ({ current with enrollments }, claimed)

def completeClaim (enrollment : SequenceEnrollment) (next : UnleasedEnrollment) :
    SequenceStore → SequenceStore × Except SequenceError SequenceEnrollment :=
  createSequenceStore.exec fun current => do
    let stored ← getFileEnrollment current enrollment.id
    if stored.leaseToken = none ∨ stored.leaseToken ≠ enrollment.leaseToken then
      .error (.conflict (("Sequence enrollment lease was lost: " : Text) ++ enrollment.id))
    else
      let completed ← parseSequenceEnrollment next.val
      return ({ current with
        enrollments := replaceBy SequenceEnrollment.id current.enrollments completed }, completed)

def resolveAmbiguous (enrollment : SequenceEnrollment) (next : UnleasedEnrollment) :
    SequenceStore → SequenceStore × Except SequenceError SequenceEnrollment :=
  createSequenceStore.exec fun current => do
    let stored ← getFileEnrollment current enrollment.id
    if stored.status ≠ .ambiguous ∨ stored.updatedAt ≠ enrollment.updatedAt then
      .error (.conflict (("Sequence enrollment changed before reconciliation: " : Text) ++
        enrollment.id))
    else
      let resolved ← parseSequenceEnrollment next.val
      return ({ current with
        enrollments := replaceBy SequenceEnrollment.id current.enrollments resolved }, resolved)

/-- The arguments of `reconcile`. -/
structure ReconcileOptions where
  now : ℤ
  limit : ℕ
  dryRun : Bool

structure SequenceReconcileResult where
  scanned : ℕ
  recovered : ℕ
  unchanged : ℕ
  dryRun : Bool
  deriving DecidableEq

/-- Has the lease of an enrollment expired? -/
def leaseExpired (now : ℤ) (enrollment : SequenceEnrollment) : Bool :=
  enrollment.leaseExpiresAt.any (·.time ≤ now) && !enrollmentIsTerminal enrollment.status

/-- The record of an enrollment whose lease was taken back. -/
def recoverEnrollment (now : ℤ) (enrollment : SequenceEnrollment) :
    Except SequenceError SequenceEnrollment := do
  let updatedAt ← timestamp now
  parseSequenceEnrollment
    { enrollment with
      status := .pending
      leaseToken := none
      leaseExpiresAt := none
      nextRunAt := updatedAt
      updatedAt }

def reconcile (options : ReconcileOptions) :
    SequenceStore → SequenceStore × Except SequenceError SequenceReconcileResult :=
  createSequenceStore.exec fun current => do
    let expired := (current.enrollments.filter (leaseExpired options.now)).take options.limit
    let result : SequenceReconcileResult :=
      { scanned := expired.length
        recovered := expired.length
        unchanged := 0
        dryRun := options.dryRun }
    if options.dryRun then return (current, result)
    else
      let enrollments ← current.enrollments.mapM fun enrollment =>
        if enrollment.id ∈ expired.map (·.id) then recoverEnrollment options.now enrollment
        else .ok enrollment
      return ({ current with enrollments }, result)

end Operations

/-! ## What the operations do to a stored document -/

section Effects

variable {store store' : SequenceStore}

theorem getFileDefinition_eq_ok {id : Text} {definition : SequenceDefinition}
    (h : getFileDefinition store id = .ok definition) :
    store.definitions.find? (fun candidate => candidate.id = id) = some definition := by
  unfold getFileDefinition at h
  split at h
  · next hfound =>
      obtain rfl := Except.ok.inj h
      exact hfound
  · simp at h

theorem getFileEnrollment_eq_ok {id : Text} {enrollment : SequenceEnrollment}
    (h : getFileEnrollment store id = .ok enrollment) :
    store.enrollments.find? (fun candidate => candidate.id = id) = some enrollment := by
  unfold getFileEnrollment at h
  split at h
  · next hfound =>
      obtain rfl := Except.ok.inj h
      exact hfound
  · simp at h

/-- A revision whose steps parse to themselves is kept as it is. -/
theorem parseRevision_eq_self {stepSchema : SequenceStep → Except SequenceError SequenceStep}
    {revision parsed : SequenceRevision} (hsteps : revision.steps.mapM stepSchema = .ok revision.steps)
    (h : parseRevision stepSchema revision = .ok parsed) : parsed = revision := by
  obtain ⟨steps, hparsed, rfl, -⟩ := parseRevision_eq_ok h
  obtain rfl := Except.ok.inj (hsteps.symm.trans hparsed)
  rfl

/-- The history of a definition when an update appends a revision. -/
def appendRevision (previous : SequenceDefinition) (steps : List SequenceStep)
    (createdAt : DateTime) : List SequenceRevision :=
  previous.revisions ++ [{ revision := previous.currentRevision + 1, steps, createdAt }]

/-- One claim of `claimDue`: the leased record of a due candidate, with the active
definition and the pinned revision. -/
structure ClaimOf (options : ClaimDueOptions) (store : SequenceStore) (token : Text)
    (claimed : ClaimedSequenceEnrollment) (candidate : SequenceEnrollment) : Prop where
  stored : candidate ∈ store.enrollments
  due : isDue candidate options.now = true
  target : claimTarget store.definitions candidate = some (claimed.definition, claimed.revision)
  leased : claimed.enrollment =
    { candidate with
      status := .running
      leaseToken := some token
      leaseExpiresAt := some { time := options.now + options.leaseMs }
      updatedAt := { time := options.now } }
  schema : enrollmentSchema claimed.enrollment = true

theorem leaseEnrollment_eq_ok {options : ClaimDueOptions} {candidate leased : SequenceEnrollment}
    {token : Text} (h : leaseEnrollment options candidate token = .ok leased) :
    leased =
        { candidate with
          status := .running
          leaseToken := some token
          leaseExpiresAt := some { time := options.now + options.leaseMs }
          updatedAt := { time := options.now } } ∧
      enrollmentSchema leased = true := by
  obtain ⟨leaseExpiresAt, hexpires, h⟩ := except_bind_eq_ok.mp h
  obtain ⟨updatedAt, hupdated, h⟩ := except_bind_eq_ok.mp h
  obtain ⟨hschema, rfl⟩ := parseSequenceEnrollment_eq_ok_iff.mp h
  obtain rfl := timestamp_eq_ok hexpires
  obtain rfl := timestamp_eq_ok hupdated
  exact ⟨rfl, hschema⟩

/-- The loop appends claims of some of its candidates, in their order, with
consecutive tokens, and puts the leased records in their places. -/
theorem claimCandidates_eq_ok {options : ClaimDueOptions}
    {candidates enrollments enrollments' : List SequenceEnrollment}
    {claimed claimed' : List ClaimedSequenceEnrollment}
    (hcandidates : ∀ candidate ∈ candidates, candidate ∈ store.enrollments)
    (h : claimCandidates options store.definitions candidates enrollments claimed =
      .ok (enrollments', claimed')) :
    ∃ (new : List ClaimedSequenceEnrollment) (picked : List SequenceEnrollment),
      claimed' = claimed ++ new ∧ picked.Sublist candidates ∧
      enrollments' = replaceAllBy SequenceEnrollment.id enrollments (new.map (·.enrollment)) ∧
      new.map (·.enrollment.id) = picked.map (·.id) ∧
      new.map (·.enrollment.leaseToken) =
        (List.range' claimed.length new.length).map (some ∘ options.newLeaseToken) ∧
      ∀ entry ∈ new, ∃ token candidate, ClaimOf options store token entry candidate := by
  induction candidates generalizing enrollments claimed with
  | nil =>
      obtain ⟨rfl, rfl⟩ := Prod.mk.inj (Except.ok.inj h)
      exact ⟨[], [], by simp, List.Sublist.refl _, rfl, rfl, rfl, by simp⟩
  | cons candidate candidates ih =>
      have hrest : ∀ other ∈ candidates, other ∈ store.enrollments := fun other hother =>
        hcandidates other (List.mem_cons_of_mem _ hother)
      rw [claimCandidates] at h
      split at h
      · obtain ⟨rfl, rfl⟩ := Prod.mk.inj (Except.ok.inj h)
        exact ⟨[], [], by simp, List.nil_sublist _, rfl, rfl, rfl, by simp⟩
      · split at h
        · obtain ⟨new, picked, hclaimed, hpicked, hrecords⟩ := ih hrest h
          exact ⟨new, picked, hclaimed, hpicked.cons _, hrecords⟩
        · next hdue =>
            split at h
            · obtain ⟨new, picked, hclaimed, hpicked, hrecords⟩ := ih hrest h
              exact ⟨new, picked, hclaimed, hpicked.cons _, hrecords⟩
            · next definition revision htarget =>
                obtain ⟨leased, hleased, hloop⟩ := except_bind_eq_ok.mp h
                obtain ⟨hrecord, hschema⟩ := leaseEnrollment_eq_ok hleased
                obtain ⟨new, picked, rfl, hpicked, rfl, hids, htokens, hclaims⟩ := ih hrest hloop
                refine ⟨{ enrollment := leased, definition, revision } :: new,
                  candidate :: picked, by simp, hpicked.cons_cons _, rfl, ?_, ?_, ?_⟩
                · simp [hids, hrecord]
                · rw [List.map_cons, htokens, List.length_cons, List.length_append,
                    List.length_singleton, List.range'_succ, List.map_cons]
                  simp [hrecord]
                · intro entry hentry
                  rcases List.mem_cons.mp hentry with rfl | hnew
                  · exact ⟨_, candidate, hcandidates candidate (by simp), by simpa using hdue,
                      htarget, hrecord, hschema⟩
                  · exact hclaims entry hnew

theorem recoverEnrollment_eq_ok {now : ℤ} {enrollment recovered : SequenceEnrollment}
    (h : recoverEnrollment now enrollment = .ok recovered) :
    recovered =
        { enrollment with
          status := .pending
          leaseToken := none
          leaseExpiresAt := none
          nextRunAt := { time := now }
          updatedAt := { time := now } } ∧
      enrollmentSchema recovered = true := by
  obtain ⟨updatedAt, hupdated, h⟩ := except_bind_eq_ok.mp h
  obtain ⟨hschema, rfl⟩ := parseSequenceEnrollment_eq_ok_iff.mp h
  obtain rfl := timestamp_eq_ok hupdated
  exact ⟨rfl, hschema⟩

variable [MailboxContract]

/-- A document as the repository writes it: all of it passes the schemas, so that reading it
changes nothing. -/
structure SequenceStore.Stored (store : SequenceStore) : Prop where
  definitions : ∀ definition ∈ store.definitions, definition.Stored
  enrollments : ∀ enrollment ∈ store.enrollments, enrollmentSchema enrollment = true

theorem SequenceStore.Stored.parse (h : store.Stored) : parseStore store = .ok store := by
  refine except_bind_eq_ok.mpr ⟨_, mapM_eq_self_iff.mpr h.definitions, ?_⟩
  refine except_bind_eq_ok.mpr ⟨_, mapM_eq_self_iff.mpr fun enrollment henrollment => ?_, rfl⟩
  exact parseSequenceEnrollment_eq_ok_iff.mpr ⟨h.enrollments enrollment henrollment, rfl⟩

theorem schema_of_parseStore {parsed : SequenceStore} (h : parseStore store = .ok parsed)
    {enrollment : SequenceEnrollment} (hmem : enrollment ∈ store.enrollments) :
    enrollmentSchema enrollment = true := by
  obtain ⟨definitions, -, h⟩ := except_bind_eq_ok.mp h
  obtain ⟨enrollments, henrollments, -⟩ := except_bind_eq_ok.mp h
  obtain ⟨i, hi, rfl⟩ := List.mem_iff_getElem.mp hmem
  have hforall := mapM_eq_ok_iff.mp henrollments
  have hlength := hforall.length_eq
  have hparse := List.forall₂_iff_get.mp hforall |>.2 i hi (by omega)
  exact (parseSequenceEnrollment_eq_ok_iff.mp hparse).1

theorem validateSequenceSteps_eq_ok {steps parsed : List SequenceStep}
    (h : validateSequenceSteps steps = .ok parsed) :
    parsed.mapM storedSequenceStepSchema = .ok parsed ∧ WellOrdered parsed := by
  obtain ⟨-, h⟩ := require_bind_eq_ok.mp h
  obtain ⟨checked, hchecked, h⟩ := except_bind_eq_ok.mp h
  obtain ⟨rfl, hordered⟩ := validateSequenceStepTopology_eq_ok h
  exact ⟨mapM_stable storedSequenceStepSchema_of_strict hchecked, hordered⟩

theorem exec_error {ρ : Type} {update : SequenceStore → Except SequenceError (SequenceStore × ρ)}
    {error : SequenceError}
    (h : createSequenceStore.exec update store = (store', .error error)) : store' = store :=
  JsonFileStore.exec_of_error _ h

theorem exec_ok {ρ : Type} {update : SequenceStore → Except SequenceError (SequenceStore × ρ)}
    {result : ρ} (hstored : store.Stored)
    (h : createSequenceStore.exec update store = (store', .ok result)) :
    update store = .ok (store', result) ∧ ∃ parsed, parseStore store' = .ok parsed := by
  obtain ⟨current, hread, hupdate, hwrite⟩ := JsonFileStore.exec_of_ok _ h
  obtain rfl := Except.ok.inj (hstored.parse.symm.trans hread)
  exact ⟨hupdate, hwrite⟩

theorem deleteDefinition_eq_ok {id : Text} {result : SequenceDefinition} (hstored : store.Stored)
    (h : deleteDefinition id store = (store', .ok result)) :
    store.definitions.find? (fun candidate => candidate.id = id) = some result ∧
      (∀ enrollment ∈ store.enrollments, enrollment.sequenceId = id →
        enrollmentIsTerminal enrollment.status = true) ∧
      store' =
        { definitions := store.definitions.filter (·.id ≠ id)
          enrollments := store.enrollments.filter (·.sequenceId ≠ id) } := by
  obtain ⟨hupdate, -⟩ := exec_ok hstored h
  obtain ⟨definition, hdefinition, hupdate⟩ := except_bind_eq_ok.mp hupdate
  split at hupdate
  · simp at hupdate
  · next hterminal =>
      obtain ⟨rfl, rfl⟩ := Prod.mk.inj (Except.ok.inj hupdate)
      refine ⟨getFileDefinition_eq_ok hdefinition, fun enrollment henrollment hid => ?_, rfl⟩
      simp only [List.any_eq_true, not_exists, not_and] at hterminal
      simpa [hid] using hterminal enrollment henrollment

theorem setDefinitionStatus_eq_ok {id : Text} {status : SequenceDefinitionStatus} {now : ℤ}
    {result : SequenceDefinition} (hstored : store.Stored)
    (h : setDefinitionStatus id status now store = (store', .ok result)) :
    ∃ previous, store.definitions.find? (fun candidate => candidate.id = id) = some previous ∧
      ((store' = store ∧ result = previous) ∨
        (result = { previous with status, updatedAt := { time := now } } ∧ result.Stored ∧
          store' = { store with
            definitions := replaceBy SequenceDefinition.id store.definitions result })) := by
  obtain ⟨hupdate, -⟩ := exec_ok hstored h
  obtain ⟨previous, hprevious, hupdate⟩ := except_bind_eq_ok.mp hupdate
  have hfound := getFileDefinition_eq_ok hprevious
  refine ⟨previous, hfound, ?_⟩
  split at hupdate
  · obtain ⟨rfl, rfl⟩ := Prod.mk.inj (Except.ok.inj hupdate)
    exact .inl ⟨rfl, rfl⟩
  · obtain ⟨updatedAt, hupdatedAt, hupdate⟩ := except_bind_eq_ok.mp hupdate
    obtain ⟨updated, hupdated, hupdate⟩ := except_bind_eq_ok.mp hupdate
    obtain ⟨rfl, rfl⟩ := Prod.mk.inj (Except.ok.inj hupdate)
    refine .inr ⟨?_, stored_of_parsePersistedSequenceDefinition hupdated, rfl⟩
    obtain rfl := timestamp_eq_ok hupdatedAt
    obtain ⟨parsed, hparsed, hhistory⟩ := except_bind_eq_ok.mp hupdated
    obtain ⟨rfl, -⟩ := validateSequenceDefinitionHistory_eq_ok hhistory
    have hprev : previous.Stored :=
      hstored.definitions previous (List.mem_of_find?_eq_some hfound)
    have hresult := definitionSchema_of_revisions hparsed fun revision hrevision =>
      parseRevision_of_mem hprev.schema hrevision
    rw [hresult]
    have hdescription : previous.description.map Text.trim = previous.description := by
      obtain ⟨revisions, -, hsame, -⟩ := definitionSchema_eq_ok hprev.schema
      exact (congrArg SequenceDefinition.description hsame).symm
    simp only [hprev.name_trimmed, hdescription]

theorem createEnrollment_eq_ok {enrollment result : SequenceEnrollment} (hstored : store.Stored)
    (h : createEnrollment enrollment store = (store', .ok result)) :
    (∃ definition, store.definitions.find? (fun candidate =>
        candidate.id = enrollment.sequenceId) = some definition) ∧
      (∀ candidate ∈ store.enrollments, candidate.id ≠ enrollment.id ∧
        (candidate.sequenceId = enrollment.sequenceId →
          candidate.subscriberId = enrollment.subscriberId →
            enrollmentIsTerminal candidate.status = true)) ∧
      enrollmentSchema enrollment = true ∧ result = enrollment ∧
      store' = { store with enrollments := store.enrollments ++ [enrollment] } := by
  obtain ⟨hupdate, parsed, hwrite⟩ := exec_ok hstored h
  obtain ⟨definition, hdefinition, hupdate⟩ := except_bind_eq_ok.mp hupdate
  split at hupdate
  · simp at hupdate
  · next hfresh =>
      obtain ⟨rfl, rfl⟩ := Prod.mk.inj (Except.ok.inj hupdate)
      refine ⟨⟨definition, getFileDefinition_eq_ok hdefinition⟩, ?_,
        schema_of_parseStore hwrite (by simp), rfl, rfl⟩
      intro candidate hcandidate
      simp only [List.any_eq_true, not_exists, not_and] at hfresh
      have hcandidate := hfresh candidate hcandidate
      simp only [Bool.or_eq_true, Bool.and_eq_true, decide_eq_true_eq, Bool.not_eq_true',
        not_or, not_and, Bool.not_eq_false] at hcandidate
      exact ⟨hcandidate.1, fun hsequence hsubscriber => hcandidate.2 ⟨hsequence, hsubscriber⟩⟩

theorem completeClaim_eq_ok {enrollment result : SequenceEnrollment} {next : UnleasedEnrollment}
    (hstored : store.Stored)
    (h : completeClaim enrollment next store = (store', .ok result)) :
    ∃ stored, store.enrollments.find? (fun candidate => candidate.id = enrollment.id) =
        some stored ∧
      stored.leaseToken ≠ none ∧ stored.leaseToken = enrollment.leaseToken ∧
      enrollmentSchema next.val = true ∧ result = next.val ∧
      store' = { store with
        enrollments := replaceBy SequenceEnrollment.id store.enrollments next.val } := by
  obtain ⟨hupdate, -⟩ := exec_ok hstored h
  obtain ⟨stored, hfound, hupdate⟩ := except_bind_eq_ok.mp hupdate
  split at hupdate
  · simp at hupdate
  · next hlease =>
      push Not at hlease
      obtain ⟨completed, hcompleted, hupdate⟩ := except_bind_eq_ok.mp hupdate
      obtain ⟨hschema, rfl⟩ := parseSequenceEnrollment_eq_ok_iff.mp hcompleted
      obtain ⟨rfl, rfl⟩ := Prod.mk.inj (Except.ok.inj hupdate)
      exact ⟨stored, getFileEnrollment_eq_ok hfound, hlease.1, hlease.2, hschema, rfl, rfl⟩

theorem resolveAmbiguous_eq_ok {enrollment result : SequenceEnrollment}
    {next : UnleasedEnrollment} (hstored : store.Stored)
    (h : resolveAmbiguous enrollment next store = (store', .ok result)) :
    ∃ stored, store.enrollments.find? (fun candidate => candidate.id = enrollment.id) =
        some stored ∧
      stored.status = .ambiguous ∧ stored.updatedAt = enrollment.updatedAt ∧
      enrollmentSchema next.val = true ∧ result = next.val ∧
      store' = { store with
        enrollments := replaceBy SequenceEnrollment.id store.enrollments next.val } := by
  obtain ⟨hupdate, -⟩ := exec_ok hstored h
  obtain ⟨stored, hfound, hupdate⟩ := except_bind_eq_ok.mp hupdate
  split at hupdate
  · simp at hupdate
  · next hunchanged =>
      push Not at hunchanged
      obtain ⟨resolved, hresolved, hupdate⟩ := except_bind_eq_ok.mp hupdate
      obtain ⟨hschema, rfl⟩ := parseSequenceEnrollment_eq_ok_iff.mp hresolved
      obtain ⟨rfl, rfl⟩ := Prod.mk.inj (Except.ok.inj hupdate)
      exact ⟨stored, getFileEnrollment_eq_ok hfound, hunchanged.1, hunchanged.2, hschema, rfl, rfl⟩

theorem claimDue_eq_ok {options : ClaimDueOptions} {claimed : List ClaimedSequenceEnrollment}
    (hstored : store.Stored) (hids : (store.enrollments.map (·.id)).Nodup)
    (h : claimDue options store = (store', .ok claimed)) :
    store' = { store with
        enrollments := replaceAllBy SequenceEnrollment.id store.enrollments
          (claimed.map (·.enrollment)) } ∧
      (claimed.map (·.enrollment.id)).Nodup ∧
      claimed.map (·.enrollment.leaseToken) =
        (List.range claimed.length).map (some ∘ options.newLeaseToken) ∧
      ∀ entry ∈ claimed, ∃ token candidate, ClaimOf options store token entry candidate := by
  obtain ⟨hupdate, -⟩ := exec_ok hstored h
  obtain ⟨⟨enrollments, result⟩, hloop, hupdate⟩ := except_bind_eq_ok.mp hupdate
  obtain ⟨rfl, rfl⟩ := Prod.mk.inj (Except.ok.inj hupdate)
  have hperm := List.perm_insertionSort
    (fun left right : SequenceEnrollment => left.nextRunAt.time ≤ right.nextRunAt.time)
    store.enrollments
  obtain ⟨new, picked, hnew, hpicked, hrecords, hpickedIds, htokens, hclaims⟩ :=
    claimCandidates_eq_ok (fun candidate hcandidate => hperm.mem_iff.mp hcandidate)
      hloop
  obtain rfl : result = new := by simpa using hnew
  refine ⟨by rw [hrecords], ?_, ?_, hclaims⟩
  · rw [hpickedIds]
    exact ((hperm.map (·.id)).nodup_iff.mpr hids).sublist (hpicked.map _)
  · simpa [List.range_eq_range'] using htokens

/-- The enrollments a reconcile takes back. -/
def recoveredIds (options : ReconcileOptions) (enrollments : List SequenceEnrollment) :
    List Text :=
  if options.dryRun then []
  else ((enrollments.filter (leaseExpired options.now)).take options.limit).map (·.id)

/-- A reconcile changes enrollments one by one: it takes back the ones it counts,
all of which have expired, and keeps the others. -/
theorem reconcile_eq_ok {options : ReconcileOptions} {result : SequenceReconcileResult}
    (hstored : store.Stored) (hids : (store.enrollments.map (·.id)).Nodup)
    (h : reconcile options store = (store', .ok result)) :
    store'.definitions = store.definitions ∧
      List.Forall₂ (fun enrollment enrollment' =>
        (enrollment.id ∉ recoveredIds options store.enrollments ∧ enrollment' = enrollment) ∨
          (enrollment.id ∈ recoveredIds options store.enrollments ∧
            leaseExpired options.now enrollment = true ∧
            recoverEnrollment options.now enrollment = .ok enrollment'))
        store.enrollments store'.enrollments := by
  obtain ⟨hupdate, -⟩ := exec_ok hstored h
  dsimp only at hupdate
  split at hupdate
  · next hdry =>
      obtain ⟨rfl, -⟩ := Prod.mk.inj (Except.ok.inj hupdate)
      exact ⟨rfl, List.forall₂_same.mpr fun _ _ => .inl ⟨by simp [recoveredIds, hdry], rfl⟩⟩
  · next hdry =>
      obtain ⟨enrollments, hmap, hupdate⟩ := except_bind_eq_ok.mp hupdate
      obtain ⟨rfl, -⟩ := Prod.mk.inj (Except.ok.inj hupdate)
      refine ⟨rfl, ?_⟩
      have hrecovered : recoveredIds options store.enrollments =
          ((store.enrollments.filter (leaseExpired options.now)).take options.limit).map (·.id) :=
        if_neg hdry
      rw [hrecovered]
      have hforall := mapM_eq_ok_iff.mp hmap
      rw [List.forall₂_iff_get] at hforall ⊢
      refine ⟨hforall.1, fun i hi hi' => ?_⟩
      have hitem := hforall.2 i hi hi'
      split at hitem
      · next hexpired =>
          refine .inr ⟨hexpired, ?_, hitem⟩
          obtain ⟨other, hother, hid⟩ := List.mem_map.mp hexpired
          obtain ⟨hmem, hleased⟩ := List.mem_filter.mp (List.mem_of_mem_take hother)
          rwa [← List.inj_on_of_nodup_map hids hmem (List.get_mem _ _) hid]
      · next hkept => exact .inl ⟨hkept, (Except.ok.inj hitem).symm⟩

variable [CaseMapping]

theorem createDefinition_error {definition : SequenceDefinition} {error : SequenceError}
    (h : createDefinition definition store = (store', .error error)) : store' = store := by
  unfold createDefinition at h
  split at h
  · exact (Prod.mk.inj h).1.symm
  · exact exec_error h

theorem createDefinition_eq_ok {definition result : SequenceDefinition} (hstored : store.Stored)
    (h : createDefinition definition store = (store', .ok result)) :
    parseSequenceDefinition definition = .ok result ∧
      (∀ candidate ∈ store.definitions, candidate.id ≠ result.id ∧
        CaseMapping.toLowerCase candidate.name ≠ CaseMapping.toLowerCase result.name) ∧
      store' = { store with definitions := store.definitions ++ [result] } := by
  unfold createDefinition at h
  split at h
  · simp at h
  · next validated hparse =>
      obtain ⟨hupdate, -⟩ := exec_ok hstored h
      split at hupdate
      · simp at hupdate
      · next hfresh =>
          obtain ⟨rfl, rfl⟩ := Prod.mk.inj (Except.ok.inj hupdate)
          exact ⟨hparse, by simpa using hfresh, rfl⟩

theorem updateDefinition_eq_ok {id : Text} {input : UpdateSequenceDefinitionInput} {now : ℤ}
    {result : SequenceUpdateResult} (hstored : store.Stored)
    (h : updateDefinition id input now store = (store', .ok result)) :
    ∃ previous, store.definitions.find? (fun candidate => candidate.id = id) = some previous ∧
      ((store' = store ∧ result.definition = previous) ∨
        ∃ steps createdAt,
          (∀ name, input.name = some name → ∀ candidate ∈ store.definitions, candidate.id ≠ id →
            CaseMapping.toLowerCase candidate.name ≠ CaseMapping.toLowerCase name) ∧
          result.definition.Stored ∧ result.definition.id = previous.id ∧
          result.definition.name = Text.trim (input.name.getD previous.name) ∧
          result.definition.currentRevision = previous.currentRevision + 1 ∧
          result.definition.revisions = appendRevision previous steps createdAt ∧
          store' = { store with
            definitions := replaceBy SequenceDefinition.id store.definitions
              result.definition }) := by
  obtain ⟨hupdate, -⟩ := exec_ok hstored h
  obtain ⟨previous, hprevious, hupdate⟩ := except_bind_eq_ok.mp hupdate
  have hfound := getFileDefinition_eq_ok hprevious
  refine ⟨previous, hfound, ?_⟩
  split at hupdate
  · simp at hupdate
  · next hnames =>
      obtain ⟨steps, hsteps, hupdate⟩ := except_bind_eq_ok.mp hupdate
      split at hupdate
      · obtain ⟨rfl, rfl⟩ := Prod.mk.inj (Except.ok.inj hupdate)
        exact .inl ⟨rfl, rfl⟩
      · obtain ⟨createdAt, -, hupdate⟩ := except_bind_eq_ok.mp hupdate
        obtain ⟨updated, hupdated, hupdate⟩ := except_bind_eq_ok.mp hupdate
        obtain ⟨rfl, rfl⟩ := Prod.mk.inj (Except.ok.inj hupdate)
        refine .inr ⟨steps, createdAt, ?_, stored_of_parsePersistedSequenceDefinition hupdated, ?_⟩
        · intro name hname candidate hcandidate hne
          simp only [hname, Option.any_some, List.any_eq_true, not_exists, not_and] at hnames
          simpa [hne] using hnames candidate hcandidate
        · obtain ⟨parsed, hparsed, hhistory⟩ := except_bind_eq_ok.mp hupdated
          obtain ⟨rfl, -⟩ := validateSequenceDefinitionHistory_eq_ok hhistory
          obtain ⟨revisions, hrevisions, -, -⟩ := definitionSchema_eq_ok hparsed
          have hprev : previous.Stored :=
            hstored.definitions previous (List.mem_of_find?_eq_some hfound)
          have hself : ∀ revision ∈ appendRevision previous steps createdAt,
              parseRevision storedSequenceStepSchema revision = .ok revision := by
            intro revision hrevision
            rcases List.mem_append.mp hrevision with hold | hnew
            · exact parseRevision_of_mem hprev.schema hold
            · obtain rfl := List.mem_singleton.mp hnew
              have hforall := mapM_eq_ok_iff.mp hrevisions
              change List.Forall₂ _ (appendRevision previous steps createdAt) _ at hforall
              obtain ⟨i, hi, hget⟩ := List.mem_iff_getElem.mp hrevision
              have hlength := hforall.length_eq
              have hparse := List.forall₂_iff_get.mp hforall |>.2 i hi (by omega)
              rw [List.get_eq_getElem, hget] at hparse
              rw [hparse, parseRevision_eq_self (validateSequenceSteps_eq_ok hsteps).1 hparse]
          have hresult := definitionSchema_of_revisions hparsed hself
          exact ⟨by rw [hresult], by rw [hresult], by rw [hresult], by rw [hresult]; rfl, rfl⟩

end Effects

end ListmonkOps.Sequence
