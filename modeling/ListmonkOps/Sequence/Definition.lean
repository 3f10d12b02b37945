/-
Sequence definitions and their validation.

A definition is a named list of revisions, and a revision a list of steps with
distinct identifiers in which conditions branch forward and a wait is never the
last step. Everything that enters the store is parsed: names and descriptions
are trimmed, a sender is brought to its canonical mailbox, and what does not
meet the schema is refused.

The fields that only their own schema reads (a step identifier, a template
identifier, a duration, a property path) are values of subtypes here.
-/

import ListmonkOps.Runtime.JsonFileStore
import ListmonkOps.Transactional.Send

namespace ListmonkOps.Sequence

open ListmonkOps.Math ListmonkOps.Runtime ListmonkOps.Transactional

/-! ## Errors -/

/-- What a repository call throws. -/
inductive SequenceError where
  /-- A `SequenceNotFoundError` for a definition or an enrollment. -/
  | notFound (kind id : Text)
  /-- A `SequenceConflictError`. -/
  | conflict (message : Text)
  /-- A value that fails its schema. -/
  | schema
  /-- The `RangeError` of `toISOString`. -/
  | range
  /-- The `TypeError` of a document that fails its parser before it is written. -/
  | document
  deriving DecidableEq

def require (condition : Bool) : Except SequenceError Unit :=
  if condition then .ok () else .error .schema

@[simp]
theorem require_bind_eq_ok {α : Type} {condition : Bool} {next : Unit → Except SequenceError α}
    {a : α} : (require condition >>= next) = .ok a ↔ condition = true ∧ next () = .ok a := by
  cases condition <;> simp [require, bind, Except.bind]

/-- `now.toISOString()` in repository code. -/
def timestamp (now : ℤ) : Except SequenceError DateTime :=
  match toISOString now with
  | some d => .ok d
  | none => .error .range

theorem timestamp_eq_ok {now : ℤ} {d : DateTime} (h : timestamp now = .ok d) :
    d = { time := now } := by
  unfold timestamp at h
  split at h
  · next hiso =>
      obtain rfl := Except.ok.inj h
      exact toISOString_eq_some hiso
  · simp at h

/-! ## Steps -/

/-- The characters of a step identifier. -/
def isStepIdUnit (unit : UInt16) : Bool :=
  (48 ≤ unit && unit ≤ 57) || (65 ≤ unit && unit ≤ 90) || (97 ≤ unit && unit ≤ 122) ||
    unit ∈ ("._:-" : Text)

/-- `stepIdSchema`, on a trimmed text. -/
def isStepId (t : Text) : Bool := t ≠ [] && t.length ≤ 80 && t.all isStepIdUnit

abbrev StepId := { t : Text // isStepId t }

abbrev PositiveId := { n : ℕ // 0 < n ∧ n ≤ maxSafeInteger }

/-- The characters of a segment of a property path. -/
def isPathUnit (unit : UInt16) : Bool :=
  (48 ≤ unit && unit ≤ 57) || (65 ≤ unit && unit ≤ 90) || (97 ≤ unit && unit ≤ 122) ||
    unit ∈ ("_-" : Text)

/-- The path of a condition: segments joined by dots. -/
def isPropertyPath (t : Text) : Bool :=
  t.length ≤ 200 && (t.splitOn 46).all fun segment => segment ≠ [] && segment.all isPathUnit

/-- The sender contract of the operations package, which takes a text to its
canonical mailbox. Both facts are those of a `trim()` followed by checks. -/
class MailboxContract where
  /-- `transactionalFromEmailSchema`. -/
  transactionalFromEmailSchema : Text → Option Text
  eq_trim : ∀ {t u}, transactionalFromEmailSchema t = some u → u = Text.trim t
  stable : ∀ {t u}, transactionalFromEmailSchema t = some u →
    transactionalFromEmailSchema u = some u

/-- A sender contract for plain ASCII mailboxes: trimmed, with one `@` inside. -/
@[reducible]
def plainMailboxContract : MailboxContract where
  transactionalFromEmailSchema t :=
    if (Text.trim t).count 64 = 1 then some (Text.trim t) else none
  eq_trim h := by
    split at h
    · exact (Option.some.inj h).symm
    · simp at h
  stable h := by
    split at h
    · next hcount =>
        obtain rfl := Option.some.inj h
        simp [hcount]
    · simp at h

/-- A step that sends a transactional message. -/
structure SequenceSendStep where
  id : StepId
  templateId : PositiveId
  fromEmail : Option Text := none
  data : Option (List (Text × Json)) := none
  contentType : Option ContentType := none
  messenger : Option Text := none
  subject : Option Text := none
  altBody : Option Text := none

/-- The comparison of a condition. -/
inductive ConditionOperator where
  | equals
  | notEquals
  | exists
  deriving DecidableEq

/-- A step that branches on the context of the enrollment. -/
structure SequenceConditionStep where
  id : StepId
  path : { t : Text // isPropertyPath t }
  operator : ConditionOperator
  value : Option Json := none
  onTrue : StepId
  onFalse : StepId

inductive SequenceStep where
  | send (step : SequenceSendStep)
  | wait (id : StepId) (durationSeconds : { n : ℕ // 1 ≤ n ∧ n ≤ 31536000 })
  | waitUntil (id : StepId) (at_ : { d : DateTime // isoDateTimeSchema d })
  | condition (step : SequenceConditionStep)
  | stop (id : StepId)

namespace SequenceStep

def id : SequenceStep → StepId
  | send step => step.id
  | wait id _ => id
  | waitUntil id _ => id
  | condition step => step.id
  | stop id => id

def isSend : SequenceStep → Bool
  | send _ => true
  | _ => false

/-- The `type` of a step that must be followed by another one. -/
def waitType : SequenceStep → Option Text
  | wait _ _ => some "wait"
  | waitUntil _ _ => some "wait_until"
  | _ => none

end SequenceStep

section Schemas

variable [MailboxContract]

open MailboxContract

def sequenceSendStepSchema (step : SequenceSendStep) : Except SequenceError SequenceSendStep :=
  match step.fromEmail with
  | none => .ok step
  | some fromEmail =>
      match transactionalFromEmailSchema fromEmail with
      | some mailbox => .ok { step with fromEmail := some mailbox }
      | none => .error .schema

/-- `sequenceSendStepSchema` with the sender of a legacy document. -/
def legacySendStepSchema (step : SequenceSendStep) : Except SequenceError SequenceSendStep :=
  match step.fromEmail with
  | none => .ok step
  | some fromEmail =>
      if Text.trim fromEmail = [] then .error .schema
      else .ok { step with fromEmail := some (Text.trim fromEmail) }

def sequenceStepSchema : SequenceStep → Except SequenceError SequenceStep
  | .send step => (sequenceSendStepSchema step).map .send
  | step => .ok step

/-- `storedSequenceStepSchema`: the strict schema, or else the legacy one. -/
def storedSequenceStepSchema : SequenceStep → Except SequenceError SequenceStep
  | .send step =>
      match sequenceSendStepSchema step with
      | .ok parsed => .ok (.send parsed)
      | .error _ => (legacySendStepSchema step).map .send
  | step => .ok step

theorem sequenceSendStepSchema_stable {step parsed : SequenceSendStep}
    (h : sequenceSendStepSchema step = .ok parsed) : sequenceSendStepSchema parsed = .ok parsed := by
  unfold sequenceSendStepSchema at h
  split at h
  · next hnone =>
      obtain rfl := Except.ok.inj h
      simp [sequenceSendStepSchema, hnone]
  · split at h
    · next hmailbox =>
        obtain rfl := Except.ok.inj h
        simp [sequenceSendStepSchema, stable hmailbox]
    · simp at h

/-- Parsing a parsed step again changes nothing. -/
theorem sequenceStepSchema_stable {step parsed : SequenceStep}
    (h : sequenceStepSchema step = .ok parsed) : sequenceStepSchema parsed = .ok parsed := by
  cases step with
  | send step =>
      cases hsend : sequenceSendStepSchema step with
      | error error => simp [sequenceStepSchema, hsend, Except.map] at h
      | ok sent =>
          obtain rfl : SequenceStep.send sent = parsed := by
            simpa [sequenceStepSchema, hsend, Except.map] using h
          simp [sequenceStepSchema, sequenceSendStepSchema_stable hsend, Except.map]
  | wait | waitUntil | condition | stop =>
      obtain rfl := Except.ok.inj h
      rfl

theorem storedSequenceStepSchema_of_strict {step parsed : SequenceStep}
    (h : sequenceStepSchema step = .ok parsed) : storedSequenceStepSchema parsed = .ok parsed := by
  cases step with
  | send step =>
      cases hsend : sequenceSendStepSchema step with
      | error error => simp [sequenceStepSchema, hsend, Except.map] at h
      | ok sent =>
          obtain rfl : SequenceStep.send sent = parsed := by
            simpa [sequenceStepSchema, hsend, Except.map] using h
          simp [storedSequenceStepSchema, sequenceSendStepSchema_stable hsend]
  | wait | waitUntil | condition | stop =>
      obtain rfl := Except.ok.inj h
      rfl

/-- Reading a stored step again changes nothing. -/
theorem storedSequenceStepSchema_stable {step parsed : SequenceStep}
    (h : storedSequenceStepSchema step = .ok parsed) :
    storedSequenceStepSchema parsed = .ok parsed := by
  cases step with
  | send step =>
      cases hsend : sequenceSendStepSchema step with
      | ok sent =>
          obtain rfl : SequenceStep.send sent = parsed := by
            simpa [storedSequenceStepSchema, hsend] using h
          simp [storedSequenceStepSchema, sequenceSendStepSchema_stable hsend]
      | error error =>
          cases hfrom : step.fromEmail with
          | none => simp [sequenceSendStepSchema, hfrom] at hsend
          | some fromEmail =>
              by_cases hempty : Text.trim fromEmail = []
              · simp [storedSequenceStepSchema, hsend, legacySendStepSchema, hfrom, hempty,
                  Except.map] at h
              · obtain rfl : SequenceStep.send
                    { step with fromEmail := some (Text.trim fromEmail) } = parsed := by
                  simpa [storedSequenceStepSchema, hsend, legacySendStepSchema, hfrom, hempty,
                    Except.map] using h
                cases hmailbox : transactionalFromEmailSchema (Text.trim fromEmail) with
                | none =>
                    simp [storedSequenceStepSchema, sequenceSendStepSchema, hmailbox,
                      legacySendStepSchema, hempty, Except.map]
                | some mailbox =>
                    have htrim : mailbox = Text.trim fromEmail := by
                      simpa using eq_trim hmailbox
                    simp [storedSequenceStepSchema, sequenceSendStepSchema, hmailbox, htrim]
  | wait | waitUntil | condition | stop =>
      obtain rfl := Except.ok.inj h
      rfl

end Schemas

/-! ## The topology of a revision -/

/-- The position `findIndex` reports, for a step that is there. -/
def stepIndex (steps : List SequenceStep) (id : StepId) : Option ℕ :=
  steps.findIdx? fun candidate => candidate.id = id

def duplicateStepId (seen : List StepId) : List SequenceStep → Option StepId
  | [] => none
  | step :: rest =>
      if step.id ∈ seen then some step.id else duplicateStepId (step.id :: seen) rest

/-- What is wrong with one step of a revision. -/
def stepTopologyError (parsed : List SequenceStep) (step : SequenceStep) : Option Text :=
  let index := stepIndex parsed step.id
  match step.waitType with
  | some type =>
      if index.map (· + 1) = some parsed.length then
        some (("Sequence " : Text) ++ type ++ (" step " : Text) ++ step.id ++
          (" must be followed by another step" : Text))
      else none
  | none =>
      match step with
      | .condition condition =>
          [condition.onTrue, condition.onFalse].findSome? fun target =>
            match stepIndex parsed target with
            | none =>
                some (("Condition step " : Text) ++ step.id ++
                  (" references missing step: " : Text) ++ target)
            | some targetIndex =>
                if index.any (targetIndex ≤ ·) then
                  some (("Condition step " : Text) ++ step.id ++
                    (" must branch to a later step: " : Text) ++ target)
                else none
      | _ => none

def validateSequenceStepTopology (parsed : List SequenceStep) :
    Except SequenceError (List SequenceStep) :=
  match duplicateStepId [] parsed with
  | some id => .error (.conflict (("Sequence step ID must be unique: " : Text) ++ id))
  | none =>
      match parsed.findSome? (stepTopologyError parsed) with
      | some message => .error (.conflict message)
      | none => .ok parsed

/-- The order a validated revision has: distinct identifiers, waits followed by
a step, conditions that branch forward. -/
structure WellOrdered (steps : List SequenceStep) : Prop where
  distinct : (steps.map SequenceStep.id).Nodup
  wait_followed : ∀ (i : ℕ) (step : SequenceStep), steps[i]? = some step →
    step.waitType ≠ none → i + 1 < steps.length
  branches_forward : ∀ (i : ℕ) (condition : SequenceConditionStep),
    steps[i]? = some (.condition condition) →
      ∀ target ∈ [condition.onTrue, condition.onFalse],
        ∃ (j : ℕ) (step : SequenceStep), i < j ∧ steps[j]? = some step ∧ step.id = target

theorem nodup_of_duplicateStepId {seen : List StepId} {steps : List SequenceStep}
    (h : duplicateStepId seen steps = none) :
    (steps.map SequenceStep.id).Nodup ∧ ∀ step ∈ steps, step.id ∉ seen := by
  induction steps generalizing seen with
  | nil => simp
  | cons step rest ih =>
      rw [duplicateStepId] at h
      split at h
      · simp at h
      · next hnew =>
          obtain ⟨hdistinct, hunseen⟩ := ih h
          simp only [List.mem_cons, not_or] at hunseen
          constructor
          · rw [List.map_cons, List.nodup_cons]
            refine ⟨fun hmem => ?_, hdistinct⟩
            obtain ⟨other, hother, hid⟩ := List.mem_map.mp hmem
            exact (hunseen other hother).1 hid
          · intro other hother
            rcases List.mem_cons.mp hother with rfl | hrest
            · exact hnew
            · exact (hunseen other hrest).2

theorem stepIndex_eq_some_iff {steps : List SequenceStep} {id : StepId} {i : ℕ}
    (distinct : (steps.map SequenceStep.id).Nodup) :
    stepIndex steps id = some i ↔ ∃ step, steps[i]? = some step ∧ step.id = id := by
  unfold stepIndex
  rw [List.findIdx?_eq_some_iff_getElem]
  constructor
  · rintro ⟨hi, hid, -⟩
    exact ⟨steps[i], List.getElem?_eq_getElem hi, by simpa using hid⟩
  · rintro ⟨step, hstep, rfl⟩
    obtain ⟨hi, rfl⟩ := List.getElem?_eq_some_iff.mp hstep
    refine ⟨hi, by simp, fun j hj hid => ?_⟩
    have hlengths : j < (steps.map SequenceStep.id).length ∧
        i < (steps.map SequenceStep.id).length := by simp; omega
    have hsame : (steps.map SequenceStep.id).get ⟨j, hlengths.1⟩ =
        (steps.map SequenceStep.id).get ⟨i, hlengths.2⟩ := by
      simpa using hid
    have := (List.Nodup.getElem_inj_iff distinct).mp hsame
    omega

/-- A validated revision is well ordered, and validation changes nothing. -/
theorem validateSequenceStepTopology_eq_ok {steps parsed : List SequenceStep}
    (h : validateSequenceStepTopology steps = .ok parsed) :
    parsed = steps ∧ WellOrdered steps := by
  unfold validateSequenceStepTopology at h
  split at h
  · simp at h
  · next hduplicate =>
      split at h
      · simp at h
      · next htopology =>
          obtain ⟨hdistinct, -⟩ := nodup_of_duplicateStepId hduplicate
          rw [List.findSome?_eq_none_iff] at htopology
          have hindex : ∀ {i : ℕ} {step : SequenceStep}, steps[i]? = some step →
              stepIndex steps step.id = some i := fun {i step} hstep =>
            (stepIndex_eq_some_iff hdistinct).mpr ⟨step, hstep, rfl⟩
          refine ⟨(Except.ok.inj h).symm, hdistinct, ?_, ?_⟩
          · intro i step hstep hwait
            have hvalid := htopology step (List.mem_of_getElem? hstep)
            obtain ⟨type, htype⟩ := Option.ne_none_iff_exists'.mp hwait
            simp only [stepTopologyError, htype, hindex hstep, Option.map_some,
              Option.some.injEq, ite_eq_right_iff, reduceCtorEq, imp_false] at hvalid
            have := (List.getElem?_eq_some_iff.mp hstep).1
            omega
          · intro i condition hstep target htarget
            have hvalid := htopology _ (List.mem_of_getElem? hstep)
            simp only [stepTopologyError, SequenceStep.waitType, hindex hstep,
              List.findSome?_eq_none_iff] at hvalid
            have hbranch := hvalid target htarget
            cases hfound : stepIndex steps target with
            | none => simp [hfound] at hbranch
            | some j =>
                obtain ⟨step, hj, hid⟩ := (stepIndex_eq_some_iff hdistinct).mp hfound
                refine ⟨j, step, ?_, hj, hid⟩
                simpa [hfound] using hbranch

/-! ## Definitions -/

structure SequenceRevision where
  revision : ℕ
  steps : List SequenceStep
  createdAt : DateTime

inductive SequenceDefinitionStatus where
  | active
  | paused
  deriving DecidableEq

structure SequenceDefinition where
  id : Text
  name : Text
  description : Option Text := none
  status : SequenceDefinitionStatus
  currentRevision : ℕ
  revisions : List SequenceRevision
  createdAt : DateTime
  updatedAt : DateTime

/-- `SequenceDefinition.revisions.find` by number. -/
def SequenceDefinition.findRevision (definition : SequenceDefinition) (revision : ℕ) :
    Option SequenceRevision :=
  definition.revisions.find? fun candidate => candidate.revision = revision

/-- `z.number().int().positive()`. -/
def isPositiveInt (n : ℕ) : Bool := 0 < n && n ≤ maxSafeInteger

/-- The fields of a revision next to its steps. -/
def revisionFields (revision : SequenceRevision) : Bool :=
  isPositiveInt revision.revision && !revision.steps.isEmpty &&
    isoDateTimeSchema revision.createdAt

/-- `revisionSchema` and `storedRevisionSchema`, by the schema of their steps. -/
def parseRevision (stepSchema : SequenceStep → Except SequenceError SequenceStep)
    (revision : SequenceRevision) : Except SequenceError SequenceRevision := do
  let steps ← revision.steps.mapM stepSchema
  require (revisionFields { revision with steps })
  return { revision with steps }

/-- The fields of a definition, after its texts were trimmed. -/
def definitionFields (definition : SequenceDefinition) : Bool :=
  isUuid definition.id &&
    1 ≤ definition.name.length && definition.name.length ≤ 120 &&
    definition.description.all (·.length ≤ 500) &&
    isPositiveInt definition.currentRevision &&
    isoDateTimeSchema definition.createdAt && isoDateTimeSchema definition.updatedAt &&
    !definition.revisions.isEmpty

/-- `definitionSchema` and `storedDefinitionSchema`, by the schema of their steps. -/
def definitionSchema (stepSchema : SequenceStep → Except SequenceError SequenceStep)
    (definition : SequenceDefinition) : Except SequenceError SequenceDefinition := do
  let revisions ← definition.revisions.mapM (parseRevision stepSchema)
  let parsed :=
    { definition with
      name := Text.trim definition.name
      description := definition.description.map Text.trim
      revisions }
  require (definitionFields parsed)
  return parsed

def validateSequenceDefinitionHistory (parsed : SequenceDefinition) :
    Except SequenceError SequenceDefinition := do
  let revisionNumbers := parsed.revisions.map (·.revision)
  if ¬ revisionNumbers.Nodup ∨ parsed.currentRevision ∉ revisionNumbers then
    .error (.conflict (("Sequence " : Text) ++ parsed.id ++
      (" has an invalid revision history" : Text)))
  else
    let _ ← parsed.revisions.mapM fun revision => do
      let _ ← validateSequenceStepTopology revision.steps
      return revision
    return parsed

section Parsing

variable [MailboxContract]

def parseSequenceDefinition (value : SequenceDefinition) :
    Except SequenceError SequenceDefinition :=
  definitionSchema sequenceStepSchema value >>= validateSequenceDefinitionHistory

def parsePersistedSequenceDefinition (value : SequenceDefinition) :
    Except SequenceError SequenceDefinition :=
  definitionSchema storedSequenceStepSchema value >>= validateSequenceDefinitionHistory

def validateSequenceSteps (steps : List SequenceStep) :
    Except SequenceError (List SequenceStep) := do
  require !steps.isEmpty
  let parsed ← steps.mapM sequenceStepSchema
  validateSequenceStepTopology parsed

structure CreateSequenceDefinitionInput where
  id : Option Text := none
  name : Text
  description : Option Text := none
  steps : List SequenceStep

/-- `createSequenceDefinition`, with the UUID it would draw. -/
def createSequenceDefinition (input : CreateSequenceDefinitionInput) (newId : Text) (now : ℤ) :
    Except SequenceError SequenceDefinition := do
  let steps ← validateSequenceSteps input.steps
  let createdAt ← timestamp now
  parseSequenceDefinition
    { id := input.id.getD newId
      name := input.name
      description := input.description
      status := .active
      currentRevision := 1
      revisions := [{ revision := 1, steps, createdAt }]
      createdAt
      updatedAt := createdAt }

end Parsing

/-! ### What a parsed definition is -/

section Parsed

variable {value parsed : SequenceDefinition}
variable {stepSchema stepSchema' : SequenceStep → Except SequenceError SequenceStep}

theorem parseRevision_eq_ok {revision result : SequenceRevision}
    (h : parseRevision stepSchema revision = .ok result) :
    ∃ steps, revision.steps.mapM stepSchema = .ok steps ∧ result = { revision with steps } ∧
      revisionFields result = true := by
  obtain ⟨steps, hsteps, h⟩ := except_bind_eq_ok.mp h
  obtain ⟨hfields, hresult⟩ := require_bind_eq_ok.mp h
  obtain rfl := Except.ok.inj hresult
  exact ⟨steps, hsteps, rfl, hfields⟩

theorem parseRevision_stable (hstable : ∀ {x y}, stepSchema x = .ok y → stepSchema' y = .ok y)
    {revision result : SequenceRevision} (h : parseRevision stepSchema revision = .ok result) :
    parseRevision stepSchema' result = .ok result := by
  obtain ⟨steps, hsteps, rfl, hfields⟩ := parseRevision_eq_ok h
  exact except_bind_eq_ok.mpr ⟨steps, mapM_stable hstable hsteps,
    require_bind_eq_ok.mpr ⟨hfields, rfl⟩⟩

theorem definitionSchema_eq_ok (h : definitionSchema stepSchema value = .ok parsed) :
    ∃ revisions, value.revisions.mapM (parseRevision stepSchema) = .ok revisions ∧
      parsed =
        { value with
          name := Text.trim value.name
          description := value.description.map Text.trim
          revisions } ∧
      definitionFields parsed = true := by
  obtain ⟨revisions, hrevisions, h⟩ := except_bind_eq_ok.mp h
  obtain ⟨hfields, hresult⟩ := require_bind_eq_ok.mp h
  obtain rfl := Except.ok.inj hresult
  exact ⟨revisions, hrevisions, rfl, hfields⟩

theorem definitionSchema_stable (hstable : ∀ {x y}, stepSchema x = .ok y → stepSchema' y = .ok y)
    (h : definitionSchema stepSchema value = .ok parsed) :
    definitionSchema stepSchema' parsed = .ok parsed := by
  obtain ⟨revisions, hrevisions, rfl, hfields⟩ := definitionSchema_eq_ok h
  refine except_bind_eq_ok.mpr ⟨revisions, mapM_stable (parseRevision_stable hstable) hrevisions,
    ?_⟩
  simp only [Text.trim_trim, Option.map_map, Function.comp_def]
  exact require_bind_eq_ok.mpr ⟨hfields, rfl⟩

/-- A valid history: the numbers are distinct, the current one among them, and
every revision is well ordered. -/
theorem validateSequenceDefinitionHistory_eq_ok
    (h : validateSequenceDefinitionHistory value = .ok parsed) :
    parsed = value ∧ (value.revisions.map (·.revision)).Nodup ∧
      value.currentRevision ∈ value.revisions.map (·.revision) ∧
      ∀ revision ∈ value.revisions, WellOrdered revision.steps := by
  unfold validateSequenceDefinitionHistory at h
  dsimp only at h
  split at h
  · simp at h
  · next hnumbers =>
      push Not at hnumbers
      obtain ⟨checked, hchecked, h⟩ := except_bind_eq_ok.mp h
      refine ⟨(Except.ok.inj h).symm, hnumbers.1, hnumbers.2, fun revision hrevision => ?_⟩
      obtain ⟨i, hi, rfl⟩ := List.mem_iff_getElem.mp hrevision
      have hforall := mapM_eq_ok_iff.mp hchecked
      have hlength := hforall.length_eq
      have hcheck := List.forall₂_iff_get.mp hforall |>.2 i hi (by omega)
      obtain ⟨steps, hsteps, -⟩ := except_bind_eq_ok.mp hcheck
      exact (validateSequenceStepTopology_eq_ok hsteps).2

theorem definitionSchema_of_revisions (h : definitionSchema stepSchema value = .ok parsed)
    (hrevisions : ∀ revision ∈ value.revisions, parseRevision stepSchema revision = .ok revision) :
    parsed =
      { value with
        name := Text.trim value.name
        description := value.description.map Text.trim } := by
  obtain ⟨revisions, hparsed, rfl, -⟩ := definitionSchema_eq_ok h
  rw [mapM_eq_self_iff.mpr hrevisions] at hparsed
  obtain rfl := Except.ok.inj hparsed
  rfl

theorem parseRevision_of_mem {revision : SequenceRevision}
    (h : definitionSchema stepSchema parsed = .ok parsed) (hrevision : revision ∈ parsed.revisions) :
    parseRevision stepSchema revision = .ok revision := by
  obtain ⟨revisions, hrevisions, hsame, -⟩ := definitionSchema_eq_ok h
  have hself : parsed.revisions = revisions := congrArg SequenceDefinition.revisions hsame
  rw [← hself] at hrevisions
  exact mapM_eq_self_iff.mp hrevisions revision hrevision

variable [MailboxContract]

/-- A definition as it is stored: reading it changes nothing. -/
def SequenceDefinition.Stored (definition : SequenceDefinition) : Prop :=
  parsePersistedSequenceDefinition definition = .ok definition

theorem stored_of_parseSequenceDefinition (h : parseSequenceDefinition value = .ok parsed) :
    parsed.Stored := by
  obtain ⟨schema, hschema, hhistory⟩ := except_bind_eq_ok.mp h
  obtain ⟨rfl, -⟩ := validateSequenceDefinitionHistory_eq_ok hhistory
  exact except_bind_eq_ok.mpr
    ⟨parsed, definitionSchema_stable storedSequenceStepSchema_of_strict hschema, hhistory⟩

theorem stored_of_parsePersistedSequenceDefinition
    (h : parsePersistedSequenceDefinition value = .ok parsed) : parsed.Stored := by
  obtain ⟨schema, hschema, hhistory⟩ := except_bind_eq_ok.mp h
  obtain ⟨rfl, -⟩ := validateSequenceDefinitionHistory_eq_ok hhistory
  exact except_bind_eq_ok.mpr
    ⟨parsed, definitionSchema_stable storedSequenceStepSchema_stable hschema, hhistory⟩

namespace SequenceDefinition.Stored

variable {definition : SequenceDefinition} (h : definition.Stored)
include h

theorem schema : definitionSchema storedSequenceStepSchema definition = .ok definition := by
  obtain ⟨schema, hschema, hhistory⟩ := except_bind_eq_ok.mp h
  obtain ⟨rfl, -⟩ := validateSequenceDefinitionHistory_eq_ok hhistory
  exact hschema

theorem history : validateSequenceDefinitionHistory definition = .ok definition := by
  obtain ⟨schema, hschema, hhistory⟩ := except_bind_eq_ok.mp h
  obtain ⟨rfl, -⟩ := validateSequenceDefinitionHistory_eq_ok hhistory
  exact hhistory

theorem fields : definitionFields definition = true := by
  obtain ⟨revisions, -, hsame, hfields⟩ := definitionSchema_eq_ok h.schema
  exact hfields

theorem name_trimmed : Text.trim definition.name = definition.name := by
  obtain ⟨revisions, -, hsame, -⟩ := definitionSchema_eq_ok h.schema
  exact (congrArg SequenceDefinition.name hsame).symm

theorem numbers_distinct : (definition.revisions.map (·.revision)).Nodup :=
  (validateSequenceDefinitionHistory_eq_ok h.history).2.1

theorem wellOrdered {revision : SequenceRevision} (hrevision : revision ∈ definition.revisions) :
    WellOrdered revision.steps :=
  (validateSequenceDefinitionHistory_eq_ok h.history).2.2.2 revision hrevision

/-- A number finds exactly the revision that carries it. -/
theorem findRevision_eq_some_iff {revision : SequenceRevision} {n : ℕ} :
    definition.findRevision n = some revision ↔
      revision ∈ definition.revisions ∧ revision.revision = n :=
  find?_key_eq_some_iff h.numbers_distinct

end SequenceDefinition.Stored

/-- What `createSequenceDefinition` returns: an active definition with one
revision, numbered 1. -/
theorem createSequenceDefinition_eq_ok {input : CreateSequenceDefinitionInput} {newId : Text}
    {now : ℤ} (h : createSequenceDefinition input newId now = .ok parsed) :
    ∃ revision, parseSequenceDefinition parsed = .ok parsed ∧ parsed.id = input.id.getD newId ∧
      parsed.currentRevision = 1 ∧ parsed.revisions = [revision] ∧ revision.revision = 1 := by
  obtain ⟨steps, hsteps, h⟩ := except_bind_eq_ok.mp h
  obtain ⟨createdAt, hcreated, h⟩ := except_bind_eq_ok.mp h
  obtain ⟨schema, hschema, hhistory⟩ := except_bind_eq_ok.mp h
  obtain ⟨rfl, -⟩ := validateSequenceDefinitionHistory_eq_ok hhistory
  have hstrict : ∀ {x y}, sequenceStepSchema x = .ok y → sequenceStepSchema y = .ok y :=
    sequenceStepSchema_stable
  have hagain := definitionSchema_stable hstrict hschema
  obtain ⟨revisions, hrevisions, hparsed, -⟩ := definitionSchema_eq_ok hschema
  obtain ⟨revision, rest, hrevision, hrest, rfl⟩ :=
    List.forall₂_cons_left_iff.mp (mapM_eq_ok_iff.mp hrevisions)
  obtain rfl := List.forall₂_nil_left_iff.mp hrest
  obtain ⟨parsedSteps, -, rfl, -⟩ := parseRevision_eq_ok hrevision
  exact ⟨_, except_bind_eq_ok.mpr ⟨parsed, hagain, hhistory⟩, by rw [hparsed], by rw [hparsed],
    by rw [hparsed], rfl⟩

end Parsed

end ListmonkOps.Sequence
