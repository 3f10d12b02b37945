/-
Workers and operators over one repository and one idempotency store.

A tick claims enrollments and executes each claim as a task of its own: look the
subscriber up, claim the idempotency record, dispatch, settle the record,
complete the claim. An operator who resolves an ambiguous enrollment reads it
and its definition, loads the record, updates the repository and then the
record. The steps of all of them interleave in any order and at any time; a
crash is a task or a resolution that takes no further step.
-/

import ListmonkOps.Sequence.Attempts

namespace ListmonkOps.Sequence

open ListmonkOps.Math ListmonkOps.Runtime ListmonkOps.Transactional

/-! ## The step a message belongs to -/

/-- An enrollment, the revision it pins, and a step. -/
structure StepRef where
  enrollmentId : Text
  revision : ℕ
  stepId : StepId
  deriving DecidableEq

def SequenceEnrollment.stepRef (enrollment : SequenceEnrollment) : StepRef :=
  ⟨enrollment.id, enrollment.revision, enrollment.currentStepId⟩

/-- The key `deterministicSendKey` gives to the messages of a step. -/
def StepRef.key (ref : StepRef) : Text :=
  ("sequence:" : Text) ++ ref.enrollmentId ++ (":revision:" : Text) ++
    Text.ofNat ref.revision ++ (":step:" : Text) ++ ref.stepId

theorem deterministicSendKey_eq (enrollment : SequenceEnrollment) :
    deterministicSendKey enrollment = enrollment.stepRef.key := rfl

/-- The key names the step: an identifier of an enrollment and a number contain no
colon. -/
theorem StepRef.key_injective {ref ref' : StepRef} (hid : isUuid ref.enrollmentId = true)
    (hid' : isUuid ref'.enrollmentId = true) (h : ref.key = ref'.key) : ref = ref' := by
  obtain ⟨id, revision, stepId⟩ := ref
  obtain ⟨id', revision', stepId'⟩ := ref'
  have hsplit : ∀ (id number step : Text), ("sequence:" : Text) ++ id ++ (":revision:" : Text) ++
      number ++ (":step:" : Text) ++ step = ("sequence:" : Text) ++ (id ++ 58 ::
        (("revision:" : Text) ++ (number ++ 58 :: (("step:" : Text) ++ step)))) := by
    intro id number step
    have hrevision : (":revision:" : Text) = 58 :: ("revision:" : Text) := by decide
    have hstep : (":step:" : Text) = 58 :: ("step:" : Text) := by decide
    simp [hrevision, hstep]
  rw [key, key, hsplit, hsplit, List.append_cancel_left_eq] at h
  obtain ⟨rfl, h⟩ := append_colon_inj (colon_not_mem_of_isUuid hid) (colon_not_mem_of_isUuid hid') h
  rw [List.append_cancel_left_eq] at h
  obtain ⟨hnumber, h⟩ := append_colon_inj (Text.colon_notMem_ofNat revision)
    (Text.colon_notMem_ofNat revision') h
  rw [List.append_cancel_left_eq] at h
  obtain rfl := Text.ofNat_injective hnumber
  obtain rfl : stepId = stepId' := Subtype.ext h
  rfl

/-! ## Tasks and operators -/

/-- How far the execution of a claim has come. -/
inductive TaskPhase where
  /-- On a send step, about to look the subscriber up. -/
  | lookingUp (payload : DispatchPayload)
  /-- The subscriber can receive: somewhere in `sendTransactionalMessage`. -/
  | sending (subscriber : Subscriber) (payload : DispatchPayload) (phase : SendPhase)
  /-- About to complete the claim, with the answers it has got. -/
  | completing (lookup : Except Thrown Subscriber) (result : Except Thrown SendTransactionalOutput)
  /-- Completed, or failed to. -/
  | finished

/-- The execution of a claim, named by its position among the granted claims. -/
structure EngineTask where
  claim : ℕ
  claimed : ClaimedSequenceEnrollment
  context : TransactionalContext
  phase : TaskPhase

def EngineTask.ref (task : EngineTask) : StepRef := task.claimed.enrollment.stepRef

/-- An answer that a task completes without. -/
def unasked {α : Type} : Except Thrown α := .error { message := [] }

section Phases

variable [MailboxContract] [CaseMapping]

/-- The first phase of a task: only a send step with a valid sender asks anybody. -/
def startPhase (claimed : ClaimedSequenceEnrollment) : TaskPhase :=
  match currentStep claimed with
  | some (.send step) =>
      match parseFromEmail step with
      | some fromEmail => .lookingUp (sendPayload claimed.enrollment step fromEmail)
      | none => .completing unasked unasked
  | _ => .completing unasked unasked

omit [MailboxContract] in
/-- The phase after the lookup of the subscriber. -/
def afterSubscriber (payload : DispatchPayload) (reply : Except Thrown Subscriber) : TaskPhase :=
  match reply with
  | .error error => .completing (.error error) unasked
  | .ok subscriber =>
      match subscriberCannotReceive subscriber with
      | some _ => .completing (.ok subscriber) unasked
      | none => .sending subscriber payload .claiming

end Phases

/-- The phase of a task whose send has come to a phase. -/
def ofSendPhase (subscriber : Subscriber) (payload : DispatchPayload) : SendPhase → TaskPhase
  | .finished result => .completing (.ok subscriber) result
  | phase => .sending subscriber payload phase

/-- How far a call of `reconcileAmbiguousSequenceEnrollment` has come. The
enrollment and the definition it has read are named by their position. -/
inductive OperatorPhase where
  | enrollmentRead (enrollment : ℕ)
  | definitionRead (enrollment definition : ℕ)
  | recordLoaded (enrollment definition : ℕ) (ref : StepRef) (record : TransactionalSendRecord)
  /-- The repository is updated, the record is not; a tick may have claimed the
  key since. -/
  | settling (ref : StepRef) (record : TransactionalSendRecord) (overtaken : Bool)
  | finished

/-- A call of `reconcileAmbiguousSequenceEnrollment`. -/
structure Operator where
  resolution : SequenceAmbiguousResolution
  now : ℤ
  phase : OperatorPhase

/-- A tick claims a key: a resolution of it that is not finished is overtaken. -/
def Operator.overtake (key : Text) (operator : Operator) : Operator :=
  match operator.phase with
  | .settling ref record overtaken =>
      { operator with phase := .settling ref record (overtaken || ref.key = key) }
  | _ => operator

/-- What the steps did, as far as it matters later. -/
inductive EngineEvent where
  /-- A message of a step was dispatched, and this is how that ended. -/
  | dispatched (ref : StepRef) (outcome : Except Thrown Bool)
  /-- An operator resolved a step in the repository. -/
  | resolved (ref : StepRef) (resolution : SequenceAmbiguousResolution)
  /-- An operator who had been overtaken went on to release the record. -/
  | releasedLate (ref : StepRef)
  /-- An operation of the idempotency store found these records expired. -/
  | expired (keys : List Text)
  deriving DecidableEq

/-- Repository, idempotency store, and everybody who uses them. -/
structure EngineWorld where
  repository : RecordedWorld := {}
  document : StoredTransactionalDocument := Table.empty _
  tasks : List EngineTask := []
  operators : List Operator := []
  /-- The claim tokens drawn so far. -/
  tokens : List Text := []
  events : List EngineEvent := []

/-- A step of a worker, an operator, or another client of the repository. -/
inductive EngineAction where
  | repository (action : RepositoryAction)
  | start (claim : ℕ) (context : TransactionalContext)
  | lookUp (task : ℕ) (reply : Except Thrown Subscriber)
  | claim (task : ℕ) (now : ℤ) (newClaimToken : Text) (fault : Option (StoreFault Thrown))
  | dispatch (task : ℕ) (reply : ClientReply)
  | settle (task : ℕ) (now : ℤ) (fault : Option (StoreFault Thrown))
  | complete (task : ℕ) (jitter : Option ℚ)
  | readEnrollment (id : Text) (resolution : SequenceAmbiguousResolution) (now : ℤ)
  | readDefinition (operator : ℕ)
  | loadRecord (operator : ℕ)
  | resolve (operator : ℕ)
  | settleResolution (operator : ℕ) (fault : Option (StoreFault Thrown))

/-- The repository calls that are not made by a task or an operator. -/
def RepositoryAction.isDirect : RepositoryAction → Bool
  | .completeClaim .. | .resolveAmbiguous .. => false
  | _ => true

/-- The errors of the client are not those of the sender. -/
def foreignLookup : Except Thrown Subscriber → Bool
  | .error error => error.isForeign
  | .ok _ => true

/-- The errors of the client, likewise. -/
def foreignReply : ClientReply → Bool
  | .rejected error => error.isForeign
  | .responded .. => true

/-- The errors of the file system, likewise. -/
def foreignFault : Option (StoreFault Thrown) → Bool
  | none => true
  | some (.beforeWrite error) | some (.afterWrite error) => error.isForeign

namespace EngineWorld

abbrev store (w : EngineWorld) : SequenceStore := w.repository.world.store

def setTask (w : EngineWorld) (i : ℕ) (task : EngineTask) (phase : TaskPhase) : EngineWorld :=
  { w with tasks := w.tasks.set i { task with phase } }

def setOperator (w : EngineWorld) (i : ℕ) (operator : Operator) (phase : OperatorPhase) :
    EngineWorld :=
  { w with operators := w.operators.set i { operator with phase } }

/-- The step of an operator that updates the idempotency store. -/
def applyResolution (operator : Operator) (key claimToken : Text)
    (document : StoredTransactionalDocument) :
    StoredTransactionalDocument × Except Thrown Unit :=
  match operator.resolution with
  | .sent =>
      commitTransactionalSend { key, claimToken, status := .accepted, sent := some true }
        operator.now document
  | .notSent => releaseTransactionalSend key claimToken operator.now document

def resolutionEvents (operator : Operator) (ref : StepRef) (overtaken : Bool)
    (document : StoredTransactionalDocument) : List EngineEvent :=
  .expired (expiredKeys document operator.now) ::
    if operator.resolution = .notSent ∧ overtaken then [.releasedLate ref] else []

variable [MailboxContract] [CaseMapping]

/-- Does the repository accept the resolution of an enrollment? -/
def acceptsResolution (store : SequenceStore) (enrollment : SequenceEnrollment)
    (definition : SequenceDefinition) (resolution : SequenceAmbiguousResolution) (now : ℤ) : Bool :=
  match ambiguousStep enrollment definition with
  | .error _ => false
  | .ok (revision, step) =>
      match resolvedEnrollment enrollment revision step resolution now with
      | .error _ => false
      | .ok next => (resolveAmbiguous enrollment next store).2.toOption.isSome

/-- The phase of an operator who has updated the repository: a record that is
accepted already is left alone. -/
def afterResolve (resolution : SequenceAmbiguousResolution) (ref : StepRef)
    (record : TransactionalSendRecord) : OperatorPhase :=
  if resolution = .sent ∧ record.status = .accepted then .finished
  else .settling ref record false

/-- One step; `none` where it is not possible. -/
def step (w : EngineWorld) : EngineAction → Option EngineWorld
  | .repository action =>
      if action.isDirect then do
        let repository ← w.repository.step action
        return { w with repository }
      else none
  | .start claim context => do
      let (claimed, _) ← w.repository.world.claims[claim]?
      if w.tasks.all (·.claim ≠ claim) then
        return { w with
          tasks := w.tasks ++ [{ claim, claimed, context, phase := startPhase claimed }] }
      else none
  | .lookUp i reply => do
      let task ← w.tasks[i]?
      match task.phase with
      | .lookingUp payload =>
          if foreignLookup reply then some (w.setTask i task (afterSubscriber payload reply))
          else none
      | _ => none
  | .claim i now newClaimToken fault => do
      let task ← w.tasks[i]?
      match task.phase with
      | .sending subscriber payload .claiming =>
          if newClaimToken ∉ w.tokens ∧ foreignFault fault then
            let options := sendClaimOptions task.context payload task.ref.key
            let (document, result) :=
              withFault fault (claimTransactionalSend options now newClaimToken) w.document
            some { w.setTask i task
                (ofSendPhase subscriber payload (afterClaim task.ref.key result)) with
              document
              operators := w.operators.map (Operator.overtake task.ref.key)
              tokens := newClaimToken :: w.tokens
              events := w.events ++ [.expired (expiredKeys w.document now)] }
          else none
      | _ => none
  | .dispatch i reply => do
      let task ← w.tasks[i]?
      match task.phase with
      | .sending subscriber payload (.dispatching record) =>
          if foreignReply reply then
            let outcome := dispatchToListmonk reply
            some { w.setTask i task
                (.sending subscriber payload (afterDispatch task.ref.key record outcome)) with
              events := w.events ++ [.dispatched task.ref outcome] }
          else none
      | _ => none
  | .settle i now fault => do
      let task ← w.tasks[i]?
      match task.phase with
      | .sending subscriber _ (.settling record settlement result) =>
          let (document, _) :=
            withFault fault (settlement.apply task.ref.key record.claimToken now) w.document
          some { w.setTask i task (.completing (.ok subscriber) result) with
            document
            events := w.events ++ [.expired (expiredKeys w.document now)] }
      | _ => none
  | .complete i jitter => do
      let task ← w.tasks[i]?
      match task.phase with
      | .completing lookup result => do
          let repository ← w.repository.step (.completeClaim task.claim lookup result jitter)
          return { w.setTask i task .finished with repository }
      | _ => none
  | .readEnrollment id resolution now => do
      let repository ← w.repository.step (.getEnrollment id)
      match getEnrollment id w.store with
      | .error _ => return { w with repository }
      | .ok enrollment =>
          if enrollment.status = .ambiguous then
            let phase := OperatorPhase.enrollmentRead w.repository.world.read.length
            return { w with repository, operators := w.operators ++ [{ resolution, now, phase }] }
          else return { w with repository }
  | .readDefinition i => do
      let operator ← w.operators[i]?
      match operator.phase with
      | .enrollmentRead enrollment => do
          let snapshot ← w.repository.world.read[enrollment]?
          let repository ← w.repository.step (.getDefinition snapshot.sequenceId)
          match getDefinition snapshot.sequenceId w.store with
          | .error _ => return { w.setOperator i operator .finished with repository }
          | .ok _ =>
              let definition := w.repository.world.returned.length
              return { w.setOperator i operator (.definitionRead enrollment definition) with
                repository }
      | _ => none
  | .loadRecord i => do
      let operator ← w.operators[i]?
      match operator.phase with
      | .definitionRead enrollment definition => do
          let snapshot ← w.repository.world.read[enrollment]?
          let ref := snapshot.stepRef
          match reconcilableRecord ref.key (w.document.get? ref.key) operator.resolution with
          | .error _ => return w.setOperator i operator .finished
          | .ok record =>
              return w.setOperator i operator (.recordLoaded enrollment definition ref record)
      | _ => none
  | .resolve i => do
      let operator ← w.operators[i]?
      match operator.phase with
      | .recordLoaded enrollment definition ref record => do
          let snapshot ← w.repository.world.read[enrollment]?
          let known ← w.repository.world.returned[definition]?
          let repository ← w.repository.step
            (.resolveAmbiguous enrollment definition operator.resolution operator.now)
          if acceptsResolution w.store snapshot known operator.resolution operator.now then
            return { w.setOperator i operator (afterResolve operator.resolution ref record) with
              repository
              events := w.events ++ [.resolved ref operator.resolution] }
          else return { w.setOperator i operator .finished with repository }
      | _ => none
  | .settleResolution i fault => do
      let operator ← w.operators[i]?
      match operator.phase with
      | .settling ref record overtaken =>
          let (document, _) :=
            withFault fault (applyResolution operator ref.key record.claimToken) w.document
          some { w.setOperator i operator .finished with
            document
            events := w.events ++ resolutionEvents operator ref overtaken w.document }
      | _ => none

/-- The step relation of workers and operators. -/
def Step (w : EngineWorld) (action : EngineAction) (w' : EngineWorld) : Prop :=
  w.step action = some w'

/-! ## What a step does -/

omit [MailboxContract] [CaseMapping] in
theorem claim_error_isForeign {fault : Option (StoreFault Thrown)} {options : ClaimOptions}
    {now : ℤ} {token : Text} {document : StoredTransactionalDocument} {error : Thrown}
    (hforeign : foreignFault fault = true)
    (h : (withFault fault (claimTransactionalSend options now token) document).2 = .error error) :
    error.isForeign = true := by
  rcases fault with - | (failure | failure)
  · exact claimTransactionalSend_error_isForeign h
  · obtain rfl := Except.error.inj h
    exact hforeign
  · obtain rfl := Except.error.inj h
    exact hforeign

/-- Everything a step can do: a call of another client of the repository, a step of a task from
its start to its completion, or a step of an operator. -/
inductive Moves (w : EngineWorld) : EngineAction → EngineWorld → Prop
  | repository {action : RepositoryAction} {repository : RecordedWorld}
      (direct : action.isDirect = true) (called : w.repository.Step action repository) :
      Moves w (.repository action) { w with repository }
  | start {claim : ℕ} {context : TransactionalContext} {claimed : ClaimedSequenceEnrollment} {now : ℤ}
      (granted : w.repository.world.claims[claim]? = some (claimed, now))
      (unstarted : ∀ task ∈ w.tasks, task.claim ≠ claim) :
      Moves w (.start claim context) { w with
        tasks := w.tasks ++ [{ claim, claimed, context, phase := startPhase claimed }] }
  | lookUp {i : ℕ} {reply : Except Thrown Subscriber} {task : EngineTask} {payload : DispatchPayload}
      (found : w.tasks[i]? = some task) (phase : task.phase = .lookingUp payload)
      (foreign : foreignLookup reply = true) :
      Moves w (.lookUp i reply) (w.setTask i task (afterSubscriber payload reply))
  | claim {i : ℕ} {now : ℤ} {token : Text} {fault : Option (StoreFault Thrown)} {task : EngineTask}
      {subscriber : Subscriber} {payload : DispatchPayload}
      {document : StoredTransactionalDocument} {result : Except Thrown TransactionalClaimResult}
      (found : w.tasks[i]? = some task) (phase : task.phase = .sending subscriber payload .claiming)
      (fresh : token ∉ w.tokens) (foreign : foreignFault fault = true)
      (called : withFault fault
        (claimTransactionalSend (sendClaimOptions task.context payload task.ref.key) now token)
          w.document = (document, result))
      (effect : ClaimEffect (sendClaimOptions task.context payload task.ref.key) now token
        w.document document result)
      (plain : ∀ error, result = .error error → error.isForeign = true) :
      Moves w (.claim i now token fault) { w.setTask i task
          (ofSendPhase subscriber payload (afterClaim task.ref.key result)) with
        document
        operators := w.operators.map (Operator.overtake task.ref.key)
        tokens := token :: w.tokens
        events := w.events ++ [.expired (expiredKeys w.document now)] }
  | dispatch {i : ℕ} {reply : ClientReply} {task : EngineTask} {subscriber : Subscriber}
      {payload : DispatchPayload} {record : TransactionalSendRecord}
      (found : w.tasks[i]? = some task)
      (phase : task.phase = .sending subscriber payload (.dispatching record))
      (foreign : foreignReply reply = true) :
      Moves w (.dispatch i reply) { w.setTask i task (.sending subscriber payload
          (afterDispatch task.ref.key record (dispatchToListmonk reply))) with
        events := w.events ++ [.dispatched task.ref (dispatchToListmonk reply)] }
  | settle {i : ℕ} {now : ℤ} {fault : Option (StoreFault Thrown)} {task : EngineTask}
      {subscriber : Subscriber} {payload : DispatchPayload} {record : TransactionalSendRecord}
      {settlement : Settlement} {result : Except Thrown SendTransactionalOutput}
      {document : StoredTransactionalDocument} {seen : Except Thrown Unit}
      (found : w.tasks[i]? = some task)
      (phase : task.phase = .sending subscriber payload (.settling record settlement result))
      (applied : withFault fault (settlement.apply task.ref.key record.claimToken now) w.document =
        (document, seen)) :
      Moves w (.settle i now fault) { w.setTask i task (.completing (.ok subscriber) result) with
        document
        events := w.events ++ [.expired (expiredKeys w.document now)] }
  | complete {i : ℕ} {jitter : Option ℚ} {task : EngineTask} {lookup : Except Thrown Subscriber}
      {result : Except Thrown SendTransactionalOutput} {repository : RecordedWorld}
      (found : w.tasks[i]? = some task) (phase : task.phase = .completing lookup result)
      (called : w.repository.Step (.completeClaim task.claim lookup result jitter) repository) :
      Moves w (.complete i jitter) { w.setTask i task .finished with repository }
  | readNothing {id : Text} {resolution : SequenceAmbiguousResolution} {now : ℤ}
      {repository : RecordedWorld} (called : w.repository.Step (.getEnrollment id) repository) :
      Moves w (.readEnrollment id resolution now) { w with repository }
  | readEnrollment {id : Text} {resolution : SequenceAmbiguousResolution} {now : ℤ}
      {repository : RecordedWorld} (called : w.repository.Step (.getEnrollment id) repository) :
      Moves w (.readEnrollment id resolution now) { w with
        repository
        operators := w.operators ++
          [{ resolution, now, phase := .enrollmentRead w.repository.world.read.length }] }
  | readDefinition {i : ℕ} {operator : Operator} {enrollment : ℕ} {id : Text}
      {repository : RecordedWorld} {phase' : OperatorPhase} (found : w.operators[i]? = some operator)
      (phase : operator.phase = .enrollmentRead enrollment)
      (called : w.repository.Step (.getDefinition id) repository)
      (next : phase' = .finished ∨
        phase' = .definitionRead enrollment w.repository.world.returned.length) :
      Moves w (.readDefinition i) { w.setOperator i operator phase' with repository }
  | loadNothing {i : ℕ} {operator : Operator} {enrollment definition : ℕ}
      (found : w.operators[i]? = some operator)
      (phase : operator.phase = .definitionRead enrollment definition) :
      Moves w (.loadRecord i) (w.setOperator i operator .finished)
  | loadRecord {i : ℕ} {operator : Operator} {enrollment definition : ℕ}
      {snapshot : SequenceEnrollment} {record : TransactionalSendRecord}
      (found : w.operators[i]? = some operator)
      (phase : operator.phase = .definitionRead enrollment definition)
      (read : w.repository.world.read[enrollment]? = some snapshot)
      (loaded : reconcilableRecord snapshot.stepRef.key (w.document.get? snapshot.stepRef.key)
        operator.resolution = .ok record) :
      Moves w (.loadRecord i) (w.setOperator i operator
        (.recordLoaded enrollment definition snapshot.stepRef record))
  | resolveRefused {i : ℕ} {operator : Operator} {enrollment definition : ℕ} {ref : StepRef}
      {record : TransactionalSendRecord} {snapshot : SequenceEnrollment}
      {known : SequenceDefinition} {repository : RecordedWorld}
      (found : w.operators[i]? = some operator)
      (phase : operator.phase = .recordLoaded enrollment definition ref record)
      (read : w.repository.world.read[enrollment]? = some snapshot)
      (returned : w.repository.world.returned[definition]? = some known)
      (called : w.repository.Step
        (.resolveAmbiguous enrollment definition operator.resolution operator.now) repository)
      (refused : acceptsResolution w.store snapshot known operator.resolution operator.now = false) :
      Moves w (.resolve i) { w.setOperator i operator .finished with repository }
  | resolve {i : ℕ} {operator : Operator} {enrollment definition : ℕ} {ref : StepRef}
      {record : TransactionalSendRecord} {snapshot : SequenceEnrollment}
      {known : SequenceDefinition} {repository : RecordedWorld}
      (found : w.operators[i]? = some operator)
      (phase : operator.phase = .recordLoaded enrollment definition ref record)
      (read : w.repository.world.read[enrollment]? = some snapshot)
      (returned : w.repository.world.returned[definition]? = some known)
      (called : w.repository.Step
        (.resolveAmbiguous enrollment definition operator.resolution operator.now) repository)
      (accepted : acceptsResolution w.store snapshot known operator.resolution operator.now = true) :
      Moves w (.resolve i) { w.setOperator i operator (afterResolve operator.resolution ref record)
        with
        repository
        events := w.events ++ [.resolved ref operator.resolution] }
  | settleResolution {i : ℕ} {fault : Option (StoreFault Thrown)} {operator : Operator}
      {ref : StepRef} {record : TransactionalSendRecord} {overtaken : Bool}
      {document : StoredTransactionalDocument} {seen : Except Thrown Unit}
      (found : w.operators[i]? = some operator)
      (phase : operator.phase = .settling ref record overtaken)
      (applied : withFault fault (applyResolution operator ref.key record.claimToken) w.document =
        (document, seen)) :
      Moves w (.settleResolution i fault) { w.setOperator i operator .finished with
        document
        events := w.events ++ resolutionEvents operator ref overtaken w.document }

theorem moves_of_step {w w' : EngineWorld} {action : EngineAction} (h : w.Step action w') :
    Moves w action w' := by
  cases action with
  | repository action =>
      simp only [Step, step] at h
      split at h
      · next hdirect =>
          simp only [Option.bind_eq_bind, Option.bind_eq_some_iff] at h
          obtain ⟨repository, hrepository, h⟩ := h
          obtain rfl := Option.some.inj h
          exact .repository hdirect hrepository
      · simp at h
  | start claim context =>
      simp only [Step, step, Option.bind_eq_bind, Option.bind_eq_some_iff] at h
      obtain ⟨⟨claimed, now⟩, hgranted, h⟩ := h
      split at h
      · next hunstarted =>
          obtain rfl := Option.some.inj h
          exact .start hgranted (by simpa using hunstarted)
      · simp at h
  | lookUp i reply =>
      simp only [Step, step, Option.bind_eq_bind, Option.bind_eq_some_iff] at h
      obtain ⟨task, hfound, h⟩ := h
      split at h
      · next payload hphase =>
          split at h
          · next hforeign =>
              obtain rfl := Option.some.inj h
              exact .lookUp hfound hphase hforeign
          · simp at h
      · simp at h
  | claim i now token fault =>
      simp only [Step, step, Option.bind_eq_bind, Option.bind_eq_some_iff] at h
      obtain ⟨task, hfound, h⟩ := h
      split at h
      · next subscriber payload hphase =>
          split at h
          · next hfresh =>
              obtain rfl := Option.some.inj h
              exact .claim hfound hphase hfresh.1 hfresh.2 rfl (claimEffect_of_eq rfl)
                fun error herror => claim_error_isForeign hfresh.2 herror
          · simp at h
      · simp at h
  | dispatch i reply =>
      simp only [Step, step, Option.bind_eq_bind, Option.bind_eq_some_iff] at h
      obtain ⟨task, hfound, h⟩ := h
      split at h
      · next subscriber payload record hphase =>
          split at h
          · next hforeign =>
              obtain rfl := Option.some.inj h
              exact .dispatch hfound hphase hforeign
          · simp at h
      · simp at h
  | settle i now fault =>
      simp only [Step, step, Option.bind_eq_bind, Option.bind_eq_some_iff] at h
      obtain ⟨task, hfound, h⟩ := h
      split at h
      · next subscriber payload record settlement result hphase =>
          obtain rfl := Option.some.inj h
          exact .settle hfound hphase rfl
      · simp at h
  | complete i jitter =>
      simp only [Step, step, Option.bind_eq_bind, Option.bind_eq_some_iff] at h
      obtain ⟨task, hfound, h⟩ := h
      split at h
      · next lookup result hphase =>
          simp only [Option.bind_eq_some_iff] at h
          obtain ⟨repository, hrepository, h⟩ := h
          obtain rfl := Option.some.inj h
          exact .complete hfound hphase hrepository
      · simp at h
  | readEnrollment id resolution now =>
      simp only [Step, step, Option.bind_eq_bind, Option.bind_eq_some_iff] at h
      obtain ⟨repository, hrepository, h⟩ := h
      split at h
      · obtain rfl := Option.some.inj h
        exact .readNothing hrepository
      · split at h
        · obtain rfl := Option.some.inj h
          exact .readEnrollment hrepository
        · obtain rfl := Option.some.inj h
          exact .readNothing hrepository
  | readDefinition i =>
      simp only [Step, step, Option.bind_eq_bind, Option.bind_eq_some_iff] at h
      obtain ⟨operator, hfound, h⟩ := h
      split at h
      · next enrollment hphase =>
          simp only [Option.bind_eq_some_iff] at h
          obtain ⟨snapshot, hsnapshot, repository, hrepository, h⟩ := h
          split at h
          · obtain rfl := Option.some.inj h
            exact .readDefinition hfound hphase hrepository (.inl rfl)
          · obtain rfl := Option.some.inj h
            exact .readDefinition hfound hphase hrepository (.inr rfl)
      · simp at h
  | loadRecord i =>
      simp only [Step, step, Option.bind_eq_bind, Option.bind_eq_some_iff] at h
      obtain ⟨operator, hfound, h⟩ := h
      split at h
      · next enrollment definition hphase =>
          simp only [Option.bind_eq_some_iff] at h
          obtain ⟨snapshot, hsnapshot, h⟩ := h
          split at h
          · obtain rfl := Option.some.inj h
            exact .loadNothing hfound hphase
          · next record hloaded =>
              obtain rfl := Option.some.inj h
              exact .loadRecord hfound hphase hsnapshot hloaded
      · simp at h
  | resolve i =>
      simp only [Step, step, Option.bind_eq_bind, Option.bind_eq_some_iff] at h
      obtain ⟨operator, hfound, h⟩ := h
      split at h
      · next enrollment definition ref record hphase =>
          simp only [Option.bind_eq_some_iff] at h
          obtain ⟨snapshot, hsnapshot, known, hknown, repository, hrepository, h⟩ := h
          split at h
          · next haccepted =>
              obtain rfl := Option.some.inj h
              exact .resolve hfound hphase hsnapshot hknown hrepository haccepted
          · next hrefused =>
              obtain rfl := Option.some.inj h
              exact .resolveRefused hfound hphase hsnapshot hknown hrepository (by simpa using hrefused)
      · simp at h
  | settleResolution i fault =>
      simp only [Step, step, Option.bind_eq_bind, Option.bind_eq_some_iff] at h
      obtain ⟨operator, hfound, h⟩ := h
      split at h
      · next ref record overtaken hphase =>
          obtain rfl := Option.some.inj h
          exact .settleResolution hfound hphase rfl
      · simp at h

theorem Moves.repository_cases {w w' : EngineWorld} {action : EngineAction}
    (h : Moves w action w') : w'.repository = w.repository ∨
      ∃ called, w.repository.Step called w'.repository := by
  cases h with
  | repository _ called => exact .inr ⟨_, called⟩
  | start | lookUp | claim | dispatch | settle | loadNothing | loadRecord | settleResolution =>
      exact .inl rfl
  | complete _ _ called => exact .inr ⟨_, called⟩
  | readNothing called => exact .inr ⟨_, called⟩
  | readEnrollment called => exact .inr ⟨_, called⟩
  | readDefinition _ _ called _ => exact .inr ⟨_, called⟩
  | resolveRefused _ _ _ _ called _ => exact .inr ⟨_, called⟩
  | resolve _ _ _ _ called _ => exact .inr ⟨_, called⟩

end EngineWorld

/-! ## Where tasks and operators come from -/

/-- The step an operator goes on with is the one of an enrollment it has read. -/
def OperatorPhase.Linked (read : List SequenceEnrollment) : OperatorPhase → Prop
  | .recordLoaded enrollment _ ref _ =>
      ∃ snapshot, read[enrollment]? = some snapshot ∧ snapshot.stepRef = ref
  | .settling ref _ _ => ∃ snapshot ∈ read, snapshot.stepRef = ref
  | _ => True

def EngineEvent.ref : EngineEvent → Option StepRef
  | .dispatched ref _ | .resolved ref _ | .releasedLate ref => some ref
  | .expired _ => none

section Links

variable [MailboxContract] [CaseMapping]

/-- Tasks execute granted claims, operators resolve enrollments they have read. -/
structure Linked (w : EngineWorld) : Prop where
  world : WorldInvariant w.repository.world
  tasks : ∀ task ∈ w.tasks, ∃ now,
    w.repository.world.claims[task.claim]? = some (task.claimed, now)
  operators : ∀ operator ∈ w.operators, operator.phase.Linked w.repository.world.read
  events : ∀ event ∈ w.events, ∀ ref, event.ref = some ref → isUuid ref.enrollmentId = true

variable {w w' : EngineWorld} {action : EngineAction}

theorem linked_empty : Linked ({} : EngineWorld) where
  world := worldInvariant_empty
  tasks := by simp
  operators := by simp
  events := by simp

omit [MailboxContract] [CaseMapping] in
theorem OperatorPhase.Linked.mono {read read' : List SequenceEnrollment} {phase : OperatorPhase}
    (h : phase.Linked read) (hread : read <+: read') : phase.Linked read' := by
  cases phase with
  | recordLoaded enrollment definition ref record =>
      obtain ⟨snapshot, hsnapshot, hsame⟩ := h
      exact ⟨snapshot, getElem?_of_extended hread hsnapshot, hsame⟩
  | settling ref record overtaken =>
      obtain ⟨snapshot, hsnapshot, hsame⟩ := h
      exact ⟨snapshot, hread.subset hsnapshot, hsame⟩
  | enrollmentRead | definitionRead | finished => trivial

omit [MailboxContract] [CaseMapping] in
theorem OperatorPhase.Linked.overtake {read : List SequenceEnrollment} {operator : Operator}
    (h : operator.phase.Linked read) (key : Text) :
    (operator.overtake key).phase.Linked read := by
  unfold Operator.overtake
  split
  · next hphase =>
      rw [hphase] at h
      exact h
  · exact h

theorem Linked.isUuid_of_task (h : Linked w) {task : EngineTask} (hmem : task ∈ w.tasks) :
    isUuid task.ref.enrollmentId = true := by
  obtain ⟨now, hclaim⟩ := h.tasks task hmem
  exact isUuid_of_schema (h.world.claims _ (List.mem_of_getElem? hclaim)).1.schema

/-- What a step does to the repository leaves clients what they have seen. -/
theorem EngineWorld.Moves.seen (h : EngineWorld.Moves w action w') :
    w.repository.world.claims <+: w'.repository.world.claims ∧
      w.repository.world.read <+: w'.repository.world.read := by
  rcases h.repository_cases with hsame | ⟨called, hstep⟩
  · rw [hsame]
    exact ⟨List.prefix_rfl, List.prefix_rfl⟩
  · obtain ⟨hclaims, -, hread⟩ := RepositoryWorld.seen_of_step hstep.world
    exact ⟨hclaims, hread⟩

/-- A step keeps tasks, operators and events linked when it adds linked ones only. -/
theorem Linked.frame (h : Linked w) (hmove : EngineWorld.Moves w action w')
    (htasks : ∀ task' ∈ w'.tasks, (∃ task ∈ w.tasks, task'.claim = task.claim ∧
      task'.claimed = task.claimed) ∨
        ∃ now, w.repository.world.claims[task'.claim]? = some (task'.claimed, now))
    (hoperators : ∀ operator' ∈ w'.operators,
      operator'.phase.Linked w.repository.world.read ∨
        operator'.phase.Linked w'.repository.world.read)
    (hevents : ∀ event ∈ w'.events, event ∈ w.events ∨
      ∀ ref, event.ref = some ref → isUuid ref.enrollmentId = true) : Linked w' where
  world := by
    rcases hmove.repository_cases with hsame | ⟨called, hstep⟩
    · rw [hsame]
      exact h.world
    · exact (h.world.step hstep.world).1
  tasks task' hmem := by
    rcases htasks task' hmem with ⟨task, hold, hclaim, hclaimed⟩ | ⟨now, hnew⟩
    · obtain ⟨now, hgranted⟩ := h.tasks task hold
      exact ⟨now, getElem?_of_extended hmove.seen.1 (by rw [hclaim, hclaimed, hgranted])⟩
    · exact ⟨now, getElem?_of_extended hmove.seen.1 hnew⟩
  operators operator' hmem := by
    rcases hoperators operator' hmem with hold | hnew
    · exact hold.mono hmove.seen.2
    · exact hnew
  events event hmem ref href := by
    rcases hevents event hmem with hold | hnew
    · exact h.events event hold ref href
    · exact hnew ref href

omit [MailboxContract] [CaseMapping] in
theorem task_of_mem_setTask {i : ℕ} {task : EngineTask} {phase : TaskPhase}
    (hfound : w.tasks[i]? = some task) {task' : EngineTask}
    (hmem : task' ∈ (w.setTask i task phase).tasks) :
    ∃ before ∈ w.tasks, task'.claim = before.claim ∧ task'.claimed = before.claimed := by
  rcases List.mem_or_eq_of_mem_set hmem with hold | rfl
  · exact ⟨task', hold, rfl, rfl⟩
  · exact ⟨task, List.mem_of_getElem? hfound, rfl, rfl⟩

omit [MailboxContract] [CaseMapping] in
theorem Linked.phase_of_setOperator [MailboxContract] [CaseMapping] (h : Linked w) {i : ℕ}
    {operator : Operator} {phase : OperatorPhase}
    {operator' : Operator} (hmem : operator' ∈ (w.setOperator i operator phase).operators)
    (hphase : phase.Linked w.repository.world.read) :
    operator'.phase.Linked w.repository.world.read := by
  rcases List.mem_or_eq_of_mem_set hmem with hold | rfl
  · exact h.operators operator' hold
  · exact hphase

theorem Linked.step (h : Linked w) (hmove : EngineWorld.Moves w action w') : Linked w' := by
  have hmove' := hmove
  have hsameTasks : ∀ task' ∈ w.tasks, (∃ task ∈ w.tasks, task'.claim = task.claim ∧
      task'.claimed = task.claimed) ∨
        ∃ now, w.repository.world.claims[task'.claim]? = some (task'.claimed, now) :=
    fun task' hmem => .inl ⟨task', hmem, rfl, rfl⟩
  have hsameOperators : ∀ operator' ∈ w.operators, operator'.phase.Linked w.repository.world.read ∨
      operator'.phase.Linked w'.repository.world.read :=
    fun operator' hmem => .inl (h.operators operator' hmem)
  have hsameEvents : ∀ event ∈ w.events, event ∈ w.events ∨
      ∀ ref, event.ref = some ref → isUuid ref.enrollmentId = true := fun _ hmem => .inl hmem
  have hnewEvents : ∀ new : List EngineEvent, (∀ event ∈ new, ∀ ref, event.ref = some ref →
      isUuid ref.enrollmentId = true) → ∀ event ∈ w.events ++ new, event ∈ w.events ∨
        ∀ ref, event.ref = some ref → isUuid ref.enrollmentId = true :=
    fun new hnew event hmem => (List.mem_append.mp hmem).imp_right (hnew event)
  cases hmove with
  | repository | readNothing => exact h.frame hmove' hsameTasks hsameOperators hsameEvents
  | @start claim context claimed now granted _ =>
      refine h.frame hmove' (fun task' hmem => ?_) hsameOperators hsameEvents
      rcases List.mem_append.mp hmem with hold | hnew
      · exact hsameTasks task' hold
      · obtain rfl := List.mem_singleton.mp hnew
        exact .inr ⟨now, granted⟩
  | lookUp found _ _ =>
      exact h.frame hmove' (fun _ hmem => .inl (task_of_mem_setTask found hmem)) hsameOperators
        hsameEvents
  | @claim i now token fault task _ _ _ _ found _ _ _ _ _ _ =>
      refine h.frame hmove' (fun _ hmem => .inl (task_of_mem_setTask found hmem))
        (fun operator' hmem => ?_) (hnewEvents _ (by simp [EngineEvent.ref]))
      obtain ⟨operator, hoperator, rfl⟩ := List.mem_map.mp hmem
      exact .inl ((h.operators operator hoperator).overtake task.ref.key)
  | dispatch found _ _ =>
      refine h.frame hmove' (fun _ hmem => .inl (task_of_mem_setTask found hmem)) hsameOperators
        (hnewEvents _ ?_)
      simpa [EngineEvent.ref] using h.isUuid_of_task (List.mem_of_getElem? found)
  | settle found _ _ =>
      exact h.frame hmove' (fun _ hmem => .inl (task_of_mem_setTask found hmem)) hsameOperators
        (hnewEvents _ (by simp [EngineEvent.ref]))
  | complete found _ _ =>
      exact h.frame hmove' (fun _ hmem => .inl (task_of_mem_setTask found hmem)) hsameOperators
        hsameEvents
  | readEnrollment _ =>
      refine h.frame hmove' hsameTasks (fun operator' hmem => ?_) hsameEvents
      rcases List.mem_append.mp hmem with hold | hnew
      · exact hsameOperators operator' hold
      · obtain rfl := List.mem_singleton.mp hnew
        exact .inl trivial
  | readDefinition found _ _ next =>
      refine h.frame hmove' hsameTasks (fun operator' hmem => .inl ?_) hsameEvents
      exact h.phase_of_setOperator hmem (by rcases next with rfl | rfl <;> trivial)
  | loadNothing found _ =>
      exact h.frame hmove' hsameTasks
        (fun operator' hmem => .inl (h.phase_of_setOperator hmem trivial)) hsameEvents
  | loadRecord found _ read _ =>
      exact h.frame hmove' hsameTasks
        (fun operator' hmem => .inl (h.phase_of_setOperator hmem ⟨_, read, rfl⟩)) hsameEvents
  | resolveRefused found _ _ _ _ _ =>
      exact h.frame hmove' hsameTasks
        (fun operator' hmem => .inl (h.phase_of_setOperator hmem trivial)) hsameEvents
  | @resolve i operator enrollment definition ref record snapshot known repository found phase read
      _ _ _ =>
      have hlinked := h.operators operator (List.mem_of_getElem? found)
      rw [phase] at hlinked
      obtain ⟨snapshot', hsnapshot, rfl⟩ := hlinked
      have hmem := List.mem_of_getElem? hsnapshot
      refine h.frame hmove' hsameTasks
        (fun operator' hoperator => .inl (h.phase_of_setOperator hoperator ?_)) (hnewEvents _ ?_)
      · unfold EngineWorld.afterResolve
        split
        · trivial
        · exact ⟨snapshot', hmem, rfl⟩
      · intro event hevent ref href
        obtain rfl := List.mem_singleton.mp hevent
        obtain rfl := Option.some.inj href
        exact isUuid_of_schema (h.world.read snapshot' hmem).1
  | @settleResolution i fault operator ref record overtaken document seen found phase _ =>
      have hlinked := h.operators operator (List.mem_of_getElem? found)
      rw [phase] at hlinked
      obtain ⟨snapshot, hsnapshot, rfl⟩ := hlinked
      refine h.frame hmove' hsameTasks
        (fun operator' hmem => .inl (h.phase_of_setOperator hmem trivial)) (hnewEvents _ ?_)
      intro event hmem ref' href
      have huuid : isUuid snapshot.stepRef.enrollmentId = true :=
        isUuid_of_schema (h.world.read snapshot hsnapshot).1
      unfold EngineWorld.resolutionEvents at hmem
      split at hmem <;> simp at hmem <;> rcases hmem with rfl | rfl <;>
        simp_all [EngineEvent.ref]

theorem linked_of_run {actions : List EngineAction}
    (hrun : Run EngineWorld.Step {} actions w) : Linked w :=
  hrun.invariant (fun h hstep => h.step (EngineWorld.moves_of_step hstep)) linked_empty

end Links

end ListmonkOps.Sequence
