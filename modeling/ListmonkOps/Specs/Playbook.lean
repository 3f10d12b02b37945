/-
Playbooks, and the specification they belong to.

A playbook lists steps, each of which runs an operation, says which steps it
depends on, and binds inputs of the operation to inputs of the playbook, to
literals or to outputs of other steps. It is checked in one pass over the list,
and once more against the operations of the specification it is put into. What
the two checks secure is about the order in which the steps are listed.
-/

import ListmonkOps.Math.Precedence
import ListmonkOps.Runtime.Tables
import ListmonkOps.Specs.Operation

namespace ListmonkOps.Specs

open ListmonkOps.Runtime ListmonkOps.Math

/-! ## Playbooks -/

inductive OperationPlaybookPrimitive where
  | string (value : Text)
  | number (value : Number)
  | boolean (value : Bool)
  | null
  deriving DecidableEq

/-- The type of an input of a playbook. -/
inductive OperationPlaybookInputType where
  | string
  | number
  | boolean
  deriving DecidableEq

structure OperationPlaybookInput where
  name : Text
  type : OperationPlaybookInputType
  required : Bool
  description : Text

inductive OperationPlaybookValueSource where
  | playbookInput (name : Text)
  | stepOutput (stepId path : Text)
  | literal (value : OperationPlaybookPrimitive)
  deriving DecidableEq

structure OperationPlaybookInputBinding where
  parameter : Text
  source : OperationPlaybookValueSource
  deriving DecidableEq

/-- `OperationPlaybookResultGuard`; a guard that fails always stops the run. -/
structure OperationPlaybookResultGuard where
  path : Text
  negated : Bool
  expected : OperationPlaybookPrimitive
  message : Text
  deriving DecidableEq

/-- Whether a step asks somebody. -/
inductive StepApproval where
  | none
  | human
  deriving DecidableEq

structure OperationPlaybookStep where
  id : Text
  operation : Text
  approval : StepApproval
  description : Text
  dependsOn : List Text
  input : List OperationPlaybookInputBinding
  resultGuard : Option OperationPlaybookResultGuard := none

/-- `OperationPlaybook`; it has a step at least. -/
structure OperationPlaybook where
  id : Text
  title : Text
  goal : Text
  inputs : List OperationPlaybookInput
  firstStep : OperationPlaybookStep
  laterSteps : List OperationPlaybookStep
  recoveryOperation : Text

/-- The steps of a playbook, as they are listed. -/
def OperationPlaybook.steps (playbook : OperationPlaybook) : List OperationPlaybookStep :=
  playbook.firstStep :: playbook.laterSteps

/-! ## Checks -/

/-- `assertNonBlank`; a `TypeError` is its message. -/
def assertNonBlank (value label : Text) : Except Text Unit :=
  if value.trim = [] then .error (label ++ (" must not be blank" : Text)) else .ok ()

/-- The first value that occurred before. -/
def firstRepeated (seen : List Text) : List Text → Option Text
  | [] => none
  | value :: values =>
      if value ∈ seen then some value else firstRepeated (seen ++ [value]) values

/-- `assertDistinct` of a playbook. -/
def assertDistinct (values : List Text) (label : Text) : Except Text Unit :=
  match firstRepeated [] values with
  | some value => .error (label ++ (" contains duplicate value: " : Text) ++ value)
  | none => .ok ()

/-- `[a-z][a-z0-9-]*`. -/
def isIdSegment (segment : Text) : Bool :=
  segment.head?.any (fun unit => 97 ≤ unit && unit ≤ 122) &&
    segment.all fun unit => (97 ≤ unit && unit ≤ 122) || isDigit unit || unit = 45

/-- `PLAYBOOK_ID_PATTERN`. -/
def isPlaybookId (id : Text) : Bool :=
  2 ≤ (id.splitOn 46).length && (id.splitOn 46).all isIdSegment

/-- The front of the messages about a playbook. -/
def playbookLabel (id : Text) : Text := ("Operation playbook " : Text) ++ id

def checkBinding (label : Text) (inputNames priorStepIds : List Text)
    (binding : OperationPlaybookInputBinding) : Except Text Unit := do
  assertNonBlank binding.parameter (label ++ (" input parameter" : Text))
  match binding.source with
  | .playbookInput name =>
      if name ∈ inputNames then .ok ()
      else .error (label ++ (" references unknown playbook input " : Text) ++ name)
  | .stepOutput stepId path =>
      if stepId ∈ priorStepIds then
        assertNonBlank path (label ++ (" source path" : Text))
      else .error (label ++ (" references unavailable prior step output " : Text) ++ stepId)
  | .literal _ => .ok ()

/-- The check of a dependency of a step. -/
def checkDependency (label : Text) (priorStepIds : List Text) (dependency : Text) :
    Except Text Unit :=
  if dependency ∈ priorStepIds then .ok ()
  else .error (label ++ (" depends on unavailable prior step " : Text) ++ dependency)

/-- The check of a step behind the steps before it. -/
def checkStep (playbookId : Text) (inputNames priorStepIds : List Text)
    (step : OperationPlaybookStep) : Except Text Unit := do
  let label := playbookLabel playbookId ++ (" step " : Text) ++ step.id
  assertNonBlank step.description (label ++ (" description" : Text))
  step.dependsOn.forM (checkDependency label priorStepIds)
  step.input.forM (checkBinding label inputNames priorStepIds)
  assertDistinct (step.input.map (·.parameter)) (label ++ (" input bindings" : Text))
  match step.resultGuard with
  | none => .ok ()
  | some resultGuard => do
      assertNonBlank resultGuard.path (label ++ (" result guard path" : Text))
      assertNonBlank resultGuard.message (label ++ (" result guard message" : Text))

def checkSteps (playbookId : Text) (inputNames : List Text) :
    List Text → List OperationPlaybookStep → Except Text Unit
  | _, [] => .ok ()
  | priorStepIds, step :: steps => do
      checkStep playbookId inputNames priorStepIds step
      checkSteps playbookId inputNames (priorStepIds ++ [step.id]) steps

/-- `defineOperationPlaybook`; it returns the playbook it is given. -/
def defineOperationPlaybook (playbook : OperationPlaybook) : Except Text Unit := do
  if !isPlaybookId playbook.id then
    .error (("Invalid operation playbook id: " : Text) ++ playbook.id)
  let label := playbookLabel playbook.id
  assertNonBlank playbook.title (label ++ (" title" : Text))
  assertNonBlank playbook.goal (label ++ (" goal" : Text))
  playbook.inputs.forM fun input => do
    assertNonBlank input.name (label ++ (" input name" : Text))
    assertNonBlank input.description
      (label ++ (" input " : Text) ++ input.name ++ (" description" : Text))
  playbook.steps.forM fun step => assertNonBlank step.id (label ++ (" step id" : Text))
  assertDistinct (playbook.inputs.map (·.name)) (label ++ (" inputs" : Text))
  assertDistinct (playbook.steps.map (·.id)) (label ++ (" steps" : Text))
  checkSteps playbook.id (playbook.inputs.map (·.name)) [] playbook.steps

/-! ## Specifications -/

/-- `OperationResourceSpec`, as far as the specification reads it. -/
structure OperationResourceSpec where
  id : OperationResourceKind
  states : List Text
  transitions : List (Text × List Text)

/-- `OperationEventSpec`, as far as the specification reads it. -/
structure OperationEventSpec where
  type : Text
  subject : OperationResourceKind

/-- `EmailOperationsSpec`, as far as it is checked. -/
structure EmailOperationsSpec where
  resources : List OperationResourceSpec
  operations : List OperationSpec
  events : List OperationEventSpec
  playbooks : List OperationPlaybook

def OperationResourceKind.text : OperationResourceKind → Text
  | .campaign => "campaign"
  | .subscriber => "subscriber"
  | .message => "message"
  | .audience => "audience"
  | .list => "list"
  | .template => "template"
  | .media => "media"
  | .provider => "provider"
  | .experiment => "experiment"
  | .sequence => "sequence"
  | .spec => "spec"
  | .playbook => "playbook"
  | .control => "control"
  | .operation => "operation"
  | .webhook => "webhook"
  | .userRole => "user-role"

def ensureThat (condition : Bool) (message : Text) : Except Text Unit :=
  if condition then .ok () else .error message

/-- `assertDistinct` of a specification. -/
def assertDistinctIn (values : List Text) (label : Text) : Except Text Unit :=
  match firstRepeated [] values with
  | some value => .error (("Operations spec contains duplicate " : Text) ++ label ++
      (": " : Text) ++ value)
  | none => .ok ()

/-- The front of the messages about an operation. -/
def operationLabel (operation : OperationSpec) : Text :=
  ("Operation spec " : Text) ++ operation.id

/-- The transitions out of a state; a state named like an inherited member of plain objects finds
that member, on which there is no `includes` to call. -/
def allowedTargets (resource : OperationResourceSpec) (source : Text) : Except Text (List Text) :=
  match readTable resource.transitions source with
  | some (.own targets) => .ok targets
  | some (.inherited _) => .error "allowed.includes is not a function"
  | none => .ok []

def validateStateTransition (operation : OperationSpec) (resources : List OperationResourceSpec) :
    Except Text Unit :=
  match operation.state with
  | none => .ok ()
  | some state => do
      let label := operationLabel operation
      ensureThat (state.resource = operation.resource)
        (label ++ (" state resource does not match operation resource" : Text))
      match resources.find? (·.id = state.resource) with
      | none => .error (label ++ (" references unknown state resource " : Text) ++
          state.resource.text)
      | some resource => do
          ensureThat (state.toState ∈ resource.states)
            (label ++ (" has unknown target state " : Text) ++ state.toState)
          ensureThat (state.fromStates ≠ [])
            (label ++ (" state transition must declare at least one source state" : Text))
          state.fromStates.forM fun source => do
            ensureThat (source ∈ resource.states)
              (label ++ (" has unknown source state " : Text) ++ source)
            let allowed ← allowedTargets resource source
            ensureThat (state.toState ∈ allowed)
              (label ++ (" declares invalid transition " : Text) ++ source ++ (" -> " : Text) ++
                state.toState)

def retryTargets : RetrySemantics → List Text
  | .unconditional (.reconcile target _) => [target]
  | .unconditional _ => []
  | .conditional cases => cases.filterMap fun
      | .reconcile target _ => some target
      | _ => none

/-- The check of an operation against the resources and the other operations. -/
def checkOperation (schema : EmailOperationsSpec) (operation : OperationSpec) :
    Except Text Unit := do
  let label := operationLabel operation
  let operationIds := schema.operations.map (·.id)
  let resourceIds := schema.resources.map (·.id)
  ensureThat (operation.resource ∈ resourceIds)
    (label ++ (" references unknown resource " : Text) ++ operation.resource.text)
  operation.effects.forM fun effect =>
    ensureThat (effect.resource ∈ resourceIds)
      (label ++ (" effect references unknown resource " : Text) ++ effect.resource.text)
  validateStateTransition operation schema.resources
  [(("prerequisite" : Text), operation.agent.prerequisites),
    ("verification", operation.agent.verifyWith), ("related", operation.agent.related)].forM
      fun (relation, targets) => targets.forM fun target =>
        ensureThat (target ∈ operationIds)
          (label ++ (" references unknown " : Text) ++ relation ++ (" operation " : Text) ++ target)
  (retryTargets operation.retry).forM fun target =>
    ensureThat (target ∈ operationIds)
      (label ++ (" references unknown reconciliation operation " : Text) ++ target)
  match operation.lifecycle with
  | .active => .ok ()
  | .deprecated replacedBy =>
      ensureThat (replacedBy ∈ operationIds)
        (("Deprecated operation spec " : Text) ++ operation.id ++
          (" references unknown replacement " : Text) ++ replacedBy)

/-- The names of the properties at the root of an input contract, where it lists them. -/
def propertyNames (operation : OperationSpec) : Option (List Text) :=
  match Value.get operation.inputSchema "properties" with
  | .object members => some (members.map Prod.fst)
  | .date _ => some []
  | _ => none

/-- The inputs that the root of an input contract requires. -/
def requiredInputs (operation : OperationSpec) : List Text :=
  match Value.get operation.inputSchema "required" with
  | .array items => items.filterMap fun
      | .string name => some name
      | _ => none
  | _ => []

/-- The check of a step against its operation. -/
def checkStepOperation (operations : List OperationSpec) (playbookId : Text)
    (step : OperationPlaybookStep) : Except Text Unit := do
  let label := playbookLabel playbookId ++ (" step " : Text) ++ step.id
  match operations.find? (·.id = step.operation) with
  | none => .error (label ++ (" references unknown operation " : Text) ++ step.operation)
  | some operation => do
      ensureThat (operation.policy.confirmation ≠ .required || step.approval = .human)
        (label ++ (" must require human approval for " : Text) ++ step.operation)
      step.input.forM fun binding =>
        ensureThat ((propertyNames operation).all (binding.parameter ∈ ·))
          (label ++ (" binds unknown " : Text) ++ step.operation ++ (" input " : Text) ++
            binding.parameter)
      (requiredInputs operation).forM fun name =>
        ensureThat (name ∈ step.input.map (·.parameter))
          (label ++ (" does not bind required " : Text) ++ step.operation ++ (" input " : Text) ++
            name)

/-- The check of a playbook against the operations. -/
def checkPlaybook (operations : List OperationSpec) (playbook : OperationPlaybook) :
    Except Text Unit := do
  playbook.steps.forM (checkStepOperation operations playbook.id)
  ensureThat (playbook.recoveryOperation ∈ operations.map (·.id))
    (playbookLabel playbook.id ++ (" references unknown recovery operation " : Text) ++
      playbook.recoveryOperation)

/-- `defineEmailOperationsSpec`; it returns the specification it is given. -/
def defineEmailOperationsSpec (schema : EmailOperationsSpec) : Except Text Unit := do
  ensureThat (!schema.resources.isEmpty) "Operations spec must define resources"
  ensureThat (!schema.operations.isEmpty) "Operations spec must define operations"
  assertDistinctIn (schema.resources.map (·.id.text)) "resource id"
  assertDistinctIn (schema.operations.map (·.id)) "operation id"
  assertDistinctIn (schema.operations.map (·.mcpName)) "MCP name"
  assertDistinctIn (schema.playbooks.map (·.id)) "playbook id"
  assertDistinctIn (schema.events.map (·.type)) "event type"
  schema.operations.forM (checkOperation schema)
  schema.events.forM fun event =>
    ensureThat (event.subject ∈ schema.resources.map (·.id))
      (("Operation event spec " : Text) ++ event.type ++
        (" references unknown resource " : Text) ++ event.subject.text)
  schema.playbooks.forM (checkPlaybook schema.operations)

/-! ## What the checks say -/

section Checks

variable {α : Type} {label message : Text} {values seen : List Text}

theorem except_bind_unit_eq_ok {check : Except Text Unit} {next : Unit → Except Text α} {a : α} :
    (check >>= next) = .ok a ↔ check = .ok () ∧ next () = .ok a := by
  rw [except_bind_eq_ok]
  exact ⟨fun ⟨(), h⟩ => h, fun h => ⟨(), h⟩⟩

theorem forM_eq_ok {check : α → Except Text Unit} {xs : List α} :
    xs.forM check = .ok () ↔ ∀ x ∈ xs, check x = .ok () := by
  induction xs with
  | nil => simp [pure, Except.pure]
  | cons x xs ih =>
      change (check x >>= fun _ => xs.forM check) = .ok () ↔ _
      rw [except_bind_unit_eq_ok, ih, List.forall_mem_cons]

theorem ensureThat_eq_ok {condition : Bool} :
    ensureThat condition message = .ok () ↔ condition = true := by
  cases condition <;> simp [ensureThat]

theorem firstRepeated_eq_none : firstRepeated seen values = none ↔
    values.Nodup ∧ ∀ value ∈ values, value ∉ seen := by
  induction values generalizing seen with
  | nil => simp [firstRepeated]
  | cons value values ih =>
      rw [firstRepeated]
      split
      · next hseen => simp [hseen]
      · next hseen =>
          rw [ih]
          simp only [List.nodup_cons, List.mem_append, List.mem_cons, List.not_mem_nil, or_false,
            forall_eq_or_imp, hseen, not_false_eq_true, true_and]
          constructor
          · rintro ⟨hnodup, happart⟩
            exact ⟨⟨fun hmem => happart value hmem (.inr rfl), hnodup⟩,
              fun other hother hin => happart other hother (.inl hin)⟩
          · rintro ⟨⟨hnotMem, hnodup⟩, happart⟩
            refine ⟨hnodup, fun other hother hin => ?_⟩
            rcases hin with hin | rfl
            · exact happart other hother hin
            · exact hnotMem hother

theorem assertDistinct_eq_ok : assertDistinct values label = .ok () ↔ values.Nodup := by
  have hnone : firstRepeated [] values = none ↔ values.Nodup := by
    simp [firstRepeated_eq_none]
  rw [← hnone, assertDistinct]
  cases firstRepeated [] values <;> simp

theorem assertDistinctIn_eq_ok : assertDistinctIn values label = .ok () ↔ values.Nodup := by
  have hnone : firstRepeated [] values = none ↔ values.Nodup := by
    simp [firstRepeated_eq_none]
  rw [← hnone, assertDistinctIn]
  cases firstRepeated [] values <;> simp

end Checks

/-! ## What an accepted playbook says -/

section Accepted

variable {playbook : OperationPlaybook} {playbookId : Text} {inputNames prior : List Text}
  {step : OperationPlaybookStep} {steps : List OperationPlaybookStep}

/-- What a binding may read, given the inputs of the playbook and the steps it may read from. -/
def Readable (inputNames stepIds : List Text) : OperationPlaybookValueSource → Prop
  | .playbookInput name => name ∈ inputNames
  | .stepOutput stepId _ => stepId ∈ stepIds
  | .literal _ => True

theorem readable_of_checkBinding {label : Text} {binding : OperationPlaybookInputBinding}
    (h : checkBinding label inputNames prior binding = .ok ()) :
    Readable inputNames prior binding.source := by
  obtain ⟨-, h⟩ := except_bind_unit_eq_ok.mp h
  split at h
  · next name hsource =>
      rw [hsource]
      by_contra hunknown
      simp [show name ∉ inputNames from hunknown] at h
  · next stepId path hsource =>
      rw [hsource]
      by_contra hunknown
      simp [show stepId ∉ prior from hunknown] at h
  · next value hsource =>
      rw [hsource]
      trivial

/-- An accepted step depends on and reads from steps before it, and binds no input twice. -/
theorem checkStep_inv (h : checkStep playbookId inputNames prior step = .ok ()) :
    (∀ dependency ∈ step.dependsOn, dependency ∈ prior) ∧
      (∀ binding ∈ step.input, Readable inputNames prior binding.source) ∧
        (step.input.map (·.parameter)).Nodup := by
  simp only [checkStep, except_bind_unit_eq_ok, forM_eq_ok, assertDistinct_eq_ok] at h
  obtain ⟨-, hdepends, hbindings, hdistinct, -⟩ := h
  refine ⟨fun dependency hmem => ?_,
    fun binding hmem => readable_of_checkBinding (hbindings binding hmem), hdistinct⟩
  have hcheck := hdepends dependency hmem
  by_contra hunknown
  simp [checkDependency, hunknown] at hcheck

theorem checkSteps_inv (h : checkSteps playbookId inputNames prior steps = .ok ())
    {front rest : List OperationPlaybookStep} (hsplit : steps = front ++ step :: rest) :
    checkStep playbookId inputNames (prior ++ front.map (·.id)) step = .ok () := by
  induction front generalizing prior steps with
  | nil =>
      subst hsplit
      rw [List.map_nil, List.append_nil]
      exact (except_bind_unit_eq_ok.mp h).1
  | cons first front ih =>
      subst hsplit
      have hrest := ih (except_bind_unit_eq_ok.mp h).2 rfl
      rwa [List.append_assoc] at hrest

theorem defineOperationPlaybook_inv (h : defineOperationPlaybook playbook = .ok ()) :
    (playbook.steps.map (·.id)).Nodup ∧
      checkSteps playbook.id (playbook.inputs.map (·.name)) [] playbook.steps = .ok () := by
  rw [defineOperationPlaybook] at h
  split at h
  · cases h
  · simp only [except_bind_unit_eq_ok, forM_eq_ok, assertDistinct_eq_ok] at h
    exact ⟨h.2.2.2.2.2.1, h.2.2.2.2.2.2⟩

/-- An accepted specification has operations with ids of their own, and has accepted each step of
each of its playbooks. -/
theorem defineEmailOperationsSpec_inv {schema : EmailOperationsSpec}
    (h : defineEmailOperationsSpec schema = .ok ()) :
    (schema.operations.map (·.id)).Nodup ∧ ∀ playbook ∈ schema.playbooks,
      ∀ step ∈ playbook.steps, checkStepOperation schema.operations playbook.id step = .ok () := by
  simp only [defineEmailOperationsSpec, except_bind_unit_eq_ok, forM_eq_ok,
    assertDistinctIn_eq_ok] at h
  obtain ⟨-, -, -, hdistinct, -, -, -, -, -, hplaybooks⟩ := h
  refine ⟨hdistinct, fun playbook hplaybook => ?_⟩
  have hchecked := hplaybooks playbook hplaybook
  rw [checkPlaybook, except_bind_unit_eq_ok, forM_eq_ok] at hchecked
  exact hchecked.1

/-- An accepted step runs an operation of the specification, asks somebody where the policy of the
operation says so, and binds what the root of its contract requires. -/
theorem checkStepOperation_inv {operations : List OperationSpec}
    (h : checkStepOperation operations playbookId step = .ok ()) :
    ∃ operation, operations.find? (·.id = step.operation) = some operation ∧
      (operation.policy.confirmation = .required → step.approval = .human) ∧
        ∀ name ∈ requiredInputs operation, name ∈ step.input.map (·.parameter) := by
  rw [checkStepOperation] at h
  split at h
  · simp at h
  · next operation hfound =>
      simp only [except_bind_unit_eq_ok, forM_eq_ok, ensureThat_eq_ok, decide_eq_true_eq,
        Bool.or_eq_true, ne_eq] at h
      obtain ⟨happroval, -, hrequired⟩ := h
      refine ⟨operation, hfound, fun hconfirmation => ?_, hrequired⟩
      rcases happroval with hnever | hhuman
      · simp [hconfirmation] at hnever
      · exact hhuman

end Accepted

/-! ## Accepted playbooks can be run -/

/-- One step is named by another as what it depends on. -/
def DependsOn (steps : List OperationPlaybookStep) (dependency stepId : Text) : Prop :=
  ∃ step ∈ steps, step.id = stepId ∧ dependency ∈ step.dependsOn

/-- An order of the steps in which each comes behind what it depends on. -/
structure ConsistentOrder (playbook : OperationPlaybook) (order : List OperationPlaybookStep) :
    Prop where
  perm : order.Perm playbook.steps
  respects : Respects (order.map (·.id)) (DependsOn playbook.steps)

/-- A playbook of a specification can be run: its steps are there, in an order that their
dependencies allow, and each gets the input it needs. -/
structure Runnable (schema : EmailOperationsSpec) (playbook : OperationPlaybook) : Prop where
  /-- The steps can be run as they are listed. -/
  listed : ConsistentOrder playbook playbook.steps
  /-- No step depends on itself, not through others either. -/
  acyclic : ∀ stepId, ¬ Relation.TransGen (DependsOn playbook.steps) stepId stepId
  /-- Each step runs an operation of the specification. -/
  operations : ∀ step ∈ playbook.steps, ∃ operation ∈ schema.operations,
    operation.id = step.operation
  /-- What the root of the contract requires is bound exactly once. -/
  bound : ∀ step ∈ playbook.steps, ∀ operation ∈ schema.operations, operation.id = step.operation →
    ∀ name ∈ requiredInputs operation, step.input.countP (·.parameter = name) = 1
  /-- Nothing is bound twice. -/
  boundOnce : ∀ step ∈ playbook.steps, (step.input.map (·.parameter)).Nodup
  /-- A binding reads an input, a literal, or the output of a step listed before. -/
  reads : ∀ front step rest, playbook.steps = front ++ step :: rest → ∀ binding ∈ step.input,
    Readable (playbook.inputs.map (·.name)) (front.map (·.id)) binding.source
  /-- A step that is read comes earlier in every order, when the reader depends on it. -/
  readsInOrder : ∀ order, ConsistentOrder playbook order → ∀ step ∈ playbook.steps,
    ∀ binding ∈ step.input, ∀ stepId path, binding.source = .stepOutput stepId path →
      Relation.TransGen (DependsOn playbook.steps) stepId step.id →
        Precedes (order.map (·.id)) stepId step.id
  /-- A step asks somebody when the policy of its operation says so. -/
  approved : ∀ step ∈ playbook.steps, ∀ operation ∈ schema.operations,
    operation.id = step.operation → operation.policy.confirmation = .required →
      step.approval = .human
  /-- The policy of an operation that was accepted is the one its effects call for, unless
  recoverable maintenance hides it. -/
  approvedEffects : ∀ step ∈ playbook.steps, ∀ operation ∈ schema.operations,
    operation.id = step.operation →
      assertPolicyMatchesEffects operation.effects operation.policy = .ok () →
        (∃ effect ∈ operation.effects, effect.callsForConfirmation = true) →
          ¬ RecoveryHides operation.effects → step.approval = .human

section Accepted

variable {schema : EmailOperationsSpec} {playbook : OperationPlaybook}

/-- The listed order of an accepted playbook respects the dependencies. -/
theorem respects_listed (h : defineOperationPlaybook playbook = .ok ()) :
    Respects (playbook.steps.map (·.id)) (DependsOn playbook.steps) := by
  rintro dependency stepId ⟨step, hstep, rfl, hdepends⟩
  obtain ⟨-, hpass⟩ := defineOperationPlaybook_inv h
  obtain ⟨front, rest, hsplit⟩ := List.append_of_mem hstep
  have hprior := (checkStep_inv (checkSteps_inv hpass hsplit)).1 dependency hdepends
  rw [List.nil_append] at hprior
  exact ⟨front.map (·.id), rest.map (·.id), by rw [hsplit]; simp, hprior⟩

/-- The policy of an accepted operation asks for the confirmation that its effects call for. -/
theorem confirmation_of_effects {effects : List OperationEffect} {policy : OperationPolicy}
    (h : assertPolicyMatchesEffects effects policy = .ok ())
    (hcalls : ∃ effect ∈ effects, effect.callsForConfirmation = true)
    (hhides : ¬ RecoveryHides effects) : policy.confirmation = .required := by
  have hexpected := assertPolicyMatchesEffects_ok h
  rw [expectedPolicyForEffects] at hexpected
  split at hexpected
  · simp at hexpected
  · rw [← Except.ok.inj hexpected]
    exact (tierPolicy_confirmation effects).mpr ⟨hcalls, hhides⟩

/-- Exactly one binding names a parameter that is bound without repetition. -/
theorem countP_parameter {bindings : List OperationPlaybookInputBinding} {name : Text}
    (hdistinct : (bindings.map (·.parameter)).Nodup) (hbound : name ∈ bindings.map (·.parameter)) :
    bindings.countP (·.parameter = name) = 1 := by
  have hcount := List.count_eq_one_of_mem hdistinct hbound
  rw [List.count, List.countP_map] at hcount
  simpa [Function.comp_def, beq_eq_decide] using hcount

/-- Playbooks of an accepted specification can be run. -/
theorem acceptedPlaybook_runnable (hschema : defineEmailOperationsSpec schema = .ok ())
    (hplaybooks : ∀ playbook ∈ schema.playbooks, defineOperationPlaybook playbook = .ok ())
    (hmem : playbook ∈ schema.playbooks) : Runnable schema playbook := by
  have haccepted := hplaybooks playbook hmem
  obtain ⟨hdistinct, hpass⟩ := defineOperationPlaybook_inv haccepted
  obtain ⟨hoperations, hsteps⟩ := defineEmailOperationsSpec_inv hschema
  have hlisted := respects_listed haccepted
  have hchecked : ∀ front step rest, playbook.steps = front ++ step :: rest →
      (∀ binding ∈ step.input, Readable (playbook.inputs.map (·.name)) (front.map (·.id))
        binding.source) ∧ (step.input.map (·.parameter)).Nodup := by
    intro front step rest hsplit
    simpa using (checkStep_inv (checkSteps_inv hpass hsplit)).2
  have hoperation : ∀ step ∈ playbook.steps, ∀ operation ∈ schema.operations,
      operation.id = step.operation →
        (operation.policy.confirmation = .required → step.approval = .human) ∧
          ∀ name ∈ requiredInputs operation, name ∈ step.input.map (·.parameter) := by
    intro step hstep operation hmem' hid
    obtain ⟨found, hfound, hrest⟩ := checkStepOperation_inv (hsteps playbook hmem step hstep)
    have hsame : found = operation :=
      List.inj_on_of_nodup_map hoperations (List.mem_of_find?_eq_some hfound) hmem'
        ((by simpa using List.find?_some hfound : found.id = step.operation).trans hid.symm)
    rwa [hsame] at hrest
  have honce : ∀ step ∈ playbook.steps, (step.input.map (·.parameter)).Nodup := by
    intro step hstep
    obtain ⟨front, rest, hsplit⟩ := List.append_of_mem hstep
    exact (hchecked front step rest hsplit).2
  exact {
    listed := ⟨List.Perm.refl _, hlisted⟩
    acyclic := fun stepId => hlisted.acyclic hdistinct
    operations := by
      intro step hstep
      obtain ⟨found, hfound, -⟩ := checkStepOperation_inv (hsteps playbook hmem step hstep)
      exact ⟨found, List.mem_of_find?_eq_some hfound, by simpa using List.find?_some hfound⟩
    bound := fun step hstep operation hmem' hid name hname =>
      countP_parameter (honce step hstep) ((hoperation step hstep operation hmem' hid).2 name hname)
    boundOnce := honce
    reads := fun front step rest hsplit => (hchecked front step rest hsplit).1
    readsInOrder := fun order hconsistent step hstep binding hbinding stepId path hsource hdepends =>
      hconsistent.respects.transGen
        (((hconsistent.perm.map (·.id)).nodup_iff).mpr hdistinct) hdepends
    approved := fun step hstep operation hmem' hid => (hoperation step hstep operation hmem' hid).1
    approvedEffects := fun step hstep operation hmem' hid hpolicy hcalls hhides =>
      (hoperation step hstep operation hmem' hid).1 (confirmation_of_effects hpolicy hcalls hhides) }

end Accepted

/-! ## A step that reads without depending -/

def readListOperation : OperationSpec where
  id := "lists.get"
  resource := .list
  title := "Get list"
  description := "Read one list."
  inputSchema := [("type", .string "object"), ("required", .array [.string "id"])]
  effects := [.read .list]
  policy := ⟨.never, .optional, false⟩
  retry := .unconditional .safe
  state := none
  agent := ⟨[], [], []⟩
  lifecycle := .active
  mcpName := "listmonk_lists_get"
  openWorld := true

def readListStep (id : Text) (source : OperationPlaybookValueSource) : OperationPlaybookStep where
  id := id
  operation := "lists.get"
  approval := .none
  description := "Read a list."
  dependsOn := []
  input := [⟨"id", source⟩]

/-- A playbook whose second step reads the output of the first and depends on none. -/
def readTwicePlaybook : OperationPlaybook where
  id := "lists.read-twice"
  title := "Read twice"
  goal := "Read the list that another list names."
  inputs := [⟨"list_id", .number, true, "The first list."⟩]
  firstStep := readListStep "first" (.playbookInput "list_id")
  laterSteps := [readListStep "second" (.stepOutput "first" "id")]
  recoveryOperation := "lists.get"

/-- A specification with that playbook. -/
def readTwiceSpec : EmailOperationsSpec where
  resources := [⟨.list, ["active"], []⟩]
  operations := [readListOperation]
  events := []
  playbooks := [readTwicePlaybook]

theorem readTwice_accepted : defineEmailOperationsSpec readTwiceSpec = .ok () ∧
    ∀ playbook ∈ readTwiceSpec.playbooks, defineOperationPlaybook playbook = .ok () := by
  refine ⟨rfl, fun playbook hmem => ?_⟩
  rw [List.mem_singleton.mp hmem]
  rfl

/-- The playbook can be run as it is listed. -/
theorem runnable_readTwice : Runnable readTwiceSpec readTwicePlaybook :=
  acceptedPlaybook_runnable readTwice_accepted.1 readTwice_accepted.2 (List.mem_singleton.mpr rfl)

/-- The other order of its steps is consistent with the dependencies too, and there the second step
reads what has not been written. -/
theorem not_reads_in_every_order : ¬ ∀ (schema : EmailOperationsSpec) (playbook : OperationPlaybook),
    defineEmailOperationsSpec schema = .ok () →
    (∀ playbook ∈ schema.playbooks, defineOperationPlaybook playbook = .ok ()) →
    playbook ∈ schema.playbooks → ∀ order, ConsistentOrder playbook order →
      ∀ step ∈ playbook.steps, ∀ binding ∈ step.input, ∀ stepId path,
        binding.source = .stepOutput stepId path → Precedes (order.map (·.id)) stepId step.id := by
  intro hreads
  have hconsistent : ConsistentOrder readTwicePlaybook readTwicePlaybook.steps.reverse := by
    refine ⟨List.reverse_perm _, ?_⟩
    rintro dependency stepId ⟨step, hstep, -, hdepends⟩
    rcases List.mem_cons.mp hstep with rfl | hlater
    · simp [readTwicePlaybook, readListStep] at hdepends
    · rw [List.mem_singleton.mp hlater] at hdepends
      simp [readListStep] at hdepends
  obtain ⟨front, rest, hsplit, hmem⟩ := hreads readTwiceSpec readTwicePlaybook
    readTwice_accepted.1 readTwice_accepted.2 (List.mem_singleton.mpr rfl) _ hconsistent
    (readListStep "second" (.stepOutput "first" "id")) (by simp [OperationPlaybook.steps,
      readTwicePlaybook]) _ (List.mem_singleton.mpr rfl) "first" "id" rfl
  have horder : (readTwicePlaybook.steps.reverse.map (·.id)) = [("second" : Text), "first"] := rfl
  rw [horder] at hsplit
  cases front with
  | nil => simp at hmem
  | cons first front =>
      obtain ⟨-, hrest⟩ := List.cons.inj hsplit
      have hsecond : (readListStep "second" (.stepOutput "first" "id")).id ∈ [("first" : Text)] := by
        rw [hrest]
        simp
      simp [readListStep] at hsecond

end ListmonkOps.Specs
