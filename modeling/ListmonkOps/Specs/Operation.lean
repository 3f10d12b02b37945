/-
The specification of an operation, and the operation that is run.

A specification carries the effects of an operation and the policy derived from
them. The operation that is run carries hints about its safety instead, which
must be the ones projected from the specification, and its execution
requirements are derived from these hints.
-/

import ListmonkOps.Runtime.JsonFileStore
import ListmonkOps.Specs.Policy

namespace ListmonkOps.Specs

open ListmonkOps.Runtime

/-! ## Retry semantics -/

/-- `UnconditionalRetrySemantics`; the second is called `unsafe`. -/
inductive UnconditionalRetrySemantics where
  | safe
  | notSafe
  | reconcile (reconcileWith : Text) (idempotent : Bool)

/-- `RetrySemantics`; a case is kept without the condition it is for. -/
inductive RetrySemantics where
  | unconditional (semantics : UnconditionalRetrySemantics)
  | conditional (cases : List UnconditionalRetrySemantics)

def unconditionalRetryIsIdempotent : UnconditionalRetrySemantics → Bool
  | .safe => true
  | .reconcile _ idempotent => idempotent
  | .notSafe => false

def retryIsIdempotent : RetrySemantics → Bool
  | .conditional cases => cases.all unconditionalRetryIsIdempotent
  | .unconditional semantics => unconditionalRetryIsIdempotent semantics

/-! ## Specifications -/

inductive OperationSpecLifecycle where
  | active
  | deprecated (replacedBy : Text)

structure OperationStateTransitionSpec where
  resource : OperationResourceKind
  fromStates : List Text
  toState : Text

/-- The operations an `AgentOperationContext` refers to. -/
structure AgentOperationContext where
  prerequisites : List Text
  verifyWith : List Text
  related : List Text

/-- `AnyOperationSpec`. -/
structure OperationSpec where
  id : Text
  resource : OperationResourceKind
  title : Text
  description : Text
  /-- `contract.input.schema`. -/
  inputSchema : List (Text × Value)
  effects : List OperationEffect
  policy : OperationPolicy
  retry : RetrySemantics
  state : Option OperationStateTransitionSpec
  agent : AgentOperationContext
  lifecycle : OperationSpecLifecycle
  /-- `projection.mcpName`. -/
  mcpName : Text
  /-- `projection.openWorld`. -/
  openWorld : Bool

def operationSpecIsReadOnly (operation : OperationSpec) : Bool :=
  operation.effects.all fun effect => effect.kind = .read

def operationSpecIsIdempotent (operation : OperationSpec) : Bool :=
  retryIsIdempotent operation.retry

/-! ## Operations that are run -/

structure OperationSafety where
  readOnlyHint : Bool
  destructiveHint : Bool
  idempotentHint : Bool
  openWorldHint : Bool
  deriving DecidableEq

structure RuntimeOperationProjection where
  id : Text
  title : Text
  description : Text
  mcpName : Text
  safety : OperationSafety

/-- The hints projected from a specification. -/
def expectedSafety (spec : OperationSpec) : OperationSafety where
  readOnlyHint := operationSpecIsReadOnly spec
  destructiveHint := spec.policy.confirmation = .required
  idempotentHint := operationSpecIsIdempotent spec
  openWorldHint := spec.openWorld

/-- `String(value)` of a Boolean. -/
def booleanText (value : Bool) : Text := if value then "true" else "false"

/-- The operation must be the one of the specification. -/
def checkIdProjection (actual expected : Text) : Except Text Unit :=
  if actual = expected then .ok ()
  else .error (("Runtime operation " : Text) ++ actual ++
    (" does not match operation spec " : Text) ++ expected)

/-- A text of the operation must be the one of the specification. -/
def checkTextProjection (id field actual expected : Text) : Except Text Unit :=
  if actual = expected then .ok ()
  else .error (("Runtime operation " : Text) ++ id ++ (" " : Text) ++ field ++
    (" drifted from its operation spec: expected " : Text) ++ quote expected ++
    (", received " : Text) ++ quote actual)

/-- A hint of the operation must be the one of the specification. -/
def checkHintProjection (id key : Text) (actual expected : Bool) : Except Text Unit :=
  if actual = expected then .ok ()
  else .error (("Runtime operation " : Text) ++ id ++ (" " : Text) ++ key ++
    (" drifted from its operation spec: expected " : Text) ++ booleanText expected ++
    (", received " : Text) ++ booleanText actual)

/-- `assertRuntimeOperationProjection`; a `TypeError` is its message. -/
def assertRuntimeOperationProjection (spec : OperationSpec) (runtime : RuntimeOperationProjection) :
    Except Text Unit := do
  checkIdProjection runtime.id spec.id
  checkTextProjection runtime.id "title" runtime.title spec.title
  checkTextProjection runtime.id "description" runtime.description spec.description
  checkTextProjection runtime.id "mcpName" runtime.mcpName spec.mcpName
  let expected := expectedSafety spec
  checkHintProjection runtime.id "readOnlyHint" runtime.safety.readOnlyHint expected.readOnlyHint
  checkHintProjection runtime.id "destructiveHint" runtime.safety.destructiveHint
    expected.destructiveHint
  checkHintProjection runtime.id "idempotentHint" runtime.safety.idempotentHint
    expected.idempotentHint
  checkHintProjection runtime.id "openWorldHint" runtime.safety.openWorldHint
    expected.openWorldHint

structure OperationExecutionPolicy where
  confirmationRequired : Bool
  auditRequired : Bool
  dryRunSupported : Bool
  deriving DecidableEq

def isBooleanSchema : Value → Bool
  | .object members =>
      match Value.get members "type" with
      | .string type => type = ("boolean" : Text)
      | _ => false
  | _ => false

/-- `supportsDryRunInput`, of the members of an object schema. -/
def supportsDryRunInput (inputJsonSchema : List (Text × Value)) : Bool :=
  match Value.get inputJsonSchema "properties" with
  | .object properties => isBooleanSchema (Value.get properties "dry_run")
  | _ => false

def getOperationExecutionPolicy (safety : OperationSafety) (inputJsonSchema : List (Text × Value)) :
    OperationExecutionPolicy where
  confirmationRequired := safety.destructiveHint
  auditRequired := !safety.readOnlyHint
  dryRunSupported := supportsDryRunInput inputJsonSchema

/-! ## Operations that pass the checks -/

theorem checkHintProjection_ok {id key : Text} {actual expected : Bool} {done : Unit}
    (h : checkHintProjection id key actual expected = .ok done) : actual = expected := by
  rw [checkHintProjection] at h
  split at h
  · assumption
  · cases h

theorem assertRuntimeOperationProjection_ok {spec : OperationSpec}
    {runtime : RuntimeOperationProjection}
    (h : assertRuntimeOperationProjection spec runtime = .ok ()) :
    runtime.safety = expectedSafety spec := by
  rw [assertRuntimeOperationProjection] at h
  obtain ⟨-, -, h⟩ := except_bind_eq_ok.mp h
  obtain ⟨-, -, h⟩ := except_bind_eq_ok.mp h
  obtain ⟨-, -, h⟩ := except_bind_eq_ok.mp h
  obtain ⟨-, -, h⟩ := except_bind_eq_ok.mp h
  obtain ⟨_, hreadOnly, h⟩ := except_bind_eq_ok.mp h
  obtain ⟨_, hdestructive, h⟩ := except_bind_eq_ok.mp h
  obtain ⟨_, hidempotent, hopenWorld⟩ := except_bind_eq_ok.mp h
  have hsafety : runtime.safety = ⟨runtime.safety.readOnlyHint, runtime.safety.destructiveHint,
      runtime.safety.idempotentHint, runtime.safety.openWorldHint⟩ := rfl
  rw [hsafety, checkHintProjection_ok hreadOnly, checkHintProjection_ok hdestructive,
    checkHintProjection_ok hidempotent, checkHintProjection_ok hopenWorld]

/-! ## The policy as a join -/

/-- The policy derived from the specification of an accepted operation and the
one derived from its hints agree. -/
def ProjectionsAgree (effects : List OperationEffect) : Prop :=
  ∀ (spec : OperationSpec) (runtime : RuntimeOperationProjection)
    (inputJsonSchema : List (Text × Value)), spec.effects = effects →
    assertPolicyMatchesEffects spec.effects spec.policy = .ok () →
    assertRuntimeOperationProjection spec runtime = .ok () →
    let execution := getOperationExecutionPolicy runtime.safety inputJsonSchema
    (execution.confirmationRequired = true ↔ spec.policy.confirmation = .required) ∧
      (execution.auditRequired = true ↔ spec.policy.audit = .required)

/-- The policy of the effects is the join of the policies of single effects. -/
structure IsJoinOfEffects (effects : List OperationEffect) : Prop where
  /-- Order and repetition do not matter. -/
  unordered : ∀ effects', (∀ effect, effect ∈ effects' ↔ effect ∈ effects) →
    expectedPolicyForEffects effects' = expectedPolicyForEffects effects
  /-- Adding effects to some of these never weakens the policy. -/
  monotone : ∀ part ⊆ effects, ∀ policy weaker,
    expectedPolicyForEffects effects = .ok policy → expectedPolicyForEffects part = .ok weaker →
    policy.AtLeast weaker
  confirmation : ∀ policy, expectedPolicyForEffects effects = .ok policy →
    (policy.confirmation = .required ↔
      ∃ effect ∈ effects, ∃ alone, expectedPolicyForEffects [effect] = .ok alone ∧
        alone.confirmation = .required)
  audit : ∀ policy, expectedPolicyForEffects effects = .ok policy →
    (policy.audit = .required ↔
      ∃ effect ∈ effects, ∃ alone, expectedPolicyForEffects [effect] = .ok alone ∧
        alone.audit = .required)
  readOnly : ∀ policy, expectedPolicyForEffects effects = .ok policy →
    (policy.audit = .required ↔ ¬ ∀ effect ∈ effects, effect.kind = .read)
  projections : ProjectionsAgree effects

theorem confirmation_alone_iff (effect : OperationEffect) :
    (∃ alone, expectedPolicyForEffects [effect] = .ok alone ∧ alone.confirmation = .required) ↔
      effect.callsForConfirmation = true := by
  have hhides : ¬ RecoveryHides [effect] := by
    rintro ⟨⟨_, hmem, hkind⟩, ⟨_, hmem', hcalls⟩, hlow⟩
    rw [List.mem_singleton.mp hmem] at hkind
    rw [List.mem_singleton.mp hmem'] at hcalls
    have hlow := hlow effect (List.mem_singleton_self effect)
    cases effect <;> simp_all [OperationEffect.kind, OperationEffect.callsForConfirmation,
      OperationEffect.isBulkDelivery, OperationEffect.isIrreversibleWrite]
  rw [expectedPolicyForEffects_of_not_conflicting (not_conflicting_singleton effect)]
  simp only [Except.ok.injEq, exists_eq_left', withDeclaredPreview]
  rw [tierPolicy_confirmation, and_iff_left hhides]
  simp

theorem audit_alone_iff (effect : OperationEffect) :
    (∃ alone, expectedPolicyForEffects [effect] = .ok alone ∧ alone.audit = .required) ↔
      effect.kind ≠ .read := by
  rw [expectedPolicyForEffects_of_not_conflicting (not_conflicting_singleton effect)]
  simp only [Except.ok.injEq, exists_eq_left', withDeclaredPreview]
  rw [tierPolicy_audit]
  simp

/-- Exact condition: no recoverable maintenance hides an effect that needs a
confirmation. -/
theorem isJoinOfEffects_iff {effects : List OperationEffect} (h : ¬ Conflicting effects) :
    IsJoinOfEffects effects ↔ ¬ RecoveryHides effects := by
  have hexpected := expectedPolicyForEffects_of_not_conflicting h
  constructor
  · rintro hjoin hhides
    have hrequired := (hjoin.confirmation _ hexpected).mpr (by
      obtain ⟨effect, hmem, hcalls⟩ := hhides.2.1
      exact ⟨effect, hmem, (confirmation_alone_iff effect).mpr hcalls⟩)
    exact ((tierPolicy_confirmation effects).mp hrequired).2 hhides
  · intro hhides
    have hconfirmation : ∀ policy, expectedPolicyForEffects effects = .ok policy →
        (policy.confirmation = .required ↔
          ∃ effect ∈ effects, effect.callsForConfirmation = true) := by
      intro policy hpolicy
      rw [hexpected] at hpolicy
      cases hpolicy
      exact (tierPolicy_confirmation effects).trans (and_iff_left hhides)
    have haudit : ∀ policy, expectedPolicyForEffects effects = .ok policy →
        (policy.audit = .required ↔ ∃ effect ∈ effects, effect.kind ≠ .read) := by
      intro policy hpolicy
      rw [hexpected] at hpolicy
      cases hpolicy
      exact tierPolicy_audit effects
    refine ⟨fun effects' hsame => expectedPolicyForEffects_congr hsame, ?_, ?_, ?_, ?_, ?_⟩
    · intro part hpart policy weaker hpolicy hweaker
      have hpart' : ¬ Conflicting part := fun hconflict => h (hconflict.mono hpart)
      rw [expectedPolicyForEffects_of_not_conflicting hpart'] at hweaker
      cases hweaker
      constructor
      · intro hrequired
        obtain ⟨⟨effect, hmem, hcalls⟩, -⟩ := (tierPolicy_confirmation part).mp hrequired
        exact (hconfirmation policy hpolicy).mpr ⟨effect, hpart hmem, hcalls⟩
      · intro hrequired
        obtain ⟨effect, hmem, hkind⟩ := (tierPolicy_audit part).mp hrequired
        exact (haudit policy hpolicy).mpr ⟨effect, hpart hmem, hkind⟩
    · intro policy hpolicy
      simp only [hconfirmation policy hpolicy, confirmation_alone_iff]
    · intro policy hpolicy
      simp only [haudit policy hpolicy, audit_alone_iff]
    · intro policy hpolicy
      rw [haudit policy hpolicy]
      push Not
      rfl
    · intro spec runtime inputJsonSchema heffects hpolicy haccepted
      have hsafety := assertRuntimeOperationProjection_ok haccepted
      have hderived := assertPolicyMatchesEffects_ok hpolicy
      rw [heffects] at hderived
      rw [getOperationExecutionPolicy, hsafety, haudit _ hderived]
      simp [expectedSafety, operationSpecIsReadOnly, heffects]

/-- A reversible write and a deletion. -/
theorem isJoinOfEffects_writeAndDelete :
    IsJoinOfEffects [.write .template true none, .delete .template (some false)] := by
  refine (isJoinOfEffects_iff ?_).mpr ?_
  · simp [Conflicting, OperationEffect.preview]
  · simp [RecoveryHides, OperationEffect.kind]

/-- A recovery and a deletion: the deletion alone needs a confirmation, and both
together do not. -/
theorem not_isJoinOfEffects_recoverAndDelete :
    let effects : List OperationEffect := [.maintenance .webhook .recover none, .delete .webhook none]
    ¬ Conflicting effects ∧
      expectedPolicyForEffects [.delete .webhook none] = .ok ⟨.required, .required, false⟩ ∧
      expectedPolicyForEffects effects = .ok ⟨.never, .required, true⟩ ∧
      ¬ IsJoinOfEffects effects := by
  have hconflict : ¬ Conflicting [.maintenance .webhook .recover none, .delete .webhook none] := by
    simp [Conflicting, OperationEffect.preview]
  refine ⟨hconflict, rfl, rfl, fun hjoin => ?_⟩
  have hconfirmation := (hjoin.confirmation _ rfl).mpr
    ⟨.delete .webhook none, by simp, _, rfl, rfl⟩
  cases hconfirmation

end ListmonkOps.Specs
