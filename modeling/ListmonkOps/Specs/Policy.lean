/-
The safety policy of an operation, derived from its effects.

An operation declares what it does as a list of effects. The policy is picked by
the first tier that one of the effects falls into, and a declared preview
capability replaces the one of the tier. Every tier is a property of single
effects, so that order and repetition do not matter; but the tier of recoverable
maintenance, which needs no confirmation, stands above tiers that need one.
-/

import Mathlib.Data.List.Dedup
import ListmonkOps.Runtime.Stringify

namespace ListmonkOps.Specs

open ListmonkOps.Runtime

/-! ## Effects -/

inductive OperationResourceKind where
  | campaign
  | subscriber
  | message
  | audience
  | list
  | template
  | media
  | provider
  | experiment
  | sequence
  | spec
  | playbook
  | control
  | operation
  | webhook
  | userRole
  deriving DecidableEq

/-- The audience of a delivery or of a webhook. -/
inductive EffectAudience where
  | single
  | bulk
  deriving DecidableEq

/-- The timing of a delivery. -/
inductive DeliveryTiming where
  | immediate
  | scheduled
  deriving DecidableEq

/-- The action of a maintenance effect. -/
inductive MaintenanceAction where
  | recover
  | prune
  | replay
  | resolve
  deriving DecidableEq

/-- Every action but `recover` is destructive. -/
def MaintenanceAction.destructive (action : MaintenanceAction) : Bool := action ≠ .recover

/-- `OperationEffect`. A webhook effect is about the resource `webhook`, and a
deletion is never reversible. -/
inductive OperationEffect where
  | read (resource : OperationResourceKind)
  | write (resource : OperationResourceKind) (reversible : Bool) (preview : Option Bool)
  | delivery (resource : OperationResourceKind) (audience : EffectAudience)
      (timing : DeliveryTiming) (preview : Option Bool)
  | webhook (audience : EffectAudience) (preview : Option Bool)
  | maintenance (resource : OperationResourceKind) (action : MaintenanceAction)
      (preview : Option Bool)
  | suppression (resource scope : OperationResourceKind) (reversible : Bool)
      (preview : Option Bool)
  | delete (resource : OperationResourceKind) (preview : Option Bool)
  deriving DecidableEq

inductive EffectKind where
  | read
  | write
  | delivery
  | webhook
  | maintenance
  | suppression
  | delete
  deriving DecidableEq

namespace OperationEffect

def kind : OperationEffect → EffectKind
  | .read .. => .read
  | .write .. => .write
  | .delivery .. => .delivery
  | .webhook .. => .webhook
  | .maintenance .. => .maintenance
  | .suppression .. => .suppression
  | .delete .. => .delete

def resource : OperationEffect → OperationResourceKind
  | .read resource | .write resource .. | .delivery resource .. | .maintenance resource .. |
    .suppression resource .. | .delete resource .. => resource
  | .webhook .. => .webhook

def preview : OperationEffect → Option Bool
  | .read _ => none
  | .write _ _ preview | .delivery _ _ _ preview | .webhook _ preview | .maintenance _ _ preview |
    .suppression _ _ _ preview | .delete _ preview => preview

/-- `effect.kind === "maintenance" && effect.destructive`. -/
def isDestructiveMaintenance : OperationEffect → Bool
  | .maintenance _ action _ => action.destructive
  | _ => false

/-- `effect.kind === "delivery" && effect.audience === "bulk"`. -/
def isBulkDelivery : OperationEffect → Bool
  | .delivery _ audience _ _ => audience = .bulk
  | _ => false

/-- `effect.kind === "write" && effect.reversible === false`. -/
def isIrreversibleWrite : OperationEffect → Bool
  | .write _ reversible _ => !reversible
  | _ => false

end OperationEffect

open OperationEffect

/-! ## Policies -/

/-- Whether an operation needs a confirmation. -/
inductive Confirmation where
  | never
  | required
  deriving DecidableEq

/-- Whether an operation is audited. -/
inductive Audit where
  | optional
  | required
  deriving DecidableEq

structure OperationPolicy where
  confirmation : Confirmation
  audit : Audit
  dryRun : Bool
  deriving DecidableEq

namespace OperationPolicy

/-- `JSON.stringify(policy)`. -/
def toJson (policy : OperationPolicy) : Text :=
  (JsonTree.object [
    ("confirmation", .string (match policy.confirmation with
      | .never => "never"
      | .required => "required")),
    ("audit", .string (match policy.audit with
      | .optional => "optional"
      | .required => "required")),
    ("dryRun", .boolean policy.dryRun)]).render

/-- One policy asks for a confirmation and for an audit wherever another does. -/
def AtLeast (policy weaker : OperationPolicy) : Prop :=
  (weaker.confirmation = .required → policy.confirmation = .required) ∧
    (weaker.audit = .required → policy.audit = .required)

end OperationPolicy

def hasEffectKind (effects : List OperationEffect) (kinds : List EffectKind) : Bool :=
  effects.any fun effect => effect.kind ∈ kinds

/-- `declaredPreview`: the distinct declarations. -/
def declaredPreview (effects : List OperationEffect) : List Bool :=
  (effects.filterMap preview).dedup

def withDeclaredPreview (effects : List OperationEffect) (policy : OperationPolicy) :
    OperationPolicy :=
  { policy with dryRun := (declaredPreview effects).head?.getD policy.dryRun }

def tierPolicy (effects : List OperationEffect) : OperationPolicy :=
  if hasEffectKind effects [.suppression] then ⟨.required, .required, true⟩
  else if effects.any isDestructiveMaintenance then ⟨.required, .required, true⟩
  else if hasEffectKind effects [.maintenance] then ⟨.never, .required, true⟩
  else if hasEffectKind effects [.webhook] then ⟨.required, .required, false⟩
  else if effects.any isBulkDelivery || hasEffectKind effects [.delete] then
    ⟨.required, .required, false⟩
  else if effects.any isIrreversibleWrite then ⟨.required, .required, false⟩
  else if hasEffectKind effects [.delivery, .write] then ⟨.never, .required, false⟩
  else ⟨.never, .optional, false⟩

/-- `expectedPolicyForEffects`; a `TypeError` is its message. -/
def expectedPolicyForEffects (effects : List OperationEffect) : Except Text OperationPolicy :=
  if 1 < (declaredPreview effects).length then
    .error "Operation effects must not declare conflicting preview capabilities"
  else .ok (withDeclaredPreview effects (tierPolicy effects))

def assertPolicyMatchesEffects (effects : List OperationEffect) (policy : OperationPolicy) :
    Except Text Unit := do
  let expected ← expectedPolicyForEffects effects
  if policy.confirmation ≠ expected.confirmation || policy.audit ≠ expected.audit ||
      policy.dryRun ≠ expected.dryRun then
    .error (("Operation policy " : Text) ++ policy.toJson ++
      (" does not match effects; expected " : Text) ++ expected.toJson)

theorem assertPolicyMatchesEffects_ok {effects : List OperationEffect} {policy : OperationPolicy}
    (h : assertPolicyMatchesEffects effects policy = .ok ()) :
    expectedPolicyForEffects effects = .ok policy := by
  rw [assertPolicyMatchesEffects] at h
  cases hexpected : expectedPolicyForEffects effects with
  | error message =>
      rw [hexpected] at h
      cases h
  | ok expected =>
      rw [hexpected] at h
      change (if _ then _ else _) = _ at h
      split at h
      · cases h
      · next hsame =>
          obtain ⟨confirmation, audit, dryRun⟩ := policy
          obtain ⟨confirmation', audit', dryRun'⟩ := expected
          simp_all

/-! ## Preview declarations -/

/-- The effects declare that there is a preview and that there is none. -/
def Conflicting (effects : List OperationEffect) : Prop :=
  (∃ effect ∈ effects, effect.preview = some true) ∧
    ∃ effect ∈ effects, effect.preview = some false

theorem mem_declaredPreview {effects : List OperationEffect} {value : Bool} :
    value ∈ declaredPreview effects ↔ ∃ effect ∈ effects, effect.preview = some value := by
  rw [declaredPreview, List.mem_dedup, List.mem_filterMap]

theorem one_lt_length_declaredPreview {effects : List OperationEffect} :
    1 < (declaredPreview effects).length ↔ Conflicting effects := by
  have hnodup : (declaredPreview effects).Nodup := List.nodup_dedup _
  rw [Conflicting, ← mem_declaredPreview, ← mem_declaredPreview]
  match declaredPreview effects, hnodup with
  | [], _ => simp
  | [value], _ => cases value <;> simp
  | first :: second :: rest, hnodup =>
      have hne : first ≠ second := by
        rintro rfl
        simp at hnodup
      cases first <;> cases second <;> simp_all

/-- Without a conflict the first declaration is the only one. -/
theorem head?_declaredPreview {effects : List OperationEffect} (h : ¬ Conflicting effects)
    (value : Bool) :
    (declaredPreview effects).head? = some value ↔
      ∃ effect ∈ effects, effect.preview = some value := by
  rw [← one_lt_length_declaredPreview] at h
  rw [← mem_declaredPreview]
  match declaredPreview effects, h with
  | [], _ => simp
  | [first], _ => simp [eq_comm]
  | first :: second :: rest, h => simp at h

theorem expectedPolicyForEffects_of_not_conflicting {effects : List OperationEffect}
    (h : ¬ Conflicting effects) :
    expectedPolicyForEffects effects = .ok (withDeclaredPreview effects (tierPolicy effects)) := by
  rw [expectedPolicyForEffects, if_neg (by rwa [one_lt_length_declaredPreview])]

theorem Conflicting.mono {part effects : List OperationEffect} (h : Conflicting part)
    (hsub : part ⊆ effects) : Conflicting effects := by
  obtain ⟨⟨yes, hyes, hpreview⟩, no, hno, hpreview'⟩ := h
  exact ⟨⟨yes, hsub hyes, hpreview⟩, no, hsub hno, hpreview'⟩

theorem not_conflicting_singleton (effect : OperationEffect) : ¬ Conflicting [effect] := by
  simp only [Conflicting, List.mem_singleton, exists_eq_left]
  rintro ⟨hyes, hno⟩
  rw [hyes] at hno
  cases hno

/-! ## Order and repetition -/

section SameEffects

variable {effects effects' : List OperationEffect}

theorem any_congr_of_mem {p : OperationEffect → Bool}
    (h : ∀ effect, effect ∈ effects ↔ effect ∈ effects') : effects.any p = effects'.any p := by
  rw [Bool.eq_iff_iff, List.any_eq_true, List.any_eq_true]
  simp only [h]

theorem tierPolicy_congr (h : ∀ effect, effect ∈ effects ↔ effect ∈ effects') :
    tierPolicy effects = tierPolicy effects' := by
  have hany : ∀ p : OperationEffect → Bool, effects.any p = effects'.any p :=
    fun _ => any_congr_of_mem h
  have hkind : ∀ kinds, hasEffectKind effects kinds = hasEffectKind effects' kinds :=
    fun _ => any_congr_of_mem h
  rw [tierPolicy, hkind [.suppression], hany isDestructiveMaintenance, hkind [.maintenance],
    hkind [.webhook], hany isBulkDelivery, hkind [.delete], hany isIrreversibleWrite,
    hkind [.delivery, .write]]
  rfl

/-- The policy depends on which effects there are only. -/
theorem expectedPolicyForEffects_congr (h : ∀ effect, effect ∈ effects ↔ effect ∈ effects') :
    expectedPolicyForEffects effects = expectedPolicyForEffects effects' := by
  have hmem : ∀ value, (∃ effect ∈ effects, effect.preview = some value) ↔
      ∃ effect ∈ effects', effect.preview = some value := by
    intro value
    simp only [h]
  have hconflict : Conflicting effects ↔ Conflicting effects' := and_congr (hmem _) (hmem _)
  by_cases hcase : Conflicting effects
  · rw [expectedPolicyForEffects, expectedPolicyForEffects,
      if_pos (one_lt_length_declaredPreview.mpr hcase),
      if_pos (one_lt_length_declaredPreview.mpr (hconflict.mp hcase))]
  · have hcase' : ¬ Conflicting effects' := fun h => hcase (hconflict.mpr h)
    have hhead : (declaredPreview effects).head? = (declaredPreview effects').head? := by
      apply Option.ext
      intro value
      rw [head?_declaredPreview hcase, head?_declaredPreview hcase', hmem]
    rw [expectedPolicyForEffects_of_not_conflicting hcase,
      expectedPolicyForEffects_of_not_conflicting hcase', withDeclaredPreview,
      withDeclaredPreview, hhead, tierPolicy_congr h]

end SameEffects

/-! ## What a list asks for -/

namespace OperationEffect

/-- The effect is above the tier of recoverable maintenance. -/
def outranksRecovery (effect : OperationEffect) : Bool :=
  effect.kind = .suppression || effect.isDestructiveMaintenance

/-- The effect alone needs a confirmation. -/
def callsForConfirmation (effect : OperationEffect) : Bool :=
  effect.outranksRecovery || effect.kind = .webhook || effect.isBulkDelivery ||
    effect.kind = .delete || effect.isIrreversibleWrite

end OperationEffect

/-- Recoverable maintenance hides an effect that needs a confirmation. -/
def RecoveryHides (effects : List OperationEffect) : Prop :=
  (∃ effect ∈ effects, effect.kind = .maintenance) ∧
    (∃ effect ∈ effects, effect.callsForConfirmation = true) ∧
    ∀ effect ∈ effects, effect.outranksRecovery = false

theorem hasEffectKind_iff {effects : List OperationEffect} {kinds : List EffectKind} :
    hasEffectKind effects kinds = true ↔ ∃ effect ∈ effects, effect.kind ∈ kinds := by
  simp [hasEffectKind]

theorem tierPolicy_confirmation (effects : List OperationEffect) :
    (tierPolicy effects).confirmation = .required ↔
      (∃ effect ∈ effects, effect.callsForConfirmation = true) ∧ ¬ RecoveryHides effects := by
  by_cases htop : ∃ effect ∈ effects, effect.outranksRecovery = true
  · have hrequired : (tierPolicy effects).confirmation = .required := by
      obtain ⟨effect, hmem, htop⟩ := htop
      rw [outranksRecovery, Bool.or_eq_true, decide_eq_true_eq] at htop
      rw [tierPolicy]
      split_ifs with hsuppression hdestructive
      · rfl
      · rfl
      all_goals
        exfalso
        rcases htop with hkind | hkind
        · exact hsuppression (hasEffectKind_iff.mpr ⟨effect, hmem, by simp [hkind]⟩)
        · exact hdestructive (List.any_eq_true.mpr ⟨effect, hmem, hkind⟩)
    obtain ⟨effect, hmem, htop⟩ := htop
    refine iff_of_true hrequired ⟨⟨effect, hmem, by simp [callsForConfirmation, htop]⟩, ?_⟩
    rintro ⟨-, -, hlow⟩
    rw [hlow effect hmem] at htop
    cases htop
  · have hlow : ∀ effect ∈ effects, effect.outranksRecovery = false := by
      intro effect hmem
      by_contra hhigh
      exact htop ⟨effect, hmem, by simpa using hhigh⟩
    have hsuppression : hasEffectKind effects [.suppression] = false := by
      rw [← Bool.not_eq_true, hasEffectKind_iff]
      rintro ⟨effect, hmem, hkind⟩
      have hlow := hlow effect hmem
      simp [outranksRecovery, List.mem_singleton.mp hkind] at hlow
    have hdestructive : effects.any isDestructiveMaintenance = false := by
      rw [List.any_eq_false]
      intro effect hmem hkind
      have hlow := hlow effect hmem
      simp [outranksRecovery, hkind] at hlow
    have hcalls : (∃ effect ∈ effects, effect.callsForConfirmation = true) ↔
        hasEffectKind effects [.webhook] = true ∨ effects.any isBulkDelivery = true ∨
          hasEffectKind effects [.delete] = true ∨ effects.any isIrreversibleWrite = true := by
      simp only [hasEffectKind_iff, List.any_eq_true, List.mem_singleton, ← exists_or,
        ← and_or_left]
      refine exists_congr fun effect => and_congr_right fun hmem => ?_
      simp [callsForConfirmation, hlow effect hmem, or_assoc]
    have hhides : RecoveryHides effects ↔ hasEffectKind effects [.maintenance] = true ∧
        ∃ effect ∈ effects, effect.callsForConfirmation = true := by
      rw [hasEffectKind_iff]
      simp only [List.mem_singleton]
      exact ⟨fun h => ⟨h.1, h.2.1⟩, fun h => ⟨h.1, h.2, hlow⟩⟩
    rw [tierPolicy, hsuppression, hdestructive, hhides, hcalls]
    generalize hasEffectKind effects [.maintenance] = maintenance
    generalize hasEffectKind effects [.webhook] = webhook
    generalize effects.any isBulkDelivery = bulk
    generalize hasEffectKind effects [.delete] = deletion
    generalize effects.any isIrreversibleWrite = irreversible
    generalize hasEffectKind effects [.delivery, .write] = mutation
    cases maintenance <;> cases webhook <;> cases bulk <;> cases deletion <;> cases irreversible <;>
      cases mutation <;> simp

/-- Every tier but the last is audited, and every effect but a read is in one. -/
theorem tierPolicy_audit (effects : List OperationEffect) :
    (tierPolicy effects).audit = .required ↔ ∃ effect ∈ effects, effect.kind ≠ .read := by
  constructor
  · intro haudit
    by_contra hnone
    push Not at hnone
    have hkind : ∀ kinds, EffectKind.read ∉ kinds → hasEffectKind effects kinds = false := by
      intro kinds hread
      rw [← Bool.not_eq_true, hasEffectKind_iff]
      rintro ⟨effect, hmem, hin⟩
      rw [hnone effect hmem] at hin
      exact hread hin
    have hany : ∀ p : OperationEffect → Bool, (∀ resource, p (.read resource) = false) →
        effects.any p = false := by
      intro p hp
      rw [List.any_eq_false]
      intro effect hmem
      have hread := hnone effect hmem
      cases effect with
      | read resource => simp [hp]
      | _ => cases hread
    rw [tierPolicy, hkind _ (by simp), hany _ (fun _ => rfl), hkind _ (by simp),
      hkind _ (by simp), hany _ (fun _ => rfl), hkind _ (by simp), hany _ (fun _ => rfl),
      hkind _ (by simp)] at haudit
    simp at haudit
  · rintro ⟨effect, hmem, hkind⟩
    rw [tierPolicy]
    split_ifs with h1 _ h2 h3 h4 _ h5
    case neg =>
      exfalso
      rw [Bool.or_eq_true, not_or] at h4
      simp only [hasEffectKind_iff, not_exists, not_and] at h1 h2 h3 h4 h5
      have := h1 effect hmem
      have := h2 effect hmem
      have := h3 effect hmem
      have := h4.2 effect hmem
      have := h5 effect hmem
      cases heffect : effect.kind <;> simp_all
    all_goals rfl

end ListmonkOps.Specs
