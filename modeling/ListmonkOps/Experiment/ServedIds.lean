/-
Ids that the service gave out.

The record of a test names its campaigns and lists by the ids that came back from the
service when they were created, or when an earlier attempt's were found by their tags.
As long as every response numbers what it names from one, so does the record.
-/

import ListmonkOps.Experiment.Creation
import ListmonkOps.Experiment.FilledLists

namespace ListmonkOps.Experiment

open ListmonkOps.Math ListmonkOps.Runtime
open Fallible (assuming_bind assuming_lift)

/-! ## Answers -/

/-- Where a response carries ids: in its data, and in the rows of its data. -/
def servedIds (response : JsValue) : List JsValue :=
  let data := response.property? "data"
  data.property? "id" :: ((resultRows data).toOption.getD []).map (·.property? "id")

/-- The campaigns and lists of the service are numbered from one. -/
def numbersFromOne (response : JsValue) : Bool :=
  (servedIds response).all fun
    | .number id => positiveIntegerSchema id
    | _ => true

/-- The call came back, without a member `error`, and with the ids of the service. -/
def Answer.succeeded : Answer → Bool
  | .returned response =>
      response.members?.isSome && (response.member? "error").isNone && numbersFromOne response
  | .thrown _ => false

/-- As long as every call succeeds, what is returned satisfies `Q`. -/
def Reads {α : Type} (x : Remote α) (Q : α → Prop) : Prop :=
  Fallible.Assuming (fun _ answer => answer.succeeded) (fun _ => True) x Q

/-- `Reads` of a program that catches what it awaits. -/
def Collects {α : Type} (x : Program Call Answer α) (Q : α → Prop) : Prop :=
  x.Assuming (fun _ answer => answer.succeeded) (fun _ => True) Q

section Rules

variable {α β : Type} {x : Remote α} {p : Program Call Answer α} {Q Q' : α → Prop}

theorem Collects.imp (h : Collects p Q) (returns : ∀ a, Q a → Q' a) : Collects p Q' :=
  Program.Assuming.imp h returns

theorem Collects.bind {f : α → Program Call Answer β} {Q : β → Prop}
    (h : Collects p fun a => Collects (f a) Q) : Collects (p >>= f) Q :=
  Program.assuming_bind.mpr h

namespace Reads

theorem imp (h : Reads x Q) (returns : ∀ a, Q a → Q' a) : Reads x Q' := Fallible.Assuming.imp h returns

theorem bind {f : α → Remote β} {Q : β → Prop} (h : Reads x fun a => Reads (f a) Q) :
    Reads (x >>= f) Q :=
  assuming_bind.mpr h

theorem lift {Q : α → Prop} (h : Collects p Q) : Reads (ExceptT.lift p) Q := assuming_lift.mpr h

theorem pure {a : α} (h : Q a) : Reads (pure a) Q := h

theorem throw {error : JsValue} : Reads (throw error : Remote α) Q := trivial

theorem ofExcept {outcome : Except JsValue α} (h : ∀ a, outcome = .ok a → Q a) :
    Reads (ofExcept outcome) Q := by
  cases outcome with
  | ok a => exact h a rfl
  | error error => trivial

theorem await {call : Call} {Q : JsValue → Prop}
    (h : ∀ response, numbersFromOne response → Q response) :
    Reads (await call) Q := by
  refine ⟨trivial, fun answer hanswer => ?_⟩
  cases answer with
  | returned response =>
      rw [Answer.succeeded, Bool.and_eq_true] at hanswer
      exact h response hanswer.2
  | thrown error => trivial

end Reads

end Rules

/-! ## Reading ids -/

section Campaigns

variable {test : AbTest} {baseConfig : BaseConfig}

end Campaigns

/-! ## Lists -/

section Lists

variable {adoptedIds : Text → Option ℤ} {body : ListBody} {context : Text} {ids created : List ℤ}

variable [AssignmentPlatform] {originalLists : List ℤ} {variants : List Variant} {testId : Text}

end Lists

/-! ## Records -/

/-- The campaigns and lists of a record are numbered as the server numbers them, from one. -/
structure Numbered (test : AbTest) : Prop where
  campaigns : ∀ mapping ∈ test.campaignMappings, positiveIntegerSchema mapping.campaignId
  lists : ∀ mapping ∈ test.testListMappings, positiveIntegerSchema mapping.listId
  holdout : ∀ id ∈ test.holdoutListId, positiveIntegerSchema id

section Records

variable {test : AbTest}

variable [AssignmentPlatform]

end Records

/-! ## The operation -/

/-- A call of the client succeeded, or a write went through. -/
def Succeeded : Effect × Answer → Bool
  | (.remote _, answer) => answer.succeeded
  | (.commit _, .returned _) => true
  | (.commit _, .thrown _) => false

/-- A record that is written satisfies `P`. -/
def Effect.Writes (P : AbTest → Prop) : Effect → Prop
  | .remote _ => True
  | .commit test => P test

instance {P : AbTest → Prop} [DecidablePred P] : DecidablePred (Effect.Writes P)
  | .remote _ => isTrue trivial
  | .commit test => inferInstanceAs (Decidable (P test))

/-- As long as everything succeeds, an operation writes numbered records, and what it
returns satisfies `Q`. -/
def Numbers {α : Type} (x : Stored α) (Q : α → Prop) : Prop :=
  Fallible.Assuming (fun effect answer => Succeeded (effect, answer)) (Effect.Writes Numbered) x Q

section Operation

variable {α : Type} {test : AbTest}

variable [AssignmentPlatform] [RequestFingerprint]

end Operation

end ListmonkOps.Experiment
