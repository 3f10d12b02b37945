/-
Responses of the Listmonk client as the operations take them.

Every operation takes an answer apart in the same two ways: it asks for the data
of a response, which an error envelope does not have, and where it changed
something it asks for data that is `true`, because Listmonk answers a mutation
it did not perform with `false` and no error.
-/

import ListmonkOps.Experiment.Client
import ListmonkOps.Runtime.JsonFileStore
import ListmonkOps.Runtime.Stringify

namespace ListmonkOps.Operations

open ListmonkOps.Math ListmonkOps.Runtime
open ListmonkOps.Experiment (JsValue Answer)

/-! ## Values -/

/-- `value === text`. -/
def isText (value : JsValue) (text : Text) : Bool :=
  match value with
  | .string t => t = text
  | _ => false

theorem isText_iff {value : JsValue} {text : Text} :
    isText value text = true ↔ value = .string text := by
  cases value <;> simp [isText]

/-- `value ?? default`. -/
def orElse (value default : JsValue) : JsValue :=
  match value with
  | .undefined | .null => default
  | _ => value

/-! ## Responses -/

def outcome : Answer → Except JsValue JsValue
  | .returned value => .ok value
  | .thrown error => .error error

def toResourceErrorMessage (error : JsValue) : Text :=
  match error with
  | .error _ message _ => message
  | .object _ | .array _ =>
      match error.member? "message", error.member? "error" with
      | some (.string message), _ => message
      | _, some (.string message) => message
      | _, _ => error.toJson
  | _ => error.toText

/-- `ResourceResponseError`; its status and its cause are members. -/
def resourceResponseError (message : Text) (status cause : JsValue) : JsValue :=
  .error "ResourceResponseError" message [("cause", cause), ("status", status)]

/-- The data of a response; an envelope that carries an error is thrown. -/
def unwrapResourceResponse (response : JsValue) (context : Text) : Except JsValue JsValue := do
  let error ← response.property "error"
  let status := (response.property? "response").property? "status"
  match error with
  | .undefined =>
      match response.property? "data" with
      | .undefined =>
          throw (resourceResponseError (context ++ (": received empty data" : Text)) status .undefined)
      | data => pure data
  | error =>
      throw (resourceResponseError
        (context ++ (": " : Text) ++ toResourceErrorMessage error) status error)

/-- A mutation counts as performed where its data is `true`. -/
def requireAcknowledgement (response : JsValue) (context : Text) : Except JsValue Unit := do
  match ← unwrapResourceResponse response context with
  | .boolean true => pure ()
  | _ =>
      throw (.ofMessage
        (context ++ (": Listmonk returned a negative acknowledgement" : Text)))

/-- The server acknowledged a mutation: no error, and data that is `true`. -/
def Acknowledged (answer : Answer) : Prop :=
  ∃ response, answer = .returned response ∧ Experiment.envelopeError? response = none ∧
    response.property? "data" = .boolean true

end ListmonkOps.Operations
