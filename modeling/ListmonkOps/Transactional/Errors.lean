/-
What a `catch` clause sees of a thrown value.

The transactional sender and the sequence engine decide what to do next from
the class of a caught value, the HTTP status it carries, its message and the
error codes along its cause chain. This module keeps exactly those parts.
-/

import ListmonkOps.Runtime.Text

namespace ListmonkOps.Transactional

open ListmonkOps.Runtime

/-- Persisted status of an idempotency record. -/
inductive TransactionalSendStatus where
  | pending
  | accepted
  | failed
  | unknown
  deriving DecidableEq

def TransactionalSendStatus.text : TransactionalSendStatus → Text
  | .pending => "pending"
  | .accepted => "accepted"
  | .failed => "failed"
  | .unknown => "unknown"

/-- The classes that `instanceof` tests tell apart. -/
inductive ErrorKind where
  /-- Not an `Error` at all; anything can be thrown. -/
  | value
  /-- An `Error` of a class nobody tests for. -/
  | error
  /-- A `TransactionalReconcileError` with its key and record status. -/
  | reconcile (key : Text) (status : TransactionalSendStatus)
  /-- A `ResourceResponseError` with its HTTP status. -/
  | resourceResponse (status : Option ℤ)
  deriving DecidableEq

/-- A thrown value, as far as the code that catches it looks. -/
structure Thrown where
  /-- Its class. -/
  kind : ErrorKind := .error
  /-- `error.message`, or `String(error)` for a value that is not an `Error`. -/
  message : Text
  /-- `error.httpStatus` when it is a number. -/
  httpStatus : Option ℤ := none
  /-- `error.code` when it is a string. -/
  code : Option Text := none
  /-- `error.cause.code` when the cause is an `Error` and the code a string. -/
  causeCode : Option Text := none
  /-- The code of the cause's cause, under the same conditions. -/
  nestedCauseCode : Option Text := none
  deriving DecidableEq

/-- Is an error of another class than the sender's own? -/
def Thrown.isForeign (error : Thrown) : Bool :=
  match error.kind with
  | .reconcile _ _ => false
  | _ => true

/-- `collectErrorCodes`: the non-empty codes along the cause chain. -/
def collectErrorCodes (error : Thrown) : List Text :=
  ([error.code, error.causeCode, error.nestedCauseCode].filterMap id).filter (· ≠ [])

/-- The error codes of Node and Bun for a request that never left. -/
def codeSignals : List Text :=
  ["ECONNREFUSED", "ENOTFOUND", "ConnectionRefused", "GetAddrInfoFailed", "HostNotFoundError"]

def messageSignals : List Text := ["econnrefused", "enotfound"]

/-- Does a dispatch failure prove that the request never reached Listmonk? An
HTTP status is authoritative; without one the message and the codes decide. -/
def isDefinitivePreDispatchError [CaseMapping] (error : Thrown) : Bool :=
  if error.kind = .value then false
  else
    match error.httpStatus with
    | some httpStatus => 400 ≤ httpStatus && httpStatus < 500
    | none =>
        messageSignals.any (fun signal =>
            Text.includes (CaseMapping.toLowerCase error.message) signal) ||
          (collectErrorCodes error).any (codeSignals.contains ·)

/-- `isResourceMissingError`: a resource request answered with 404. -/
def isResourceMissingError (error : Thrown) : Bool :=
  error.kind = .resourceResponse (some 404)

/-- The `RangeError` of `toISOString` on a date out of range. -/
def invalidTimeValue : Thrown := { message := "Invalid time value" }

def operationInputError (message : Text) : Thrown := { message }

def transactionalReconcileError (key : Text) (status : TransactionalSendStatus)
    (message : Text) : Thrown :=
  { kind := .reconcile key status, message }

end ListmonkOps.Transactional
