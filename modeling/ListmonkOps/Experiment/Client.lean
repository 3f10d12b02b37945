/-
The Listmonk client as the A/B test code sees it.

The generated client answers a call with a value of its own making: the data
the server sent, or an envelope that carries an error, or it throws. The code
looks at those values with the loose means of JavaScript, so they are kept as
the values they are: objects whose members may be missing, errors, texts. Only
integers occur as numbers, the ids and statuses of the remote side.
-/

import ListmonkOps.Math.Program
import ListmonkOps.Runtime.Stringify

namespace ListmonkOps.Experiment

open ListmonkOps.Math ListmonkOps.Runtime

/-- A JavaScript value that a call may return or throw. -/
inductive JsValue where
  | undefined
  | null
  | boolean (value : Bool)
  | number (value : ℤ)
  | string (value : Text)
  | array (items : List JsValue)
  | object (members : List (Text × JsValue))
  | /-- An instance of `Error` or of a class that extends it. -/
    error (name message : Text) (members : List (Text × JsValue))

namespace JsValue

def ofMessage (message : Text) : JsValue := .error "Error" message []

/-- The error of an operation on a value that does not support it. -/
def typeError (message : Text) : JsValue := .error "TypeError" message []

/-- Whether a condition takes the value for true. -/
def isTruthy : JsValue → Bool
  | .undefined | .null | .boolean false | .number 0 | .string [] => false
  | _ => true

/-- The members of an object; `none` where `typeof` is not `"object"` or the
value is `null`. -/
def members? : JsValue → Option (List (Text × JsValue))
  | .array _ => some []
  | .object members => some members
  | .error _ message members => some (("message", .string message) :: members)
  | _ => none

/-- The member under a name, where `name in value` holds. -/
def member? (value : JsValue) (name : Text) : Option JsValue :=
  value.members?.bind fun members => (members.find? (·.1 = name)).map Prod.snd

def property (value : JsValue) (name : Text) : Except JsValue JsValue :=
  match value with
  | .undefined | .null => .error (typeError "Cannot read properties of undefined or null")
  | _ => .ok ((value.member? name).getD .undefined)

/-- Read a property through `?.`. -/
def property? (value : JsValue) (name : Text) : JsValue :=
  (value.member? name).getD .undefined

/-- `String(value)`. -/
def toText : JsValue → Text
  | .undefined => "undefined"
  | .null => "null"
  | .boolean value => if value then "true" else "false"
  | .number value => (if value < 0 then ("-" : Text) else []) ++ Text.ofNat value.natAbs
  | .string value => value
  | .array items => itemTexts items
  | .object _ => "[object Object]"
  | .error name message _ => if message = [] then name else name ++ (": " : Text) ++ message
where
  /-- The items of an array, separated by commas. -/
  itemTexts : List JsValue → Text
    | [] => []
    | [item] => itemText item
    | item :: items => itemText item ++ ("," : Text) ++ itemTexts items
  /-- An item of an array; nothing stands for `undefined` and `null`. -/
  itemText : JsValue → Text
    | .undefined | .null => []
    | item => toText item

/-- The text of `JSON.stringify`; nothing stands for `undefined`. -/
def toJson : JsValue → Text
  | .undefined => []
  | .null => "null"
  | .boolean value => if value then "true" else "false"
  | .number value => toText (.number value)
  | .string value => quote value
  | .array items => 91 :: (itemTexts items).drop 1 ++ [93]
  | .object members | .error _ _ members => 123 :: (memberTexts members).drop 1 ++ [125]
where
  /-- The items of an array, each after a comma. -/
  itemTexts : List JsValue → Text
    | [] => []
    | .undefined :: items => 44 :: ("null" : Text) ++ itemTexts items
    | item :: items => 44 :: toJson item ++ itemTexts items
  /-- The members of an object that are there, each after a comma. -/
  memberTexts : List (Text × JsValue) → Text
    | [] => []
    | (_, .undefined) :: members => memberTexts members
    | (key, value) :: members => 44 :: quote key ++ 58 :: toJson value ++ memberTexts members

/-- `JSON.stringify(value)` inside a template literal. -/
def stringify (value : JsValue) : Text :=
  match value with
  | .undefined => "undefined"
  | _ => value.toJson

end JsValue

/-- What a call of the client comes to. -/
inductive Answer where
  | returned (value : JsValue)
  | thrown (error : JsValue)

/-! ## Calls -/

/-- The body of a campaign creation; its type is always `regular` and its
content type `html`. -/
structure CampaignBody where
  name : Text
  subject : Text
  body : Text
  lists : List ℤ
  templateId : Option ℤ
  tags : List Text
  deriving DecidableEq

/-- The body of a list creation; its type is always `private` and its opt-in
`single`. -/
structure ListBody where
  name : Text
  description : Text
  tags : List Text
  deriving DecidableEq

inductive MembershipAction where
  | add
  | remove
  deriving DecidableEq

/-- The calls of the client that A/B tests make. -/
inductive Call where
  | campaignGetById (id : ℤ)
  | campaignList (tag : Text)
  | campaignCreate (body : CampaignBody)
  | campaignUpdate (id : ℤ) (lists : List ℤ) (sendAt : Option DateTime)
  | campaignUpdateStatus (id : ℤ) (status : Text)
  | campaignDelete (id : ℤ)
  | listList (tag : Text)
  | listCreate (body : ListBody)
  | listDelete (id : ℤ)
  | /-- One page of the members of a list, or all of them. -/
    subscriberList (listId : ℤ) (page : ℕ) (perPage : Option ℕ)
  | subscriberManageLists (action : MembershipAction) (ids : List ℤ) (targetListIds : List ℤ)
  deriving DecidableEq

def Call.campaign? : Call → Option ℤ
  | .campaignGetById id | .campaignUpdate id _ _ | .campaignUpdateStatus id _ | .campaignDelete id =>
      some id
  | _ => none

/-- A program over the client that may throw. -/
abbrev Remote (α : Type) := Fallible Call Answer JsValue α

/-- Await a call: an answer that was thrown is thrown on. -/
def await (call : Call) : Remote JsValue :=
  ExceptT.mk (Program.call call fun
    | .returned value => .done (.ok value)
    | .thrown error => .done (.error error))

def ofExcept {α : Type} (outcome : Except JsValue α) : Remote α := ExceptT.mk (pure outcome)

/-! ## Reading an answer -/

/-- `error instanceof Error ? error.message : String(error)`. -/
def formatError : JsValue → Text
  | .error _ message _ => message
  | value => value.toText

/-- The error of an envelope: the member `error` of an object, unless it is
`undefined`. -/
def envelopeError? (response : JsValue) : Option JsValue :=
  match response.member? "error" with
  | none | some .undefined => none
  | some error => some error

/-- The text of an error envelope; `none` for any other response. -/
def errorEnvelopeMessage (response : JsValue) : Option Text :=
  (envelopeError? response).map formatError

/-- `/not found|404/i.test(message)`. -/
def saysNotFound (message : Text) : Bool :=
  Text.includes (asciiCaseMapping.toLowerCase message) "not found" || Text.includes message "404"

/-- The HTTP status an error carries in `response.status`. -/
def responseStatus? (error : JsValue) : Option ℤ :=
  match (error.member? "response").bind (·.member? "status") with
  | some (.number status) => some status
  | _ => none

/-- The message of an error of any shape. -/
def errorMessage (error : JsValue) : Text :=
  match error with
  | .error _ message _ => message
  | .string message => message
  | _ =>
      match error.member? "message", error.member? "error" with
      | some message, _ => message.toText
      | none, some nested => nested.toText
      | none, none => []

/-- Whether an error says that the resource is already gone: by the HTTP status
it carries, and without one by its message. -/
def isNotFoundError (error : JsValue) : Bool :=
  match responseStatus? error with
  | some status => status = 404
  | none => saysNotFound (errorMessage error)

/-- The data of a response, which must be there. -/
def unwrapData (response : JsValue) (context : Text) : Except JsValue JsValue := do
  if response.members?.isNone then
    throw (.typeError "Cannot use 'in' operator to search for 'error'")
  match envelopeError? response with
  | some error => throw (.ofMessage (context ++ (": " : Text) ++ formatError error))
  | none =>
      match response.property? "data" with
      | .undefined => throw (.ofMessage (context ++ (": received empty data" : Text)))
      | data => pure data

/-- The items of a response that is an array or carries one in `results`. -/
def resultRows (data : JsValue) : Except JsValue (List JsValue) :=
  match data with
  | .array items => .ok items
  | _ =>
      match data.property? "results" with
      | .undefined | .null => .ok []
      | .array items => .ok items
      | _ => .error (.typeError "object is not iterable")

def requireNumericId (value : JsValue) (context : Text) : Except JsValue ℤ :=
  match value with
  | .number id => .ok id
  | _ => .error (.ofMessage (context ++ (": response missing numeric id" : Text)))

/-! ## What an answer means -/

/-- The server took the call: it came back without an error. -/
def Answer.accepted : Answer → Bool
  | .returned value => (envelopeError? value).isNone
  | .thrown _ => false

/-- The HTTP status of an answer that is an error. -/
def Answer.httpStatus? : Answer → Option ℤ
  | .returned value => if (envelopeError? value).isSome then responseStatus? value else none
  | .thrown error => responseStatus? error

/-- The answer counts as "not found": an error envelope or an exception that
`isNotFoundError` recognizes. -/
def Answer.notFound : Answer → Bool
  | .returned value => (envelopeError? value).isSome && isNotFoundError value
  | .thrown error => isNotFoundError error

end ListmonkOps.Experiment
