/-
Locking the hypothesis of an A/B test.

A hypothesis is locked before subscribers are assigned: its canonical JSON is
hashed, and the hash is stored next to it. Metadata come from outside, so they
are kept as the members of an object here, and every check reads them the way
the source does; the typed hypothesis says which objects are meant.
-/

import ListmonkOps.Runtime.JsonFileStore
import ListmonkOps.Experiment.Collision

namespace ListmonkOps.Experiment

open ListmonkOps.Runtime

abbrev Members := List (Text × Value)

namespace Hypothesis

/-- `isPlainObject`, with the members it lets one read. -/
def plainMembers? : Value → Option Members
  | .object members => some members
  | .date _ => some []
  | _ => none

/-- `texts.includes(value)`. -/
def isOneOf (texts : List Text) : Value → Bool
  | .string t => t ∈ texts
  | _ => false

/-- Whether a condition takes the value for true. -/
def isTruthy : Value → Bool
  | .undefined | .null | .boolean false | .string [] | .number .nan => false
  | .number (.finite x) => x.digits != 0
  | _ => true

def isPositiveNumber : Value → Bool
  | .number (.finite x) => x.isPositive
  | _ => false

def isNonnegativeNumber : Value → Bool
  | .number (.finite x) => x.isNonnegative
  | _ => false

def isFilled : Value → Bool
  | .string t => t.trim ≠ []
  | _ => false

/-- `undefined`, `null` or the empty string. -/
def isMissing : Value → Bool
  | .undefined | .null | .string [] => true
  | _ => false

/-- `String(value)`. A date is written in the local time of the platform; its
canonical text stands for that here. -/
def toText : Value → Text
  | .undefined => "undefined"
  | .null => "null"
  | .boolean value => if value then "true" else "false"
  | .number value => value.toText
  | .string value => value
  | .date (some time) => isoText time
  | .date none => "Invalid Date"
  | .array items => itemTexts items
  | .object _ => "[object Object]"
where
  itemTexts : List Value → Text
    | [] => []
    | [item] => itemText item
    | item :: items => itemText item ++ 44 :: itemTexts items
  itemText : Value → Text
    | .undefined | .null => []
    | item => toText item

/-- The end of a message that shows what was received. -/
def receiving (message : Text) (value : Value) : Text :=
  message ++ (", received " : Text) ++ value.stringify

def ensure (condition : Bool) (message : Text) : Except Text Unit :=
  if condition then .ok () else .error message

/-- The seven fields that are required before a launch. -/
def contentKeys : List Text :=
  ["objective", "hypothesis", "primaryMetric", "expectedLift", "owner", "experimentScope",
    "createdAt"]

def requireFields (metadata : Members) : List Text → Except Text Unit
  | [] => .ok ()
  | field :: fields => do
      ensure (!isMissing (Value.get metadata field)) (field ++ (" is required for launch" : Text))
      requireFields metadata fields

/-- A check of a field that may be left out. -/
def whenDefined (value : Value) (check : Value → Except Text Unit) : Except Text Unit :=
  if value.isUndefined then .ok () else check value

def checkFilled (field : Text) (value : Value) : Except Text Unit :=
  ensure (isFilled value) (field ++ (" must be a non-empty string" : Text))

def checkPrimaryMetric (pm : Value) : Except Text Unit :=
  match plainMembers? pm with
  | none => .error (receiving "primaryMetric must be an object" pm)
  | some members => do
      ensure (isOneOf ["click_rate", "conversion_rate", "revenue_per_recipient"]
          (Value.get members "type"))
        (receiving (("primaryMetric.type must be one of " : Text) ++
          ("click_rate, conversion_rate, revenue_per_recipient" : Text))
          (Value.get members "type"))
      ensure (isOneOf ["maximize", "minimize"] (Value.get members "direction"))
        (receiving "primaryMetric.direction must be \"maximize\" or \"minimize\""
          (Value.get members "direction"))

def checkExpectedLift (lift : Value) : Except Text Unit :=
  match plainMembers? lift with
  | none => .error (receiving "expectedLift must be an object" lift)
  | some members => do
      ensure (isOneOf ["relative", "absolute"] (Value.get members "kind"))
        (receiving "expectedLift.kind must be \"relative\" or \"absolute\""
          (Value.get members "kind"))
      ensure (isPositiveNumber (Value.get members "value"))
        (receiving "expectedLift.value must be finite and positive" (Value.get members "value"))
      ensure (!isOneOf ["absolute"] (Value.get members "kind") ||
          isOneOf ["percentage_point", "currency_per_recipient"] (Value.get members "unit"))
        (receiving (("expectedLift.unit must be one of " : Text) ++
          ("percentage_point, currency_per_recipient for absolute lift" : Text))
          (Value.get members "unit"))

/-- The unit of an absolute lift fits the primary metric. -/
def checkLiftUnit (pm lift : Value) : Except Text Unit :=
  match plainMembers? pm, plainMembers? lift with
  | some metric, some members =>
      let metricType := Value.get metric "type"
      let unit := Value.get members "unit"
      if isOneOf ["absolute"] (Value.get members "kind") then do
        ensure (!isOneOf ["revenue_per_recipient"] metricType ||
            isOneOf ["currency_per_recipient"] unit)
          (receiving (("revenue_per_recipient metric requires " : Text) ++
            ("currency_per_recipient absolute lift" : Text)) unit)
        ensure (!isOneOf ["click_rate", "conversion_rate"] metricType ||
            isOneOf ["percentage_point"] unit)
          (receiving (toText metricType ++
            (" metric requires percentage_point absolute lift" : Text)) unit)
      else .ok ()
  | _, _ => .ok ()

def checkOwner (owner : Value) : Except Text Unit :=
  match plainMembers? owner with
  | none => .error (receiving "owner must be an object" owner)
  | some members => do
      checkFilled "owner.id" (Value.get members "id")
      ensure (match Value.get members "displayName" with
          | .undefined | .string _ => true
          | _ => false)
        (receiving "owner.displayName must be a string when present"
          (Value.get members "displayName"))

def checkExperimentScope (scope : Value) : Except Text Unit :=
  match plainMembers? scope with
  | none => .error (receiving "experimentScope must be an object" scope)
  | some members => do
      let familyKey := Value.get members "experimentFamilyKey"
      ensure (isOneOf ["email"] (Value.get members "channel"))
        (("channel must be \"email\", received \"" : Text) ++
          toText (Value.get members "channel") ++ [34])
      checkFilled "experimentScope.experimentFamilyKey" familyKey
      ensure (match familyKey with | .string key => isFamilyKey key | _ => true)
        (("experimentFamilyKey must be lowercase alphanumeric segments joined by [._-] " : Text) ++
          ("separators (e.g. \"onboarding.activation\"), received \"" : Text) ++
          toText familyKey ++ [34])
      ensure (isPositiveNumber (Value.get members "attributionWindowHours"))
        (receiving "attributionWindowHours must be finite and positive"
          (Value.get members "attributionWindowHours"))
      ensure (isNonnegativeNumber (Value.get members "exclusionWindowHours"))
        (receiving "exclusionWindowHours must be finite and non-negative"
          (Value.get members "exclusionWindowHours"))

/-- Read a property; `none` where that throws. -/
def property? (value : Value) (name : Text) : Option Value :=
  match value with
  | .undefined | .null => none
  | .object members => some (Value.get members name)
  | _ => some .undefined

/-- The keys an object can be given by assignment; `__proto__` would set its
prototype. -/
def assignable (key : Text) : Bool := key ≠ ("__proto__" : Text)

def canonicalize : Value → Value := Value.canonicalizeWith assignable

def hashedMembers (metadata : Members) (ownerId ownerName : Value) : Members :=
  [("objective", Value.get metadata "objective"), ("hypothesis", Value.get metadata "hypothesis"),
    ("primaryMetric", Value.get metadata "primaryMetric"),
    ("expectedLift", Value.get metadata "expectedLift"),
    ("owner", .object [("id", ownerId), ("displayName", ownerName)]),
    ("experimentScope", Value.get metadata "experimentScope"),
    ("createdAt", Value.get metadata "createdAt")]

/-- `{ ...members, [name]: value }`. -/
def assign (members : Members) (name : Text) (value : Value) : Members :=
  if members.any (·.1 = name) then
    members.map fun member => if member.1 = name then (name, value) else member
  else members ++ [(name, value)]

end Hypothesis

open Hypothesis

/-- `createHash("sha256").update(text, "utf8").digest("hex")`. -/
class Sha256 where
  digest : Text → Text

section Locking

variable [DateParsing]

/-- A date, or a date with a time of day, that the platform reads. -/
def isStrictIsoTimestamp (value : Text) : Bool :=
  startsWithDate value &&
    (value.drop 10 = [] ||
      (isClock 3 (fun zone => zone = [] || isZone zone) (value.drop 10) &&
        (DateParsing.parse value).isSome))

def checkCreatedAt (value : Value) : Except Text Unit :=
  ensure (match value with | .string t => isStrictIsoTimestamp t | _ => false)
    (receiving "createdAt must be a valid ISO 8601 timestamp" value)

/-- The message of a `HypothesisValidationError`, where one is thrown. -/
def validateHypothesisMetadata (metadata : Members) (strict : Bool) : Except Text Unit := do
  if strict then requireFields metadata contentKeys else .ok ()
  whenDefined (Value.get metadata "objective") (checkFilled "objective")
  whenDefined (Value.get metadata "hypothesis") (checkFilled "hypothesis")
  whenDefined (Value.get metadata "createdAt") checkCreatedAt
  whenDefined (Value.get metadata "primaryMetric") checkPrimaryMetric
  whenDefined (Value.get metadata "expectedLift") checkExpectedLift
  checkLiftUnit (Value.get metadata "primaryMetric") (Value.get metadata "expectedLift")
  whenDefined (Value.get metadata "owner") checkOwner
  whenDefined (Value.get metadata "experimentScope") checkExperimentScope

variable [Sha256]

/-- The checksum; `none` where the owner cannot be read. -/
def computeHypothesisChecksum (metadata : Members) : Option Text := do
  let ownerId ← property? (Value.get metadata "owner") "id"
  let ownerName ← property? (Value.get metadata "owner") "displayName"
  return Sha256.digest (canonicalize (.object (hashedMembers metadata ownerId ownerName))).stringify

def lockHypothesis (metadata : Members) (lockedAt : Text) : Except Text Members := do
  if isTruthy (Value.get metadata "lockedAt") then
    .error "Hypothesis is already locked; create a new test revision to change it"
  else
    validateHypothesisMetadata metadata true
    if !isStrictIsoTimestamp lockedAt then
      .error (receiving "lockedAt override must be a valid ISO 8601 timestamp" (.string lockedAt))
    else
      match computeHypothesisChecksum metadata with
      | none => .error "Cannot read properties of undefined"
      | some checksum =>
          .ok (assign (assign metadata "lockedAt" (.string lockedAt)) "checksum"
            (.string checksum))

/-- Whether the stored checksum is that of the hypothesis; `none` where reading
the owner throws. -/
def verifyHypothesisChecksum (metadata : Members) : Option Bool :=
  if !isTruthy (Value.get metadata "checksum") || !isTruthy (Value.get metadata "lockedAt") then
    some false
  else
    (computeHypothesisChecksum metadata).map fun recomputed =>
      match Value.get metadata "checksum" with
      | .string checksum => recomputed = checksum
      | _ => false

end Locking

/-! ## Typed hypotheses -/

inductive MetricType where
  | clickRate
  | conversionRate
  | revenuePerRecipient
  deriving DecidableEq

def MetricType.text : MetricType → Text
  | .clickRate => "click_rate"
  | .conversionRate => "conversion_rate"
  | .revenuePerRecipient => "revenue_per_recipient"

inductive MetricDirection where
  | maximize
  | minimize
  deriving DecidableEq

def MetricDirection.text : MetricDirection → Text
  | .maximize => "maximize"
  | .minimize => "minimize"

structure PrimaryMetric where
  type : MetricType
  direction : MetricDirection
  deriving DecidableEq

inductive LiftUnit where
  | percentagePoint
  | currencyPerRecipient
  deriving DecidableEq

def LiftUnit.text : LiftUnit → Text
  | .percentagePoint => "percentage_point"
  | .currencyPerRecipient => "currency_per_recipient"

inductive ExpectedLift where
  | relative (value : Number)
  | absolute (value : Number) (unit : LiftUnit)
  deriving DecidableEq

structure ExperimentOwner where
  id : Text
  displayName : Option Text := none
  deriving DecidableEq

/-- The scope of an experiment; its channel is always `email`. -/
structure ExperimentScope where
  experimentFamilyKey : Text
  attributionWindowHours : Number
  exclusionWindowHours : Number
  deriving DecidableEq

/-- The fields of `HypothesisMetadata` that are hashed. -/
structure HypothesisContent where
  objective : Text
  hypothesis : Text
  primaryMetric : PrimaryMetric
  expectedLift : ExpectedLift
  owner : ExperimentOwner
  experimentScope : ExperimentScope
  createdAt : Text
  deriving DecidableEq

def optionalText : Option Text → Value
  | some t => .string t
  | none => .undefined

def PrimaryMetric.toValue (metric : PrimaryMetric) : Value :=
  .object [("type", .string metric.type.text), ("direction", .string metric.direction.text)]

def ExpectedLift.toValue : ExpectedLift → Value
  | .relative value => .object [("kind", .string "relative"), ("value", .number value)]
  | .absolute value unit =>
      .object [("kind", .string "absolute"), ("value", .number value), ("unit", .string unit.text)]

def ExperimentOwner.toValue (owner : ExperimentOwner) : Value :=
  .object [("id", .string owner.id), ("displayName", optionalText owner.displayName)]

def ExperimentScope.toValue (scope : ExperimentScope) : Value :=
  .object [("channel", .string "email"),
    ("experimentFamilyKey", .string scope.experimentFamilyKey),
    ("attributionWindowHours", .number scope.attributionWindowHours),
    ("exclusionWindowHours", .number scope.exclusionWindowHours)]

/-- The hypothesis as an object that is written out. -/
def HypothesisContent.toMembers (content : HypothesisContent) : Members :=
  [("objective", .string content.objective), ("hypothesis", .string content.hypothesis),
    ("primaryMetric", content.primaryMetric.toValue),
    ("expectedLift", content.expectedLift.toValue), ("owner", content.owner.toValue),
    ("experimentScope", content.experimentScope.toValue),
    ("createdAt", .string content.createdAt)]

/-- The metadata hold a hypothesis, whatever the order of their keys and whichever
members are `undefined`. -/
def Describes (metadata : Members) (content : HypothesisContent) : Prop :=
  Value.distinctKeys (.object metadata) = true ∧
    ∀ key ∈ contentKeys, Value.Same (Value.get metadata key) (Value.get content.toMembers key)

/-! ## What is hashed -/

section Hashed

variable {metadata metadata' : Members} {ownerId ownerName ownerId' ownerName' : Value}
  {content content' : HypothesisContent}

theorem hashedMembers_eq_zip (metadata : Members) (ownerId ownerName : Value) :
    hashedMembers metadata ownerId ownerName = contentKeys.zip
      [Value.get metadata "objective", Value.get metadata "hypothesis",
        Value.get metadata "primaryMetric", Value.get metadata "expectedLift",
        .object [("id", ownerId), ("displayName", ownerName)],
        Value.get metadata "experimentScope", Value.get metadata "createdAt"] := rfl

theorem canonicalJson_owner_iff :
    Value.canonicalJson assignable (.object [("id", ownerId), ("displayName", ownerName)]) =
        Value.canonicalJson assignable
          (.object [("id", ownerId'), ("displayName", ownerName')]) ↔
      Value.canonicalJson assignable ownerId = Value.canonicalJson assignable ownerId' ∧
        Value.canonicalJson assignable ownerName = Value.canonicalJson assignable ownerName' := by
  have h : Value.canonicalJson assignable (.object
        ([("id" : Text), ("displayName" : Text)].zip [ownerId, ownerName])) =
      Value.canonicalJson assignable (.object
        ([("id" : Text), ("displayName" : Text)].zip [ownerId', ownerName'])) ↔ _ :=
    Value.canonicalJson_record_iff (by simp) (by simp [assignable]) rfl rfl
  simpa using h

/-- The fields that are hashed as they are; the owner is not. -/
def plainKeys : List Text :=
  ["objective", "hypothesis", "primaryMetric", "expectedLift", "experimentScope", "createdAt"]

/-- The members of the owner that are hashed; it may have others. -/
def ownerKeys : List Text := ["id", "displayName"]

/-- A member of the owner; `undefined` where the owner cannot be read. -/
def ownerMember (metadata : Members) (name : Text) : Value :=
  (property? (Value.get metadata "owner") name).getD .undefined

/-- The values differ at most in what the canonical text leaves out: the order of keys, `undefined`
members, members that cannot be assigned, and what JSON writes as `null` or as an empty object. -/
def WrittenAlike (value value' : Value) : Prop :=
  Value.Same (value.kept assignable).blur (value'.kept assignable).blur

/-- The change is in something that is hashed, and leaves an owner that can be read. -/
def ChangeShows (locked tampered : Members) : Prop :=
  (property? (Value.get tampered "owner") "id").isSome ∧
    ((∃ key ∈ plainKeys, ¬WrittenAlike (Value.get locked key) (Value.get tampered key)) ∨
      ∃ name ∈ ownerKeys, ¬WrittenAlike (ownerMember locked name) (ownerMember tampered name))

theorem plainKeys_subset : ∀ key ∈ plainKeys, key ∈ contentKeys := by
  simp [plainKeys, contentKeys]

theorem contentKeys_nodup : contentKeys.Nodup := by simp [contentKeys]

theorem contentKeys_assignable : ∀ key ∈ contentKeys, assignable key = true := by
  simp [contentKeys, assignable]

/-- Two hypotheses are hashed alike exactly when the seven fields are. -/
theorem canonicalJson_hashed_iff :
    Value.canonicalJson assignable (.object (hashedMembers metadata ownerId ownerName)) =
        Value.canonicalJson assignable (.object (hashedMembers metadata' ownerId' ownerName')) ↔
      (∀ key ∈ plainKeys, Value.canonicalJson assignable (Value.get metadata key) =
        Value.canonicalJson assignable (Value.get metadata' key)) ∧
      Value.canonicalJson assignable ownerId = Value.canonicalJson assignable ownerId' ∧
        Value.canonicalJson assignable ownerName = Value.canonicalJson assignable ownerName' := by
  rw [hashedMembers_eq_zip, hashedMembers_eq_zip,
    Value.canonicalJson_record_iff contentKeys_nodup contentKeys_assignable rfl rfl]
  simp only [List.map_cons, List.map_nil, List.cons.injEq, and_true, canonicalJson_owner_iff,
    plainKeys, List.forall_mem_cons, List.not_mem_nil, false_imp_iff, implies_true]
  constructor
  · rintro ⟨h₁, h₂, h₃, h₄, howner, h₆, h₇⟩
    exact ⟨⟨h₁, h₂, h₃, h₄, h₆, h₇⟩, howner⟩
  · rintro ⟨⟨h₁, h₂, h₃, h₄, h₆, h₇⟩, howner⟩
    exact ⟨h₁, h₂, h₃, h₄, howner, h₆, h₇⟩

theorem stringify_congr {value value' : Value}
    (h : Value.canonicalJson assignable value = Value.canonicalJson assignable value') :
    (canonicalize value).stringify = (canonicalize value').stringify := by
  have hjson : (canonicalize value).toJson = (canonicalize value').toJson := h
  rw [Value.stringify, Value.stringify, hjson]

/-- The text that is hashed holds no half of a surrogate pair, and it determines
the canonical JSON value. -/
theorem stringify_hashed (metadata : Members) (ownerId ownerName : Value) :
    ∃ json, Value.canonicalJson assignable (.object (hashedMembers metadata ownerId ownerName)) =
        some json ∧
      (canonicalize (.object (hashedMembers metadata ownerId ownerName))).stringify =
        json.render := by
  obtain ⟨sorted, hjson, -⟩ :=
    Value.canonicalJson_object assignable (hashedMembers metadata ownerId ownerName)
  exact ⟨_, hjson, Value.stringify_canonical hjson⟩

theorem distinctKeys_toMembers (content : HypothesisContent) :
    Value.distinctKeys (.object content.toMembers) = true := by
  have hrecord : ∀ {members : Members} (keys : List Text), keys.Nodup →
      members.map Prod.fst = keys →
      (∀ member ∈ members, Value.distinctKeys member.2 = true) →
      Value.distinctKeys (.object members) = true := by
    rintro members keys hkeys rfl hmembers
    exact Value.distinctKeys_object hkeys hmembers
  have hoptional : ∀ t, Value.distinctKeys (optionalText t) = true := by
    intro t
    cases t <;> rfl
  apply hrecord contentKeys contentKeys_nodup rfl
  simp only [HypothesisContent.toMembers, List.forall_mem_cons, List.not_mem_nil, false_imp_iff,
    implies_true, and_true]
  refine ⟨rfl, rfl, ?_, ?_, ?_, ?_, rfl⟩
  · exact hrecord ["type", "direction"] (by simp) rfl
      (by simp [Value.distinctKeys, Value.everywhere])
  · cases content.expectedLift with
    | relative value =>
        exact hrecord ["kind", "value"] (by simp) rfl
          (by simp [Value.distinctKeys, Value.everywhere])
    | absolute value unit =>
        exact hrecord ["kind", "value", "unit"] (by simp) rfl
          (by simp [Value.distinctKeys, Value.everywhere])
  · refine hrecord ["id", "displayName"] (by simp) rfl ?_
    simp only [List.forall_mem_cons, List.not_mem_nil, false_imp_iff, implies_true, and_true]
    exact ⟨rfl, hoptional _⟩
  · exact hrecord ["channel", "experimentFamilyKey", "attributionWindowHours",
      "exclusionWindowHours"] (by simp) rfl
      (by simp [Value.distinctKeys, Value.everywhere])

theorem Same.eq_optionalText {value : Value} {t : Option Text}
    (h : Value.Same value (optionalText t)) : value = optionalText t := by
  cases t with
  | none => exact h.eq_of_undefined
  | some t => exact h.eq_of_string

theorem owner_of_describes (h : Describes metadata content) :
    ∃ members, Value.get metadata "owner" = .object members ∧
      Value.get members "id" = .string content.owner.id ∧
      Value.get members "displayName" = optionalText content.owner.displayName := by
  have howner : Value.Same (Value.get metadata "owner") content.owner.toValue :=
    h.2 "owner" (by simp [contentKeys])
  obtain ⟨members, hobject, hsame⟩ := howner.exists_object
  exact ⟨members, hobject, (hsame "id").eq_of_string,
    Same.eq_optionalText (hsame "displayName")⟩

variable [Sha256]

theorem checksum_of_describes (h : Describes metadata content) :
    computeHypothesisChecksum metadata = some (Sha256.digest (canonicalize (.object
      (hashedMembers content.toMembers (.string content.owner.id)
        (optionalText content.owner.displayName)))).stringify) := by
  obtain ⟨members, hobject, hid, hname⟩ := owner_of_describes h
  simp only [computeHypothesisChecksum, hobject, property?, hid, hname, Option.bind_eq_bind,
    Option.bind_some, Option.pure_def]
  refine congrArg some (congrArg Sha256.digest (stringify_congr ?_))
  rw [canonicalJson_hashed_iff]
  refine ⟨fun key hkey => ?_, rfl, rfl⟩
  exact Value.canonicalJson_eq_of_same (h.2 key (plainKeys_subset key hkey)) (Value.distinctKeys_get h.1 key)
    (Value.distinctKeys_get (distinctKeys_toMembers content) key)

end Hashed

/-! ## The fields can be read off what is hashed -/

section Injective

theorem MetricType.text_injective : Function.Injective MetricType.text := by
  intro a b h
  cases a <;> cases b <;> first | rfl | simp [text] at h

theorem MetricDirection.text_injective : Function.Injective MetricDirection.text := by
  intro a b h
  cases a <;> cases b <;> first | rfl | simp [text] at h

theorem LiftUnit.text_injective : Function.Injective LiftUnit.text := by
  intro a b h
  cases a <;> cases b <;> first | rfl | simp [text] at h

theorem canonicalJson_string_inj {a b : Text}
    (h : Value.canonicalJson assignable (.string a) = Value.canonicalJson assignable (.string b)) :
    a = b := by
  simpa [Value.canonicalJson, Value.canonicalizeWith, Value.toJson] using h

theorem canonicalJson_optionalText_inj {a b : Option Text}
    (h : Value.canonicalJson assignable (optionalText a) =
      Value.canonicalJson assignable (optionalText b)) : a = b := by
  cases a <;> cases b <;>
    simp_all [optionalText, Value.canonicalJson, Value.canonicalizeWith, Value.toJson]

/-- A finite number is written as no other number is. -/
theorem canonicalJson_number_inj {x : Decimal} {y : Number}
    (h : Value.canonicalJson assignable (.number (.finite x)) =
      Value.canonicalJson assignable (.number y)) : .finite x = y := by
  cases y <;> simp_all [Value.canonicalJson, Value.canonicalizeWith, Value.toJson]

theorem PrimaryMetric.toValue_inj {a b : PrimaryMetric}
    (h : Value.canonicalJson assignable a.toValue = Value.canonicalJson assignable b.toValue) :
    a = b := by
  have hiff : Value.canonicalJson assignable (.object ([("type" : Text), "direction"].zip
        [.string a.type.text, .string a.direction.text])) =
      Value.canonicalJson assignable (.object ([("type" : Text), "direction"].zip
        [.string b.type.text, .string b.direction.text])) ↔ _ :=
    Value.canonicalJson_record_iff (by simp) (by simp [assignable]) rfl rfl
  have hfields := hiff.mp h
  simp only [List.map_cons, List.map_nil, List.cons.injEq, and_true] at hfields
  cases a
  cases b
  simp only [PrimaryMetric.mk.injEq]
  exact ⟨MetricType.text_injective (canonicalJson_string_inj hfields.1),
    MetricDirection.text_injective (canonicalJson_string_inj hfields.2)⟩

def ExpectedLift.value : ExpectedLift → Number
  | .relative value => value
  | .absolute value _ => value

/-- The numbers of a lift and of a scope that are written out are finite. -/
def HypothesisContent.IsFinite (content : HypothesisContent) : Prop :=
  (∃ x, content.expectedLift.value = .finite x) ∧
    (∃ x, content.experimentScope.attributionWindowHours = .finite x) ∧
    ∃ x, content.experimentScope.exclusionWindowHours = .finite x

theorem ExpectedLift.toValue_inj {a b : ExpectedLift} (hfinite : ∃ x, a.value = .finite x)
    (h : Value.canonicalJson assignable a.toValue = Value.canonicalJson assignable b.toValue) :
    a = b := by
  obtain ⟨x, hx⟩ := hfinite
  -- the kind tells the two forms of a lift apart
  have hkind : ∀ {value value' : Number} {unit : LiftUnit},
      Value.canonicalJson assignable (ExpectedLift.relative value).toValue ≠
        Value.canonicalJson assignable (ExpectedLift.absolute value' unit).toValue := by
    intro value value' unit heq
    have hkeys : ([("kind" : Text), "value"]).Nodup ∧ ([("kind" : Text), "value", "unit"]).Nodup := by
      simp
    have hiff : Value.canonicalJson assignable
          (.object [("kind", .string "relative"), ("value", .number value)]) =
        Value.canonicalJson assignable (.object
          [("kind", .string "absolute"), ("value", .number value'), ("unit", .string unit.text)]) ↔
        _ := Value.canonicalJson_object_eq_iff hkeys.1 hkeys.2
    have hread := hiff.mp heq "kind" (by simp [assignable])
    rw [Value.get_cons, if_pos rfl, Value.get_cons, if_pos rfl] at hread
    exact absurd (canonicalJson_string_inj hread) (by simp)
  cases a with
  | relative value =>
      cases b with
      | relative value' =>
          have hiff : Value.canonicalJson assignable (.object ([("kind" : Text), "value"].zip
                [.string "relative", .number value])) =
              Value.canonicalJson assignable (.object ([("kind" : Text), "value"].zip
                [.string "relative", .number value'])) ↔ _ :=
            Value.canonicalJson_record_iff (by simp) (by simp [assignable]) rfl rfl
          have hfields := hiff.mp h
          simp only [List.map_cons, List.map_nil, List.cons.injEq, and_true, true_and] at hfields
          obtain rfl : value = .finite x := hx
          rw [canonicalJson_number_inj hfields]
      | absolute value' unit' => exact absurd h hkind
  | absolute value unit =>
      cases b with
      | relative value' => exact absurd h.symm hkind
      | absolute value' unit' =>
          have hiff : Value.canonicalJson assignable (.object
                ([("kind" : Text), "value", "unit"].zip
                  [.string "absolute", .number value, .string unit.text])) =
              Value.canonicalJson assignable (.object ([("kind" : Text), "value", "unit"].zip
                  [.string "absolute", .number value', .string unit'.text])) ↔ _ :=
            Value.canonicalJson_record_iff (by simp) (by simp [assignable]) rfl rfl
          have hfields := hiff.mp h
          simp only [List.map_cons, List.map_nil, List.cons.injEq, and_true, true_and] at hfields
          obtain rfl : value = .finite x := hx
          rw [canonicalJson_number_inj hfields.1,
            LiftUnit.text_injective (canonicalJson_string_inj hfields.2)]

theorem ExperimentScope.toValue_inj {a b : ExperimentScope}
    (hattribution : ∃ x, a.attributionWindowHours = .finite x)
    (hexclusion : ∃ x, a.exclusionWindowHours = .finite x)
    (h : Value.canonicalJson assignable a.toValue = Value.canonicalJson assignable b.toValue) :
    a = b := by
  have hiff : Value.canonicalJson assignable (.object ([("channel" : Text),
        "experimentFamilyKey", "attributionWindowHours", "exclusionWindowHours"].zip
          [.string "email", .string a.experimentFamilyKey, .number a.attributionWindowHours,
            .number a.exclusionWindowHours])) =
      Value.canonicalJson assignable (.object ([("channel" : Text), "experimentFamilyKey",
        "attributionWindowHours", "exclusionWindowHours"].zip
          [.string "email", .string b.experimentFamilyKey, .number b.attributionWindowHours,
            .number b.exclusionWindowHours])) ↔ _ :=
    Value.canonicalJson_record_iff (by simp) (by simp [assignable]) rfl rfl
  have hfields := hiff.mp h
  simp only [List.map_cons, List.map_nil, List.cons.injEq, and_true, true_and] at hfields
  obtain ⟨hkey, hattributionEq, hexclusionEq⟩ := hfields
  obtain ⟨x, hx⟩ := hattribution
  obtain ⟨y, hy⟩ := hexclusion
  rw [hx] at hattributionEq
  rw [hy] at hexclusionEq
  cases a
  cases b
  simp only [ExperimentScope.mk.injEq]
  exact ⟨canonicalJson_string_inj hkey, hx.trans (canonicalJson_number_inj hattributionEq),
    hy.trans (canonicalJson_number_inj hexclusionEq)⟩

theorem content_eq_of_hashed {content content' : HypothesisContent} (hfinite : content.IsFinite)
    (h : Value.canonicalJson assignable (.object (hashedMembers content.toMembers
        (.string content.owner.id) (optionalText content.owner.displayName))) =
      Value.canonicalJson assignable (.object (hashedMembers content'.toMembers
        (.string content'.owner.id) (optionalText content'.owner.displayName)))) :
    content = content' := by
  rw [canonicalJson_hashed_iff] at h
  obtain ⟨hfields, hid, hname⟩ := h
  simp only [plainKeys, List.forall_mem_cons, List.not_mem_nil, false_imp_iff, implies_true,
    and_true] at hfields
  obtain ⟨hobjective, hhypothesis, hmetric, hlift, hscope, hcreated⟩ := hfields
  obtain ⟨objective, hypothesis, metric, lift, ⟨ownerId, ownerName⟩, scope, createdAt⟩ := content
  obtain ⟨objective', hypothesis', metric', lift', ⟨ownerId', ownerName'⟩, scope', createdAt'⟩ :=
    content'
  obtain rfl : objective = objective' := canonicalJson_string_inj hobjective
  obtain rfl : hypothesis = hypothesis' := canonicalJson_string_inj hhypothesis
  obtain rfl : metric = metric' := PrimaryMetric.toValue_inj hmetric
  obtain rfl : lift = lift' := ExpectedLift.toValue_inj hfinite.1 hlift
  obtain rfl : scope = scope' := ExperimentScope.toValue_inj hfinite.2.1 hfinite.2.2 hscope
  obtain rfl : createdAt = createdAt' := canonicalJson_string_inj hcreated
  obtain rfl : ownerId = ownerId' := canonicalJson_string_inj hid
  obtain rfl : ownerName = ownerName' := canonicalJson_optionalText_inj hname
  rfl

end Injective

/-! ## What validation lets through -/

section Validation

variable {metadata : Members} {content : HypothesisContent}

theorem ensure_ok {condition : Bool} {message : Text} (h : ensure condition message = .ok ()) :
    condition = true := by
  unfold ensure at h
  split at h
  · assumption
  · simp at h

theorem requireFields_ok {fields : List Text} (h : requireFields metadata fields = .ok ()) :
    ∀ field ∈ fields, isMissing (Value.get metadata field) = false := by
  induction fields with
  | nil => simp
  | cons field fields ih =>
      obtain ⟨_, hfirst, hrest⟩ := except_bind_eq_ok.mp h
      rw [List.forall_mem_cons]
      exact ⟨by simpa using ensure_ok hfirst, ih hrest⟩

theorem whenDefined_ok {value : Value} {check : Value → Except Text Unit}
    (h : whenDefined value check = .ok ()) (hpresent : isMissing value = false) :
    check value = .ok () := by
  unfold whenDefined at h
  split at h
  · next hundefined =>
      cases value <;> simp_all [isMissing, Value.isUndefined]
  · exact h

theorem validateHypothesisMetadata_ok [DateParsing]
    (h : validateHypothesisMetadata metadata true = .ok ()) :
    checkExpectedLift (Value.get metadata "expectedLift") = .ok () ∧
      checkOwner (Value.get metadata "owner") = .ok () ∧
      checkExperimentScope (Value.get metadata "experimentScope") = .ok () := by
  obtain ⟨_, hrequired, h⟩ := except_bind_eq_ok.mp h
  obtain ⟨_, -, h⟩ := except_bind_eq_ok.mp h
  obtain ⟨_, -, h⟩ := except_bind_eq_ok.mp h
  obtain ⟨_, -, h⟩ := except_bind_eq_ok.mp h
  obtain ⟨_, -, h⟩ := except_bind_eq_ok.mp h
  obtain ⟨_, hlift, h⟩ := except_bind_eq_ok.mp h
  obtain ⟨_, -, h⟩ := except_bind_eq_ok.mp h
  obtain ⟨_, howner, hscope⟩ := except_bind_eq_ok.mp h
  have hpresent := requireFields_ok hrequired
  exact ⟨whenDefined_ok hlift (hpresent _ (by simp [contentKeys])),
    whenDefined_ok howner (hpresent _ (by simp [contentKeys])),
    whenDefined_ok hscope (hpresent _ (by simp [contentKeys]))⟩

theorem checkOwner_ok {owner : Value} (h : checkOwner owner = .ok ()) :
    ∃ members, plainMembers? owner = some members := by
  unfold checkOwner at h
  split at h
  · simp at h
  · next members hmembers => exact ⟨members, hmembers⟩

theorem finite_of_positive {x : Number} (h : isPositiveNumber (.number x) = true) :
    ∃ y, x = .finite y := by
  cases x <;> simp_all [isPositiveNumber]

theorem finite_of_nonnegative {x : Number} (h : isNonnegativeNumber (.number x) = true) :
    ∃ y, x = .finite y := by
  cases x <;> simp_all [isNonnegativeNumber]

theorem isFinite_of_validated [DateParsing] (hdescribes : Describes metadata content)
    (h : validateHypothesisMetadata metadata true = .ok ()) : content.IsFinite := by
  obtain ⟨hlift, -, hscope⟩ := validateHypothesisMetadata_ok h
  have hliftSame : Value.Same (Value.get metadata "expectedLift") content.expectedLift.toValue :=
    hdescribes.2 "expectedLift" (by simp [contentKeys])
  have hscopeSame : Value.Same (Value.get metadata "experimentScope")
      content.experimentScope.toValue := hdescribes.2 "experimentScope" (by simp [contentKeys])
  constructor
  · have hread : ∃ members, Value.get metadata "expectedLift" = .object members ∧
        Value.get members "value" = .number content.expectedLift.value := by
      cases hcontent : content.expectedLift with
      | relative value =>
          rw [hcontent] at hliftSame
          obtain ⟨members, hobject, hsame⟩ := hliftSame.exists_object
          exact ⟨members, hobject, (hsame "value").eq_of_number⟩
      | absolute value unit =>
          rw [hcontent] at hliftSame
          obtain ⟨members, hobject, hsame⟩ := hliftSame.exists_object
          exact ⟨members, hobject, (hsame "value").eq_of_number⟩
    obtain ⟨members, hobject, hvalue⟩ := hread
    rw [hobject, checkExpectedLift, plainMembers?] at hlift
    obtain ⟨_, -, hrest⟩ := except_bind_eq_ok.mp hlift
    obtain ⟨_, hpositive, -⟩ := except_bind_eq_ok.mp hrest
    have hcheck := ensure_ok hpositive
    rw [hvalue] at hcheck
    exact finite_of_positive hcheck
  · obtain ⟨members, hobject, hsame⟩ := hscopeSame.exists_object
    have hattribution : Value.get members "attributionWindowHours" =
        .number content.experimentScope.attributionWindowHours :=
      (hsame "attributionWindowHours").eq_of_number
    have hexclusion : Value.get members "exclusionWindowHours" =
        .number content.experimentScope.exclusionWindowHours :=
      (hsame "exclusionWindowHours").eq_of_number
    rw [hobject, checkExperimentScope, plainMembers?] at hscope
    obtain ⟨_, -, hrest⟩ := except_bind_eq_ok.mp hscope
    obtain ⟨_, -, hrest⟩ := except_bind_eq_ok.mp hrest
    obtain ⟨_, -, hrest⟩ := except_bind_eq_ok.mp hrest
    obtain ⟨_, hfirst, hlast⟩ := except_bind_eq_ok.mp hrest
    have hfirst := ensure_ok hfirst
    have hlast := ensure_ok hlast
    rw [hattribution] at hfirst
    rw [hexclusion] at hlast
    exact ⟨finite_of_positive hfirst, finite_of_nonnegative hlast⟩

end Validation

/-! ## Tampering is found -/

/-- No two texts without half surrogate pairs have the same digest, and a digest
is not empty. -/
class CollisionFree [Sha256] : Prop where
  injective {a b : Text} (ha : a.isWellFormed) (hb : b.isWellFormed)
    (h : Sha256.digest a = Sha256.digest b) : a = b
  ne_nil (t : Text) : Sha256.digest t ≠ []

/-- A platform that knows some digests; what stands in for the others begins as no
digest does. -/
@[reducible]
def knownSha256 (known : List (Text × Text)) : Sha256 where
  digest t := (known.lookup t).getD (33 :: t)

theorem mem_of_lookup {known : List (Text × Text)} {t digest : Text}
    (h : known.lookup t = some digest) : (t, digest) ∈ known := by
  obtain ⟨before, after, rfl, -⟩ := List.lookup_eq_some_iff.mp h
  simp

theorem knownSha256_collisionFree {known : List (Text × Text)}
    (hdistinct : (known.map Prod.snd).Nodup)
    (hhead : ∀ pair ∈ known, ∃ unit ∈ pair.2.head?, unit ≠ 33) :
    @CollisionFree (knownSha256 known) := by
  have hapart : ∀ {t digest other : Text}, known.lookup t = some digest → digest ≠ 33 :: other := by
    rintro t digest other ht rfl
    obtain ⟨unit, hunit, hne⟩ := hhead _ (mem_of_lookup ht)
    exact hne (Option.some.inj hunit).symm
  refine @CollisionFree.mk (knownSha256 known) (fun {a b} _ _ h => ?_) fun t h => ?_
  · change (known.lookup a).getD (33 :: a) = (known.lookup b).getD (33 :: b) at h
    cases ha : known.lookup a with
    | some digest =>
        cases hb : known.lookup b with
        | some digest' =>
            rw [ha, hb] at h
            obtain rfl : digest = digest' := h
            have hpair := List.inj_on_of_nodup_map hdistinct (mem_of_lookup ha) (mem_of_lookup hb)
              rfl
            exact congrArg Prod.fst hpair
        | none =>
            rw [ha, hb] at h
            exact absurd h (hapart ha)
    | none =>
        cases hb : known.lookup b with
        | some digest' =>
            rw [ha, hb] at h
            exact absurd h.symm (hapart hb)
        | none =>
            rw [ha, hb] at h
            exact (List.cons.inj h).2
  · change (known.lookup t).getD (33 :: t) = [] at h
    cases ht : known.lookup t with
    | some digest =>
        rw [ht] at h
        obtain rfl : digest = [] := h
        obtain ⟨unit, hunit, -⟩ := hhead _ (mem_of_lookup ht)
        simp at hunit
    | none =>
        rw [ht] at h
        exact List.cons_ne_nil _ _ h

section Tampering

variable {metadata metadata' locked : Members} {content content' : HypothesisContent}
  {lockedAt : Text}

theorem get_assign (members : Members) (name : Text) (value : Value) (key : Text) :
    Value.get (assign members name value) key =
      if name = key then value else Value.get members key := by
  unfold assign
  split
  · next hpresent =>
      induction members with
      | nil => simp at hpresent
      | cons member members ih =>
          obtain ⟨other, old⟩ := member
          rw [List.map_cons]
          by_cases hother : other = name
          · subst hother
            rw [if_pos rfl, Value.get_cons, Value.get_cons]
            by_cases hkey : other = key
            · rw [if_pos hkey, if_pos hkey]
            · rw [if_neg hkey, if_neg hkey, if_neg hkey]
              by_cases hlater : members.any (·.1 = other) = true
              · rw [ih hlater, if_neg hkey]
              · have hnone : members.map (fun member =>
                    if member.1 = other then (other, value) else member) = members := by
                  rw [List.map_congr_left (g := id), List.map_id]
                  intro member hmember
                  have hne : member.1 ≠ other := by
                    rintro rfl
                    exact hlater (List.any_eq_true.mpr ⟨member, hmember, by simp⟩)
                  rw [if_neg hne, id]
                rw [hnone]
          · have hlater : members.any (·.1 = name) = true := by simpa [hother] using hpresent
            rw [if_neg (by simpa using hother), Value.get_cons, Value.get_cons, ih hlater]
            by_cases hkey : other = key
            · subst hkey
              rw [if_pos rfl, if_pos rfl, if_neg (Ne.symm hother)]
            · rw [if_neg hkey, if_neg hkey]
  · next habsent =>
      induction members with
      | nil => simp [Value.get_cons]
      | cons member members ih =>
          obtain ⟨other, old⟩ := member
          have hother : other ≠ name := by
            rintro rfl
            exact habsent (by simp)
          have hlater : ¬members.any (·.1 = name) = true := by
            intro hany
            exact habsent (by simp [hany])
          rw [List.cons_append, Value.get_cons, Value.get_cons, ih hlater]
          by_cases hkey : other = key
          · subst hkey
            rw [if_pos rfl, if_pos rfl, if_neg (Ne.symm hother)]
          · rw [if_neg hkey, if_neg hkey]

theorem distinctKeys_assign {members : Members} {value : Value} (name : Text)
    (h : Value.distinctKeys (.object members) = true) (hvalue : Value.distinctKeys value = true) :
    Value.distinctKeys (.object (assign members name value)) = true := by
  have hmembers := (Value.everywhere_object.mp h).2
  unfold assign
  split
  · have hnames : (members.map fun member => if member.1 = name then (name, value) else member).map
        Prod.fst = members.map Prod.fst := by
      rw [List.map_map]
      refine List.map_congr_left fun member _ => ?_
      rw [Function.comp_apply]
      split_ifs with hname
      · exact hname.symm
      · rfl
    refine Value.distinctKeys_object (hnames ▸ Value.nodup_keys h) fun member hmember => ?_
    obtain ⟨original, horiginal, rfl⟩ := List.mem_map.mp hmember
    split_ifs
    · exact hvalue
    · exact hmembers original horiginal
  · next habsent =>
    refine Value.distinctKeys_object ?_ fun member hmember => ?_
    · rw [List.map_append]
      refine (Value.nodup_keys h).append (List.nodup_singleton _) ?_
      rintro key hkey hsingle
      obtain rfl := List.mem_singleton.mp hsingle
      obtain ⟨member, hmember, hname⟩ := List.mem_map.mp hkey
      exact habsent (List.any_eq_true.mpr ⟨member, hmember, by simpa using hname⟩)
    · obtain hmember | hmember := List.mem_append.mp hmember
      · exact hmembers member hmember
      · obtain rfl := List.mem_singleton.mp hmember
        exact hvalue

theorem checksum_congr [Sha256]
    (h : ∀ key ∈ plainKeys, Value.get metadata key = Value.get metadata' key)
    (howner : ∀ name ∈ ownerKeys, property? (Value.get metadata "owner") name =
      property? (Value.get metadata' "owner") name) :
    computeHypothesisChecksum metadata = computeHypothesisChecksum metadata' := by
  simp only [plainKeys, List.forall_mem_cons, List.not_mem_nil, false_imp_iff, implies_true,
    and_true] at h
  obtain ⟨h₁, h₂, h₃, h₄, h₅, h₆⟩ := h
  simp only [ownerKeys, List.forall_mem_cons, List.not_mem_nil, false_imp_iff, implies_true,
    and_true] at howner
  simp only [computeHypothesisChecksum, hashedMembers, howner.1, howner.2, h₁, h₂, h₃, h₄, h₅, h₆]

/-- Two objects hold the same hypothesis where their seven fields are read alike. -/
theorem checksum_congr_content [Sha256]
    (h : ∀ key ∈ contentKeys, Value.get metadata key = Value.get metadata' key) :
    computeHypothesisChecksum metadata = computeHypothesisChecksum metadata' :=
  checksum_congr (fun key hkey => h key (plainKeys_subset key hkey)) fun _ _ => by
    rw [h "owner" (by simp [contentKeys])]

/-- An owner with the same two members is another owner under the same checksum. -/
theorem verify_assign_owner [Sha256] {members members' : Members}
    (howner : Value.get metadata "owner" = .object members)
    (h : ∀ name ∈ ownerKeys, Value.get members' name = Value.get members name) :
    verifyHypothesisChecksum (assign metadata "owner" (.object members')) =
      verifyHypothesisChecksum metadata := by
  have hother : ∀ key : Text, ("owner" : Text) ≠ key →
      Value.get (assign metadata "owner" (.object members')) key = Value.get metadata key :=
    fun key hkey => by rw [get_assign, if_neg hkey]
  have hchecksum : computeHypothesisChecksum (assign metadata "owner" (.object members')) =
      computeHypothesisChecksum metadata := by
    refine checksum_congr (fun key hkey => hother key ?_) fun name hname => ?_
    · rintro rfl
      simp [plainKeys] at hkey
    · rw [get_assign, if_pos rfl, howner, property?, property?, h name hname]
  rw [verifyHypothesisChecksum, verifyHypothesisChecksum, hother _ (by simp), hother _ (by simp),
    hchecksum]

/-- What locking returns: the checks passed, and the checksum is stored. -/
theorem lockHypothesis_ok [DateParsing] [Sha256]
    (h : lockHypothesis metadata lockedAt = .ok locked) :
    validateHypothesisMetadata metadata true = .ok () ∧ isStrictIsoTimestamp lockedAt = true ∧
      ∃ checksum, computeHypothesisChecksum metadata = some checksum ∧
        locked = assign (assign metadata "lockedAt" (.string lockedAt)) "checksum"
          (.string checksum) := by
  unfold lockHypothesis at h
  split at h
  · simp at h
  · obtain ⟨_, hvalid, h⟩ := except_bind_eq_ok.mp h
    split at h
    · simp at h
    · next htime =>
        split at h
        · simp at h
        · next checksum hchecksum =>
            exact ⟨hvalid, by simpa using htime, checksum, hchecksum, (Except.ok.inj h).symm⟩

theorem get_locked (metadata : Members) (lockedAt checksum : Text) :
    (∀ key ∈ contentKeys, Value.get (assign (assign metadata "lockedAt" (.string lockedAt))
        "checksum" (.string checksum)) key = Value.get metadata key) ∧
      Value.get (assign (assign metadata "lockedAt" (.string lockedAt))
        "checksum" (.string checksum)) "checksum" = .string checksum ∧
      Value.get (assign (assign metadata "lockedAt" (.string lockedAt))
        "checksum" (.string checksum)) "lockedAt" = .string lockedAt := by
  have hother : ∀ key ∈ contentKeys, ("checksum" : Text) ≠ key ∧ ("lockedAt" : Text) ≠ key := by
    simp [contentKeys]
  have hapart : ("checksum" : Text) ≠ "lockedAt" := by simp
  refine ⟨fun key hkey => ?_, ?_, ?_⟩
  · rw [get_assign, if_neg (hother key hkey).1, get_assign, if_neg (hother key hkey).2]
  · rw [get_assign, if_pos rfl]
  · rw [get_assign, if_neg hapart, get_assign, if_pos rfl]

theorem isTruthy_string {t : Text} (h : t ≠ []) : isTruthy (.string t) = true := by
  cases t with
  | nil => exact absurd rfl h
  | cons unit rest => rfl

theorem ne_nil_of_isStrictIsoTimestamp [DateParsing] {value : Text}
    (h : isStrictIsoTimestamp value = true) : value ≠ [] := by
  rintro rfl
  have hnone : startsWithDate [] = false := by decide +kernel
  simp [isStrictIsoTimestamp, hnone] at h

theorem verify_locked [DateParsing] [Sha256] [CollisionFree]
    (hvalid : validateHypothesisMetadata metadata true = .ok ())
    (hunlocked : isTruthy (Value.get metadata "lockedAt") = false)
    (htime : isStrictIsoTimestamp lockedAt = true) :
    ∃ locked, lockHypothesis metadata lockedAt = .ok locked ∧
      verifyHypothesisChecksum locked = some true := by
  have hchecksum : ∃ checksum, computeHypothesisChecksum metadata = some (Sha256.digest checksum) := by
    obtain ⟨members, howner⟩ := checkOwner_ok (validateHypothesisMetadata_ok hvalid).2.1
    unfold computeHypothesisChecksum
    cases hvalue : Value.get metadata "owner" <;> rw [hvalue] at howner <;>
      simp_all [plainMembers?, property?]
  obtain ⟨text, hchecksum⟩ := hchecksum
  refine ⟨assign (assign metadata "lockedAt" (.string lockedAt)) "checksum"
    (.string (Sha256.digest text)), ?_, ?_⟩
  · simp only [lockHypothesis, hunlocked, hvalid, htime, hchecksum, Bool.false_eq_true, ↓reduceIte,
      Bool.not_true]
    rfl
  · obtain ⟨hfields, hstored, hat⟩ := get_locked metadata lockedAt (Sha256.digest text)
    rw [verifyHypothesisChecksum, hstored, hat,
      isTruthy_string (ne_nil_of_isStrictIsoTimestamp htime),
      isTruthy_string (CollisionFree.ne_nil text), checksum_congr_content hfields, hchecksum]
    simp

/-- Another hypothesis under the checksum of a locked one does not verify. -/
theorem verify_tampered [DateParsing] [Sha256] [CollisionFree]
    (hlocked : lockHypothesis metadata lockedAt = .ok locked) (hcontent : Describes metadata content)
    (hcontent' : Describes metadata' content') (hne : content' ≠ content)
    (hstored : Value.get metadata' "checksum" = Value.get locked "checksum") :
    verifyHypothesisChecksum metadata' = some false := by
  obtain ⟨hvalid, -, checksum, hchecksum, rfl⟩ := lockHypothesis_ok hlocked
  rw [(get_locked metadata lockedAt checksum).2.1] at hstored
  rw [verifyHypothesisChecksum]
  split
  · rfl
  · rw [checksum_of_describes hcontent', hstored, Option.map_some]
    refine congrArg some (decide_eq_false fun hequal => hne ?_)
    rw [checksum_of_describes hcontent, Option.some.injEq] at hchecksum
    rw [← hchecksum] at hequal
    obtain ⟨json, hjson, htext⟩ := stringify_hashed content.toMembers
      (.string content.owner.id) (optionalText content.owner.displayName)
    obtain ⟨json', hjson', htext'⟩ := stringify_hashed content'.toMembers
      (.string content'.owner.id) (optionalText content'.owner.displayName)
    rw [htext, htext'] at hequal
    have hsame := JsonTree.render_injective (CollisionFree.injective
      (JsonTree.isWellFormed_render _) (JsonTree.isWellFormed_render _) hequal)
    refine (content_eq_of_hashed (isFinite_of_validated hcontent hvalid) ?_).symm
    rw [hjson, hjson', hsame]

theorem isTruthy_congr {value value' : Value} (h : Value.Same value value') :
    isTruthy value = isTruthy value' := by
  cases h <;> rfl

theorem property?_congr {value value' : Value} (h : Value.Same value value') (name : Text) :
    (property? value name = none ∧ property? value' name = none) ∨
      ∃ read read', property? value name = some read ∧ property? value' name = some read' ∧
        Value.Same read read' := by
  cases h with
  | refl =>
      cases hread : property? value name with
      | none => exact .inl ⟨rfl, rfl⟩
      | some read => exact .inr ⟨read, read, rfl, rfl, .refl _⟩
  | array => exact .inr ⟨_, _, rfl, rfl, .refl _⟩
  | object same => exact .inr ⟨_, _, rfl, rfl, same name⟩

theorem distinctKeys_property? {value read : Value} {name : Text}
    (h : Value.distinctKeys value = true) (hread : property? value name = some read) :
    Value.distinctKeys read = true := by
  cases value with
  | object members =>
      obtain rfl := Option.some.inj hread
      exact Value.distinctKeys_get h name
  | undefined => simp [property?] at hread
  | null => simp [property?] at hread
  | _ =>
      obtain rfl := Option.some.inj hread
      rfl

/-- The checksum forgets the order of keys and `undefined` members. -/
theorem checksum_eq_of_same [Sha256] (hkeys : Value.distinctKeys (.object metadata) = true)
    (hkeys' : Value.distinctKeys (.object metadata') = true)
    (hsame : ∀ key, Value.Same (Value.get metadata key) (Value.get metadata' key)) :
    computeHypothesisChecksum metadata = computeHypothesisChecksum metadata' := by
  have howner := Value.distinctKeys_get hkeys "owner"
  have howner' := Value.distinctKeys_get hkeys' "owner"
  have hcanonical : ∀ {value value' : Value}, Value.Same value value' →
      Value.distinctKeys value = true → Value.distinctKeys value' = true →
      Value.canonicalJson assignable value = Value.canonicalJson assignable value' :=
    fun h hd hd' => Value.canonicalJson_eq_of_same h hd hd'
  unfold computeHypothesisChecksum
  rcases property?_congr (hsame "owner") "id" with ⟨hid, hid'⟩ | ⟨id, id', hid, hid', hidSame⟩
  · simp only [hid, hid', Option.bind_eq_bind, Option.bind_none]
  rcases property?_congr (hsame "owner") "displayName" with
    ⟨hname, hname'⟩ | ⟨name, name', hname, hname', hnameSame⟩
  · simp only [hid, hid', hname, hname', Option.bind_eq_bind, Option.bind_some, Option.bind_none]
  simp only [hid, hid', hname, hname', Option.bind_eq_bind, Option.bind_some]
  refine congrArg some (congrArg Sha256.digest (stringify_congr ?_))
  rw [canonicalJson_hashed_iff]
  refine ⟨fun key _ => ?_, ?_, ?_⟩
  · exact hcanonical (hsame key) (Value.distinctKeys_get hkeys key)
      (Value.distinctKeys_get hkeys' key)
  · exact hcanonical hidSame (distinctKeys_property? howner hid) (distinctKeys_property? howner' hid')
  · exact hcanonical hnameSame (distinctKeys_property? howner hname)
      (distinctKeys_property? howner' hname')

/-- Reordered keys and `undefined` members do not change the verdict. -/
theorem verify_eq_of_same [Sha256] (hkeys : Value.distinctKeys (.object metadata) = true)
    (hkeys' : Value.distinctKeys (.object metadata') = true)
    (hsame : Value.Same (.object metadata) (.object metadata')) :
    verifyHypothesisChecksum metadata = verifyHypothesisChecksum metadata' := by
  have hread : ∀ key, Value.Same (Value.get metadata key) (Value.get metadata' key) := by
    cases hsame with
    | refl => exact fun key => .refl _
    | object same => exact same
  have hcompare : ∀ {value value' : Value} (t : Text), Value.Same value value' →
      (match value with | .string checksum => decide (t = checksum) | _ => false) =
        match value' with | .string checksum => decide (t = checksum) | _ => false := by
    intro value value' t h
    cases h <;> rfl
  simp only [verifyHypothesisChecksum, isTruthy_congr (hread "checksum"),
    isTruthy_congr (hread "lockedAt"), checksum_eq_of_same hkeys hkeys' hread]
  split
  · rfl
  · congr 1
    funext recomputed
    exact hcompare recomputed (hread "checksum")

theorem writtenAlike_iff {value value' : Value} (h : Value.distinctKeys value = true)
    (h' : Value.distinctKeys value' = true) : WrittenAlike value value' ↔
      Value.canonicalJson assignable value = Value.canonicalJson assignable value' :=
  (Value.canonicalJson_eq_iff_same_blur_kept h h').symm

theorem distinctKeys_ownerMember (h : Value.distinctKeys (.object metadata) = true) (name : Text) :
    Value.distinctKeys (ownerMember metadata name) = true := by
  rw [ownerMember]
  cases hread : property? (Value.get metadata "owner") name with
  | none => rfl
  | some read => exact distinctKeys_property? (Value.distinctKeys_get h "owner") hread

theorem property?_isSome (value : Value) (name name' : Text) :
    (property? value name).isSome = (property? value name').isSome := by
  cases value <;> rfl

/-- The checksum of a hypothesis whose owner can be read. -/
theorem checksum_of_owner [Sha256]
    (howner : (property? (Value.get metadata "owner") "id").isSome) :
    computeHypothesisChecksum metadata = some (Sha256.digest (canonicalize (.object
      (hashedMembers metadata (ownerMember metadata "id")
        (ownerMember metadata "displayName")))).stringify) := by
  have howner' := howner
  rw [property?_isSome _ _ "displayName"] at howner'
  obtain ⟨ownerId, hid⟩ := Option.isSome_iff_exists.mp howner
  obtain ⟨ownerName, hname⟩ := Option.isSome_iff_exists.mp howner'
  simp only [computeHypothesisChecksum, ownerMember, hid, hname, Option.bind_eq_bind,
    Option.bind_some, Option.pure_def, Option.getD_some]

/-- Two hypotheses have one checksum exactly when all that is hashed is written alike. -/
theorem checksum_eq_iff [Sha256] [CollisionFree]
    (hkeys : Value.distinctKeys (.object metadata) = true)
    (hkeys' : Value.distinctKeys (.object metadata') = true)
    (howner : (property? (Value.get metadata "owner") "id").isSome)
    (howner' : (property? (Value.get metadata' "owner") "id").isSome) :
    computeHypothesisChecksum metadata = computeHypothesisChecksum metadata' ↔
      (∀ key ∈ plainKeys, WrittenAlike (Value.get metadata key) (Value.get metadata' key)) ∧
        ∀ name ∈ ownerKeys, WrittenAlike (ownerMember metadata name) (ownerMember metadata' name) := by
  have hplain : ∀ key, WrittenAlike (Value.get metadata key) (Value.get metadata' key) ↔ _ :=
    fun key => writtenAlike_iff (Value.distinctKeys_get hkeys key)
      (Value.distinctKeys_get hkeys' key)
  have hmember : ∀ name, WrittenAlike (ownerMember metadata name) (ownerMember metadata' name) ↔ _ :=
    fun name => writtenAlike_iff (distinctKeys_ownerMember hkeys name)
      (distinctKeys_ownerMember hkeys' name)
  simp only [hplain, hmember, ownerKeys, List.forall_mem_cons, List.not_mem_nil, false_imp_iff,
    implies_true, and_true]
  rw [← canonicalJson_hashed_iff, checksum_of_owner howner, checksum_of_owner howner',
    Option.some.injEq]
  constructor
  · intro hdigest
    obtain ⟨json, hjson, htext⟩ := stringify_hashed metadata (ownerMember metadata "id")
      (ownerMember metadata "displayName")
    obtain ⟨json', hjson', htext'⟩ := stringify_hashed metadata' (ownerMember metadata' "id")
      (ownerMember metadata' "displayName")
    rw [htext, htext'] at hdigest
    have hsame := JsonTree.render_injective (CollisionFree.injective
      (JsonTree.isWellFormed_render _) (JsonTree.isWellFormed_render _) hdigest)
    rw [hjson, hjson', hsame]
  · intro hjson
    rw [stringify_congr hjson]

/-- A hypothesis under the checksum of a locked one fails to verify exactly when the change is in
something that is hashed. -/
theorem verify_eq_false_iff [DateParsing] [Sha256] [CollisionFree]
    (hlocked : lockHypothesis metadata lockedAt = .ok locked)
    (hkeys : Value.distinctKeys (.object metadata) = true)
    (hkeys' : Value.distinctKeys (.object metadata') = true)
    (hstored : Value.get metadata' "checksum" = Value.get locked "checksum")
    (hat : Value.get metadata' "lockedAt" = Value.get locked "lockedAt") :
    verifyHypothesisChecksum metadata' = some false ↔ ChangeShows locked metadata' := by
  obtain ⟨-, htime, checksum, hchecksum, rfl⟩ := lockHypothesis_ok hlocked
  obtain ⟨hfields, hstored', hat'⟩ := get_locked metadata lockedAt checksum
  rw [hstored'] at hstored
  rw [hat'] at hat
  have howner : (property? (Value.get metadata "owner") "id").isSome := by
    rw [computeHypothesisChecksum] at hchecksum
    obtain ⟨ownerId, hid, -⟩ := Option.bind_eq_some_iff.mp hchecksum
    rw [hid]
    rfl
  have hchecksumText : checksum ≠ [] := by
    rw [checksum_of_owner howner] at hchecksum
    rw [← Option.some.inj hchecksum]
    exact CollisionFree.ne_nil _
  rw [verifyHypothesisChecksum, hstored, hat, isTruthy_string hchecksumText,
    isTruthy_string (ne_nil_of_isStrictIsoTimestamp htime)]
  simp only [Bool.not_true, Bool.or_self, Bool.false_eq_true, if_false]
  have hlockedOwner : ∀ name, ownerMember (assign (assign metadata "lockedAt" (.string lockedAt))
      "checksum" (.string checksum)) name = ownerMember metadata name := by
    intro name
    rw [ownerMember, ownerMember, hfields "owner" (by simp [contentKeys])]
  rw [ChangeShows]
  simp only [hlockedOwner]
  by_cases howner' : (property? (Value.get metadata' "owner") "id").isSome
  · have hequal := checksum_eq_iff hkeys hkeys' howner howner'
    obtain ⟨recomputed, hrecomputed⟩ : ∃ recomputed,
        computeHypothesisChecksum metadata' = some recomputed := ⟨_, checksum_of_owner howner'⟩
    rw [hchecksum, hrecomputed, Option.some.injEq] at hequal
    rw [hrecomputed, Option.map_some, Option.some.injEq, decide_eq_false_iff_not,
      eq_comm (a := recomputed), hequal, not_and_or]
    simp only [howner', true_and]
    refine or_congr ?_ ?_
    · push Not
      exact exists_congr fun key => and_congr_right fun hkey => by
        rw [hfields key (plainKeys_subset key hkey)]
    · push Not
      rfl
  · have hnone : computeHypothesisChecksum metadata' = none := by
      rw [computeHypothesisChecksum, Option.not_isSome_iff_eq_none.mp howner']
      rfl
    simp [hnone, howner']

/-- A hypothesis that passes strict validation can be locked and then verifies. Another one under
its checksum fails to verify exactly when the change shows, as it does where both are just their
fields. The verdict does not depend on the order of keys or on `undefined` members, at any depth. -/
theorem lockHypothesis_tamperEvident_iff [DateParsing] [Sha256] [CollisionFree] :
    (∀ metadata lockedAt, validateHypothesisMetadata metadata true = .ok () →
      isTruthy (Value.get metadata "lockedAt") = false → isStrictIsoTimestamp lockedAt = true →
        ∃ locked, lockHypothesis metadata lockedAt = .ok locked ∧
          verifyHypothesisChecksum locked = some true) ∧
      (∀ metadata lockedAt locked, lockHypothesis metadata lockedAt = .ok locked →
        Value.distinctKeys (.object metadata) = true →
        ∀ tampered, Value.distinctKeys (.object tampered) = true →
          Value.get tampered "checksum" = Value.get locked "checksum" →
          Value.get tampered "lockedAt" = Value.get locked "lockedAt" →
            (verifyHypothesisChecksum tampered = some false ↔ ChangeShows locked tampered)) ∧
      (∀ metadata lockedAt locked content, lockHypothesis metadata lockedAt = .ok locked →
        Describes metadata content → ∀ tampered content', Describes tampered content' →
          content' ≠ content →
          Value.get tampered "checksum" = Value.get locked "checksum" →
            verifyHypothesisChecksum tampered = some false) ∧
      ∀ metadata metadata', Value.distinctKeys (.object metadata) = true →
        Value.distinctKeys (.object metadata') = true →
        Value.Same (.object metadata) (.object metadata') →
          verifyHypothesisChecksum metadata = verifyHypothesisChecksum metadata' := by
  refine ⟨fun metadata lockedAt => verify_locked, ?_, ?_, fun metadata metadata' => verify_eq_of_same⟩
  · intro metadata lockedAt locked hlocked hkeys tampered hkeys' hstored hat
    exact verify_eq_false_iff hlocked hkeys hkeys' hstored hat
  · intro metadata lockedAt locked content hlocked hcontent tampered content' hcontent' hne hstored
    exact verify_tampered hlocked hcontent hcontent' hne hstored

end Tampering

/-! ## A hypothesis that is locked and then changed -/

def sampleContent (lift : Number) : HypothesisContent where
  objective := "Raise activation"
  hypothesis := "A shorter subject is opened more"
  primaryMetric := ⟨.clickRate, .maximize⟩
  expectedLift := .relative lift
  owner := { id := "growth" }
  experimentScope := ⟨"onboarding.day1", .finite ⟨false, 72, 0, by decide⟩, .finite Decimal.zero⟩
  createdAt := "2026-07-25T10:00:00Z"

/-- The canonical JSON of that hypothesis. -/
def sampleJson (lift : String) : Text :=
  ("\x7b\"createdAt\":\"2026-07-25T10:00:00Z\"," : Text) ++
  ("\"expectedLift\":\x7b\"kind\":\"relative\",\"value\":" : Text) ++ Text.ofString lift ++
  ("\x7d,\"experimentScope\":\x7b\"attributionWindowHours\":72,\"channel\":\"email\"," : Text) ++
  ("\"exclusionWindowHours\":0,\"experimentFamilyKey\":\"onboarding.day1\"\x7d," : Text) ++
  ("\"hypothesis\":\"A shorter subject is opened more\"," : Text) ++
  ("\"objective\":\"Raise activation\",\"owner\":\x7b\"id\":\"growth\"\x7d," : Text) ++
  ("\"primaryMetric\":\x7b\"direction\":\"maximize\",\"type\":\"click_rate\"\x7d\x7d" : Text)

def sampleDigests : List (Text × Text) :=
  [(sampleJson "0.1", "f6a3d5d767359bba77b5d2362ca9e4e5eb9f3d6119d81ffec711e0b2ad081d09"),
    (sampleJson "0.2", "3eed3b0e83ce31d62ea6ab580cb988aa9ea1d3d1207b20a1cf138ee40b0d55fa")]

theorem sampleDigests_collisionFree : @CollisionFree (knownSha256 sampleDigests) :=
  knownSha256_collisionFree (by decide +kernel) (by decide +kernel)

/-- The hypothesis with a lift of a tenth. -/
def sampleMetadata : Members := (sampleContent (.finite ⟨false, 1, -1, by decide⟩)).toMembers

/-- The same with a lift of a fifth, its keys in another order. -/
def sampleTampered (lockedAt checksum : Value) : Members :=
  ("checksum", checksum) :: ("lockedAt", lockedAt) ::
    (sampleContent (.finite ⟨false, 2, -1, by decide⟩)).toMembers.reverse

theorem describes_sampleTampered (lockedAt checksum : Text) :
    Describes (sampleTampered (.string lockedAt) (.string checksum))
      (sampleContent (.finite ⟨false, 2, -1, by decide⟩)) := by
  set content := sampleContent (.finite ⟨false, 2, -1, by decide⟩) with hcontent
  refine ⟨Value.distinctKeys_object ?_ ?_, fun key hkey => ?_⟩
  · rw [sampleTampered, List.map_cons, List.map_cons, List.map_reverse]
    exact show (("checksum" : Text) :: "lockedAt" :: contentKeys.reverse).Nodup by simp [contentKeys]
  · rw [sampleTampered, List.forall_mem_cons, List.forall_mem_cons]
    refine ⟨rfl, rfl, fun member hmember => ?_⟩
    exact (Value.everywhere_object.mp (distinctKeys_toMembers content)).2 member
      (List.mem_reverse.mp hmember)
  · have hother : ∀ key ∈ contentKeys, ("checksum" : Text) ≠ key ∧ ("lockedAt" : Text) ≠ key := by
      simp [contentKeys]
    rw [sampleTampered, Value.get_cons, if_neg (hother key hkey).1, Value.get_cons,
      if_neg (hother key hkey).2, Value.get_of_perm
        (Value.nodup_keys (distinctKeys_toMembers content)) (List.reverse_perm _).symm]
    exact .refl _

/-- The hypothesis whose owner belongs to a team. -/
def sampleOwned (team : Text) : Members :=
  assign sampleMetadata "owner" (.object [("id", .string "growth"), ("team", .string team)])

theorem validated_of_isOk {metadata : Members} [DateParsing]
    (h : (validateHypothesisMetadata metadata true).isOk = true) :
    validateHypothesisMetadata metadata true = .ok () := by
  cases hresult : validateHypothesisMetadata metadata true with
  | ok _ => rfl
  | error message => simp [hresult, Except.isOk, Except.toBool] at h

/-- The team of the owner can be changed after the lock. -/
theorem not_tamperEvident_ownerTeam :
    letI := isoDateParsing
    letI := knownSha256 sampleDigests
    CollisionFree ∧ ∃ locked tampered,
      lockHypothesis (sampleOwned "a") "2026-07-26T08:00:00Z" = .ok locked ∧
      tampered = assign locked "owner"
        (.object [("id", .string "growth"), ("team", .string "b")]) ∧
      ¬Value.Same (Value.get locked "owner") (Value.get tampered "owner") ∧
      verifyHypothesisChecksum tampered = some true := by
  let := isoDateParsing
  let := knownSha256 sampleDigests
  have := sampleDigests_collisionFree
  refine ⟨sampleDigests_collisionFree, ?_⟩
  have hvalid : (validateHypothesisMetadata (sampleOwned "a") true).isOk = true := by
    decide +kernel
  obtain ⟨locked, hlocked, hverified⟩ : ∃ locked,
      lockHypothesis (sampleOwned "a") "2026-07-26T08:00:00Z" = .ok locked ∧
        verifyHypothesisChecksum locked = some true :=
    verify_locked (validated_of_isOk hvalid) (by decide +kernel) (by decide +kernel)
  obtain ⟨-, -, checksum, -, hshape⟩ := lockHypothesis_ok hlocked
  have howner : Value.get locked "owner" =
      .object [("id", .string "growth"), ("team", .string "a")] := by
    rw [hshape, (get_locked _ _ _).1 "owner" (by simp [contentKeys]), sampleOwned, get_assign,
      if_pos rfl]
  refine ⟨locked, _, hlocked, rfl, fun hsame => ?_, ?_⟩
  · rw [howner, get_assign, if_pos rfl] at hsame
    obtain ⟨members, hmembers, hread⟩ := hsame.exists_object
    obtain rfl := Value.object.inj hmembers
    have hteam := (hread "team").eq_of_string
    exact absurd hteam (by simp [Value.get])
  · -- The two members that are hashed are read as before.
    rw [← hverified]
    exact verify_assign_owner howner (by simp [ownerKeys, Value.get])

/-- A change of the lift or of the objective is found; a change of the team is not. -/
theorem lockHypothesis_tamperEvident_sample :
    letI := isoDateParsing
    letI := knownSha256 sampleDigests
    (∃ locked, lockHypothesis sampleMetadata "2026-07-26T08:00:00Z" = .ok locked ∧
      verifyHypothesisChecksum locked = some true ∧
      verifyHypothesisChecksum (sampleTampered (Value.get locked "lockedAt")
        (Value.get locked "checksum")) = some false) ∧
    ∃ locked, lockHypothesis (sampleOwned "a") "2026-07-26T08:00:00Z" = .ok locked ∧
      verifyHypothesisChecksum locked = some true ∧
      verifyHypothesisChecksum (assign locked "objective" (.string "Raise revenue")) =
        some false ∧
      verifyHypothesisChecksum (assign locked "owner"
        (.object [("id", .string "growth"), ("team", .string "b")])) ≠ some false := by
  let := isoDateParsing
  let := knownSha256 sampleDigests
  have := sampleDigests_collisionFree
  obtain ⟨hlocks, hshows, htampers, -⟩ := lockHypothesis_tamperEvident_iff
  constructor
  · have hvalid : (validateHypothesisMetadata sampleMetadata true).isOk = true := by
      decide +kernel
    obtain ⟨locked, hlocked, hverified⟩ := hlocks sampleMetadata "2026-07-26T08:00:00Z"
      (validated_of_isOk hvalid) (by decide +kernel) (by decide +kernel)
    have hdescribes : ∀ lift, Describes (sampleContent lift).toMembers (sampleContent lift) :=
      fun lift => ⟨distinctKeys_toMembers _, fun key _ => .refl _⟩
    obtain ⟨-, -, checksum, -, hshape⟩ := lockHypothesis_ok hlocked
    obtain ⟨-, hstored, hat⟩ := get_locked sampleMetadata "2026-07-26T08:00:00Z" checksum
    rw [← hshape] at hstored hat
    refine ⟨locked, hlocked, hverified, ?_⟩
    rw [hstored, hat]
    exact htampers _ _ _ _ hlocked (hdescribes _) _ _ (describes_sampleTampered _ _) (by decide)
      hstored.symm
  · have hvalid : (validateHypothesisMetadata (sampleOwned "a") true).isOk = true := by
      decide +kernel
    obtain ⟨locked, hlocked, hverified⟩ := hlocks (sampleOwned "a") "2026-07-26T08:00:00Z"
      (validated_of_isOk hvalid) (by decide +kernel) (by decide +kernel)
    have hkeys : Value.distinctKeys (.object (sampleOwned "a")) = true := by decide +kernel
    obtain ⟨-, -, checksum, -, hshape⟩ := lockHypothesis_ok hlocked
    have hfields := (get_locked (sampleOwned "a") "2026-07-26T08:00:00Z" checksum).1
    rw [← hshape] at hfields
    have hlockedKeys : Value.distinctKeys (.object locked) = true := by
      rw [hshape]
      exact distinctKeys_assign _ (distinctKeys_assign _ hkeys rfl) rfl
    refine ⟨locked, hlocked, hverified, ?_, ?_⟩
    · refine (hshows _ _ _ hlocked hkeys _ (distinctKeys_assign _ hlockedKeys rfl)
        (by rw [get_assign, if_neg (by simp)]) (by rw [get_assign, if_neg (by simp)])).mpr
        ⟨?_, .inl ⟨"objective", by simp [plainKeys], fun halike => ?_⟩⟩
      · rw [get_assign, if_neg (by simp), hfields "owner" (by simp [contentKeys])]
        rfl
      · rw [get_assign, if_pos rfl, hfields "objective" (by simp [contentKeys])] at halike
        have hobjective : Value.get (sampleOwned "a") "objective" = .string "Raise activation" := by
          rw [sampleOwned, get_assign, if_neg (by simp)]
          rfl
        rw [hobjective] at halike
        exact absurd (Value.string.inj halike.eq_of_string) (by decide)
    · intro hfalse
      obtain ⟨-, ⟨key, hkey, hne⟩ | ⟨name, hname, hne⟩⟩ :=
        (hshows _ _ _ hlocked hkeys _ (distinctKeys_assign _ hlockedKeys (by decide +kernel))
          (by rw [get_assign, if_neg (by simp)]) (by rw [get_assign, if_neg (by simp)])).mp hfalse
      · have hother : ("owner" : Text) ≠ key := by
          rintro rfl
          simp [plainKeys] at hkey
        rw [get_assign, if_neg hother] at hne
        exact hne (.refl _)
      · rw [ownerMember, ownerMember, get_assign, if_pos rfl,
          hfields "owner" (by simp [contentKeys])] at hne
        simp only [ownerKeys, List.mem_cons, List.not_mem_nil, or_false] at hname
        obtain rfl | rfl := hname <;> exact hne (.refl _)

end ListmonkOps.Experiment
