/-
Redaction of event data.

What an event carries to a third party passes through a recursion over its
JSON: the values under keys that name credentials or addresses are replaced,
and nesting is cut at a fixed depth. The redacted value depends on nothing
below a sensitive key, and a second pass finds nothing left to do.
-/

import ListmonkOps.Runtime.JsonFileStore

namespace ListmonkOps.Webhook

open ListmonkOps.Runtime

/-! ## Sensitive keys -/

/-- `[a-z0-9]`. -/
def isLowerOrDigit (unit : UInt16) : Bool :=
  (97 ≤ unit && unit ≤ 122) || (48 ≤ unit && unit ≤ 57)

/-- `[A-Z]`. -/
def isUpper (unit : UInt16) : Bool := 65 ≤ unit && unit ≤ 90

/-- `key.replaceAll(/([a-z0-9])([A-Z])/gu, "$1_$2")`: an underscore between the words
of a camel-case key. -/
def separateWords : Text → Text
  | first :: second :: rest =>
      if isLowerOrDigit first && isUpper second then first :: 95 :: separateWords (second :: rest)
      else first :: separateWords (second :: rest)
  | rest => rest

/-- Case folding of the flags `iu`, on the letters of the pattern: besides the capital
letters, the long s and the Kelvin sign fold to them. -/
def foldCase (unit : UInt16) : UInt16 :=
  if isUpper unit then unit + 32
  else if unit = 0x17F then 115
  else if unit = 0x212A then 107
  else unit

/-- `[_-]`. -/
def isSeparator (unit : UInt16) : Bool := unit = 95 || unit = 45

/-- The alternatives of `SENSITIVE_KEY_PATTERN`. -/
def sensitiveWords : List Text :=
  ["authorization", "cookie", "email", "password", "passwd", "recipient", "secret", "token",
    "apikey", "api_key", "api-key"]

/-- Does a sensitive word start here and end at a separator or at the end? -/
def startsWithSensitiveWord (t : Text) : Bool :=
  sensitiveWords.any fun word => word.isPrefixOf t && (t.drop word.length).head?.all isSeparator

def containsSensitiveWord : Text → Bool
  | [] => false
  | unit :: rest => (isSeparator unit && startsWithSensitiveWord rest) || containsSensitiveWord rest

def isSensitiveKey (key : Text) : Bool :=
  let normalized := (separateWords key).map foldCase
  startsWithSensitiveWord normalized || containsSensitiveWord normalized

example : [("apiKey" : Text), "X-Auth-TOKEN", "secretary", "user_email_hash"].map isSensitiveKey =
    [true, true, false, true] := by decide

/-! ## The recursion -/

def maxRedactionDepth : ℕ := 8

mutual

/-- `redactValue`. A JSON value is a tree, so no object is met twice. -/
def redactValue : Json → ℕ → Json
  | .array items, depth =>
      if maxRedactionDepth ≤ depth then .string "[TRUNCATED]"
      else .array (redactItems items (depth + 1))
  | .object members, depth =>
      if maxRedactionDepth ≤ depth then .string "[TRUNCATED]"
      else .object (redactMembers members (depth + 1))
  | value, _ => value

def redactItems : List Json → ℕ → List Json
  | [], _ => []
  | item :: items, depth => redactValue item depth :: redactItems items depth

/-- The members of an object. An assignment to `__proto__` makes no member. -/
def redactMembers : List (Text × Json) → ℕ → List (Text × Json)
  | [], _ => []
  | (key, nested) :: members, depth =>
      if key = ("__proto__" : Text) then redactMembers members depth
      else
        (key, if isSensitiveKey key then .string "[REDACTED]" else redactValue nested depth) ::
          redactMembers members depth

end

def redactOutboundWebhookData (data : List (Text × Json)) : List (Text × Json) :=
  redactMembers data 1

/-! ## What is redacted leaves no trace -/

mutual

/-- Two values that differ only in what is found under sensitive keys. -/
def SameOutsideSensitive : Json → Json → Prop
  | .null, .null => True
  | .bool a, .bool b => a = b
  | .number a, .number b => a = b
  | .string a, .string b => a = b
  | .array as, .array bs => SameItems as bs
  | .object as, .object bs => SameMembers as bs
  | _, _ => False

/-- The same, item by item. -/
def SameItems : List Json → List Json → Prop
  | [], [] => True
  | a :: as, b :: bs => SameOutsideSensitive a b ∧ SameItems as bs
  | _, _ => False

/-- The same, member by member: what a sensitive key holds does not count. -/
def SameMembers : List (Text × Json) → List (Text × Json) → Prop
  | [], [] => True
  | (key, a) :: as, (key', b) :: bs =>
      key = key' ∧ (isSensitiveKey key = true ∨ SameOutsideSensitive a b) ∧ SameMembers as bs
  | _, _ => False

end

mutual

theorem redactValue_eq_of_same : ∀ (a b : Json) (depth : ℕ), SameOutsideSensitive a b →
    redactValue a depth = redactValue b depth
  | .null, b, _, h => by cases b <;> simp_all [SameOutsideSensitive]
  | .bool _, b, _, h => by cases b <;> simp_all [SameOutsideSensitive]
  | .number _, b, _, h => by cases b <;> simp_all [SameOutsideSensitive]
  | .string _, b, _, h => by cases b <;> simp_all [SameOutsideSensitive]
  | .array as, b, depth, h => by
      cases b with
      | array bs =>
          rw [SameOutsideSensitive] at h
          rw [redactValue, redactValue, redactItems_eq_of_same as bs (depth + 1) h]
      | null | bool | number | string | object => simp [SameOutsideSensitive] at h
  | .object as, b, depth, h => by
      cases b with
      | object bs =>
          rw [SameOutsideSensitive] at h
          rw [redactValue, redactValue, redactMembers_eq_of_same as bs (depth + 1) h]
      | null | bool | number | string | array => simp [SameOutsideSensitive] at h

theorem redactItems_eq_of_same : ∀ (as bs : List Json) (depth : ℕ), SameItems as bs →
    redactItems as depth = redactItems bs depth
  | [], [], _, _ => rfl
  | [], _ :: _, _, h => by simp [SameItems] at h
  | _ :: _, [], _, h => by simp [SameItems] at h
  | a :: as, b :: bs, depth, h => by
      rw [SameItems] at h
      rw [redactItems, redactItems, redactValue_eq_of_same a b depth h.1,
        redactItems_eq_of_same as bs depth h.2]

theorem redactMembers_eq_of_same : ∀ (as bs : List (Text × Json)) (depth : ℕ), SameMembers as bs →
    redactMembers as depth = redactMembers bs depth
  | [], [], _, _ => rfl
  | [], _ :: _, _, h => by simp [SameMembers] at h
  | _ :: _, [], _, h => by simp [SameMembers] at h
  | (key, a) :: as, (key', b) :: bs, depth, h => by
      rw [SameMembers] at h
      obtain ⟨rfl, hsame, hrest⟩ := h
      rw [redactMembers, redactMembers, redactMembers_eq_of_same as bs depth hrest]
      rcases hsame with hsensitive | hsame
      · simp [hsensitive]
      · rw [redactValue_eq_of_same a b depth hsame]

end

/-! ## A second pass changes nothing -/

mutual

theorem redactValue_idem : ∀ (a : Json) (depth : ℕ),
    redactValue (redactValue a depth) depth = redactValue a depth
  | .null, _ | .bool _, _ | .number _, _ | .string _, _ => rfl
  | .array as, depth => by
      by_cases hdepth : maxRedactionDepth ≤ depth
      · simp [redactValue, hdepth]
      · simp [redactValue, hdepth, redactItems_idem as (depth + 1)]
  | .object as, depth => by
      by_cases hdepth : maxRedactionDepth ≤ depth
      · simp [redactValue, hdepth]
      · simp [redactValue, hdepth, redactMembers_idem as (depth + 1)]

theorem redactItems_idem : ∀ (as : List Json) (depth : ℕ),
    redactItems (redactItems as depth) depth = redactItems as depth
  | [], _ => rfl
  | a :: as, depth => by
      simp only [redactItems]
      rw [redactValue_idem a depth, redactItems_idem as depth]

theorem redactMembers_idem : ∀ (as : List (Text × Json)) (depth : ℕ),
    redactMembers (redactMembers as depth) depth = redactMembers as depth
  | [], _ => rfl
  | (key, a) :: as, depth => by
      by_cases hproto : key = ("__proto__" : Text)
      · rw [redactMembers, if_pos hproto, redactMembers_idem as depth]
      · rw [redactMembers, if_neg hproto, redactMembers, if_neg hproto, redactMembers_idem as depth]
        by_cases hsensitive : isSensitiveKey key = true
        · simp [hsensitive]
        · simp [hsensitive, redactValue_idem a depth]

end

@[simp]
theorem redactOutboundWebhookData_idem (data : List (Text × Json)) :
    redactOutboundWebhookData (redactOutboundWebhookData data) = redactOutboundWebhookData data :=
  redactMembers_idem data 1

end ListmonkOps.Webhook
