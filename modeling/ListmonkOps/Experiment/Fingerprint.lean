/-
The fingerprint of a create request.

A create request carries a key, and the record it leads to keeps the key with a
digest of the request. A later request under the key is taken for a retry when
the digests agree. What is hashed is the canonical JSON of the request with its
defaults filled in, so requests that differ only in what JSON does not write are
taken for each other.
-/

import ListmonkOps.Experiment.Hypothesis
import ListmonkOps.Experiment.Types

namespace ListmonkOps.Experiment

open ListmonkOps.Runtime Hypothesis

/-! ## The digest of a request -/

/-- Object keys are sorted and kept, all of them. -/
def canonicalizeConfigValue : Value → Value := Value.canonicalizeWith fun _ => true

/-- `value ?? fallback`. -/
def orDefault : Value → Value → Value
  | .undefined, fallback => fallback
  | .null, fallback => fallback
  | value, _ => value

/-- `const { [name]: _, ...rest } = members`. -/
def without (name : Text) (members : Members) : Members := members.filter (·.1 ≠ name)

/-- The hypothesis of a request without the time it was written down. -/
def timelessHypothesis (config : Members) : Value :=
  .object (without "createdAt" ((plainMembers? (Value.get config "hypothesis")).getD []))

/-- The share of the audience that is tested where the request does not say. -/
def defaultTestGroupPercentage (testingMode : Value) : Value :=
  if isOneOf ["holdout"] testingMode then .number (.finite ⟨false, 1, 1, by decide⟩)
  else .number (.finite Decimal.hundred)

/-- The request with the defaults filled in, without its key. -/
def normalizedConfig (config : Members) : Members :=
  let payload := without "idempotencyKey" config
  let testingMode := orDefault (Value.get payload "testingMode") (.string "holdout")
  let filled := assign payload "testingMode" testingMode
  let filled := assign filled "testGroupPercentage"
    (orDefault (Value.get payload "testGroupPercentage") (defaultTestGroupPercentage testingMode))
  let filled := assign filled "confidenceThreshold"
    (orDefault (Value.get payload "confidenceThreshold")
      (.number (.finite ⟨false, 95, -2, by decide⟩)))
  let filled := assign filled "autoDeployWinner"
    (orDefault (Value.get payload "autoDeployWinner") (.boolean false))
  let filled := assign filled "autoLaunch"
    (orDefault (Value.get payload "autoLaunch") (.boolean false))
  let filled := assign filled "ignoreStatisticalWarnings"
    (orDefault (Value.get payload "ignoreStatisticalWarnings") (.boolean false))
  assign filled "hypothesis" (timelessHypothesis payload)

def fingerprintAbTestConfig [Sha256] (config : Members) : Text :=
  Sha256.digest (canonicalizeConfigValue (.object (normalizedConfig config))).stringify

/-! ## Used keys -/

/-- The record under a key, found in the order the records were added. -/
def getTestByIdempotencyKey (tests : List AbTest) (key : Text) : Option AbTest :=
  tests.find? (·.idempotencyKey = some key)

/-- The part of `recordCreateIntent` that looks for an earlier request: the record
it led to and whether that is complete, or nothing where the key is new. -/
def findReplay [Sha256] (tests : List AbTest) (config : Members) :
    Except Text (Option (AbTest × Bool)) :=
  match Value.get config "idempotencyKey" with
  | .string key =>
      match getTestByIdempotencyKey tests key with
      | none => .ok none
      | some existing =>
          if existing.idempotencyFingerprint.any (· ≠ fingerprintAbTestConfig config) then
            .error (("Idempotency key already used by a different create request: " : Text) ++ key)
          else
            .ok (some (existing, existing.provisionedAt.isSome || existing.pendingCreate.isNone))
  | _ => .ok none

/-- Two requests are equal once the defaults are filled in: the order of keys and
`undefined` members aside, with dates compared by instant. -/
def SameRequest (a b : Members) : Prop :=
  Value.Same (.object (normalizedConfig a)) (.object (normalizedConfig b))

/-- Two requests that differ, but only in values JSON has no text for: dates,
numbers that are not finite, `undefined` items of arrays. -/
def DifferOnlyUnwritten (a b : Members) : Prop :=
  ¬SameRequest a b ∧
    Value.Same (Value.blur (.object (normalizedConfig a)))
      (Value.blur (.object (normalizedConfig b)))

section Distinct

variable {members : Members} {name : Text} {value : Value}

theorem distinctKeys_without (h : Value.distinctKeys (.object members) = true) :
    Value.distinctKeys (.object (without name members)) = true := by
  have hsub : (without name members).Sublist members := List.filter_sublist
  refine Value.distinctKeys_object ((hsub.map Prod.fst).nodup (Value.nodup_keys h)) ?_
  exact fun member hmember => (Value.everywhere_object.mp h).2 member (hsub.subset hmember)

theorem distinctKeys_orDefault {fallback : Value} (h : value.distinctKeys = true)
    (hfallback : fallback.distinctKeys = true) : (orDefault value fallback).distinctKeys = true := by
  cases value <;> assumption

theorem distinctKeys_normalizedConfig {config : Members}
    (h : Value.distinctKeys (.object config) = true) :
    Value.distinctKeys (.object (normalizedConfig config)) = true := by
  have hpayload : (Value.object (without "idempotencyKey" config)).distinctKeys = true :=
    distinctKeys_without h
  have hread := Value.distinctKeys_get hpayload
  have hhypothesis : (timelessHypothesis (without "idempotencyKey" config)).distinctKeys = true := by
    apply distinctKeys_without
    have hvalue := hread "hypothesis"
    cases hget : Value.get (without "idempotencyKey" config) "hypothesis" with
    | object members => rwa [hget] at hvalue
    | _ => rfl
  have hshare : ∀ mode, (defaultTestGroupPercentage mode).distinctKeys = true := by
    intro mode
    unfold defaultTestGroupPercentage
    split <;> rfl
  exact distinctKeys_assign _ (distinctKeys_assign _ (distinctKeys_assign _ (distinctKeys_assign _
    (distinctKeys_assign _ (distinctKeys_assign _ (distinctKeys_assign _ hpayload
      (distinctKeys_orDefault (hread _) rfl)) (distinctKeys_orDefault (hread _) (hshare _)))
      (distinctKeys_orDefault (hread _) rfl)) (distinctKeys_orDefault (hread _) rfl))
      (distinctKeys_orDefault (hread _) rfl)) (distinctKeys_orDefault (hread _) rfl)) hhypothesis

end Distinct

/-! ## What the fingerprint identifies -/

section Identity

variable {a b : Members}

theorem fingerprint_eq_of_same_blur [Sha256] (ha : Value.distinctKeys (.object a) = true)
    (hb : Value.distinctKeys (.object b) = true)
    (h : Value.Same (Value.blur (.object (normalizedConfig a)))
      (Value.blur (.object (normalizedConfig b)))) :
    fingerprintAbTestConfig a = fingerprintAbTestConfig b := by
  have hequal := (Value.canonicalJson_eq_iff_same_blur (fun _ => rfl)
    (distinctKeys_normalizedConfig ha) (distinctKeys_normalizedConfig hb)).mpr h
  obtain ⟨sorted, hjson, -⟩ := Value.canonicalJson_object (fun _ => true) (normalizedConfig a)
  obtain ⟨sorted', hjson', -⟩ := Value.canonicalJson_object (fun _ => true) (normalizedConfig b)
  rw [hjson, hjson', Option.some.injEq] at hequal
  rw [fingerprintAbTestConfig, fingerprintAbTestConfig, canonicalizeConfigValue,
    Value.stringify_canonical hjson, Value.stringify_canonical hjson', hequal]

/-- Where digests do not collide, requests have one fingerprint only when they are
written alike. -/
theorem fingerprint_eq_iff [Sha256] [CollisionFree]
    (ha : Value.distinctKeys (.object a) = true)
    (hb : Value.distinctKeys (.object b) = true) :
    fingerprintAbTestConfig a = fingerprintAbTestConfig b ↔
      Value.Same (Value.blur (.object (normalizedConfig a)))
        (Value.blur (.object (normalizedConfig b))) := by
  refine ⟨fun hdigest => ?_, fingerprint_eq_of_same_blur ha hb⟩
  obtain ⟨sorted, hjson, -⟩ := Value.canonicalJson_object (fun _ => true) (normalizedConfig a)
  obtain ⟨sorted', hjson', -⟩ := Value.canonicalJson_object (fun _ => true) (normalizedConfig b)
  rw [fingerprintAbTestConfig, fingerprintAbTestConfig, canonicalizeConfigValue,
    Value.stringify_canonical hjson, Value.stringify_canonical hjson'] at hdigest
  apply (Value.canonicalJson_eq_iff_same_blur (fun _ => rfl) (distinctKeys_normalizedConfig ha)
    (distinctKeys_normalizedConfig hb)).mp
  rw [hjson, hjson']
  exact congrArg some (JsonTree.render_injective (CollisionFree.injective
    (JsonTree.isWellFormed_render _) (JsonTree.isWellFormed_render _) hdigest))

theorem same_blur_of_sameRequest (ha : Value.distinctKeys (.object a) = true)
    (hb : Value.distinctKeys (.object b) = true) (h : SameRequest a b) :
    Value.Same (Value.blur (.object (normalizedConfig a)))
      (Value.blur (.object (normalizedConfig b))) := by
  apply (Value.canonicalJson_eq_iff_same_blur (fun _ => rfl) (distinctKeys_normalizedConfig ha)
    (distinctKeys_normalizedConfig hb)).mp
  exact Value.canonicalJson_eq_of_same h (distinctKeys_normalizedConfig ha)
    (distinctKeys_normalizedConfig hb)

/-- A request under a used key meets the record of the first request, or the
conflict, as the fingerprints say. -/
theorem findReplay_used [Sha256] {tests : List AbTest} {existing : AbTest} {key : Text}
    (hused : getTestByIdempotencyKey tests key = some existing)
    (hstored : existing.idempotencyFingerprint = some (fingerprintAbTestConfig a))
    (hkey : Value.get b "idempotencyKey" = .string key) :
    ((∃ completed, findReplay tests b = .ok (some (existing, completed))) ↔
      fingerprintAbTestConfig a = fingerprintAbTestConfig b) ∧
    ((∃ message, findReplay tests b = .error message) ↔
      ¬fingerprintAbTestConfig a = fingerprintAbTestConfig b) := by
  simp only [findReplay, hkey, hused, hstored, Option.any_some, decide_eq_true_eq]
  by_cases hequal : fingerprintAbTestConfig a = fingerprintAbTestConfig b
  · simp [hequal]
  · simp [hequal]

/-- The fingerprint tells requests apart, and a used key is replayed for the same
request and refused for any other, exactly when the two requests do not differ
only in what JSON does not write. -/
theorem fingerprint_identifies [Sha256] [CollisionFree] {tests : List AbTest}
    {existing : AbTest} {key : Text}
    (ha : Value.distinctKeys (.object a) = true) (hb : Value.distinctKeys (.object b) = true)
    (hused : getTestByIdempotencyKey tests key = some existing)
    (hstored : existing.idempotencyFingerprint = some (fingerprintAbTestConfig a))
    (hkey : Value.get b "idempotencyKey" = .string key) :
    ((fingerprintAbTestConfig a = fingerprintAbTestConfig b ↔ SameRequest a b) ∧
      ((∃ completed, findReplay tests b = .ok (some (existing, completed))) ↔ SameRequest a b) ∧
      ((∃ message, findReplay tests b = .error message) ↔ ¬SameRequest a b)) ↔
      ¬DifferOnlyUnwritten a b := by
  obtain ⟨hreplayed, hrefused⟩ := findReplay_used hused hstored hkey
  rw [hreplayed, hrefused, fingerprint_eq_iff ha hb, DifferOnlyUnwritten]
  have hsame := same_blur_of_sameRequest ha hb
  constructor
  · rintro ⟨hiff, -⟩ ⟨hdiffer, hblurred⟩
    exact hdiffer (hiff.mp hblurred)
  · intro hnot
    have hiff : Value.Same (Value.blur (.object (normalizedConfig a)))
        (Value.blur (.object (normalizedConfig b))) ↔ SameRequest a b :=
      ⟨fun hblurred => by_contra fun hdiffer => hnot ⟨hdiffer, hblurred⟩, hsame⟩
    exact ⟨hiff, hiff, not_congr hiff⟩

end Identity

/-! ## Requests -/

def sampleVariant (name : String) (overrides : Members) : Value :=
  .object [("name", .string name), ("percentage", .number (.finite ⟨false, 5, 1, by decide⟩)),
    ("contentOverrides", .object overrides)]

/-- A request of two variants; `overrides` is what the second one changes. -/
def sampleRequest (overrides : Members) : Members :=
  [("name", .string "Welcome"), ("idempotencyKey", .string "key-1"), ("campaignId", .string "7"),
    ("variants", .array [sampleVariant "A" [("subject", .string "Hi")],
      sampleVariant "B" overrides]),
    ("metrics", .array []),
    ("baseConfig", .object [("subject", .string "Hi"), ("body", .string "<p>Hi</p>"),
      ("lists", .array [.number (.finite Decimal.one)])])]

/-- The same request with a default spelled out. -/
def sampleRepeated (overrides : Members) : Members :=
  sampleRequest overrides ++ [(("testingMode" : Text), Value.string "holdout")]

def sampleRequestJson : Text :=
  ("\x7b\"autoDeployWinner\":false,\"autoLaunch\":false," : Text) ++
  ("\"baseConfig\":\x7b\"body\":\"<p>Hi</p>\",\"lists\":[1],\"subject\":\"Hi\"\x7d," : Text) ++
  ("\"campaignId\":\"7\",\"confidenceThreshold\":0.95,\"hypothesis\":\x7b\x7d," : Text) ++
  ("\"ignoreStatisticalWarnings\":false,\"metrics\":[],\"name\":\"Welcome\"," : Text) ++
  ("\"testGroupPercentage\":10,\"testingMode\":\"holdout\",\"variants\":[" : Text) ++
  ("\x7b\"contentOverrides\":\x7b\"subject\":\"Hi\"\x7d,\"name\":\"A\",\"percentage\":50\x7d," :
    Text) ++
  ("\x7b\"contentOverrides\":\x7b\"subject\":\"Hello\"\x7d,\"name\":\"B\"," : Text) ++
  ("\"percentage\":50\x7d]\x7d" : Text)

def sampleRequestDigests : List (Text × Text) :=
  [(sampleRequestJson, "74d2b784c7753414ff9adea4c57eecd1dd30b0207d7a0253c553156a6b5a1c65")]

def sampleKeyedTest (fingerprint : Text) : AbTest where
  id := "test_1"
  name := "Welcome"
  idempotencyKey := some "key-1"
  idempotencyFingerprint := some fingerprint
  pendingCreate := none
  provisionedAt := some { time := 1785000000000 }
  variants := []
  status := .draft
  winnerVariantId := none
  createdAt := 1785000000000
  updatedAt := 1785000000000
  baseConfig := ⟨"Hi", "<p>Hi</p>", [1], none⟩
  testingMode := .holdout
  testGroupPercentage := 10
  testGroupSize := 0
  holdoutGroupSize := 0
  autoDeployWinner := false
  campaignMappings := []
  testListMappings := []
  holdoutListId := none
  winnerCampaignId := none
  assignmentSeed := none
  audienceSnapshot := none
  minimumTestSampleSize := none
  assignmentProvenance := none
  assignmentManifest := none
  durationHours := none
  launchAt := none
  startedAt := none
  endsAt := none

theorem distinctKeys_sampleRequest (overrides : Members)
    (h : Value.distinctKeys (.object overrides) = true) :
    Value.distinctKeys (.object (sampleRequest overrides)) = true ∧
      Value.distinctKeys (.object (sampleRepeated overrides)) = true := by
  have hvariant : ∀ {name : String} {overrides : Members},
      Value.distinctKeys (.object overrides) = true →
        (sampleVariant name overrides).distinctKeys = true := by
    intro name overrides hdistinct
    refine Value.distinctKeys_object
      (show ([("name" : Text), "percentage", "contentOverrides"]).Nodup by decide +kernel) ?_
    simp only [List.forall_mem_cons, List.not_mem_nil, false_imp_iff, implies_true, and_true]
    exact ⟨rfl, rfl, hdistinct⟩
  have hmembers : ∀ member ∈ sampleRequest overrides, member.2.distinctKeys = true := by
    simp only [sampleRequest, List.forall_mem_cons, List.not_mem_nil, false_imp_iff, implies_true,
      and_true]
    refine ⟨rfl, rfl, rfl, ?_, rfl, by decide +kernel⟩
    refine Value.everywhere_array.mpr ⟨rfl, ?_⟩
    simp only [List.forall_mem_cons, List.not_mem_nil, false_imp_iff, implies_true, and_true]
    exact ⟨hvariant (by decide +kernel), hvariant h⟩
  constructor
  · exact Value.distinctKeys_object (show ([("name" : Text), "idempotencyKey", "campaignId",
      "variants", "metrics", "baseConfig"]).Nodup by decide +kernel) hmembers
  · refine Value.distinctKeys_object (show ([("name" : Text), "idempotencyKey", "campaignId",
      "variants", "metrics", "baseConfig", "testingMode"]).Nodup by decide +kernel) ?_
    intro member hmember
    rcases List.mem_append.mp hmember with hold | hnew
    · exact hmembers member hold
    · rw [List.mem_singleton.mp hnew]
      rfl

/-- A request sent again with a default spelled out is replayed. -/
theorem fingerprint_identifies_sample :
    letI := knownSha256 sampleRequestDigests
    ∃ completed,
      findReplay [sampleKeyedTest (fingerprintAbTestConfig
          (sampleRequest [("subject", .string "Hello")]))]
        (sampleRepeated [("subject", .string "Hello")]) =
      .ok (some (sampleKeyedTest (fingerprintAbTestConfig
        (sampleRequest [("subject", .string "Hello")])), completed)) := by
  let := knownSha256 sampleRequestDigests
  have : CollisionFree :=
    knownSha256_collisionFree (by decide +kernel) (by decide +kernel)
  obtain ⟨hrequest, hrepeated⟩ := distinctKeys_sampleRequest [("subject", .string "Hello")]
    (by decide +kernel)
  have hsame : SameRequest (sampleRequest [("subject", .string "Hello")])
      (sampleRepeated [("subject", .string "Hello")]) := by
    rw [SameRequest, show normalizedConfig (sampleRepeated [("subject", .string "Hello")]) =
      normalizedConfig (sampleRequest [("subject", .string "Hello")]) from rfl]
    exact .refl _
  exact ((fingerprint_identifies hrequest hrepeated rfl rfl rfl).mpr
    fun h => h.1 hsame).2.1.mpr hsame

/-- What the second variant of a request sends, and when. -/
def sentAt (instant : ℤ) : Members := [("sendTime", .date (some instant))]

/-- Two requests that differ in the time one of their variants is sent at have one
fingerprint, and the second is taken for a retry of the first. -/
theorem fingerprint_ignores_sendTime :
    ¬SameRequest (sampleRequest (sentAt 1785000000000)) (sampleRequest (sentAt 1785086400000)) ∧
    ∀ sha : Sha256,
      @fingerprintAbTestConfig sha (sampleRequest (sentAt 1785000000000)) =
        @fingerprintAbTestConfig sha (sampleRequest (sentAt 1785086400000)) ∧
      ∃ existing completed, existing.idempotencyFingerprint =
          some (@fingerprintAbTestConfig sha (sampleRequest (sentAt 1785000000000))) ∧
        findReplay [existing] (sampleRequest (sentAt 1785086400000)) =
          .ok (some (existing, completed)) := by
  have hdistinct : ∀ instant,
      Value.distinctKeys (.object (sampleRequest (sentAt instant))) = true := fun instant =>
    (distinctKeys_sampleRequest (sentAt instant)
      (Value.distinctKeys_object (List.nodup_singleton _) (by simp [sentAt]; rfl))).1
  constructor
  · intro hsame
    obtain ⟨members, hmembers, hget⟩ := hsame.exists_object
    obtain rfl := Value.object.inj hmembers
    have hvariants : Value.Same (.array _) (.array _) := hget "variants"
    cases hvariants with
    | array length same =>
        obtain ⟨variant, hvariant, hread⟩ := (same 1).exists_object
        obtain rfl := Value.object.inj hvariant
        obtain ⟨overrides, hoverrides, htimes⟩ := (hread "contentOverrides").exists_object
        obtain rfl := Value.object.inj hoverrides
        have htime : Value.Same (.date _) (.date _) := htimes "sendTime"
        cases htime
  · intro sha
    have hequal : fingerprintAbTestConfig (sampleRequest (sentAt 1785000000000)) =
        fingerprintAbTestConfig (sampleRequest (sentAt 1785086400000)) :=
      fingerprint_eq_of_same_blur (hdistinct _) (hdistinct _) (.refl _)
    have hused : getTestByIdempotencyKey [sampleKeyedTest (fingerprintAbTestConfig
        (sampleRequest (sentAt 1785000000000)))] "key-1" = some _ := rfl
    obtain ⟨completed, hreplayed⟩ := (findReplay_used hused rfl rfl).1.mpr hequal
    exact ⟨hequal, _, completed, rfl, hreplayed⟩

end ListmonkOps.Experiment
