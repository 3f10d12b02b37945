/-
The collision guard: which tests may hold a subscriber at the same time.

A test reserves a window for each of its subjects before it is launched. The
in-memory store checks and reserves in one piece, so its calls are functions of
the list of participations. The limit of the policy then holds at every
instant, although the check only looks at windows that overlap somewhere.
-/

import Mathlib.Data.Finset.Card
import ListmonkOps.Math.Keyed
import ListmonkOps.Runtime.Stringify

namespace ListmonkOps.Experiment

open ListmonkOps.Math ListmonkOps.Runtime

/-- A timestamp with a time of day and a zone, on a date of the calendar, that
the platform reads. -/
def isCollisionTimestamp [DateParsing] (value : Text) : Bool :=
  startsWithDate value && isClock 6 isZone (value.drop 10) && (DateParsing.parse value).isSome

/-- `new Date(a).getTime() <= new Date(b).getTime()`; false where one is `NaN`. -/
def notLater [DateParsing] (a b : Text) : Bool :=
  match DateParsing.parse a, DateParsing.parse b with
  | some s, some t => s ≤ t
  | _, _ => false

inductive ParticipationState where
  | reserved
  | exposed
  | released
  deriving DecidableEq

/-- One subject held by one test; the channel is always `email`. -/
structure ExperimentParticipation where
  testId : Text
  subjectKey : Text
  experimentFamilyKey : Text
  state : ParticipationState
  windowStartsAt : Text
  windowEndsAt : Text
  reservedAt : Text
  exposedAt : Option Text := none
  releasedAt : Option Text := none
  deriving DecidableEq

inductive CollisionMode where
  | block
  | exclude
  | warn
  deriving DecidableEq

structure CollisionPolicy where
  mode : CollisionMode
  maximumConcurrentExperiments : Number
  deriving DecidableEq

/-- The limit a policy states, where it is a finite integer of at least one. -/
def concurrencyLimit : Number → Option ℕ
  | .finite value =>
      if value.isPositive ∧ 0 ≤ value.exponent then
        some (value.digits * 10 ^ value.exponent.toNat)
      else none
  | _ => none

theorem concurrencyLimit_pos {x : Number} {limit : ℕ} (h : concurrencyLimit x = some limit) : 0 < limit := by
  unfold concurrencyLimit at h
  split at h
  · split at h
    · next hpositive =>
        obtain rfl := Option.some.inj h
        simp only [Decimal.isPositive, Bool.and_eq_true, bne_iff_ne] at hpositive
        exact Nat.mul_pos (Nat.pos_of_ne_zero hpositive.1.1) (by positivity)
    · simp at h
  · simp at h

section Windows

variable [DateParsing]

/-- Two windows share an instant, their ends included. -/
def windowsOverlap (a b : ExperimentParticipation) : Bool :=
  notLater a.windowStartsAt b.windowEndsAt && notLater b.windowStartsAt a.windowEndsAt

def participationsCollide (a b : ExperimentParticipation) : Bool :=
  a.subjectKey = b.subjectKey && a.experimentFamilyKey = b.experimentFamilyKey &&
    a.state ≠ .released && b.state ≠ .released && windowsOverlap a b

end Windows

/-! ## Errors -/

inductive CollisionError where
  | configuration (message : Text)
  | conflict (conflictCount : ℕ) (conflictingTestIds : List Text)
  deriving DecidableEq

/-- The constructor of `CollisionConflictError` sorts the tests it is given. -/
def CollisionError.ofConflict (conflictCount : ℕ) (conflictingTestIds : List Text) :
    CollisionError :=
  .conflict conflictCount (conflictingTestIds.eraseDups.mergeSort (· ≤ ·))

def CollisionError.message : CollisionError → Text
  | .configuration message => message
  | .conflict conflictCount conflictingTestIds =>
      ("Collision guard blocked launch: " : Text) ++ Text.ofNat conflictCount ++
        (" subject(s) conflict with " : Text) ++ Text.ofNat conflictingTestIds.length ++
        (" existing test(s)" : Text)

/-! ## Reserving -/

/-- The input of `checkAndReserve`. -/
structure ReservationRequest where
  testId : Text
  experimentFamilyKey : Text
  windowStartsAt : Text
  windowEndsAt : Text
  subjectKeys : List Text
  policy : CollisionPolicy
  reservedAt : Text

/-- What is found and returned where the check is passed. -/
structure CollisionReservationResult where
  reserved : List ExperimentParticipation
  conflicts : Option (ℕ × List Text) := none
  warning : Option Text := none
  deriving DecidableEq

def isLowerAlphanumeric (unit : UInt16) : Bool := isDigit unit || (97 ≤ unit && unit ≤ 122)

/-- `/^[a-z0-9]+(?:[._-][a-z0-9]+)*$/`: segments between single separators. -/
def isFamilyKey (key : Text) : Bool :=
  (key.splitOnP fun unit => unit = 46 || unit = 95 || unit = 45).all fun segment =>
    segment ≠ [] && segment.all isLowerAlphanumeric

/-- `/^[0-9a-f]{64}$/`. -/
def isSubjectKey (key : Text) : Bool :=
  key.length = 64 && key.all fun unit => isDigit unit || (97 ≤ unit && unit ≤ 102)

/-- A message that ends with the value received. -/
def received (message : Text) (value : Value) : CollisionError :=
  .configuration (message ++ (", received " : Text) ++ value.stringify)

/-- The reservation a request asks for one subject. -/
def candidate (input : ReservationRequest) (subjectKey : Text) : ExperimentParticipation where
  testId := input.testId
  subjectKey
  experimentFamilyKey := input.experimentFamilyKey
  state := .reserved
  windowStartsAt := input.windowStartsAt
  windowEndsAt := input.windowEndsAt
  reservedAt := input.reservedAt

/-- The key of the index of active participations. -/
def indexKey (p : ExperimentParticipation) : Text :=
  p.subjectKey ++ 58 :: p.experimentFamilyKey

/-- The distinct tests among participations, in the order met. -/
def testsOf (participations : List ExperimentParticipation) : List Text :=
  (participations.map (·.testId)).eraseDups

theorem mem_testsOf {participations : List ExperimentParticipation} {testId : Text} :
    testId ∈ testsOf participations ↔ ∃ p ∈ participations, p.testId = testId := by
  simp [testsOf]

section Reserving

variable [DateParsing]

/-- The checks made before the store is looked at; they give the limit. -/
def validateReservation (input : ReservationRequest) : Except CollisionError ℕ := do
  if input.testId = [] then throw (.configuration "testId must be a non-empty string")
  else
    match concurrencyLimit input.policy.maximumConcurrentExperiments with
    | none =>
        throw (received "maximumConcurrentExperiments must be a finite integer >= 1"
          (.number input.policy.maximumConcurrentExperiments))
    | some limit =>
        if !isCollisionTimestamp input.reservedAt then
          throw (received "reservedAt must be a valid ISO 8601 timestamp"
            (.string input.reservedAt))
        else if !isFamilyKey input.experimentFamilyKey then
          throw (received
            "experimentFamilyKey must be lowercase alphanumeric segments joined by [._-]"
            (.string input.experimentFamilyKey))
        else if !isCollisionTimestamp input.windowStartsAt then
          throw (received "windowStartsAt must be a valid ISO 8601 timestamp"
            (.string input.windowStartsAt))
        else if !isCollisionTimestamp input.windowEndsAt then
          throw (received "windowEndsAt must be a valid ISO 8601 timestamp"
            (.string input.windowEndsAt))
        else if !notLater input.windowStartsAt input.windowEndsAt then
          throw (.configuration
            (("windowStartsAt must not be later than windowEndsAt, received starts=" : Text) ++
              quote input.windowStartsAt ++ (" ends=" : Text) ++ quote input.windowEndsAt))
        else if input.subjectKeys = [] then
          throw (.configuration "subjectKeys must be a non-empty array")
        else
          match input.subjectKeys.find? (!isSubjectKey ·) with
          | some [] => throw (.configuration "subjectKeys must be non-empty strings")
          | some key =>
              throw (.configuration
                ((("subjectKeys must be 64-char hex HMAC digests (use computeSubjectKey), " :
                  Text) ++ ("received a key of length " : Text)) ++ Text.ofNat key.length))
          | none => pure limit

/-- The active participations of other tests that collide with a candidate. -/
def conflicting (participations : List ExperimentParticipation) (c : ExperimentParticipation) :
    List ExperimentParticipation :=
  (participations.filter fun p =>
    p.testId ≠ c.testId && p.state ≠ .released && indexKey p = indexKey c).filter
      (participationsCollide · c)

/-- What stays of the participations while a test reserves anew. -/
def withoutReserved (participations : List ExperimentParticipation) (testId : Text) :
    List ExperimentParticipation :=
  participations.filter fun p => p.testId ≠ testId || p.state ≠ .reserved

/-- A candidate whose subject already is in as many tests as the limit allows. -/
def isBlocked (participations : List ExperimentParticipation) (limit : ℕ)
    (c : ExperimentParticipation) : Bool :=
  conflicting participations c ≠ [] &&
    limit ≤ (testsOf (conflicting participations c)).length

/-- The serialized part of `checkAndReserve`. -/
def reserve (participations : List ExperimentParticipation) (input : ReservationRequest)
    (limit : ℕ) :
    Except CollisionError CollisionReservationResult × List ExperimentParticipation :=
  let savedReserved := participations.filter fun p =>
    p.testId = input.testId && p.state = .reserved
  let kept := withoutReserved participations input.testId
  let candidates := input.subjectKeys.eraseDups.map (candidate input)
  let conflictCount := (candidates.filter fun c => conflicting kept c ≠ []).length
  let conflictingTests := testsOf (candidates.flatMap (conflicting kept))
  let blockedSubjects := (candidates.filter (isBlocked kept limit)).map (·.subjectKey)
  if input.policy.mode = .block ∧ blockedSubjects ≠ [] then
    (.error (.ofConflict conflictCount conflictingTests), kept ++ savedReserved)
  else
    let toReserve :=
      if input.policy.mode = .exclude then
        candidates.filter fun p => p.subjectKey ∉ blockedSubjects
      else candidates
    (.ok {
      reserved := toReserve
      conflicts :=
        if 0 < conflictCount then some (conflictCount, conflictingTests.mergeSort (· ≤ ·))
        else none
      warning :=
        if input.policy.mode = .warn ∧ blockedSubjects ≠ [] then
          some (("Collision guard warning: " : Text) ++ Text.ofNat blockedSubjects.length ++
            (" subject(s) exceed the concurrency limit of " : Text) ++ Text.ofNat limit)
        else none }, kept ++ toReserve)

def checkAndReserve (participations : List ExperimentParticipation)
    (input : ReservationRequest) :
    Except CollisionError CollisionReservationResult × List ExperimentParticipation :=
  match validateReservation input with
  | .error e => (.error e, participations)
  | .ok limit => reserve participations input limit

/-! ## Exposing, releasing, expiring -/

/-- A call that first checks the time it is given, and then changes every
participation by itself. -/
def sweep (name timestamp : Text) (participations : List ExperimentParticipation)
    (change : ExperimentParticipation → Option ExperimentParticipation) :
    Except CollisionError ℕ × List ExperimentParticipation :=
  if isCollisionTimestamp timestamp then
    (.ok (participations.filter fun p => (change p).isSome).length,
      participations.map fun p => (change p).getD p)
  else
    (.error (received (name ++ (" must be a valid ISO 8601 timestamp" : Text)) (.string timestamp)),
      participations)

def markExposed (participations : List ExperimentParticipation) (testId exposedAt : Text) :
    Except CollisionError ℕ × List ExperimentParticipation :=
  sweep "exposedAt" exposedAt participations fun p =>
    if p.testId = testId ∧ p.state = .reserved then
      some { p with state := .exposed, exposedAt := some exposedAt }
    else none

/-- A window that ends exactly now is still active. -/
def releaseEligible (participations : List ExperimentParticipation) (now : Text) :
    Except CollisionError ℕ × List ExperimentParticipation :=
  sweep "now" now participations fun p =>
    if p.state ≠ .released ∧ notLater p.windowEndsAt now ∧ ¬notLater now p.windowEndsAt then
      some { p with state := .released, releasedAt := some now }
    else none

/-- Exposed participations are kept until their window has ended. -/
def releaseByTest (participations : List ExperimentParticipation) (testId releasedAt : Text) :
    Except CollisionError ℕ × List ExperimentParticipation :=
  sweep "releasedAt" releasedAt participations fun p =>
    if p.testId = testId ∧ p.state ≠ .released ∧
        ¬(p.state = .exposed ∧ notLater releasedAt p.windowEndsAt) then
      some { p with state := .released, releasedAt := some releasedAt }
    else none

inductive CollisionCall where
  | checkAndReserve (input : ReservationRequest)
  | markExposed (testId exposedAt : Text)
  | releaseEligible (now : Text)
  | releaseByTest (testId releasedAt : Text)

/-- The participations after a call, and whether it threw. -/
def CollisionCall.apply (participations : List ExperimentParticipation) :
    CollisionCall → Except CollisionError Unit × List ExperimentParticipation
  | .checkAndReserve input =>
      let (answer, after) := Experiment.checkAndReserve participations input
      (answer.map fun _ => (), after)
  | .markExposed testId exposedAt =>
      let (answer, after) := Experiment.markExposed participations testId exposedAt
      (answer.map fun _ => (), after)
  | .releaseEligible now =>
      let (answer, after) := Experiment.releaseEligible participations now
      (answer.map fun _ => (), after)
  | .releaseByTest testId releasedAt =>
      let (answer, after) := Experiment.releaseByTest participations testId releasedAt
      (answer.map fun _ => (), after)

/-- The participations after a sequence of calls on an empty store. -/
def participationsAfter (calls : List CollisionCall) : List ExperimentParticipation :=
  calls.foldl (fun participations call => (call.apply participations).2) []

/-! ## The limit at every instant -/

/-- A participation holds its subject at an instant. -/
def ExperimentParticipation.isActiveAt (p : ExperimentParticipation) (instant : ℤ) : Bool :=
  p.state ≠ .released && (DateParsing.parse p.windowStartsAt).any (· ≤ instant) &&
    (DateParsing.parse p.windowEndsAt).any (instant ≤ ·)

/-- The tests that hold a subject for an experiment family at an instant. -/
def activeTests (participations : List ExperimentParticipation) (subjectKey familyKey : Text)
    (instant : ℤ) : Finset Text :=
  ((participations.filter fun p =>
    p.subjectKey = subjectKey && p.experimentFamilyKey = familyKey &&
      p.isActiveAt instant).map (·.testId)).toFinset

/-- No subject is in more than `k` tests of one family at the same time. -/
def WithinLimit (k : ℕ) (participations : List ExperimentParticipation) : Prop :=
  ∀ subjectKey familyKey instant,
    (activeTests participations subjectKey familyKey instant).card ≤ k

variable {participations later : List ExperimentParticipation} {p c : ExperimentParticipation}
  {input : ReservationRequest} {limit k : ℕ} {subjectKey familyKey testId : Text} {instant : ℤ}

theorem mem_activeTests : testId ∈ activeTests participations subjectKey familyKey instant ↔
    ∃ p ∈ participations, p.subjectKey = subjectKey ∧ p.experimentFamilyKey = familyKey ∧
      p.isActiveAt instant = true ∧ p.testId = testId := by
  simp only [activeTests, List.mem_toFinset, List.mem_map, List.mem_filter, Bool.and_eq_true,
    decide_eq_true_eq]
  constructor
  · rintro ⟨p, ⟨hmem, ⟨hsubject, hfamily⟩, hactive⟩, htest⟩
    exact ⟨p, hmem, hsubject, hfamily, hactive, htest⟩
  · rintro ⟨p, hmem, hsubject, hfamily, hactive, htest⟩
    exact ⟨p, ⟨hmem, ⟨hsubject, hfamily⟩, hactive⟩, htest⟩

theorem windowsOverlap_of_active (hp : p.isActiveAt instant = true)
    (hc : c.isActiveAt instant = true) : windowsOverlap p c = true := by
  simp only [ExperimentParticipation.isActiveAt, Bool.and_eq_true, Option.any_eq_true,
    decide_eq_true_eq] at hp hc
  obtain ⟨⟨-, s, hs, hsi⟩, e, he, hie⟩ := hp
  obtain ⟨⟨-, s', hs', hsi'⟩, e', he', hie'⟩ := hc
  simp only [windowsOverlap, notLater, hs, he, hs', he', Bool.and_eq_true, decide_eq_true_eq]
  omega

/-- The other tests that hold a candidate's subject while it is active are among
those the check counts. -/
theorem active_others_subset (hc : c.isActiveAt instant = true) :
    (activeTests participations c.subjectKey c.experimentFamilyKey instant).erase c.testId ⊆
      (testsOf (conflicting participations c)).toFinset := by
  intro testId hmem
  obtain ⟨hother, hactive⟩ := Finset.mem_erase.mp hmem
  obtain ⟨p, hp, hsubject, hfamily, hpActive, rfl⟩ := mem_activeTests.mp hactive
  have hstate : ∀ {q : ExperimentParticipation}, q.isActiveAt instant = true →
      q.state ≠ .released := by
    intro q hq
    simp only [ExperimentParticipation.isActiveAt, Bool.and_eq_true, decide_eq_true_eq] at hq
    exact hq.1.1
  rw [List.mem_toFinset, mem_testsOf]
  refine ⟨p, ?_, rfl⟩
  simp [conflicting, participationsCollide, hp, hsubject, hfamily, hother, hstate hpActive,
    hstate hc, indexKey, windowsOverlap_of_active hpActive hc]

theorem card_others_lt (hlimit : 0 < limit) (hc : c.isActiveAt instant = true)
    (hfree : isBlocked participations limit c = false) :
    ((activeTests participations c.subjectKey c.experimentFamilyKey instant).erase
      c.testId).card < limit := by
  have hcard : _ ≤ (testsOf (conflicting participations c)).toFinset.card :=
    Finset.card_le_card (active_others_subset hc)
  rw [testsOf, List.toFinset_card_of_nodup (nodup_eraseDups _)] at hcard
  refine lt_of_le_of_lt hcard ?_
  rw [isBlocked, Bool.and_eq_false_iff, decide_eq_false_iff_not, decide_eq_false_iff_not] at hfree
  rcases hfree with hnone | hfew
  · simpa [not_not.mp hnone] using hlimit
  · exact not_le.mp hfew

theorem WithinLimit.anti (h : WithinLimit k participations)
    (hsub : ∀ p ∈ later, ∀ instant, p.isActiveAt instant = true →
      ∃ q ∈ participations, q.testId = p.testId ∧ q.subjectKey = p.subjectKey ∧
        q.experimentFamilyKey = p.experimentFamilyKey ∧ q.isActiveAt instant = true) :
    WithinLimit k later := by
  intro subjectKey familyKey instant
  refine le_trans (Finset.card_le_card ?_) (h subjectKey familyKey instant)
  intro testId hmem
  obtain ⟨p, hp, hsubject, hfamily, hactive, htest⟩ := mem_activeTests.mp hmem
  obtain ⟨q, hq, hqtest, hqsubject, hqfamily, hqactive⟩ := hsub p hp instant hactive
  exact mem_activeTests.mpr ⟨q, hq, hqsubject.trans hsubject, hqfamily.trans hfamily, hqactive,
    hqtest.trans htest⟩

/-- Unblocked candidates of one request, one for each subject, keep the limit. -/
theorem WithinLimit.append (h : WithinLimit k participations) (testId : Text) (hlimit : 0 < limit)
    (hle : limit ≤ k) {reserved : List ExperimentParticipation}
    (hreserved : ∀ c ∈ reserved, c.testId = testId ∧
      isBlocked participations limit c = false) :
    WithinLimit k (participations ++ reserved) := by
  intro subjectKey familyKey instant
  by_cases hnew : ∃ c ∈ reserved, c.subjectKey = subjectKey ∧
      c.experimentFamilyKey = familyKey ∧ c.isActiveAt instant = true
  · obtain ⟨c, hc, rfl, rfl, hactive⟩ := hnew
    obtain ⟨htest, hfree⟩ := hreserved c hc
    have hothers := card_others_lt hlimit hactive hfree
    -- whoever holds the subject now is the new test or was counted among the others
    have hsubset : activeTests (participations ++ reserved) c.subjectKey c.experimentFamilyKey
        instant ⊆ insert c.testId ((activeTests participations c.subjectKey
          c.experimentFamilyKey instant).erase c.testId) := by
      intro testId hmem
      obtain ⟨p, hp, hsubject, hfamily, hpActive, rfl⟩ := mem_activeTests.mp hmem
      rw [Finset.mem_insert, Finset.mem_erase, mem_activeTests]
      rcases List.mem_append.mp hp with hold | hnew
      · by_cases hsame : p.testId = c.testId
        · exact .inl hsame
        · exact .inr ⟨hsame, p, hold, hsubject, hfamily, hpActive, rfl⟩
      · exact .inl ((hreserved p hnew).1.trans htest.symm)
    have hcard := Finset.card_le_card hsubset
    have hinsert := Finset.card_insert_le c.testId
      ((activeTests participations c.subjectKey c.experimentFamilyKey instant).erase c.testId)
    omega
  · refine le_trans (Finset.card_le_card ?_) (h subjectKey familyKey instant)
    intro testId hmem
    obtain ⟨p, hp, hsubject, hfamily, hactive, htest⟩ := mem_activeTests.mp hmem
    rcases List.mem_append.mp hp with hold | hadded
    · exact mem_activeTests.mpr ⟨p, hold, hsubject, hfamily, hactive, htest⟩
    · exact absurd ⟨p, hadded, hsubject, hfamily, hactive⟩ hnew

/-! ## What the calls do -/

theorem limit_of_validateReservation (h : validateReservation input = .ok limit) :
    concurrencyLimit input.policy.maximumConcurrentExperiments = some limit := by
  unfold validateReservation at h
  split at h
  · simp at h
  · split at h
    · simp at h
    · next found hfound =>
        rw [hfound]
        iterate 6 (split at h; · simp at h)
        split at h
        · simp at h
        · simp at h
        · exact congrArg some (Except.ok.inj h)

theorem conflicting_others (hc : c.testId = input.testId) :
    conflicting (withoutReserved participations input.testId) c =
      conflicting (participations.filter (·.testId ≠ input.testId)) c := by
  simp only [conflicting, withoutReserved, List.filter_filter]
  apply List.filter_congr
  intro p _
  by_cases hp : p.testId = input.testId <;> simp [hp, hc]

/-- The answer to a request depends on the other tests only. -/
theorem reserve_fst_others (participations : List ExperimentParticipation)
    (input : ReservationRequest) (limit : ℕ) :
    (reserve participations input limit).1 =
      (reserve (participations.filter (·.testId ≠ input.testId)) input limit).1 := by
  set others := participations.filter (·.testId ≠ input.testId) with hothers
  have hsame : ∀ c ∈ input.subjectKeys.eraseDups.map (candidate input),
      conflicting (withoutReserved participations input.testId) c =
        conflicting (withoutReserved others input.testId) c := by
    intro c hc
    obtain ⟨subjectKey, -, rfl⟩ := List.mem_map.mp hc
    rw [conflicting_others rfl, conflicting_others rfl, hothers, List.filter_filter]
    simp
  have hblocked : (input.subjectKeys.eraseDups.map (candidate input)).filter
        (isBlocked (withoutReserved participations input.testId) limit) =
      (input.subjectKeys.eraseDups.map (candidate input)).filter
        (isBlocked (withoutReserved others input.testId) limit) := by
    apply List.filter_congr
    intro c hc
    rw [isBlocked, hsame c hc, isBlocked]
  have hcount : (input.subjectKeys.eraseDups.map (candidate input)).filter
        (fun c => conflicting (withoutReserved participations input.testId) c ≠ []) =
      (input.subjectKeys.eraseDups.map (candidate input)).filter
        (fun c => conflicting (withoutReserved others input.testId) c ≠ []) := by
    apply List.filter_congr
    intro c hc
    rw [hsame c hc]
  simp only [reserve]
  rw [hblocked, hcount, List.flatMap_congr hsame]
  split <;> rfl

theorem reserve_error {e : CollisionError} (h : (reserve participations input limit).1 = .error e) :
    (reserve participations input limit).2.Perm participations := by
  simp only [reserve] at h ⊢
  split at h
  · next hrefused =>
      rw [if_pos hrefused]
      refine List.perm_append_comm.trans ?_
      have hcomplement : ∀ p : ExperimentParticipation,
          (decide (p.testId ≠ input.testId) || decide (p.state ≠ .reserved)) =
            !(decide (p.testId = input.testId) && decide (p.state = .reserved)) := by
        intro p
        simp [Bool.not_and]
      rw [withoutReserved, List.filter_congr fun p _ => hcomplement p]
      exact List.filter_append_perm _ participations
  · simp at h

/-- A reservation under a policy that refuses or leaves out keeps the limit. -/
theorem WithinLimit.reserve (h : WithinLimit k participations) (hlimit : 0 < limit)
    (hle : limit ≤ k) (hmode : input.policy.mode ≠ .warn) :
    WithinLimit k (reserve participations input limit).2 := by
  by_cases hrefused : ∃ e, (Experiment.reserve participations input limit).1 = .error e
  · obtain ⟨e, he⟩ := hrefused
    refine h.anti fun p hp instant hactive => ⟨p, ?_, rfl, rfl, rfl, hactive⟩
    exact (reserve_error he).subset hp
  · simp only [Experiment.reserve] at hrefused ⊢
    split at hrefused
    · simp at hrefused
    · next hpassed =>
        rw [if_neg hpassed]
        have hkept : WithinLimit k (withoutReserved participations input.testId) :=
          h.anti fun p hp instant hactive => ⟨p, (List.mem_filter.mp hp).1, rfl, rfl, rfl, hactive⟩
        refine hkept.append input.testId hlimit hle ?_
        have hfree : ∀ c ∈ input.subjectKeys.eraseDups.map (candidate input),
            c.subjectKey ∉ ((input.subjectKeys.eraseDups.map (candidate input)).filter
              (isBlocked (withoutReserved participations input.testId) limit)).map
                (·.subjectKey) →
            c.testId = input.testId ∧
              isBlocked (withoutReserved participations input.testId) limit c = false := by
          intro c hc hnot
          constructor
          · obtain ⟨subjectKey, -, rfl⟩ := List.mem_map.mp hc
            rfl
          · rw [Bool.eq_false_iff]
            exact fun hblocked =>
              hnot (List.mem_map.mpr ⟨c, List.mem_filter.mpr ⟨hc, hblocked⟩, rfl⟩)
        intro c hc
        split at hc
        · obtain ⟨hmem, hnot⟩ := List.mem_filter.mp hc
          exact hfree c hmem (by simpa using hnot)
        · next hexclude =>
            -- the mode is `block`, and nothing was blocked
            have hblock : input.policy.mode = .block := by
              cases hm : input.policy.mode with
              | block => rfl
              | warn => exact absurd hm hmode
              | exclude => exact absurd hm hexclude
            rw [not_and, not_not] at hpassed
            refine hfree c hc ?_
            rw [hpassed hblock]
            exact List.not_mem_nil

/-- A sweep that only releases, or keeps the window of what it changes, keeps the limit. -/
theorem WithinLimit.sweep {name timestamp : Text}
    {change : ExperimentParticipation → Option ExperimentParticipation}
    (h : WithinLimit k participations)
    (hchange : ∀ {p q}, change p = some q → q.state ≠ .released →
      q = { p with state := q.state, exposedAt := q.exposedAt } ∧ p.state ≠ .released) :
    WithinLimit k (sweep name timestamp participations change).2 := by
  unfold Experiment.sweep
  split
  · refine h.anti fun q hq instant hactive => ?_
    obtain ⟨p, hp, rfl⟩ := List.mem_map.mp hq
    refine ⟨p, hp, ?_⟩
    cases hp' : change p with
    | none =>
        rw [hp'] at hactive
        exact ⟨rfl, rfl, rfl, hactive⟩
    | some q =>
        rw [hp', Option.getD_some] at hactive
        have hstate : q.state ≠ .released := by
          simp only [ExperimentParticipation.isActiveAt, Bool.and_eq_true,
            decide_eq_true_eq] at hactive
          exact hactive.1.1
        obtain ⟨hq, hpstate⟩ := hchange hp' hstate
        rw [Option.getD_some, hq]
        rw [hq] at hactive
        refine ⟨rfl, rfl, rfl, ?_⟩
        simp only [ExperimentParticipation.isActiveAt, Bool.and_eq_true,
          decide_eq_true_eq] at hactive ⊢
        exact ⟨⟨hpstate, hactive.1.2⟩, hactive.2⟩
  · exact h

/-- Every call keeps the limit of the policies that refuse or leave out. -/
theorem WithinLimit.apply (h : WithinLimit k participations) (call : CollisionCall)
    (hpolicy : ∀ input, call = .checkAndReserve input → input.policy.mode ≠ .warn ∧
      ∀ limit ∈ concurrencyLimit input.policy.maximumConcurrentExperiments, limit ≤ k) :
    WithinLimit k (call.apply participations).2 := by
  cases call with
  | checkAndReserve input =>
      obtain ⟨hmode, hle⟩ := hpolicy input rfl
      simp only [CollisionCall.apply, checkAndReserve]
      cases hvalid : validateReservation input with
      | error e => exact h
      | ok limit =>
          have hlimit := limit_of_validateReservation hvalid
          exact h.reserve (concurrencyLimit_pos hlimit) (hle limit hlimit) hmode
  | markExposed testId exposedAt =>
      refine h.sweep ?_
      intro p q hq _
      split at hq
      · next hreserved =>
          obtain rfl := Option.some.inj hq
          exact ⟨rfl, by rw [hreserved.2]; decide⟩
      · simp at hq
  | releaseEligible now =>
      refine h.sweep ?_
      intro p q hq hstate
      split at hq
      · obtain rfl := Option.some.inj hq
        exact absurd rfl hstate
      · simp at hq
  | releaseByTest testId releasedAt =>
      refine h.sweep ?_
      intro p q hq hstate
      split at hq
      · obtain rfl := Option.some.inj hq
        exact absurd rfl hstate
      · simp at hq

theorem apply_error {call : CollisionCall} {e : CollisionError}
    (h : (call.apply participations).1 = .error e) :
    (call.apply participations).2.Perm participations := by
  have hsweep : ∀ {name timestamp : Text}
      {change : ExperimentParticipation → Option ExperimentParticipation},
      (sweep name timestamp participations change).1.map (fun _ => ()) = .error e →
        (sweep name timestamp participations change).2.Perm participations := by
    intro name timestamp change hthrown
    unfold sweep at hthrown ⊢
    split at hthrown
    · simp [Except.map] at hthrown
    · next hinvalid =>
        rw [if_neg hinvalid]
  cases call with
  | checkAndReserve input =>
      simp only [CollisionCall.apply, checkAndReserve] at h ⊢
      cases hvalid : validateReservation input with
      | error e => exact List.Perm.refl _
      | ok limit =>
          simp only [hvalid] at h
          cases hreserve : (reserve participations input limit).1 with
          | error e' => exact reserve_error hreserve
          | ok result => simp [hreserve, Except.map] at h
  | markExposed testId exposedAt => exact hsweep h
  | releaseEligible now => exact hsweep h
  | releaseByTest testId releasedAt => exact hsweep h

/-- After any calls no subject is in more than `k` tests of one family at any
instant; a call that throws changes nothing; and how a request is answered does
not depend on what its own test holds already. -/
theorem participations_withinLimit {k : ℕ} (calls : List CollisionCall)
    (hpolicy : ∀ input, CollisionCall.checkAndReserve input ∈ calls →
      input.policy.mode ≠ .warn ∧
        ∀ limit ∈ concurrencyLimit input.policy.maximumConcurrentExperiments, limit ≤ k) :
    WithinLimit k (participationsAfter calls) ∧
      (∀ participations call e, (CollisionCall.apply participations call).1 = .error e →
        (call.apply participations).2.Perm participations) ∧
      ∀ participations input, (checkAndReserve participations input).1 =
        (checkAndReserve (participations.filter (·.testId ≠ input.testId)) input).1 := by
  refine ⟨?_, fun participations call e => apply_error, ?_⟩
  · unfold participationsAfter
    have hempty : WithinLimit k [] := fun _ _ _ => by simp [activeTests]
    generalize ([] : List ExperimentParticipation) = participations at hempty ⊢
    induction calls generalizing participations with
    | nil => exact hempty
    | cons call calls ih =>
        rw [List.foldl_cons]
        refine ih (fun input hinput => hpolicy input (List.mem_cons_of_mem _ hinput)) _ ?_
        exact hempty.apply call fun input hinput => hpolicy input (by simp [hinput])
  · intro participations input
    rw [checkAndReserve, checkAndReserve]
    cases validateReservation input with
    | error e => rfl
    | ok limit => exact reserve_fst_others participations input limit

end Reserving

/-! ## A second test is refused -/

/-- A subject key of the form that is accepted. -/
def sampleSubject : Text := List.replicate 64 97

/-- A request of one test for one subject. -/
def sampleReservation (testId windowStartsAt windowEndsAt : String) : ReservationRequest where
  testId
  experimentFamilyKey := "onboarding.day1"
  windowStartsAt
  windowEndsAt
  subjectKeys := [sampleSubject]
  policy := ⟨.block, .finite Decimal.one⟩
  reservedAt := "2026-07-25T10:00:00Z"

/-- A second test that asks for an overlapping window is refused, and for a later
one it is not. -/
def sampleCalls : List CollisionCall :=
  [.checkAndReserve (sampleReservation "a" "2026-08-01T00:00:00Z" "2026-08-08T00:00:00Z"),
    .checkAndReserve (sampleReservation "b" "2026-08-08T00:00:00Z" "2026-08-15T00:00:00Z"),
    .checkAndReserve (sampleReservation "b" "2026-08-09T00:00:00Z" "2026-08-16T00:00:00Z"),
    .markExposed "a" "2026-08-02T00:00:00Z", .releaseByTest "a" "2026-08-03T00:00:00Z"]

theorem participations_withinLimit_sample :
    letI := isoDateParsing
    (participationsAfter sampleCalls).length = 2 ∧
      WithinLimit 1 (participationsAfter sampleCalls) := by
  let := isoDateParsing
  refine ⟨by decide +kernel, (participations_withinLimit sampleCalls ?_).1⟩
  intro input hinput
  simp only [sampleCalls, List.mem_cons, CollisionCall.checkAndReserve.injEq, List.not_mem_nil,
    or_false, reduceCtorEq] at hinput
  rcases hinput with rfl | rfl | rfl <;>
  · refine ⟨by decide, fun limit hlimit => ?_⟩
    have hone : 1 = limit := Option.some.inj hlimit
    exact hone.ge

end ListmonkOps.Experiment
