/-
The fetch that retries.

An attempt calls the base fetch once. Where its outcome may be retried, a wait
follows, which the caller's abort cuts short. The caller's signal may be aborted
at any moment, and is never reset; the code sees it only where it waits or where
it reads the signal after an error.
-/

import Mathlib.Data.List.Basic
import ListmonkOps.Runtime.Text

namespace ListmonkOps.Client

open ListmonkOps.Runtime

/-! ## Requests -/

/-- A thrown value, as far as `isAbortError` reads it. -/
inductive Thrown where
  | domException (name : Text) (message : Text)
  | /-- Any other object; its `name` is kept where it is a string. -/
    object (name : Option Text) (message : Text)
  | primitive (text : Text)
  deriving DecidableEq

/-- A `Response`. -/
structure Response where
  status : ℕ
  body : Text
  deriving DecidableEq

/-- The first argument of a fetch. -/
inductive RequestInfo where
  | url
  | /-- A `Request`, which always has a signal. -/
    request (method : Text)

/-- `RequestInit`, as far as it is read. -/
structure RequestInit where
  method : Option Text := none
  hasSignal : Bool := false

/-- A letter in upper case. Of those outside of ASCII only `ı` and `ſ` become a letter of a
method that is repeated. -/
def upperUnit (unit : UInt16) : UInt16 :=
  if 97 ≤ unit ∧ unit ≤ 122 then unit - 32
  else if unit = 0x131 then 73
  else if unit = 0x17F then 83
  else unit

def getRequestMethod (input : RequestInfo) (init : RequestInit) : Text :=
  match init.method.filter (· ≠ []), input with
  | some method, _ => method.map upperUnit
  | none, .request method => method.map upperUnit
  | none, .url => "GET"

def retryableMethods : List Text := ["GET", "HEAD", "OPTIONS"]

def isRetryableMethod (input : RequestInfo) (init : RequestInit) : Bool :=
  getRequestMethod input init ∈ retryableMethods

/-- `getRequestSignal(...) !== undefined`. -/
def hasRequestSignal (input : RequestInfo) (init : RequestInit) : Bool :=
  init.hasSignal || match input with
    | .request _ => true
    | .url => false

def isAbortError : Thrown → Bool
  | .domException name _ => name = ("AbortError" : Text)
  | .object name _ => name = some ("AbortError" : Text)
  | .primitive _ => false

/-! ## The environment -/

/-- An abort with its reason; `none` is a reason that is missing. -/
abbrev Abort := Option Thrown

def abortReason (abort : Abort) : Thrown :=
  abort.getD (.domException "AbortError" "Aborted")

/-- What happens around one attempt. Each `…Abort` is an abort by the caller at
that moment, which has no effect where the signal is aborted already. -/
structure AttemptEnvironment where
  /-- Before the base fetch is called. -/
  earlyAbort : Option Abort := none
  outcome : Except Thrown Response
  /-- Before the outcome is there. -/
  fetchAbort : Option Abort := none
  /-- While the code waits after a response. -/
  responseAbort : Option Abort := none
  /-- The timeout of the attempt has fired when an error is handled. -/
  timedOut : Bool := false
  /-- While the code waits after an error. -/
  errorAbort : Option Abort := none

/-- What the code does that others can tell. -/
inductive FetchEvent where
  | /-- The base fetch is called. -/
    attempt
  | /-- The code has seen that the caller aborted. -/
    sawAbort
  deriving DecidableEq

inductive AttemptEnd where
  | settled (result : Except Thrown Response)
  | retried

/-! ## Attempts -/

/-- `waitForRetry`: the abort that is seen, and the signal afterwards. -/
def waitForRetry (hasSignal : Bool) (aborted during : Option Abort) : Option Abort :=
  if hasSignal then aborted.or during else none

/-- The `catch` of an attempt, with the signal as it is then. -/
def handleError (retryable hasSignal last : Bool) (environment : AttemptEnvironment)
    (aborted : Option Abort) (error : Thrown) : List FetchEvent × AttemptEnd × Option Abort :=
  if hasSignal && aborted.isSome then ([.sawAbort], .settled (.error error), aborted)
  else if !retryable || last || (isAbortError error && !environment.timedOut) then
    ([], .settled (.error error), aborted)
  else
    match waitForRetry hasSignal aborted environment.errorAbort with
    | some abort => ([.sawAbort], .settled (.error (abortReason abort)), some abort)
    | none => ([], .retried, aborted.or environment.errorAbort)

/-- The body of the loop, with the signal as it is before. -/
def runAttempt (retryable hasSignal last : Bool) (environment : AttemptEnvironment)
    (aborted : Option Abort) : List FetchEvent × AttemptEnd × Option Abort :=
  let aborted := (aborted.or environment.earlyAbort).or environment.fetchAbort
  match environment.outcome with
  | .ok response =>
      if 500 ≤ response.status ∧ retryable = true ∧ last = false then
        match waitForRetry hasSignal aborted environment.responseAbort with
        | some abort =>
            let (events, ended, aborted) :=
              handleError retryable hasSignal last environment (some abort) (abortReason abort)
            (.attempt :: .sawAbort :: events, ended, aborted)
        | none => ([.attempt], .retried, aborted.or environment.responseAbort)
      else ([.attempt], .settled (.ok response), aborted)
  | .error error =>
      let (events, ended, aborted) := handleError retryable hasSignal last environment aborted error
      (.attempt :: events, ended, aborted)

/-- The error after the loop, which the loop never reaches. -/
def requestFailed : Thrown :=
  .object (some "Error") "Request failed without an explicit transport error"

/-- The loop from an attempt on, with the attempts that are left. -/
def attempts (retryable hasSignal : Bool) (environment : ℕ → AttemptEnvironment) :
    ℕ → ℕ → Option Abort → List FetchEvent × Except Thrown Response
  | 0, _, _ => ([], .error requestFailed)
  | left + 1, attempt, aborted =>
      match runAttempt retryable hasSignal (left = 0) (environment attempt) aborted with
      | (events, .settled result, _) => (events, result)
      | (events, .retried, aborted) =>
          let (rest, result) :=
            attempts retryable hasSignal environment left (attempt + 1) aborted
          (events ++ rest, result)

/-- `createResilientFetch`, called with a request. -/
def resilientFetch (retries : ℤ) (input : RequestInfo) (init : RequestInit)
    (environment : ℕ → AttemptEnvironment) : List FetchEvent × Except Thrown Response :=
  attempts (isRetryableMethod input init) (hasRequestSignal input init) environment
    ((max 0 retries).toNat + 1) 0 none

/-! ## One attempt -/

/-- A response with a status below 500. -/
def isServed : Except Thrown Response → Bool
  | .ok response => response.status < 500
  | .error _ => false

/-- The caller aborts at one of the moments of an attempt. -/
def AttemptEnvironment.Aborts (environment : AttemptEnvironment) : Prop :=
  environment.earlyAbort.isSome ∨ environment.fetchAbort.isSome ∨
    environment.responseAbort.isSome ∨ environment.errorAbort.isSome

/-- What one attempt did, from a signal that was aborted before or not. -/
structure AttemptSpec (retryable hasSignal last : Bool) (environment : AttemptEnvironment)
    (aborted : Option Abort) (rest : List FetchEvent) (ended : AttemptEnd)
    (after : Option Abort) : Prop where
  once : FetchEvent.attempt ∉ rest
  seen : FetchEvent.sawAbort ∈ rest → hasSignal = true ∧ (aborted.isSome ∨ environment.Aborts)
  settled : ∀ result, ended = .settled result → FetchEvent.sawAbort ∉ rest →
    result = environment.outcome
  retried : ended = .retried → rest = [] ∧ retryable = true ∧ last = false ∧
    isServed environment.outcome = false ∧ (hasSignal = true → after = none)

section Attempts

variable {retryable hasSignal last : Bool} {environment : AttemptEnvironment}
  {aborted : Option Abort}

theorem waitForRetry_eq_some {during : Option Abort} {abort : Abort}
    (h : waitForRetry hasSignal aborted during = some abort) :
    hasSignal = true ∧ aborted.or during = some abort := by
  rw [waitForRetry] at h
  split_ifs at h with hsignal
  exact ⟨hsignal, h⟩

theorem waitForRetry_eq_none {during : Option Abort}
    (h : waitForRetry hasSignal aborted during = none) :
    hasSignal = true → aborted.or during = none := by
  intro hsignal
  rwa [waitForRetry, if_pos hsignal] at h

theorem isSome_of_or {before moment : Option Abort} (h : (before.or moment).isSome)
    {p : Prop} (hbefore : before.isSome → p) (hmoment : moment.isSome → p) : p := by
  rw [Option.isSome_or, Bool.or_eq_true] at h
  exact h.elim hbefore hmoment

/-- An error is thrown again or the wait after it ends. -/
theorem handleError_spec (retryable hasSignal last : Bool) (aborted : Option Abort) {error : Thrown}
    (houtcome : environment.outcome = .error error) :
    AttemptSpec retryable hasSignal last environment aborted
      (handleError retryable hasSignal last environment aborted error).1
      (handleError retryable hasSignal last environment aborted error).2.1
      (handleError retryable hasSignal last environment aborted error).2.2 := by
  have hserved : isServed environment.outcome = false := by rw [houtcome, isServed]
  rw [handleError]
  split_ifs with hseen hleave
  · rw [Bool.and_eq_true] at hseen
    exact ⟨by simp, fun _ => ⟨hseen.1, .inl hseen.2⟩, by simp, by simp⟩
  · exact ⟨by simp, by simp, fun result hended _ => by cases hended; exact houtcome.symm, by simp⟩
  · simp only [Bool.or_eq_true, Bool.not_eq_true', not_or, Bool.not_eq_false,
      Bool.not_eq_true] at hleave
    cases hwait : waitForRetry hasSignal aborted environment.errorAbort with
    | none =>
        exact ⟨by simp, by simp, by simp, fun _ =>
          ⟨rfl, hleave.1.1, hleave.1.2, hserved, waitForRetry_eq_none hwait⟩⟩
    | some abort =>
        obtain ⟨hsignal, habort⟩ := waitForRetry_eq_some hwait
        refine ⟨by simp, fun _ => ⟨hsignal, ?_⟩, by simp, by simp⟩
        exact isSome_of_or (by rw [habort]; rfl) .inl fun h => .inr (.inr (.inr (.inr h)))

/-- An attempt calls the base fetch once and does what the specification says. -/
theorem runAttempt_spec (retryable hasSignal last : Bool) (environment : AttemptEnvironment)
    (aborted : Option Abort) : ∃ rest ended after,
    runAttempt retryable hasSignal last environment aborted = (.attempt :: rest, ended, after) ∧
      AttemptSpec retryable hasSignal last environment aborted rest ended after := by
  -- Where the signal is aborted when the outcome is there, it was aborted before or is here.
  have hthen : ((aborted.or environment.earlyAbort).or environment.fetchAbort).isSome →
      aborted.isSome ∨ environment.Aborts := fun h =>
    isSome_of_or h (fun h => isSome_of_or h .inl fun h => .inr (.inl h))
      fun h => .inr (.inr (.inl h))
  cases houtcome : environment.outcome with
  | error error =>
      have hspec := handleError_spec retryable hasSignal last
        ((aborted.or environment.earlyAbort).or environment.fetchAbort) houtcome
      refine ⟨_, _, _, by rw [runAttempt, houtcome], hspec.once, fun hseen => ?_, hspec.settled,
        hspec.retried⟩
      obtain ⟨hsignal, habort⟩ := hspec.seen hseen
      exact ⟨hsignal, habort.elim hthen .inr⟩
  | ok response =>
      by_cases hretry : 500 ≤ response.status ∧ retryable = true ∧ last = false
      · have hserved : isServed environment.outcome = false := by
          rw [houtcome, isServed, decide_eq_false_iff_not]
          omega
        cases hwait : waitForRetry hasSignal
            ((aborted.or environment.earlyAbort).or environment.fetchAbort)
            environment.responseAbort with
        | none =>
            refine ⟨[], .retried, ((aborted.or environment.earlyAbort).or environment.fetchAbort).or
              environment.responseAbort, ?_, by simp, by simp, by simp, fun _ => ?_⟩
            · rw [runAttempt, houtcome]
              simp only [if_pos hretry, hwait]
            · exact ⟨rfl, hretry.2.1, hretry.2.2, hserved, waitForRetry_eq_none hwait⟩
        | some abort =>
            obtain ⟨rfl, habort⟩ := waitForRetry_eq_some hwait
            refine ⟨[.sawAbort, .sawAbort], .settled (.error (abortReason abort)), some abort, ?_,
              by simp, fun _ => ⟨rfl, ?_⟩, by simp, by simp⟩
            · rw [runAttempt, houtcome]
              simp only [if_pos hretry, hwait, handleError, Option.isSome_some, Bool.and_self,
                if_true]
            · exact isSome_of_or (by rw [habort]; rfl) hthen fun h => .inr (.inr (.inr (.inl h)))
      · refine ⟨[], .settled (.ok response),
          (aborted.or environment.earlyAbort).or environment.fetchAbort, ?_, by simp, by simp,
          fun result hended _ => ?_, by simp⟩
        · rw [runAttempt, houtcome]
          simp only [if_neg hretry]
        · cases hended
          exact houtcome.symm

end Attempts

/-! ## The loop -/

/-- The first response with a status below 500, else the last outcome. -/
def settledOutcome (outcomes : List (Except Thrown Response)) : Option (Except Thrown Response) :=
  (outcomes.find? isServed).or outcomes.getLast?

/-- The outcomes of some attempts in a row. -/
def outcomesFrom (environment : ℕ → AttemptEnvironment) (attempt made : ℕ) :
    List (Except Thrown Response) :=
  (List.range made).map fun n => (environment (attempt + n)).outcome

theorem outcomesFrom_succ (environment : ℕ → AttemptEnvironment) (attempt made : ℕ) :
    outcomesFrom environment attempt (made + 1) =
      (environment attempt).outcome :: outcomesFrom environment (attempt + 1) made := by
  rw [outcomesFrom, List.range_succ_eq_map, List.map_cons, List.map_map, outcomesFrom]
  refine congrArg _ (List.map_congr_left fun n _ => ?_)
  rw [Function.comp_apply, Nat.succ_eq_add_one, Nat.add_right_comm, Nat.add_assoc]

/-- What the loop did, from an attempt on: it made one call at least and no more than were left,
and only one where the method may not be repeated; it made none after it saw an abort; and where
it saw none its result is the first outcome that settles. -/
structure LoopSpec (retryable hasSignal : Bool) (environment : ℕ → AttemptEnvironment)
    (left attempt : ℕ) (aborted : Option Abort) (events : List FetchEvent)
    (result : Except Thrown Response) : Prop where
  made : 1 ≤ events.count .attempt
  bounded : events.count .attempt ≤ left
  single : retryable = false → events.count .attempt = 1
  ordered : events.Pairwise fun earlier later => earlier = .sawAbort → later ≠ .attempt
  seen : FetchEvent.sawAbort ∈ events → hasSignal = true ∧
    (aborted.isSome ∨ ∃ n, (environment n).Aborts)
  result_eq : FetchEvent.sawAbort ∉ events →
    settledOutcome (outcomesFrom environment attempt (events.count .attempt)) = some result

/-- An outcome that is not served is passed over where an attempt follows. -/
theorem settledOutcome_cons {outcome : Except Thrown Response}
    {outcomes : List (Except Thrown Response)} (houtcome : isServed outcome = false)
    (hne : outcomes ≠ []) : settledOutcome (outcome :: outcomes) = settledOutcome outcomes := by
  rw [settledOutcome, settledOutcome, List.find?_cons_of_neg (by simp [houtcome]),
    List.getLast?_cons_of_ne_nil hne]

theorem settledOutcome_singleton (outcome : Except Thrown Response) :
    settledOutcome [outcome] = some outcome := by
  cases hserved : isServed outcome with
  | false => rw [settledOutcome, List.find?_cons_of_neg (by simp [hserved])]; rfl
  | true => rw [settledOutcome, List.find?_cons_of_pos hserved]; rfl

section Loop

variable {retryable hasSignal last : Bool} {environment : ℕ → AttemptEnvironment}
  {left attempt : ℕ} {aborted after : Option Abort} {rest events : List FetchEvent}
  {result : Except Thrown Response}

theorem LoopSpec.of_settled (h : AttemptSpec retryable hasSignal last (environment attempt) aborted
    rest (.settled result) after) :
    LoopSpec retryable hasSignal environment (left + 1) attempt aborted (.attempt :: rest)
      result := by
  have hcount : (FetchEvent.attempt :: rest).count .attempt = 1 := by
    rw [List.count_cons_self, List.count_eq_zero_of_not_mem h.once]
  refine ⟨hcount.ge, by omega, fun _ => hcount, ?_, fun hseen => ?_, fun hseen => ?_⟩
  · rw [List.pairwise_cons]
    refine ⟨fun _ _ heq => (nomatch heq), List.pairwise_of_forall_mem_list ?_⟩
    rintro _ - later hlater - rfl
    exact h.once hlater
  · obtain ⟨hsignal, habort⟩ := h.seen ((List.mem_cons.mp hseen).resolve_left nofun)
    exact ⟨hsignal, habort.imp_right fun habort => ⟨attempt, habort⟩⟩
  · rw [List.mem_cons, not_or] at hseen
    rw [hcount, h.settled result rfl hseen.2]
    exact settledOutcome_singleton _

theorem LoopSpec.of_retried (h : AttemptSpec retryable hasSignal last (environment attempt) aborted
    rest .retried after)
    (hloop : LoopSpec retryable hasSignal environment left (attempt + 1) after events result) :
    LoopSpec retryable hasSignal environment (left + 1) attempt aborted
      (.attempt :: rest ++ events) result := by
  obtain ⟨rfl, hretryable, -, hserved, hafter⟩ := h.retried rfl
  have hcount : (FetchEvent.attempt :: [] ++ events).count .attempt =
      events.count .attempt + 1 := List.count_cons_self
  refine ⟨by omega, ?_, fun hnot => ?_, ?_, fun hseen => ?_, fun hseen => ?_⟩
  · rw [hcount]
    exact Nat.succ_le_succ hloop.bounded
  · rw [hretryable] at hnot
    cases hnot
  · exact List.pairwise_cons.mpr ⟨fun _ _ heq => (nomatch heq), hloop.ordered⟩
  · obtain ⟨hsignal, habort⟩ := hloop.seen ((List.mem_cons.mp hseen).resolve_left nofun)
    rw [hafter hsignal] at habort
    exact ⟨hsignal, .inr (habort.resolve_left nofun)⟩
  · have hresult := hloop.result_eq fun hmem => hseen (List.mem_cons_of_mem _ hmem)
    rw [hcount, outcomesFrom_succ, settledOutcome_cons hserved, hresult]
    intro hnil
    rw [hnil] at hresult
    cases hresult

end Loop

theorem attempts_spec (retryable hasSignal : Bool) (environment : ℕ → AttemptEnvironment)
    (left attempt : ℕ) (aborted : Option Abort) :
    LoopSpec retryable hasSignal environment (left + 1) attempt aborted
      (attempts retryable hasSignal environment (left + 1) attempt aborted).1
      (attempts retryable hasSignal environment (left + 1) attempt aborted).2 := by
  induction left generalizing attempt aborted with
  | zero =>
      obtain ⟨rest, ended, after, hrun, hspec⟩ :=
        runAttempt_spec retryable hasSignal true (environment attempt) aborted
      cases ended with
      | settled result =>
          simp only [attempts, decide_true, hrun]
          exact .of_settled hspec
      | retried => cases (hspec.retried rfl).2.2.1
  | succ left ih =>
      obtain ⟨rest, ended, after, hrun, hspec⟩ :=
        runAttempt_spec retryable hasSignal false (environment attempt) aborted
      rw [attempts]
      simp only [Nat.add_eq_zero_iff, one_ne_zero, and_false, decide_false, hrun]
      cases ended with
      | settled result => exact .of_settled hspec
      | retried => exact .of_retried hspec (ih (attempt + 1) after)

/-- A fetch calls the base fetch once where its method may not be repeated, and at most one time
more than it may be repeated. Nothing is called after an abort was seen, and otherwise the result
is the first response that is served or the last outcome. -/
theorem resilientFetch_spec (retries : ℕ) (input : RequestInfo) (init : RequestInit)
    (environment : ℕ → AttemptEnvironment) :
    let (events, result) := resilientFetch retries input init environment
    let made := events.count .attempt
    (getRequestMethod input init ∉ retryableMethods → made = 1) ∧
      made ≤ retries + 1 ∧
      (∀ before after, events = before ++ .sawAbort :: after → FetchEvent.attempt ∉ after) ∧
      (FetchEvent.sawAbort ∈ events → hasRequestSignal input init = true ∧
        ∃ attempt, (environment attempt).Aborts) ∧
      (FetchEvent.sawAbort ∉ events → settledOutcome (outcomesFrom environment 0 made) =
        some result) := by
  have hleft : (max 0 (retries : ℤ)).toNat + 1 = retries + 1 := by
    rw [max_eq_right (Int.natCast_nonneg retries), Int.toNat_natCast]
  have hspec := attempts_spec (isRetryableMethod input init) (hasRequestSignal input init)
    environment retries 0 none
  rw [resilientFetch, hleft]
  generalize attempts (isRetryableMethod input init) (hasRequestSignal input init) environment
    (retries + 1) 0 none = outcome at hspec
  obtain ⟨events, result⟩ := outcome
  refine ⟨fun hmethod => ?_, hspec.bounded, fun before after hevents => ?_, fun hseen => ?_,
    hspec.result_eq⟩
  · exact hspec.single (decide_eq_false hmethod)
  · have hordered := hspec.ordered
    rw [hevents, List.pairwise_append, List.pairwise_cons] at hordered
    exact fun hmem => hordered.2.1.1 _ hmem rfl rfl
  · obtain ⟨hsignal, habort⟩ := hspec.seen hseen
    exact ⟨hsignal, habort.resolve_left nofun⟩

end ListmonkOps.Client
