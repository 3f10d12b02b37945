/-
What the preview of a tick tells.

A dry run of a tick decides from the records alone, and the tick itself decides
again while it calls the server. The two are compared here over the executions of
the tick. An execution is one execution for each test, and the parts of the others
are an execution of the tick without that test: an error stays with its test.

The preview does not look at the list that a winner is to be deployed to, nor can it
know that the figures move between the two analyses of one test. So what it tells
about a test that waits for its analysis holds where the list is there and the
analyses agree.
-/

import ListmonkOps.Experiment.Deployment
import ListmonkOps.Experiment.SingleWinner
import ListmonkOps.Math.Executions

namespace ListmonkOps.Experiment

open ListmonkOps.Math ListmonkOps.Math.Program ListmonkOps.Runtime

/-! ## Notions -/

/-- The calls that were made and their answers. -/
abbrev TickLog := List (Call × Answer)

def IsLive (test : AbTest) : Bool := test.status ∉ terminalStatuses

/-- The action of a preview that announces progress. -/
def announcement : Text := "dry-run:would-progress:"

/-- The preview of a test announces progress. -/
def WouldProgress (now : ℤ) (test : AbTest) : Prop :=
  ∃ entry ∈ previewOne now test, announcement <+: entry.action

/-- The action names the status before and after the tick, or says that there is nothing to do. -/
def NamesProgress (before after : Status) (action : Text) : Prop :=
  (before = .draft ∧ after = .draft ∧ action = ("skip:draft-not-launched" : Text)) ∨
    (before = after ∧ action = ("noop:" : Text) ++ before.text) ∨
    (before ≠ after ∧
      action = ("progress:" : Text) ++ before.text ++ ("->" : Text) ++ after.text)

def NamesError (action : Text) : Prop := ∃ message, action = ("error:" : Text) ++ message

/-- The call came back without an error, and a creation with the id it made. -/
def WentThrough (call : Call) (answer : Answer) : Prop :=
  ∃ response, answer = .returned response ∧ envelopeError? response = none ∧
    ∀ body, call = .campaignCreate body →
      ∃ id, (response.property? "data").property? "id" = .number id

/-- A test that deploys its winner by itself has the list to deploy it to. -/
def HoldoutListed (test : AbTest) : Prop :=
  test.autoDeployWinner = true → test.testingMode = .holdout →
    ∃ listId, test.holdoutListId = some listId ∧ listId ≠ 0

section Analyses

variable [Statistics]

/-- Every analysis of the figures on record returns, and all find the same winner. -/
structure AnalysesAgree (test : AbTest) (now : ℤ) (log : TickLog) : Prop where
  returns : ∀ part outcome, part <:+: log → Ran (analyzeTest test now).run part outcome →
    ∃ analysis, outcome = .ok analysis
  agree : ∀ part part' analysis analysis', part <:+: log → part' <:+: log →
    Ran (analyzeTest test now).run part (.ok analysis) →
    Ran (analyzeTest test now).run part' (.ok analysis') → analysis.winner = analysis'.winner

end Analyses

/-! ## The steps of a tick -/

theorem checkExpected_ok {test : AbTest} (h : (toISOString test.updatedAt).isSome) :
    checkExpected test {} = .ok () := by
  obtain ⟨time, htime⟩ := Option.isSome_iff_exists.mp h
  simp [checkExpected, htime]

theorem members?_isSome {value : JsValue} {name : Text} (h : value.property? name ≠ .undefined) :
    value.members?.isSome := by
  cases hmembers : value.members? with
  | none => simp [JsValue.property?, JsValue.member?, hmembers] at h
  | some members => rfl

theorem requireNumericId_of_wentThrough {response : JsValue} {id : ℤ} {context : Text}
    (herror : envelopeError? response = none)
    (hid : (response.property? "data").property? "id" = .number id) :
    (do let created ← unwrapData response context
        requireNumericId (← created.property "id") context) = .ok id := by
  have hcreated : (response.property? "data").members?.isSome :=
    members?_isSome (by rw [hid]; exact JsValue.noConfusion)
  have hdata : response.property? "data" ≠ .undefined := fun hundefined => by
    rw [hundefined] at hcreated
    cases hcreated
  have hunwrapped : unwrapData response context = .ok (response.property? "data") := by
    have hresponse := members?_isSome hdata
    unfold unwrapData
    rw [if_neg (by simpa [Option.isSome_iff_ne_none] using hresponse), herror]
    cases hvalue : response.property? "data" <;> first | rfl | exact absurd hvalue hdata
  have hproperty : (response.property? "data").property "id" = .ok (.number id) := by
    rw [← hid]
    cases hvalue : response.property? "data" <;> first | rfl | (rw [hvalue] at hcreated; cases hcreated)
  rw [hunwrapped]
  change (response.property? "data").property "id" >>= _ = _
  rw [hproperty]
  rfl

theorem ran_await_wentThrough {call : Call} {log : TickLog} {ended : Except JsValue JsValue}
    (h : Ran (await call).run log ended)
    (hsucceeded : ∀ entry ∈ log, WentThrough entry.1 entry.2) :
    ∃ response, ended = .ok response ∧ WentThrough call (.returned response) := by
  obtain ⟨answer, rest, rfl, hrest⟩ := ran_call.mp h
  have hcall := hsucceeded (call, answer) List.mem_cons_self
  obtain ⟨response, hanswer, -⟩ := id hcall
  dsimp only at hanswer hcall
  subst hanswer
  exact ⟨response, (ran_pure.mp hrest).2, hcall⟩

section Steps

variable [Statistics] {test updated : AbTest} {now : ℤ} {log : TickLog}
  {outcome : Except JsValue Unit}

omit [Statistics] in
theorem launchWinner_ok {winner : Variant} {listId : ℤ} {ended : Except JsValue ℤ}
    (h : Ran (launchWinner test winner listId now).run log ended)
    (hsucceeded : ∀ entry ∈ log, WentThrough entry.1 entry.2) : ∃ id, ended = .ok id := by
  have hdeployed : ∀ {part : TickLog} {deployed : Except JsValue ℤ},
      Ran (deployWinnerToHoldout winner listId test.baseConfig test.id now).run part deployed →
      (∀ entry ∈ part, WentThrough entry.1 entry.2) → ∃ id, deployed = .ok id := by
    intro part deployed hran hpart
    rcases Fallible.ran_bind.mp hran with
      ⟨error, rfl, hthrew⟩ | ⟨first, result, second, rfl, hfirst, hsecond⟩
    · obtain ⟨response, hresponse, -⟩ := ran_await_wentThrough hthrew hpart
      cases hresponse
    · obtain ⟨response, hresponse, response', hreturned, herror, hid⟩ :=
        ran_await_wentThrough hfirst fun entry hmem => hpart entry (List.mem_append_left _ hmem)
      cases hresponse
      cases hreturned
      obtain ⟨id, hid⟩ := hid _ rfl
      exact ⟨id, (ran_pure.mp hsecond).2.trans (requireNumericId_of_wentThrough herror hid)⟩
  rcases Fallible.ran_bind.mp h with
    ⟨error, rfl, hthrew⟩ | ⟨first, id, second, rfl, hfirst, hsecond⟩
  · obtain ⟨id, hid⟩ := hdeployed hthrew hsucceeded
    cases hid
  · have hsecondSucceeded : ∀ entry ∈ second, WentThrough entry.1 entry.2 :=
      fun entry hmem => hsucceeded entry (List.mem_append_right _ hmem)
    split at hsecond
    · rcases Fallible.ran_bind.mp hsecond with
        ⟨error, rfl, hthrew⟩ | ⟨started, _, rest, rfl, -, hrest⟩
      · rcases Fallible.ran_bind.mp hthrew with
          ⟨error', -, hawait⟩ | ⟨awaited, response, rest, rfl, -, hrest⟩
        · obtain ⟨response, hresponse, -⟩ := ran_await_wentThrough hawait hsecondSucceeded
          cases hresponse
        · cases (ran_pure.mp hrest).2
      · exact ⟨id, (ran_pure.mp hrest).2⟩
    · exact ⟨id, (ran_pure.mp hsecond).2⟩

/-- Where a deployment ends: an error leaves the test waiting for its analysis. -/
theorem deployWinner_cases (h : Ran (deployWinner test now) log (updated, outcome))
    (hstatus : test.status = .analyzing) :
    updated.status = if outcome.isOk then .completed else .analyzing := by
  unfold deployWinner at h
  split at h
  · obtain ⟨-, hreturned⟩ := ran_pure.mp h
    cases hreturned
    exact hstatus
  · split at h
    · obtain ⟨-, hreturned⟩ := ran_pure.mp h
      cases hreturned
      exact hstatus
    · obtain ⟨-, hreturned⟩ := ran_pure.mp h
      cases hreturned
      exact hstatus
    · obtain ⟨first, ended, second, rfl, -, hsecond⟩ := ran_bind.mp h
      cases ended with
      | error error =>
          obtain ⟨-, hreturned⟩ := ran_pure.mp hsecond
          cases hreturned
          exact hstatus
      | ok analysis =>
          dsimp only at hsecond
          split at hsecond
          · obtain ⟨-, hreturned⟩ := ran_pure.mp hsecond
            cases hreturned
            exact hstatus
          · obtain ⟨launch, ended, rest, rfl, -, hrest⟩ := ran_bind.mp hsecond
            cases ended with
            | error error =>
                obtain ⟨-, hreturned⟩ := ran_pure.mp hrest
                cases hreturned
                rfl
            | ok winnerCampaignId =>
                obtain ⟨-, hreturned⟩ := ran_pure.mp hrest
                cases hreturned
                rfl

/-- Where an analysis ends: an error leaves the test waiting for it. -/
theorem concludeTest_cases (h : Ran (concludeTest test now) log (updated, outcome))
    (hstatus : test.status = .analyzing) :
    (outcome.isOk = false ∧ updated.status = .analyzing) ∨
      (outcome.isOk = true ∧ (updated.status = .completed ∨ updated.status = .inconclusive)) := by
  unfold concludeTest at h
  obtain ⟨first, ended, second, rfl, hfirst, hsecond⟩ := ran_bind.mp h
  cases ended with
  | error error =>
      obtain ⟨-, hreturned⟩ := ran_pure.mp hsecond
      cases hreturned
      exact .inl ⟨rfl, hstatus⟩
  | ok analysis =>
      dsimp only at hsecond
      split at hsecond
      · obtain ⟨part, ⟨deployed, ended⟩, rest, rfl, hdeployed, hrest⟩ := ran_bind.mp hsecond
        have hcases := deployWinner_cases hdeployed hstatus
        cases ended with
        | error error =>
            obtain ⟨-, hreturned⟩ := ran_pure.mp hrest
            cases hreturned
            exact .inl ⟨rfl, hcases⟩
        | ok _ =>
            obtain ⟨-, hreturned⟩ := ran_pure.mp hrest
            cases hreturned
            exact .inr ⟨rfl, .inl rfl⟩
      · obtain ⟨-, hreturned⟩ := ran_pure.mp hsecond
        cases hreturned
        refine .inr ⟨rfl, ?_⟩
        cases analysis.isSignificant
        · exact .inr rfl
        · exact .inl rfl

/-- A deployment goes through where the list is there, the calls succeed and the analysis
finds a winner. -/
theorem deployWinner_ok (h : Ran (deployWinner test now) log (updated, outcome))
    (hholdout : test.testingMode = .holdout)
    (hlisted : ∃ listId, test.holdoutListId = some listId ∧ listId ≠ 0)
    (hsucceeded : ∀ entry ∈ log, WentThrough entry.1 entry.2)
    (hanalysis : ∀ part ended, part <:+: log → Ran (analyzeTest test now).run part ended →
      ∃ analysis, ended = .ok analysis ∧ analysis.winner.isSome) : outcome.isOk = true := by
  obtain ⟨listId, hlist, hne⟩ := hlisted
  unfold deployWinner at h
  rw [if_neg (not_not.mpr hholdout), hlist] at h
  split at h
  · rename_i hnone
    cases hnone
  · rename_i hzero
    exact absurd (Option.some.inj hzero) hne
  · rename_i listId' _ hsome
    obtain ⟨first, ended, second, rfl, hfirst, hsecond⟩ := ran_bind.mp h
    obtain ⟨analysis, rfl, hwinner⟩ :=
      hanalysis first ended (List.prefix_append _ _).isInfix hfirst
    obtain ⟨winner, hwinner⟩ := Option.isSome_iff_exists.mp hwinner
    simp only [hwinner] at hsecond
    obtain ⟨launch, ended, rest, rfl, hlaunch, hrest⟩ := ran_bind.mp hsecond
    obtain ⟨id, rfl⟩ := launchWinner_ok hlaunch fun entry hmem =>
      hsucceeded entry (List.mem_append_right _ (List.mem_append_left _ hmem))
    obtain ⟨-, hreturned⟩ := ran_pure.mp hrest
    cases hreturned
    rfl

/-- A test that waits for its analysis is closed where the calls succeed, the analyses
agree and the list for the winner is there. -/
theorem concludeTest_ok (h : Ran (concludeTest test now) log (updated, outcome))
    (hlisted : HoldoutListed test) (hsucceeded : ∀ entry ∈ log, WentThrough entry.1 entry.2)
    (hanalyses : AnalysesAgree test now log) : outcome.isOk = true := by
  unfold concludeTest at h
  obtain ⟨first, ended, second, rfl, hfirst, hsecond⟩ := ran_bind.mp h
  have hinfix : first <:+: first ++ second := (List.prefix_append _ _).isInfix
  obtain ⟨analysis, rfl⟩ := hanalyses.returns first ended hinfix hfirst
  dsimp only at hsecond
  split at hsecond
  · rename_i hdeploys
    simp only [Bool.and_eq_true, decide_eq_true_eq] at hdeploys
    obtain ⟨⟨hauto, hwinner⟩, hholdout⟩ := hdeploys
    obtain ⟨part, ⟨deployed, ended⟩, rest, rfl, hdeployed, hrest⟩ := ran_bind.mp hsecond
    have hok : ended.isOk = true := by
      refine deployWinner_ok hdeployed hholdout (hlisted hauto hholdout) (fun entry hmem =>
        hsucceeded entry (List.mem_append_right _ (List.mem_append_left _ hmem))) ?_
      intro inner ended hinner hran
      have hinner : inner <:+: first ++ (part ++ rest) :=
        hinner.trans ((List.prefix_append part rest).isInfix.trans (List.suffix_append _ _).isInfix)
      obtain ⟨analysis', rfl⟩ := hanalyses.returns inner ended hinner hran
      exact ⟨analysis', rfl, hanalyses.agree _ _ _ _ hinfix hinner hfirst hran ▸ hwinner⟩
    cases ended with
    | error error => cases hok
    | ok _ =>
        obtain ⟨-, hreturned⟩ := ran_pure.mp hrest
        cases hreturned
        rfl
  · obtain ⟨-, hreturned⟩ := ran_pure.mp hsecond
    cases hreturned
    rfl

/-- One step of a test whose time of change can be rendered. -/
theorem runAbTest_eq (hdate : (toISOString test.updatedAt).isSome) :
    runAbTest test {} now =
      match test.status with
      | .scheduled =>
          pure (if test.launchAt.any (·.time ≤ now) then updateTestStatus test .running now
            else test, .ok ())
      | .running =>
          pure (if test.endsAt.any (·.time ≤ now) then updateTestStatus test .analyzing now
            else test, .ok ())
      | .analyzing => concludeTest test now
      | _ => pure (test, .ok ()) := by
  unfold runAbTest
  rw [checkExpected_ok hdate]
  cases hstatus : test.status <;> simp only [terminalStatuses, List.mem_cons, List.not_mem_nil]
  case scheduled =>
    rw [if_neg (by simp)]
    split <;> rfl
  case running =>
    rw [if_neg (by simp)]
    split <;> rfl
  all_goals simp

/-- A test whose time of change cannot be rendered is left alone. -/
theorem runAbTest_invalid (hdate : toISOString test.updatedAt = none) :
    runAbTest test {} now = pure (test, .error (.error "RangeError" "Invalid time value" [])) := by
  simp [runAbTest, checkExpected, hdate]

theorem runAbTest_error {error : JsValue}
    (h : Ran (runAbTest test {} now) log (updated, .error error)) : updated.status = test.status := by
  cases hdate : toISOString test.updatedAt with
  | none =>
      rw [runAbTest_invalid hdate] at h
      cases (ran_pure.mp h).2
      rfl
  | some time =>
      rw [runAbTest_eq (by simp [hdate])] at h
      cases hstatus : test.status <;> simp only [hstatus] at h
      case analyzing =>
        rcases concludeTest_cases h hstatus with ⟨-, hupdated⟩ | ⟨hok, -⟩
        · exact hupdated
        · cases hok
      all_goals cases (ran_pure.mp h).2

omit [Statistics] in
theorem wouldProgress_iff {action : Text} {status : Status}
    (h : previewOne now test = some ⟨test.id, status, action⟩) :
    WouldProgress now test ↔ announcement <+: action := by
  simp [WouldProgress, h]

theorem runAbTest_foretold (h : Ran (runAbTest test {} now) log (updated, outcome))
    (hlive : IsLive test = true) (hdraft : test.status ≠ .draft)
    (hdate : (toISOString test.updatedAt).isSome) (hlisted : HoldoutListed test)
    (hsucceeded : ∀ entry ∈ log, WentThrough entry.1 entry.2)
    (hanalyses : AnalysesAgree test now log) :
    WouldProgress now test ↔ updated.status ≠ test.status := by
  have hterminal : test.status ∉ terminalStatuses := by simpa [IsLive] using hlive
  rw [runAbTest_eq hdate] at h
  cases hstatus : test.status <;> simp only [hstatus] at h hterminal hdraft
  case draft => exact absurd rfl hdraft
  case scheduled =>
    cases (ran_pure.mp h).2
    by_cases hdue : test.launchAt.any (·.time ≤ now) = true
    · have hpreview : previewOne now test =
          some ⟨test.id, .scheduled, "dry-run:would-progress:scheduled"⟩ := by
        simp [previewOne, hstatus, terminalStatuses, hdue]
      rw [wouldProgress_iff hpreview, if_pos hdue]
      exact iff_of_true (by decide) Status.noConfusion
    · have hpreview : previewOne now test =
          some ⟨test.id, .scheduled, "dry-run:noop:scheduled-not-due"⟩ := by
        simp [previewOne, hstatus, terminalStatuses, hdue]
      rw [wouldProgress_iff hpreview, if_neg hdue]
      exact iff_of_false (by decide) (not_not.mpr hstatus)
  case running =>
    cases (ran_pure.mp h).2
    cases hends : test.endsAt with
    | none =>
        have hpreview : previewOne now test =
            some ⟨test.id, .running, "dry-run:noop:running-no-endsAt"⟩ := by
          simp [previewOne, hstatus, terminalStatuses, hends]
        rw [wouldProgress_iff hpreview]
        exact iff_of_false (by decide) (not_not.mpr hstatus)
    | some endsAt =>
        by_cases hover : endsAt.time ≤ now
        · have hpreview : previewOne now test =
              some ⟨test.id, .running, "dry-run:would-progress:running"⟩ := by
            simp [previewOne, hstatus, terminalStatuses, hends, not_lt.mpr hover]
          rw [wouldProgress_iff hpreview, if_pos (by simpa using hover)]
          exact iff_of_true (by decide) Status.noConfusion
        · have hpreview : previewOne now test =
              some ⟨test.id, .running, "dry-run:noop:running-before-endsAt"⟩ := by
            simp [previewOne, hstatus, terminalStatuses, hends, not_le.mp hover]
          rw [wouldProgress_iff hpreview, if_neg (by simpa using hover)]
          exact iff_of_false (by decide) (not_not.mpr hstatus)
  case analyzing =>
    have hchanged : updated.status ≠ .analyzing := by
      have hok := concludeTest_ok h hlisted hsucceeded hanalyses
      rcases concludeTest_cases h hstatus with ⟨herror, -⟩ | ⟨-, hupdated | hupdated⟩
      · rw [hok] at herror
        cases herror
      · rw [hupdated]
        decide
      · rw [hupdated]
        decide
    have hpreview : previewOne now test =
        some ⟨test.id, .analyzing, "dry-run:would-progress:analyzing"⟩ := by
      simp [previewOne, hstatus, terminalStatuses]
      rfl
    rw [wouldProgress_iff hpreview]
    exact iff_of_true (by decide) hchanged
  case testing | deploying | cancelling =>
    cases (ran_pure.mp h).2
    have hpreview : previewOne now test = some ⟨test.id, test.status,
        ("dry-run:noop:" : Text) ++ test.status.text ++ ("-transitional" : Text)⟩ := by
      simp [previewOne, hstatus, terminalStatuses]
    rw [wouldProgress_iff hpreview, hstatus]
    exact iff_of_false (by decide) (not_not.mpr rfl)
  all_goals exact absurd (by decide) hterminal

end Steps

/-! ## One test in a tick -/

section Rounds

variable [Statistics] {test after : AbTest} {now : ℤ} {log : TickLog}

/-- The action that a tick reports for a test that it ran. -/
def actionOf (before after : Status) : Except JsValue Unit → Text
  | .ok () =>
      if after = before then ("noop:" : Text) ++ before.text
      else ("progress:" : Text) ++ before.text ++ ("->" : Text) ++ after.text
  | .error error => ("error:" : Text) ++ formatError error

/-- A tick passes over finished tests, reports drafts, and runs the others. -/
theorem tickOne_cases {entry : Option TickResult} (h : Ran (tickOne now test) log (after, entry)) :
    (IsLive test = false ∧ after = test ∧ entry = none) ∨
      (IsLive test = true ∧ test.status = .draft ∧ after = test ∧
        entry = some ⟨test.id, test.status, "skip:draft-not-launched"⟩) ∨
      (IsLive test = true ∧ test.status ≠ .draft ∧ ∃ outcome,
        Ran (runAbTest test {} now) log (after, outcome) ∧
          entry = some ⟨test.id, after.status, actionOf test.status after.status outcome⟩) := by
  unfold tickOne at h
  split at h
  · rename_i hterminal
    cases (ran_pure.mp h).2
    exact .inl ⟨by simpa [IsLive] using hterminal, rfl, rfl⟩
  · rename_i hterminal
    have hlive : IsLive test = true := by simpa [IsLive] using hterminal
    split at h
    · rename_i hdraft
      cases (ran_pure.mp h).2
      exact .inr (.inl ⟨hlive, hdraft, rfl, rfl⟩)
    · rename_i hdraft
      obtain ⟨first, ⟨updated, outcome⟩, rest, rfl, hrun, hrest⟩ := ran_bind.mp h
      obtain ⟨rfl, hreturned⟩ := ran_pure.mp hrest
      cases hreturned
      exact .inr (.inr ⟨hlive, hdraft, outcome, by simpa using hrun, rfl⟩)

/-- An entry names the test and its statuses, or the error that left the test alone. -/
theorem tickOne_named {entry : TickResult} (h : Ran (tickOne now test) log (after, some entry)) :
    entry.testId = test.id ∧ entry.status = after.status ∧
      (NamesProgress test.status after.status entry.action ∨
        (NamesError entry.action ∧ after.status = test.status)) := by
  rcases tickOne_cases h with
    ⟨-, -, hentry⟩ | ⟨-, hdraft, rfl, hentry⟩ | ⟨-, -, outcome, hrun, hentry⟩
  · cases hentry
  · cases hentry
    exact ⟨rfl, rfl, .inl (.inl ⟨hdraft, hdraft, rfl⟩)⟩
  · cases hentry
    refine ⟨rfl, rfl, ?_⟩
    cases outcome with
    | error error => exact .inr ⟨⟨formatError error, rfl⟩, runAbTest_error hrun⟩
    | ok _ =>
        left
        by_cases hsame : after.status = test.status
        · exact .inr (.inl ⟨hsame.symm, if_pos hsame⟩)
        · exact .inr (.inr ⟨Ne.symm hsame, if_neg hsame⟩)

theorem tickOne_foretold {entry : Option TickResult} (h : Ran (tickOne now test) log (after, entry))
    (hdate : (toISOString test.updatedAt).isSome) (hlisted : HoldoutListed test)
    (hsucceeded : ∀ call ∈ log, WentThrough call.1 call.2) (hanalyses : AnalysesAgree test now log) :
    WouldProgress now test ↔ after.status ≠ test.status := by
  rcases tickOne_cases h with
    ⟨hlive, rfl, -⟩ | ⟨hlive, hdraft, rfl, -⟩ | ⟨hlive, hdraft, outcome, hrun, -⟩
  · have hterminal : after.status ∈ terminalStatuses := by simpa [IsLive] using hlive
    have hpreview : previewOne now after = none := by rw [previewOne, if_pos hterminal]
    simp [WouldProgress, hpreview]
  · have hpreview : previewOne now after =
        some ⟨after.id, .draft, "skip:draft-not-launched"⟩ := by
      simp [previewOne, hdraft, terminalStatuses]
    rw [wouldProgress_iff hpreview]
    exact iff_of_false (by decide) (not_not.mpr rfl)
  · exact runAbTest_foretold hrun hlive hdraft hdate hlisted hsucceeded hanalyses

/-- A tick has an entry for a test exactly when the test is not finished. -/
theorem tickOne_listed {entry : Option TickResult} (h : Ran (tickOne now test) log (after, entry)) :
    entry.map (·.testId) = if IsLive test then some test.id else none := by
  rcases tickOne_cases h with
    ⟨hlive, -, rfl⟩ | ⟨hlive, -, -, rfl⟩ | ⟨hlive, -, outcome, -, rfl⟩ <;> simp [hlive]

omit [Statistics] in
theorem previewOne_listed : (previewOne now test).map (fun entry => (entry.testId, entry.status)) =
    if IsLive test then some (test.id, test.status) else none := by
  unfold previewOne IsLive
  by_cases hterminal : test.status ∈ terminalStatuses
  · simp [hterminal]
  · cases hstatus : test.status <;> rw [hstatus] at hterminal <;> simp [hterminal]
    · split <;> exact ⟨_, rfl, rfl, rfl⟩
    · cases test.endsAt with
      | none => exact ⟨_, rfl, rfl, rfl⟩
      | some endsAt =>
          dsimp only
          split <;> exact ⟨_, rfl, rfl, rfl⟩

end Rounds

/-! ## A tick over all tests -/

section Ticks

variable [Statistics] {tests ahead rest : List AbTest} {test : AbTest} {now : ℤ} {log : TickLog}
  {updated : List AbTest} {entries : List TickResult}

theorem ran_tick : Ran (tickAbTests tests false now) log (updated, entries) ↔
    ∃ rounds : List (TickLog × AbTest × Option TickResult),
      List.Forall₂ (fun test round => Ran (tickOne now test) round.1 round.2) tests rounds ∧
        log = (rounds.map Prod.fst).flatten ∧ updated = rounds.map (·.2.1) ∧
        entries = rounds.filterMap (·.2.2) := by
  have htick : tickAbTests tests false now = tests.mapM (tickOne now) >>= fun ticked =>
      pure (ticked.map Prod.fst, ticked.filterMap Prod.snd) := rfl
  rw [htick, ran_bind]
  constructor
  · rintro ⟨first, ticked, second, rfl, hfirst, hsecond⟩
    obtain ⟨rfl, hreturned⟩ := ran_pure.mp hsecond
    obtain ⟨rounds, hrounds, rfl, rfl⟩ := ran_mapM.mp hfirst
    obtain ⟨rfl, rfl⟩ := Prod.mk.inj hreturned
    exact ⟨rounds, hrounds, by simp, by simp, by rw [List.filterMap_map]; rfl⟩
  · rintro ⟨rounds, hrounds, rfl, rfl, rfl⟩
    refine ⟨_, rounds.map Prod.snd, [], (List.append_nil _).symm,
      ran_mapM.mpr ⟨rounds, hrounds, rfl, rfl⟩, ran_pure.mpr ⟨rfl, ?_⟩⟩
    rw [List.map_map, List.filterMap_map]
    rfl

omit [Statistics] in
/-- Entries that are there for the tests that are not finished are theirs, in order. -/
theorem map_filterMap_entries {α β : Type} {R : AbTest → α → Prop} {entry : α → Option TickResult}
    {heading : TickResult → β} {name : AbTest → β} {rounds : List α}
    (hrounds : List.Forall₂ R tests rounds)
    (hlisted : ∀ test round, R test round →
      (entry round).map heading = if IsLive test then some (name test) else none) :
    (rounds.filterMap entry).map heading = (tests.filter IsLive).map name := by
  induction hrounds with
  | nil => rfl
  | @cons test round tests rounds hround hrest ih =>
      have hentry := hlisted test round hround
      cases hlive : IsLive test with
      | false =>
          rw [hlive, if_neg Bool.false_ne_true, Option.map_eq_none_iff] at hentry
          rw [List.filterMap_cons_none hentry, List.filter_cons_of_neg (by simp [hlive]), ih]
      | true =>
          rw [hlive, if_pos rfl, Option.map_eq_some_iff] at hentry
          obtain ⟨result, hresult, hheading⟩ := hentry
          rw [List.filterMap_cons_some hresult, List.filter_cons_of_pos hlive, List.map_cons,
            List.map_cons, hheading, ih]

/-- A tick has one entry for each test that is not finished, in order. -/
theorem tick_reported (h : Ran (tickAbTests tests false now) log (updated, entries)) :
    entries.map (·.testId) = (tests.filter IsLive).map (·.id) := by
  obtain ⟨rounds, hrounds, -, -, rfl⟩ := ran_tick.mp h
  exact map_filterMap_entries hrounds fun test round hround => tickOne_listed hround

omit [Statistics] in
theorem tick_previewed :
    (tests.filterMap (previewOne now)).map (fun entry => (entry.testId, entry.status)) =
      (tests.filter IsLive).map fun test => (test.id, test.status) :=
  map_filterMap_entries (List.forall₂_same.mpr fun _ _ => rfl)
    fun test round (hsame : test = round) => hsame ▸ previewOne_listed

theorem ran_tick_append : Ran (tickAbTests (ahead ++ rest) false now) log (updated, entries) ↔
    ∃ first last front back above below, log = first ++ last ∧ updated = front ++ back ∧
      entries = above ++ below ∧ Ran (tickAbTests ahead false now) first (front, above) ∧
      Ran (tickAbTests rest false now) last (back, below) := by
  constructor
  · intro h
    obtain ⟨rounds, hrounds, rfl, rfl, rfl⟩ := ran_tick.mp h
    have hahead := List.forall₂_take_append _ _ _ hrounds.flip
    have hrest := List.forall₂_drop_append _ _ _ hrounds.flip
    rw [← List.take_append_drop ahead.length rounds]
    refine ⟨_, _, _, _, _, _, ?_, List.map_append, List.filterMap_append,
      ran_tick.mpr ⟨_, hahead.flip, rfl, rfl, rfl⟩, ran_tick.mpr ⟨_, hrest.flip, rfl, rfl, rfl⟩⟩
    rw [List.map_append, List.flatten_append]
  · rintro ⟨first, last, front, back, above, below, rfl, rfl, rfl, hahead, hrest⟩
    obtain ⟨rounds, hrounds, rfl, rfl, rfl⟩ := ran_tick.mp hahead
    obtain ⟨rounds', hrounds', rfl, rfl, rfl⟩ := ran_tick.mp hrest
    refine ran_tick.mpr ⟨rounds ++ rounds', List.rel_append hrounds hrounds', ?_, ?_, ?_⟩
    · rw [List.map_append, List.flatten_append]
    · rw [List.map_append]
    · rw [List.filterMap_append]

theorem ran_tick_singleton : Ran (tickAbTests [test] false now) log (updated, entries) ↔
    ∃ after entry, updated = [after] ∧ entries = Option.toList entry ∧
      Ran (tickOne now test) log (after, entry) := by
  constructor
  · intro h
    obtain ⟨rounds, hrounds, rfl, rfl, rfl⟩ := ran_tick.mp h
    obtain ⟨⟨own, after, entry⟩, others, hround, hnil, rfl⟩ := List.forall₂_cons_left_iff.mp hrounds
    obtain rfl := List.forall₂_nil_left_iff.mp hnil
    refine ⟨after, entry, rfl, ?_, by simpa using hround⟩
    cases entry <;> rfl
  · rintro ⟨after, entry, rfl, rfl, hround⟩
    refine ran_tick.mpr ⟨[(log, after, entry)], .cons hround .nil, by simp, rfl, ?_⟩
    cases entry <;> rfl

/-- The part of one test in a tick, and what is left without it: a tick of the others. -/
theorem tick_apart (h : Ran (tickAbTests (ahead ++ test :: rest) false now) log (updated, entries)) :
    ∃ first own last front after back above entry below,
      log = first ++ (own ++ last) ∧ updated = front ++ after :: back ∧
      entries = above ++ (Option.toList entry ++ below) ∧
      Ran (tickAbTests ahead false now) first (front, above) ∧
      Ran (tickOne now test) own (after, entry) ∧
      Ran (tickAbTests rest false now) last (back, below) ∧
      Ran (tickAbTests (ahead ++ rest) false now) (first ++ last) (front ++ back, above ++ below) := by
  obtain ⟨first, more, front, others, above, below, rfl, rfl, rfl, hahead, hmore⟩ :=
    ran_tick_append.mp h
  rw [← List.singleton_append] at hmore
  obtain ⟨own, last, alone, back, listed, below, rfl, rfl, rfl, hown, hrest⟩ :=
    ran_tick_append.mp hmore
  obtain ⟨after, entry, rfl, rfl, hround⟩ := ran_tick_singleton.mp hown
  exact ⟨first, own, last, front, after, back, above, entry, below, rfl, rfl, rfl, hahead, hround,
    hrest, ran_tick_append.mpr ⟨_, _, _, _, _, _, rfl, rfl, rfl, hahead, hrest⟩⟩

end Ticks

/-! ## Main result -/

section Main

variable [Statistics]

/-- What a dry run and a tick of some tests at one time have to do with each other. -/
structure TickTells (tests : List AbTest) (now : ℤ) : Prop where
  /-- The dry run makes no call and changes no test. -/
  quiet : tickAbTests tests true now = .done (tests, tests.filterMap (previewOne now))
  /-- It has an entry for each test that is not finished, in order. -/
  previewed : (tests.filterMap (previewOne now)).map (fun entry => (entry.testId, entry.status)) =
    (tests.filter IsLive).map fun test => (test.id, test.status)
  /-- So has the tick. -/
  reported : ∀ log updated entries, Ran (tickAbTests tests false now) log (updated, entries) →
    entries.map (·.testId) = (tests.filter IsLive).map (·.id)
  /-- The others fare as if one test were not there. -/
  apart : ∀ ahead test rest, tests = ahead ++ test :: rest → ∀ log updated entries,
    Ran (tickAbTests tests false now) log (updated, entries) →
      ∃ first own last front after back above entry below,
        log = first ++ (own ++ last) ∧ updated = front ++ after :: back ∧
        entries = above ++ (Option.toList entry ++ below) ∧
        Ran (tickAbTests ahead false now) first (front, above) ∧
        Ran (tickOne now test) own (after, entry) ∧
        Ran (tickAbTests rest false now) last (back, below) ∧
        Ran (tickAbTests (ahead ++ rest) false now) (first ++ last) (front ++ back, above ++ below)
  /-- Every action names the statuses before and after, or the error that left the status
  as it was. -/
  named : ∀ test ∈ tests, ∀ log after entry, Ran (tickOne now test) log (after, some entry) →
    entry.testId = test.id ∧ entry.status = after.status ∧
      (NamesProgress test.status after.status entry.action ∨
        (NamesError entry.action ∧ after.status = test.status))
  /-- Progress is announced where it is made, if all goes well. -/
  foretold : ∀ test ∈ tests, ∀ log after entry, Ran (tickOne now test) log (after, entry) →
    (toISOString test.updatedAt).isSome → HoldoutListed test →
    (∀ call ∈ log, WentThrough call.1 call.2) → AnalysesAgree test now log →
      (WouldProgress now test ↔ after.status ≠ test.status)

/-- The preview of a tick tells what the tick does. -/
theorem tick_foretold (tests : List AbTest) (now : ℤ) : TickTells tests now where
  quiet := rfl
  previewed := tick_previewed
  reported _ _ _ h := tick_reported h
  apart := by
    rintro ahead test rest rfl log updated entries h
    exact tick_apart h
  named _ _ _ _ _ h := tickOne_named h
  foretold _ _ _ _ _ h := tickOne_foretold h

end Main

/-! ## Where the preview is wrong -/

/-- A winner is found as long as the clicks are three hundred. -/
@[reducible]
def winsByClicks : Statistics where
  verifyHypothesis _ := .ok ()
  analyze test results _ :=
    let wins := results.any fun result =>
      match result.clicks with
      | .number 300 => true
      | _ => false
    .ok { isSignificant := true, winner := if wins then test.variants.head? else none }

/-- A test that waits for its analysis, with the campaigns it has figures from and the list
its winner goes to. -/
def waitingTest (campaignMappings : List CampaignMapping) (holdoutListId : Option ℤ) : AbTest :=
  { sampleTest with
    status := .analyzing
    autoDeployWinner := true
    campaignMappings := campaignMappings
    holdoutListId := holdoutListId }

def variantCampaigns : List CampaignMapping := [⟨"variant_A", 404⟩]

def figuresAnswer (clicks : ℤ) : Answer :=
  .returned (.object [("data", .object [("sent", .number 2000), ("views", .number 900),
    ("clicks", .number clicks)])])

/-- The calls of an execution are for figures, with three hundred clicks or one hundred. -/
def FiguresOnly (log : TickLog) : Prop :=
  ∀ call ∈ log, ∃ clicks : ℤ, (clicks = 300 ∨ clicks = 100) ∧
    call = (.campaignGetById 404, figuresAnswer clicks)

theorem ran_of_answers [Statistics] {test after : AbTest} {now : ℤ} {entry : Option TickResult}
    {log : TickLog} (answers : List Answer)
    (h : (tickOne now test).run recorded [] answers = (some (after, entry), log)) :
    Ran (tickOne now test) log (after, entry) := by
  obtain ⟨tail, rfl, hran⟩ := ran_of_run_recorded h
  exact hran

theorem FiguresOnly.wentThrough {log : TickLog} (h : FiguresOnly log) :
    ∀ call ∈ log, WentThrough call.1 call.2 := by
  intro call hcall
  obtain ⟨clicks, -, rfl⟩ := h call hcall
  exact ⟨_, rfl, rfl, fun _ hcreate => Call.noConfusion hcreate⟩

theorem FiguresOnly.analyzed {log part : TickLog} {listId : Option ℤ}
    {outcome : Except JsValue TestAnalysis} (h : FiguresOnly log) (hpart : part <:+: log) :
    letI := winsByClicks
    Ran (analyzeTest (waitingTest variantCampaigns listId) 1).run part outcome →
      ∃ analysis, outcome = .ok analysis := by
  let := winsByClicks
  intro hran
  obtain ⟨answer, rest, rfl, hrest⟩ := ran_call.mp hran
  obtain ⟨clicks, rfl | rfl, hcall⟩ := h _ (hpart.subset List.mem_cons_self)
  all_goals
    obtain ⟨-, rfl⟩ := Prod.mk.inj hcall
    exact ⟨_, (ran_pure.mp hrest).2⟩

/-- What is left out of the prediction: executions where all calls succeed and the analyses
return, but the announced progress is not made. -/
def Disappoints [Statistics] (test : AbTest) : Prop :=
  ∃ log after entry, Ran (tickOne 1 test) log (after, entry) ∧
    (∀ call ∈ log, WentThrough call.1 call.2) ∧
    (∀ part outcome, part <:+: log → Ran (analyzeTest test 1).run part outcome →
      ∃ analysis, outcome = .ok analysis) ∧
    WouldProgress 1 test ∧ after.status = test.status

theorem wouldProgress_waitingTest (listId : Option ℤ) :
    WouldProgress 1 (waitingTest variantCampaigns listId) :=
  ⟨_, rfl, List.prefix_append _ _⟩

/-- The action of a test whose figures cannot be had does not name its status. And the
announced progress is not made where the list for the winner is missing, and where the
figures move between the two analyses. -/
theorem tick_untold :
    letI := winsByClicks
    (∃ log after entry, Ran (tickOne 1 (waitingTest [] none)) log (after, some entry) ∧
      ¬ Status.analyzing.text <:+: entry.action) ∧
    Disappoints (waitingTest variantCampaigns none) ∧
    Disappoints (waitingTest variantCampaigns (some 21)) := by
  let := winsByClicks
  have hsteady : FiguresOnly [(.campaignGetById 404, figuresAnswer 300)] := by
    simp [FiguresOnly]
  have hmoving : FiguresOnly [(.campaignGetById 404, figuresAnswer 300),
      (.campaignGetById 404, figuresAnswer 100)] := by
    simp [FiguresOnly]
  refine ⟨⟨_, _, _, ran_of_answers [] rfl, by decide +kernel⟩,
    ⟨_, _, _, ran_of_answers [figuresAnswer 300] rfl, hsteady.wentThrough,
      fun _ _ => hsteady.analyzed, wouldProgress_waitingTest none, rfl⟩,
    ⟨_, _, _, ran_of_answers [figuresAnswer 300, figuresAnswer 100] rfl, hmoving.wentThrough,
      fun _ _ => hmoving.analyzed, wouldProgress_waitingTest (some 21), rfl⟩⟩

/-! ## Where it is right -/

/-- A deployment on steady figures: two analyses, the winner's campaign, and its start. -/
def deployedLog : TickLog :=
  [(.campaignGetById 404, figuresAnswer 300), (.campaignGetById 404, figuresAnswer 300),
    (.campaignCreate (winnerCampaignBody ⟨"variant_A", "A", 100, ⟨none, none⟩⟩ 21
      sampleTest.baseConfig sampleTest.id 1),
      .returned (.object [("data", .object [("id", .number 55)])])),
    (.campaignUpdateStatus 55 "running", .returned (.object [("data", .boolean true)]))]

theorem analyzed_deployedLog {part : TickLog} {outcome : Except JsValue TestAnalysis}
    (hpart : part <:+: deployedLog) :
    letI := winsByClicks
    Ran (analyzeTest (waitingTest variantCampaigns (some 21)) 1).run part outcome →
      outcome = .ok { isSignificant := true, winner := sampleTest.variants.head? } := by
  let := winsByClicks
  intro hran
  obtain ⟨answer, rest, rfl, hrest⟩ := ran_call.mp hran
  have hcall := hpart.subset List.mem_cons_self
  obtain rfl : answer = figuresAnswer 300 := by simpa [deployedLog] using hcall
  exact (ran_pure.mp hrest).2

/-- A winner that is announced is deployed. -/
theorem tick_foretold_deployedLog :
    letI := winsByClicks
    let test := waitingTest variantCampaigns (some 21)
    ∃ after entry, Ran (tickOne 1 test) deployedLog (after, entry) ∧
      after.status = .completed ∧ after.winnerCampaignId = some 55 ∧
      (WouldProgress 1 test ↔ after.status ≠ test.status) := by
  let := winsByClicks
  have hran : Ran (tickOne 1 (waitingTest variantCampaigns (some 21))) deployedLog _ :=
    ran_of_answers [figuresAnswer 300, figuresAnswer 300,
      .returned (.object [("data", .object [("id", .number 55)])]),
      .returned (.object [("data", .boolean true)])] rfl
  refine ⟨_, _, hran, rfl, rfl, ?_⟩
  refine (tick_foretold [waitingTest variantCampaigns (some 21)] 1).foretold _
    List.mem_cons_self _ _ _ hran (by decide +kernel) (fun _ _ => ⟨21, rfl, by decide⟩) ?_
    ⟨fun part outcome hpart h => ⟨_, analyzed_deployedLog hpart h⟩,
      fun part part' analysis analysis' hpart hpart' h h' => ?_⟩
  · simp only [deployedLog, List.forall_mem_cons, List.not_mem_nil, false_imp_iff, implies_true,
      and_true]
    refine ⟨⟨_, rfl, rfl, nofun⟩, ⟨_, rfl, rfl, nofun⟩, ⟨_, rfl, rfl, fun _ _ => ⟨55, rfl⟩⟩,
      ⟨_, rfl, rfl, nofun⟩⟩
  · rw [Except.ok.inj (analyzed_deployedLog hpart h), Except.ok.inj (analyzed_deployedLog hpart' h')]

end ListmonkOps.Experiment
