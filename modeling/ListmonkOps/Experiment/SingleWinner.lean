/-
One winner campaign for a holdout list.

Creating the winner campaign, starting it and writing the store are separate
effects, so an operation that fails or dies in between leaves a campaign on the
server that no record names. As long as no operation creates a winner campaign
in that situation, and none is deployed by hand for a test that names one, there
is at most one.
-/

import ListmonkOps.Experiment.Cancellation
import ListmonkOps.Experiment.Deployment
import ListmonkOps.Math.Run

namespace ListmonkOps.Experiment

open ListmonkOps.Math ListmonkOps.Runtime Program

/-- The call creates a winner campaign for a holdout list. -/
def isWinnerCreation (holdoutListId : ℤ) : Call → Bool
  | .campaignCreate body => body.lists = [holdoutListId] && winnerTag ∈ body.tags
  | _ => false

/-- How many creations of winner campaigns reached the server. -/
def Server.creations (server : Server) (holdoutListId : ℤ) : ℕ :=
  server.requests.countP (isWinnerCreation holdoutListId)

/-- At most `n` creations reached the server. -/
def Server.Creates (holdoutListId : ℤ) (n : ℕ) (server : Server) : Prop :=
  server.creations holdoutListId ≤ n

/-! ## The server -/

section Server

variable {h : ℤ} {n : ℕ} {server : Server} {call : Call}

@[simp]
theorem requests_apply : (server.apply call).requests = server.requests := by
  cases call <;> rfl

theorem requests_serve (behaviour : Behaviour) :
    (server.serve call behaviour).2.requests = server.requests ++ [call] := by
  cases behaviour with
  | serves data => simp [Server.serve]
  | refuses error => rfl
  | fails error applied => cases applied <;> simp [Server.serve]

theorem creations_serve (behaviour : Behaviour) :
    (server.serve call behaviour).2.creations h =
      server.creations h + if isWinnerCreation h call then 1 else 0 := by
  simp [Server.creations, requests_serve, List.countP_append, List.countP_singleton]

/-- A winner campaign comes from its creation; starting a campaign makes none. -/
theorem winnerCampaigns_apply :
    ((server.apply call).winnerCampaigns h).length ≤
      (server.winnerCampaigns h).length + if isWinnerCreation h call then 1 else 0 := by
  cases call with
  | campaignCreate body =>
      simp only [Server.apply, Server.winnerCampaigns, List.filter_append, List.length_append,
        isWinnerCreation]
      by_cases hcreation : (body.lists = [h] && winnerTag ∈ body.tags) = true
      · simp [hcreation]
      · simp [hcreation]
  | campaignUpdateStatus id status =>
      simp only [Server.apply, Server.winnerCampaigns, List.filter_map, List.length_map,
        isWinnerCreation]
      refine le_of_eq (congrArg List.length (List.filter_congr fun campaign _ => ?_))
      simp only [Function.comp_apply]
      split <;> rfl
  | _ => exact Nat.le_add_right _ _

theorem winnerCampaigns_serve (behaviour : Behaviour) :
    ((server.serve call behaviour).2.winnerCampaigns h).length ≤
      (server.winnerCampaigns h).length + if isWinnerCreation h call then 1 else 0 := by
  have happlied : ((({ server with requests := server.requests ++ [call] } : Server).apply
      call).winnerCampaigns h).length ≤ (server.winnerCampaigns h).length + _ :=
    winnerCampaigns_apply
  cases behaviour with
  | serves data => exact happlied
  | refuses error => exact Nat.le_add_right _ _
  | fails error applied =>
      cases applied with
      | true => exact happlied
      | false => exact Nat.le_add_right _ _

/-- Whatever is executed, there are no more new winner campaigns than creations. -/
theorem winnerCampaigns_run {α : Type} (p : Program Call Answer α) (script : List Behaviour) :
    ((p.run Server.serve server script).2.winnerCampaigns h).length + server.creations h ≤
      (server.winnerCampaigns h).length + (p.run Server.serve server script).2.creations h := by
  refine ((safe_of_preserved (I := fun after : Server => (after.winnerCampaigns h).length +
    server.creations h ≤ (server.winnerCampaigns h).length + after.creations h)
    ?_ le_rfl p).run script).1
  intro after call behaviour hbound
  have hnew : ((after.serve call behaviour).2.winnerCampaigns h).length ≤ _ :=
    winnerCampaigns_serve behaviour
  have hcount : (after.serve call behaviour).2.creations h = _ := creations_serve behaviour
  omega

theorem requests_run {α : Type} (p : Program Call Answer α) (script : List Behaviour) :
    server.requests <+: (p.run Server.serve server script).2.requests := by
  refine ((safe_of_preserved (I := fun after : Server => server.requests <+: after.requests)
    ?_ (List.prefix_refl _) p).run script).1
  intro after call behaviour hbefore
  rw [requests_serve]
  exact hbefore.trans (List.prefix_append _ _)

theorem Server.Creates.serve (hserver : server.Creates h n) (hcall : isWinnerCreation h call = false)
    (behaviour : Behaviour) : (server.serve call behaviour).2.Creates h n := by
  rw [Server.Creates, creations_serve, hcall]
  exact hserver

theorem Server.Creates.serve_creation (hserver : server.Creates h n) (behaviour : Behaviour) :
    (server.serve call behaviour).2.Creates h (n + 1) := by
  rw [Server.Creates, creations_serve]
  rw [Server.Creates] at hserver
  split <;> omega

end Server

/-! ## What the operations create -/

section Operations

variable {h : ℤ} {n : ℕ} {server : Server} {test test' : AbTest} {now : ℤ}

theorem collectOne_safe {mapping : CampaignMapping} (hserver : server.Creates h n) :
    (collectOne test mapping).Safe Server.serve (Server.Creates h n) (fun _ _ => True) server := by
  rw [collectOne, safe_bind, safe_perform]
  refine ⟨hserver, fun behaviour => ?_⟩
  have hafter : (server.serve (.campaignGetById mapping.campaignId) behaviour).2.Creates h n :=
    hserver.serve rfl behaviour
  refine ⟨hafter, ?_⟩
  generalize (server.serve (.campaignGetById mapping.campaignId) behaviour).1 = answer
  cases answer with
  | thrown error => exact ⟨hafter, trivial⟩
  | returned response =>
      simp only
      cases readMetrics mapping response with
      | ok results => exact ⟨hafter, trivial⟩
      | error error => exact ⟨hafter, trivial⟩

/-- A deployment creates one winner campaign, for its own holdout list. -/
theorem launchWinner_safe {winner : Variant} {holdoutListId : ℤ} (hserver : server.Creates h n) :
    Fallible.Safe Server.serve (Server.Creates h (n + if holdoutListId = h then 1 else 0))
      (launchWinner test winner holdoutListId now) (fun _ _ => True) (fun _ _ => True) server := by
  set bound := n + if holdoutListId = h then 1 else 0 with hbound
  have hle : ∀ {server : Server}, server.Creates h n → server.Creates h bound :=
    fun hserver => le_trans hserver (Nat.le_add_right _ _)
  have hawait : ∀ {call : Call} {server : Server}, server.Creates h bound →
      (∀ behaviour, (server.serve call behaviour).2.Creates h bound) →
      Fallible.Safe Server.serve (Server.Creates h bound) (await call)
        (fun _ _ => True) (fun _ _ => True) server := by
    intro call server hserver hafter
    refine ⟨hserver, fun behaviour => ?_⟩
    have hafter := hafter behaviour
    generalize server.serve call behaviour = ended at hafter
    obtain ⟨answer, after⟩ := ended
    cases answer <;> exact ⟨hafter, trivial⟩
  rw [launchWinner, Fallible.safe_bind]
  refine Fallible.Safe.imp (Q := fun _ _ => True) (E := fun _ _ => True) ?_ ?_ fun _ _ _ => id
  · rw [deployWinnerToHoldout, Fallible.safe_bind]
    refine (hawait (hle hserver) fun behaviour => ?_).imp (fun result after hafter _ => ?_)
      fun _ _ _ => id
    · by_cases hlist : holdoutListId = h
      · rw [hbound, if_pos hlist]
        exact hserver.serve_creation behaviour
      · refine hle (hserver.serve ?_ behaviour)
        simp [isWinnerCreation, winnerCampaignBody, hlist]
    · refine ⟨hafter, ?_⟩
      generalize (do
        let created ← unwrapData result "Failed to create winner campaign"
        requireNumericId (← created.property "id") "Failed to create winner campaign" :
          Except JsValue ℤ) = outcome
      cases outcome <;> trivial
  · intro winnerCampaignId after hafter _
    split
    · rw [Fallible.safe_bind, autoDeployWinner, Fallible.safe_bind]
      exact (hawait hafter fun behaviour => hafter.serve rfl behaviour).imp
        (fun _ _ hafter _ => ⟨hafter, hafter, trivial⟩) fun _ _ _ => id
    · exact ⟨hafter, trivial⟩

/-- A record that names a winner campaign is one of a finished test. -/
def AbTest.WinnerRecorded (test : AbTest) : Prop :=
  test.winnerCampaignId ≠ none → test.status ∈ terminalStatuses

/-- What the operations keep of a record: which test it is, and which holdout list it has. -/
structure SameTest (test test' : AbTest) : Prop where
  id : test'.id = test.id
  holdoutListId : test'.holdoutListId = test.holdoutListId

theorem SameTest.refl (test : AbTest) : SameTest test test := ⟨rfl, rfl⟩

/-! ## The records -/

/-- The creations a step of a test may make: none once the test is finished. -/
def AbTest.mayCreate (test : AbTest) (h : ℤ) : ℕ :=
  if test.holdoutListId = some h ∧ test.status ∉ terminalStatuses then 1 else 0

theorem updateTestStatus_sameTest {status : Status} :
    SameTest test (updateTestStatus test status now) := ⟨rfl, rfl⟩

def Kept (test test' : AbTest) : Prop :=
  SameTest test test' ∧ (test.WinnerRecorded → test'.WinnerRecorded)

variable {tests : List AbTest}

theorem kept_replaceBy (distinct : (tests.map (·.id)).Nodup) (hmem : test ∈ tests)
    (hkept : Kept test test') : List.Forall₂ Kept tests (replaceBy (·.id) tests test') := by
  rw [replaceBy, List.forall₂_map_right_iff, List.forall₂_same]
  intro other hother
  by_cases hid : other.id = test'.id
  · rw [if_pos hid]
    obtain rfl : other = test :=
      List.inj_on_of_nodup_map distinct hother hmem (hid.trans hkept.1.id)
    exact hkept
  · rw [if_neg hid]
    exact ⟨.refl _, id⟩

theorem onTest_safe {testId : Text} {m : ℕ}
    {action : AbTest → Program Call Answer (AbTest × Except JsValue Unit)}
    (distinct : (tests.map (·.id)).Nodup) (hserver : server.Creates h n)
    (haction : ∀ test ∈ tests, test.id = testId →
      (action test).Safe Server.serve (Server.Creates h (n + m))
        (fun ended _ => ended.2 = .ok () → Kept test ended.1) server) :
    (onTest tests testId action).Safe Server.serve (Server.Creates h (n + m))
      (fun ended _ => ∀ after, ended = .ok after → List.Forall₂ Kept tests after) server := by
  rw [onTest]
  cases hfind : tests.find? (·.id = testId) with
  | none => exact ⟨le_trans hserver (Nat.le_add_right _ _), nofun⟩
  | some test =>
      rw [find?_key_eq_some_iff distinct] at hfind
      obtain ⟨hmem, hid⟩ := hfind
      simp only [safe_bind]
      refine (haction test hmem hid).imp ?_
      rintro ⟨test', outcome⟩ after hafter hkept
      cases outcome with
      | error error => exact ⟨hafter, nofun⟩
      | ok _ =>
          refine ⟨hafter, ?_⟩
          rintro _ ⟨rfl⟩
          exact kept_replaceBy distinct hmem (hkept rfl)

variable [Statistics]

theorem analyzeTest_safe (hserver : server.Creates h n) :
    Fallible.Safe Server.serve (Server.Creates h n) (analyzeTest test now)
      (fun _ _ => True) (fun _ _ => True) server := by
  have hpure : ∀ {α : Type} (outcome : Except JsValue α) {server : Server},
      server.Creates h n → Fallible.Safe Server.serve (Server.Creates h n)
        (ExceptT.mk (pure outcome)) (fun _ _ => True) (fun _ _ => True) server :=
    fun outcome _ hserver => ⟨hserver, by cases outcome <;> trivial⟩
  rw [analyzeTest, Fallible.safe_bind]
  refine (hpure _ hserver).imp (fun _ server hserver _ => ?_) fun _ _ _ => id
  rw [Fallible.safe_bind, collect]
  refine Fallible.Safe.imp (Q := fun _ _ => True) (E := fun _ _ => True) ?_
    (fun _ _ hserver _ => hpure _ hserver) fun _ _ _ => id
  split
  · exact ⟨hserver, trivial⟩
  · rw [Fallible.safe_bind, Fallible.safe_lift]
    refine (safe_mapM (fun _ _ server => server.Creates h n) ?_ hserver hserver).imp
      fun _ _ hserver _ => hpure _ hserver
    exact fun _ hserver => (collectOne_safe hserver).imp fun _ _ hserver _ => hserver

/-- A deployment that returns leaves a finished test; one that throws leaves the
record without a new winner campaign. -/
theorem deployWinner_safe (hserver : server.Creates h n) :
    (Experiment.deployWinner test now).Safe Server.serve
      (Server.Creates h (n + if test.holdoutListId = some h then 1 else 0))
      (fun ended _ => SameTest test ended.1 ∧
        (ended.2 = .ok () → ended.1.status ∈ terminalStatuses) ∧
        (ended.2 ≠ .ok () → ended.1.winnerCampaignId = test.winnerCampaignId)) server := by
  set bound := n + if test.holdoutListId = some h then 1 else 0 with hbound
  have hle : ∀ {server : Server}, server.Creates h n → server.Creates h bound :=
    fun hserver => le_trans hserver (Nat.le_add_right _ _)
  rw [Experiment.deployWinner]
  split
  · exact ⟨hle hserver, .refl _, nofun, fun _ => rfl⟩
  · split
    · exact ⟨hle hserver, .refl _, nofun, fun _ => rfl⟩
    · exact ⟨hle hserver, .refl _, nofun, fun _ => rfl⟩
    · rename_i holdoutListId _ hholdout
      rw [safe_bind]
      refine Safe.mono (analyzeTest_safe hserver) (fun _ => hle) fun outcome after hafter _ => ?_
      cases outcome with
      | error error => exact ⟨hle hafter, .refl _, nofun, fun _ => rfl⟩
      | ok analysis =>
          simp only
          cases analysis.winner with
          | none => exact ⟨hle hafter, .refl _, nofun, fun _ => rfl⟩
          | some winner =>
              simp only [safe_bind]
              have hlaunch : Fallible.Safe Server.serve _ (launchWinner test winner holdoutListId now)
                  _ _ _ := launchWinner_safe hafter
              simp only [hholdout, Option.some.injEq] at hbound
              rw [← hbound] at hlaunch
              refine Safe.imp hlaunch fun outcome final hfinal _ => ?_
              cases outcome with
              | error error => exact ⟨hfinal, ⟨rfl, rfl⟩, nofun, fun _ => rfl⟩
              | ok winnerCampaignId =>
                  refine ⟨hfinal, ⟨rfl, rfl⟩, fun _ => ?_, fun h => absurd rfl h⟩
                  exact List.mem_cons_self

theorem concludeTest_safe (hstatus : test.status ∉ terminalStatuses)
    (hserver : server.Creates h n) :
    (concludeTest test now).Safe Server.serve (Server.Creates h (n + test.mayCreate h))
      (fun ended _ => SameTest test ended.1 ∧ (test.WinnerRecorded → ended.1.WinnerRecorded))
      server := by
  have hcreate : test.mayCreate h = if test.holdoutListId = some h then 1 else 0 := by
    simp [AbTest.mayCreate, hstatus]
  have hle : ∀ {server : Server}, server.Creates h n →
      server.Creates h (n + test.mayCreate h) :=
    fun hserver => le_trans hserver (Nat.le_add_right _ _)
  rw [concludeTest, safe_bind]
  refine Safe.mono (analyzeTest_safe hserver) (fun _ => hle) fun outcome after hafter _ => ?_
  cases outcome with
  | error error => exact ⟨hle hafter, .refl _, id⟩
  | ok analysis =>
      simp only
      split
      · rw [safe_bind]
        rw [hcreate] at hle ⊢
        refine (deployWinner_safe hafter).imp ?_
        rintro ⟨test', outcome⟩ final hfinal ⟨hsame, hdone, hkept⟩
        cases outcome with
        | error error =>
            refine ⟨hfinal, hsame, fun hrecorded hwinner => ?_⟩
            rw [hkept (by simp)] at hwinner
            exact absurd (hrecorded hwinner) hstatus
        | ok _ =>
            exact ⟨hfinal, ⟨hsame.id, hsame.holdoutListId⟩, fun _ _ => List.mem_cons_self⟩
      · refine ⟨hle hafter, updateTestStatus_sameTest, fun _ _ => ?_⟩
        change (if analysis.isSignificant then Status.completed else .inconclusive) ∈ terminalStatuses
        split <;> decide

theorem runAbTest_safe {expected : Expected} (hserver : server.Creates h n) :
    (runAbTest test expected now).Safe Server.serve (Server.Creates h (n + test.mayCreate h))
      (fun ended _ => SameTest test ended.1 ∧ (test.WinnerRecorded → ended.1.WinnerRecorded))
      server := by
  have hle : server.Creates h (n + test.mayCreate h) := le_trans hserver (Nat.le_add_right _ _)
  have hunchanged : ∀ outcome : Except JsValue Unit,
      (pure (test, outcome) : Program Call Answer _).Safe Server.serve
        (Server.Creates h (n + test.mayCreate h))
        (fun ended _ => SameTest test ended.1 ∧ (test.WinnerRecorded → ended.1.WinnerRecorded))
        server := fun _ => ⟨hle, .refl _, id⟩
  rw [runAbTest]
  cases checkExpected test expected with
  | error error => exact hunchanged _
  | ok _ =>
      by_cases hstatus : test.status ∈ terminalStatuses
      · simpa [hstatus] using hunchanged (.ok ())
      · have hmoved : ∀ status : Status,
            (pure (updateTestStatus test status now, .ok ()) : Program Call Answer
              (AbTest × Except JsValue Unit)).Safe Server.serve
              (Server.Creates h (n + test.mayCreate h))
              (fun ended _ => SameTest test ended.1 ∧
                (test.WinnerRecorded → ended.1.WinnerRecorded)) server :=
          fun _ => ⟨hle, updateTestStatus_sameTest,
            fun hrecorded hwinner => absurd (hrecorded hwinner) hstatus⟩
        simp only [if_neg hstatus]
        split
        · split
          · exact hmoved _
          · exact hunchanged _
        · split
          · exact hmoved _
          · exact hunchanged _
        · exact concludeTest_safe hstatus hserver
        · exact hunchanged _

theorem tickOne_safe (hserver : server.Creates h n) :
    (tickOne now test).Safe Server.serve (Server.Creates h (n + test.mayCreate h))
      (fun ended _ => SameTest test ended.1 ∧ (test.WinnerRecorded → ended.1.WinnerRecorded))
      server := by
  have hle : server.Creates h (n + test.mayCreate h) := le_trans hserver (Nat.le_add_right _ _)
  rw [tickOne]
  split
  · exact ⟨hle, .refl _, id⟩
  · split
    · exact ⟨hle, .refl _, id⟩
    · rw [safe_bind]
      exact (runAbTest_safe hserver).imp fun _ _ hafter hkept => ⟨hafter, hkept⟩

/-- A tick creates at most one winner campaign for a list that only one unfinished
test holds out. -/
theorem tickAbTests_safe {dryRun : Bool} (distinct : tests.Nodup) (htest : test ∈ tests)
    (hothers : ∀ other ∈ tests, other ≠ test → other.holdoutListId ≠ some h)
    (hserver : server.Creates h n) :
    (tickAbTests tests dryRun now).Safe Server.serve (Server.Creates h (n + test.mayCreate h))
      (fun ended _ => List.Forall₂ Kept tests ended.1) server := by
  have hle : server.Creates h (n + test.mayCreate h) := le_trans hserver (Nat.le_add_right _ _)
  have hother : ∀ other ∈ tests, other ≠ test → other.mayCreate h = 0 := fun other hmem hne =>
    if_neg fun hcreate => hothers other hmem hne hcreate.1
  rw [tickAbTests]
  split
  · exact ⟨hle, List.forall₂_same.mpr fun other _ => ⟨.refl _, id⟩⟩
  · rw [safe_bind]
    refine (safe_mapM (fun ahead results server =>
      server.Creates h (n + if test ∈ ahead then test.mayCreate h else 0) ∧
        List.Forall₂ (fun test result => Kept test result.1) ahead results)
      ?_ hle ⟨by simpa using hserver, .nil⟩).imp ?_
    · rintro ahead other results server hahead ⟨hcreates, hkept⟩
      have hmem : other ∈ tests := hahead.subset (by simp)
      have hfresh : other ∉ ahead := by
        have hnodup := distinct.sublist hahead.sublist
        exact fun h => (List.nodup_append.mp hnodup).2.2 other h other (by simp) rfl
      have hbound : (n + if test ∈ ahead then test.mayCreate h else 0) + other.mayCreate h =
          n + if test ∈ ahead ++ [other] then test.mayCreate h else 0 := by
        by_cases hsame : other = test
        · subst hsame
          simp [hfresh]
        · simp [hother other hmem hsame, Ne.symm hsame]
      refine (tickOne_safe hcreates).mono (fun after hafter => ?_) fun result after hafter hsame => ?_
      · refine le_trans hafter ?_
        rw [hbound]
        split <;> omega
      · refine ⟨hbound ▸ hafter, List.rel_append hkept (.cons hsame .nil)⟩
    · rintro results after hafter ⟨-, hkept⟩
      exact ⟨hafter, List.forall₂_map_right_iff.mpr hkept⟩

end Operations

/-! ## Runs -/

/-- A test that holds a list out, and what is known of its winner campaigns. -/
structure SingleWinner (testId : Text) (h : ℤ) (world : World) : Prop where
  distinct : (world.tests.map (·.id)).Nodup
  /-- The test is in the store. -/
  test : ∃ test ∈ world.tests, test.id = testId ∧ test.holdoutListId = some h ∧
    test.WinnerRecorded
  /-- No other test holds the list out. -/
  others : ∀ other ∈ world.tests, other.id ≠ testId → other.holdoutListId ≠ some h
  /-- The list has at most one winner campaign. -/
  single : (world.server.winnerCampaigns h).length ≤ 1

/-- The test has not been deployed, on record or on the server, and no other test claims its
holdout list. -/
structure Undeployed (testId : Text) (h : ℤ) (world : World) : Prop where
  distinct : (world.tests.map (·.id)).Nodup
  test : ∃ test ∈ world.tests, test.id = testId ∧ test.holdoutListId = some h ∧
    test.winnerCampaignId = none
  others : ∀ other ∈ world.tests, other.id ≠ testId → other.holdoutListId ≠ some h
  none : world.server.winnerCampaigns h = []

theorem Undeployed.singleWinner {testId : Text} {h : ℤ} {world : World}
    (hstart : Undeployed testId h world) : SingleWinner testId h world := by
  obtain ⟨test, hmem, hid, hlist, hwinner⟩ := hstart.test
  refine ⟨hstart.distinct, ⟨test, hmem, hid, hlist, fun hsome => absurd hwinner hsome⟩,
    hstart.others, ?_⟩
  simp [hstart.none]

section Runs

variable [Statistics] {testId : Text} {h : ℤ} {world world' : World} {op : OperationRun}

/-- An operation that creates a winner campaign does so for a test whose record
names none, when asked by hand, and which has none that the record does not name. -/
def Careful (testId : Text) (h : ℤ) (world : World) (op : OperationRun) : Prop :=
  (∃ call ∈ world.requests op, isWinnerCreation h call) →
    ∀ test ∈ world.tests, test.id = testId →
      (op.operation = .deployWinner testId → test.winnerCampaignId = none) ∧
      ∀ campaign ∈ world.server.winnerCampaigns h, test.winnerCampaignId = some campaign.id

/-- What an operation of the program creates, by the record it works on. -/
theorem execute_safe {test : AbTest} {n : ℕ} (hworld : SingleWinner testId h world)
    (hmem : test ∈ world.tests) (hid : test.id = testId)
    (hserver : world.server.Creates h n) :
    (op.operation.execute world.tests op.now).Safe Server.serve
      (Server.Creates h (n + if op.operation = .deployWinner testId then 1 else test.mayCreate h))
      (fun ended _ => ∀ after, ended = .ok after → List.Forall₂ Kept world.tests after)
      world.server := by
  have hother : ∀ other ∈ world.tests, other ≠ test → other.holdoutListId ≠ some h := by
    intro other hother hne
    refine hworld.others other hother fun hsame => hne ?_
    exact List.inj_on_of_nodup_map hworld.distinct hother hmem (hsame.trans hid.symm)
  have hmay : ∀ other ∈ world.tests, other.mayCreate h ≤ test.mayCreate h := by
    intro other hmem'
    by_cases hsame : other = test
    · rw [hsame]
    · rw [AbTest.mayCreate, if_neg fun hcreate => hother other hmem' hsame hcreate.1]
      exact Nat.zero_le _
  cases hop : op.operation with
  | run runId expected =>
      rw [if_neg (by simp)]
      refine onTest_safe hworld.distinct hserver fun other hmem' _ => ?_
      refine (runAbTest_safe hserver).mono (fun after hafter => ?_) fun ended _ _ hkept _ => hkept
      exact le_trans hafter (Nat.add_le_add_left (hmay other hmem') n)
  | tick dryRun =>
      rw [if_neg (by simp), Operation.execute, safe_bind]
      refine (tickAbTests_safe hworld.distinct.of_map hmem hother hserver).imp ?_
      rintro ended after hafter hkept
      refine ⟨hafter, ?_⟩
      rintro _ ⟨rfl⟩
      exact hkept
  | deployWinner deployId =>
      refine onTest_safe hworld.distinct hserver fun other hmem' hid' => ?_
      refine (deployWinner_safe hserver).mono (fun after hafter => ?_) ?_
      · refine le_trans hafter (Nat.add_le_add_left ?_ n)
        by_cases hsame : other = test
        · obtain rfl : deployId = testId := by rw [← hid', hsame, hid]
          rw [if_pos (rfl : Operation.deployWinner deployId = .deployWinner deployId)]
          split <;> omega
        · rw [if_neg (hother other hmem' hsame)]
          exact Nat.zero_le _
      · rintro ended after - ⟨hsame, hdone, -⟩ hok
        exact ⟨hsame, fun _ _ => hdone hok⟩

theorem singleWinner_step (hworld : SingleWinner testId h world)
    (hcareful : Careful testId h world op) : SingleWinner testId h (world.step op) := by
  obtain ⟨test, hmem, hid, hlist, hrecorded⟩ := hworld.test
  have hexecute : (op.operation.execute world.tests op.now).Safe Server.serve _ _ world.server :=
    execute_safe hworld hmem hid (le_refl _)
  have hsafe := hexecute.run op.script
  have hwinners : ((_ : Server).winnerCampaigns h).length + world.server.creations h ≤ _ :=
    winnerCampaigns_run (op.operation.execute world.tests op.now) op.script
  obtain ⟨hbound, hkept⟩ := hsafe
  obtain ⟨new, hnew⟩ : world.server.requests <+: (world.step op).server.requests :=
    requests_run _ _
  have hrequests : world.requests op = new := by
    rw [World.requests, ← hnew, List.drop_left]
  have hcount : (world.step op).server.creations h =
      world.server.creations h + new.countP (isWinnerCreation h) := by
    rw [Server.creations, ← hnew, List.countP_append]
    rfl
  have hsingle : ((world.step op).server.winnerCampaigns h).length ≤ 1 := by
    have hbefore := hworld.single
    change _ + _ ≤ _ + (world.step op).server.creations h at hwinners
    change (world.step op).server.creations h ≤ _ at hbound
    by_cases hnone : new.countP (isWinnerCreation h) = 0
    · change ((world.step op).server.winnerCampaigns h).length + _ ≤ _ at hwinners
      omega
    · -- A creation was sent, so there was no winner campaign before.
      have hsent : ∃ call ∈ world.requests op, isWinnerCreation h call := by
        rw [hrequests]
        exact List.countP_pos_iff.mp (Nat.pos_of_ne_zero hnone)
      obtain ⟨hmanual, hknown⟩ := hcareful hsent test hmem hid
      have hunnamed : test.winnerCampaignId = none := by
        by_cases hdeploy : op.operation = .deployWinner testId
        · exact hmanual hdeploy
        · rw [if_neg hdeploy] at hbound
          have hmay : test.mayCreate h ≠ 0 := by omega
          by_contra hwinner
          rw [AbTest.mayCreate, if_neg fun hcreate => hcreate.2 (hrecorded hwinner)] at hmay
          exact hmay rfl
      have hempty : world.server.winnerCampaigns h = [] := by
        refine List.eq_nil_iff_forall_not_mem.mpr fun campaign hcampaign => ?_
        have hnamed := hknown campaign hcampaign
        rw [hunnamed] at hnamed
        cases hnamed
      have hone : (if op.operation = .deployWinner testId then 1 else test.mayCreate h) ≤ 1 := by
        split
        · exact le_rfl
        · rw [AbTest.mayCreate]
          split <;> omega
      rw [hempty, List.length_nil] at hwinners
      change ((world.step op).server.winnerCampaigns h).length + _ ≤ _ at hwinners
      omega
  have htests : List.Forall₂ Kept world.tests (world.step op).tests := by
    have hsame : List.Forall₂ Kept world.tests world.tests :=
      List.forall₂_same.mpr fun other _ => ⟨.refl _, id⟩
    rw [World.step]
    simp only
    split
    · rename_i after hended
      split
      · exact hkept _ hended after rfl
      · exact hsame
    · exact hsame
  refine ⟨?_, ?_, ?_, hsingle⟩
  · rw [map_eq_of_forall₂ htests fun hkept => hkept.1.id]
    exact hworld.distinct
  · obtain ⟨test', hmem', hkept'⟩ := exists_right_of_forall₂ htests hmem
    exact ⟨test', hmem', hkept'.1.id.trans hid, hkept'.1.holdoutListId.trans hlist,
      hkept'.2 hrecorded⟩
  · intro other hother hne
    obtain ⟨before, hbefore, hkept'⟩ := exists_left_of_forall₂ htests hother
    rw [hkept'.1.holdoutListId]
    exact hworld.others before hbefore (hkept'.1.id ▸ hne)

/-- A step of a run in which every operation is careful. -/
def CarefulStep (testId : Text) (h : ℤ) (world : World) (op : OperationRun) (world' : World) : Prop :=
  world' = world.step op ∧ Careful testId h world op

/-- As long as every operation is careful, a holdout list gets at most one winner
campaign, and so at most one that is ever moved to running. -/
theorem winner_deployed_once {ops : List OperationRun} (hstart : Undeployed testId h world)
    (hrun : Run (CarefulStep testId h) world ops world') :
    (world'.server.winnerCampaigns h).length ≤ 1 ∧
      ((world'.server.winnerCampaigns h).filter (·.started)).length ≤ 1 := by
  have hsingle : SingleWinner testId h world' := by
    refine hrun.invariant ?_ hstart.singleWinner
    rintro before op _ hbefore ⟨rfl, hcareful⟩
    exact singleWinner_step hbefore hcareful
  exact ⟨hsingle.single, (List.length_filter_le _ _).trans hsingle.single⟩

end Runs

/-! ## A winner that is started twice -/

/-- Statistics that always find the first variant to be the winner. -/
@[reducible]
def firstWins : Statistics where
  verifyHypothesis _ := .ok ()
  analyze test _ _ := .ok { isSignificant := true, winner := test.variants.head? }

/-- A test that waits for its analysis, and a server without campaigns for its
holdout list. -/
def analyzingWorld : World where
  tests := [{ sampleTest with status := .analyzing, autoDeployWinner := true }]
  server := { campaigns := [], nextId := 500, requests := [] }

def sampleFigures : JsValue :=
  .object [("sent", .number 2000), ("views", .number 900), ("clicks", .number 300)]

/-- A tick at some time, with the fate of starting the winner campaign. -/
def tickWith (start : Behaviour) (now : ℤ) : OperationRun where
  operation := .tick false
  now := now
  script := [.serves sampleFigures, .serves sampleFigures, .serves .null, start]
  committed := true

instance [Statistics] (testId : Text) (h : ℤ) (world : World) (op : OperationRun) :
    Decidable (Careful testId h world op) :=
  inferInstanceAs (Decidable ((∃ call ∈ world.requests op, _) → ∀ test ∈ world.tests, _))

/-- A tick that creates and starts the winner campaign is careful. -/
theorem winner_deployed_once_sample :
    letI := firstWins
    ((analyzingWorld.step (tickWith (.serves .null) 1)).server.winnerCampaigns 21).length ≤ 1 := by
  let := firstWins
  have hstart : Undeployed "test_1" 21 analyzingWorld :=
    ⟨by decide, by decide, by decide, by decide⟩
  have hcareful : Careful "test_1" 21 analyzingWorld (tickWith (.serves .null) 1) := by
    decide +kernel
  exact (winner_deployed_once hstart (Run.single ⟨rfl, hcareful⟩)).1

/-- The start of the winner campaign takes effect but times out. The tick records
the error and goes on, the record waits for its analysis again, and the next tick
creates and starts a second winner campaign. -/
theorem winner_deployed_twice :
    letI := firstWins
    let late : Behaviour := .fails (.ofMessage "The operation timed out") true
    let after := (analyzingWorld.step (tickWith late 1)).step (tickWith late 2)
    (after.server.winnerCampaigns 21).length = 2 ∧
      ((after.server.winnerCampaigns 21).filter (·.started)).length = 2 := by
  decide +kernel

end ListmonkOps.Experiment
