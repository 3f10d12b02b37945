/-
What a hygiene run touches and what it counts.

Every request that a run makes is on its record, with what became of it. A
destructive run asks for mutations of subscribers only that were echoed and are
eligible when it lists them, and, on a table that has not changed since the dry
run, of all of them. Its count is of the subscribers that some requested
mutation was carried out for; its errors are as many as the subscribers that
some was not carried out for. Both are counted by what threw: an error envelope
is read as success, and nothing is said here of runs that meet one.
-/

import ListmonkOps.Math.Grouping
import ListmonkOps.Math.Keyed
import ListmonkOps.Subscribers.Hygiene

namespace ListmonkOps.Subscribers

open ListmonkOps.Math ListmonkOps.Runtime

/-! ## One subscriber -/

abbrev HygieneLog := List (HygieneCall × HygieneAnswer)

def Threw (answer : HygieneAnswer) : Prop := ∃ error, answer = .thrown error

/-- What the mutations of one subscriber leave on record: some of the requested ones in their
order, all of them unless the last one threw. -/
structure Round (calls : List HygieneCall) (log : HygieneLog) (mutated : Bool)
    (attempt : Attempt) : Prop where
  asked : log.map Prod.fst <+: calls
  all : attempt.failed = false → log.map Prod.fst = calls
  some : calls ≠ [] → log ≠ []
  failed : attempt.failed = true ↔ ∃ entry ∈ log, Threw entry.2
  mutated : attempt.mutated = true ↔ mutated = true ∨ ∃ entry ∈ log, ¬ Threw entry.2

theorem round_of_mutate {calls : List HygieneCall} {mutated : Bool} {log log' : HygieneLog}
    {answers : List HygieneAnswer} {attempt : Attempt}
    (h : (mutate calls mutated).run Program.recorded log answers = (some attempt, log')) :
    ∃ tail, log' = log ++ tail ∧ Round calls tail mutated attempt := by
  induction calls generalizing mutated log answers with
  | nil =>
      cases h
      refine ⟨[], by simp, ?_⟩
      constructor <;> simp
  | cons call calls ih =>
      cases answers with
      | nil => cases h
      | cons answer answers =>
          by_cases hthrew : Threw answer
          · obtain ⟨error, rfl⟩ := hthrew
            cases h
            refine ⟨[(call, .thrown error)], rfl, ?_⟩
            constructor <;> simp [Threw]
          · have hrest : (mutate calls true).run Program.recorded (log ++ [(call, answer)]) answers =
                (some attempt, log') := by
              cases answer with
              | thrown error => exact absurd ⟨error, rfl⟩ hthrew
              | subscribers results => exact h
              | accepted => exact h
              | refused error => exact h
            obtain ⟨tail, rfl, hround⟩ := ih hrest
            refine ⟨(call, answer) :: tail, by simp, ?_⟩
            constructor
            · simpa using hround.asked
            · intro hfailed
              simp [hround.all hfailed]
            · simp
            · rw [hround.failed]
              simp [hthrew]
            · rw [hround.mutated]
              simp [hthrew]

theorem within_mutate (calls : List HygieneCall) (mutated : Bool) :
    (mutate calls mutated).Within (· ∈ calls) fun _ => True := by
  induction calls generalizing mutated with
  | nil => trivial
  | cons call calls ih =>
      refine ⟨by simp, fun answer => ?_⟩
      have hrest := (ih true).imp (fun _ => List.mem_cons_of_mem call) fun _ => id
      cases answer with
      | thrown error => trivial
      | subscribers results => exact hrest
      | accepted => exact hrest
      | refused error => exact hrest

theorem readSubscribers_eq_ok {answer : HygieneAnswer} {subscribers : List Subscriber}
    (h : readSubscribers answer = .ok subscribers) : answer = .subscribers subscribers := by
  cases answer with
  | subscribers results => rw [Except.ok.inj h]
  | accepted => cases h
  | refused error => cases h
  | thrown error => cases h

/-- The loop over the selected subscribers. -/
def mutateAll (options : SubscriberHygieneOptions) (ids : List ℤ) :
    Program HygieneCall HygieneAnswer (List Attempt) :=
  ids.mapM fun id => mutate (requestedCalls options id) false

theorem within_mutateAll (options : SubscriberHygieneOptions) (ids : List ℤ) :
    (mutateAll options ids).Within (fun call => ∃ id ∈ ids, call ∈ requestedCalls options id)
      fun _ => True := by
  refine (Program.within_mapM (R := fun _ _ => True) fun id hid => ?_).imp (fun _ h => h)
    fun _ _ => trivial
  exact (within_mutate _ _).imp (fun call hcall => ⟨id, hid, hcall⟩) fun _ h => h

/-! ## Tables and cutoffs -/

/-- The subscribers of a server: their identifiers are distinct, and safe integers. -/
structure IsTable (subscribers : List Subscriber) : Prop where
  distinct : (subscribers.filterMap (·.id)).Nodup
  safe : ∀ subscriber ∈ subscribers, ∀ id ∈ subscriber.id, id ≤ maxSafeInteger

theorem IsTable.nodup_idsOf {subscribers selected : List Subscriber} (h : IsTable subscribers)
    (hselected : selected.Sublist subscribers) : (idsOf selected).Nodup := by
  have hids : idsOf selected = (selected.filterMap (·.id)).filter (0 < ·) := by
    rw [idsOf, List.filter_filterMap]
    rfl
  rw [hids]
  exact ((hselected.filterMap _).nodup h.distinct).filter _

theorem mem_idsOf {selected : List Subscriber} {id : ℤ} :
    id ∈ idsOf selected ↔ ∃ subscriber ∈ selected, subscriber.id = some id ∧ 0 < id := by
  simp [idsOf, toPositiveInt, Option.filter_eq_some_iff]

theorem IsTable.eq_of_id {subscribers : List Subscriber} (h : IsTable subscribers)
    {a b : Subscriber} {id : ℤ} (ha : a ∈ subscribers) (hb : b ∈ subscribers)
    (hida : a.id = some id) (hidb : b.id = some id) : a = b := by
  have hdistinct := h.distinct
  clear h
  induction subscribers with
  | nil => cases ha
  | cons first rest ih =>
      have hfresh {other : Subscriber} (hother : other ∈ rest) (hid : other.id = some id) :
          first.id ≠ some id := by
        intro hfirst
        rw [List.filterMap_cons_some hfirst] at hdistinct
        exact (List.nodup_cons.mp hdistinct).1 (List.mem_filterMap.mpr ⟨other, hother, hid⟩)
      have hrest : (rest.filterMap (·.id)).Nodup :=
        ((List.sublist_cons_self first rest).filterMap _).nodup hdistinct
      rcases List.mem_cons.mp ha with rfl | harest <;> rcases List.mem_cons.mp hb with rfl | hbrest
      · rfl
      · exact absurd hida (hfresh hbrest hidb)
      · exact absurd hidb (hfresh harest hida)
      · exact ih harest hbrest hrest

theorem truncate_mono {x y : ℚ} (h : x ≤ y) : truncate x ≤ truncate y := by
  unfold truncate
  split_ifs with hx hy hy
  · exact Int.floor_mono h
  · exact absurd (hx.trans h) hy
  · exact (Int.ceil_le.mpr (by simpa using (not_le.mp hx).le)).trans (Int.floor_nonneg.mpr hy)
  · exact Int.ceil_mono h

theorem cutoffDate_mono {options : SubscriberHygieneOptions} {now now' cutoff : ℤ}
    (hle : now ≤ now') (hlimit : now' ≤ 8640000000000000)
    (h : cutoffDate options now = some cutoff) :
    ∃ cutoff', cutoffDate options now' = some cutoff' ∧ cutoff ≤ cutoff' := by
  unfold cutoffDate timeClip at h ⊢
  have hdays : (1 : ℚ) ≤ max 1 (options.inactivityDays.getD 90) := le_max_left _ _
  have hnow : (now : ℚ) ≤ now' := by exact_mod_cast hle
  have hnow' : (now' : ℚ) ≤ 8640000000000000 := by exact_mod_cast hlimit
  split at h
  · next hrange =>
      obtain rfl := Option.some.inj h
      rw [abs_le] at hrange
      have hrange' : |(now' : ℚ) - max 1 (options.inactivityDays.getD 90) * 86400000| ≤
          8640000000000000 := by
        rw [abs_le]
        constructor <;> linarith
      exact ⟨_, if_pos hrange', truncate_mono (by linarith)⟩
  · cases h

/-! ## The stages of a run -/

section Stages

variable [CaseMapping] [DateParsing] {options : SubscriberHygieneOptions} {now : ℤ}

theorem run_runSubscriberHygiene (answer : HygieneAnswer) (answers : List HygieneAnswer) :
    Program.run Program.recorded (runSubscriberHygiene options now).run [] (answer :: answers) =
      match readSubscribers answer with
      | .error error => (some (.error error), [(.list, answer)])
      | .ok subscribers =>
          match checkEcho options with
          | .error error => (some (.error error), [(.list, answer)])
          | .ok _ =>
              if isDryRun options then
                (some (resultOf options now subscribers []), [(.list, answer)])
              else
                match checkMutations options with
                | .error error => (some (.error error), [(.list, answer)])
                | .ok _ =>
                    Prod.map (Option.map (resultOf options now subscribers)) id
                      ((mutateAll options (idsOf (selectedOf options now subscribers))).run
                        Program.recorded [(.list, answer)] answers) := by
  rw [runSubscriberHygiene, Fallible.run_ask_bind]
  simp only [Program.recorded, List.nil_append]
  cases readSubscribers answer with
  | error error => rfl
  | ok subscribers =>
      dsimp only
      rw [Fallible.run_liftExcept_bind]
      cases checkEcho options with
      | error error => rfl
      | ok _ =>
          dsimp only
          split
          · cases resultOf options now subscribers [] <;> rfl
          · rw [Fallible.run_liftExcept_bind]
            cases checkMutations options with
            | error error => rfl
            | ok _ =>
                dsimp only
                rw [Fallible.run_lift_bind, ← Program.run_bind_pure]
                rfl

/-- A run that asks for a mutation is destructive and has listed the subscribers. -/
theorem mem_log_of_run {answers : List HygieneAnswer} {entry : HygieneCall × HygieneAnswer}
    (h : entry ∈ (Program.run Program.recorded (runSubscriberHygiene options now).run []
      answers).2) :
    entry.1 = .list ∨
      isDryRun options = false ∧ checkEcho options = .ok () ∧
        ∃ subscribers id, answers.head? = some (.subscribers subscribers) ∧
          id ∈ idsOf (selectedOf options now subscribers) ∧
          entry.1 ∈ requestedCalls options id := by
  cases answers with
  | nil => cases h
  | cons answer answers =>
      rw [run_runSubscriberHygiene] at h
      cases hread : readSubscribers answer with
      | error error =>
          rw [hread] at h
          exact .inl (by rw [List.mem_singleton.mp h])
      | ok subscribers =>
          rw [hread] at h
          cases hecho : checkEcho options with
          | error error =>
              rw [hecho] at h
              exact .inl (by rw [List.mem_singleton.mp h])
          | ok _ =>
              rw [hecho] at h
              dsimp only at h
              split at h
              · exact .inl (by rw [List.mem_singleton.mp h])
              · next hdry =>
                  split at h
                  · exact .inl (by rw [List.mem_singleton.mp h])
                  · obtain ⟨tail, htail, hasked⟩ :=
                      (within_mutateAll options (idsOf (selectedOf options now subscribers))
                        ).run_recorded [(.list, answer)] answers
                    rw [Prod.map_snd, id, htail] at h
                    rcases List.mem_append.mp h with hfirst | hlater
                    · exact .inl (by rw [List.mem_singleton.mp hfirst])
                    · obtain ⟨id, hid, hcall⟩ := hasked entry hlater
                      refine .inr ⟨by simpa using hdry, rfl, subscribers, id, ?_, hid, hcall⟩
                      rw [readSubscribers_eq_ok hread]
                      rfl

/-! ## The selection -/

theorem of_mem_selectedOf {subscribers : List Subscriber} {id : ℤ}
    (hdry : isDryRun options = false) (hecho : checkEcho options = .ok ())
    (h : id ∈ idsOf (selectedOf options now subscribers)) :
    id ∈ options.subscriberIds.getD [] ∧
      ∃ subscriber ∈ candidatesOf options now subscribers, subscriber.id = some id := by
  obtain ⟨subscriber, hmem, hid, hpos⟩ := mem_idsOf.mp h
  have heligible := List.mem_of_mem_take hmem
  unfold eligibleForEcho at heligible
  cases hids : options.subscriberIds with
  | none => simp [checkEcho, hids, hdry, bind, Except.bind] at hecho
  | some echoedIds =>
      rw [hids] at heligible
      obtain ⟨hcandidate, hechoed⟩ := List.mem_filter.mp heligible
      refine ⟨?_, subscriber, hcandidate, hid⟩
      simpa [toPositiveInt, hid, hpos, Option.filter] using hechoed

theorem selectedOf_sublist (subscribers : List Subscriber) :
    (selectedOf options now subscribers).Sublist subscribers := by
  refine (List.take_sublist _ _).trans ?_
  unfold eligibleForEcho
  split
  · exact List.filter_sublist
  · exact List.filter_sublist.trans List.filter_sublist

theorem isCandidate_mono {cutoff cutoff' : ℤ} (hle : cutoff ≤ cutoff') {sourceListIds : List ℤ}
    {subscriber : Subscriber} (h : isCandidate (some cutoff) sourceListIds subscriber = true) :
    isCandidate (some cutoff') sourceListIds subscriber = true := by
  unfold isCandidate at h ⊢
  simp only [Bool.and_eq_true] at h ⊢
  refine ⟨⟨h.1.1, ?_⟩, h.2⟩
  cases htime : updatedAtOf subscriber with
  | none => simp [htime] at h
  | some time =>
      have hbefore := h.1.2
      simp only [htime, Option.any_some, Bool.not_eq_true', decide_eq_false_iff_not, not_lt]
        at hbefore ⊢
      exact hbefore.trans hle

end Stages

/-! ## Counting -/

/-- The server has answered with data: it has carried the request out. -/
def HygieneAnswer.isAccepted : HygieneAnswer → Bool
  | .subscribers _ | .accepted => true
  | .refused _ | .thrown _ => false

/-- A request was answered with an error envelope. -/
def HygieneAnswer.isRefused : HygieneAnswer → Bool
  | .refused _ => true
  | _ => false

/-- Some requested mutation of a subscriber was carried out. -/
def acceptsSome (options : SubscriberHygieneOptions) (log : HygieneLog) (id : ℤ) : Bool :=
  log.any fun entry => entry.1 ∈ requestedCalls options id && entry.2.isAccepted

/-- Every requested mutation of a subscriber was carried out. -/
def acceptsAll (options : SubscriberHygieneOptions) (log : HygieneLog) (id : ℤ) : Bool :=
  (requestedCalls options id).all fun call =>
    log.any fun entry => entry.1 = call && entry.2.isAccepted

section Counting

variable {options : SubscriberHygieneOptions} {ids : List ℤ} {log : HygieneLog}
variable {rounds : List (HygieneLog × Attempt)}

def Rounds (options : SubscriberHygieneOptions) (ids : List ℤ)
    (rounds : List (HygieneLog × Attempt)) : Prop :=
  List.Forall₂ (fun id round => Round (requestedCalls options id) round.1 false round.2) ids rounds

theorem rounds_of_run {answers : List HygieneAnswer} {attempts : List Attempt}
    {log' : HygieneLog}
    (h : (mutateAll options ids).run Program.recorded log answers = (some attempts, log')) :
    ∃ rounds, attempts = rounds.map Prod.snd ∧ log' = log ++ (rounds.map Prod.fst).flatten ∧
      Rounds options ids rounds :=
  Program.run_recorded_mapM
    (fun id tail attempt => Round (requestedCalls options id) tail false attempt)
    round_of_mutate h

theorem Round.mem_calls {calls : List HygieneCall} {mutated : Bool} {attempt : Attempt}
    {entry : HygieneCall × HygieneAnswer} (h : Round calls log mutated attempt)
    (hentry : entry ∈ log) : entry.1 ∈ calls :=
  h.asked.subset (List.mem_map_of_mem hentry)

/-- The subscriber that a request is about. -/
def HygieneCall.subject : HygieneCall → Option ℤ
  | .list => none
  | .manageListById id _ | .manageBlocklistById id => some id

theorem subject_of_mem_requestedCalls {id : ℤ} {call : HygieneCall}
    (h : call ∈ requestedCalls options id) : call.subject = some id := by
  rcases List.mem_append.mp h with hlisted | hblocked
  · obtain ⟨target, -, rfl⟩ := Option.map_eq_some_iff.mp (Option.mem_toList.mp hlisted)
    rfl
  · split at hblocked
    · rw [List.mem_singleton.mp hblocked]
      rfl
    · cases hblocked

theorem eq_of_mem_requestedCalls {id id' : ℤ} {call : HygieneCall}
    (h : call ∈ requestedCalls options id) (h' : call ∈ requestedCalls options id') : id = id' :=
  Option.some.inj
    ((subject_of_mem_requestedCalls h).symm.trans (subject_of_mem_requestedCalls h'))

theorem list_notMem_requestedCalls {id : ℤ} : HygieneCall.list ∉ requestedCalls options id :=
  fun h => nomatch subject_of_mem_requestedCalls h

theorem nodup_requestedCalls {id : ℤ} : (requestedCalls options id).Nodup := by
  unfold requestedCalls
  cases targetOf options <;> split <;> simp

theorem Rounds.exists_of_mem_flatten (h : Rounds options ids rounds)
    {entry : HygieneCall × HygieneAnswer} (hentry : entry ∈ (rounds.map Prod.fst).flatten) :
    ∃ id ∈ ids, entry.1 ∈ requestedCalls options id := by
  obtain ⟨tail, htail, hmem⟩ := List.mem_flatten.mp hentry
  obtain ⟨round, hround, rfl⟩ := List.mem_map.mp htail
  obtain ⟨id, hid, hrel⟩ := exists_left_of_forall₂ h hround
  exact ⟨id, hid, hrel.mem_calls hmem⟩

/-- What a loop has on record of the mutations of a subscriber is of the round of the
subscriber. -/
theorem Rounds.own_entries (h : Rounds options ids rounds) (distinct : ids.Nodup) :
    List.Forall₂ (fun id round => Round (requestedCalls options id) round.1 false round.2 ∧
      ∀ entry : HygieneCall × HygieneAnswer, entry.1 ∈ requestedCalls options id →
        (entry ∈ (rounds.map Prod.fst).flatten ↔ entry ∈ round.1)) ids rounds := by
  induction h with
  | nil => exact .nil
  | @cons id round ids rounds hround hrounds ih =>
      obtain ⟨hfresh, hrest⟩ := List.nodup_cons.mp distinct
      refine .cons ⟨hround, fun entry hcall => ?_⟩ ((List.forall₂_iff_get.mpr ⟨hrounds.length_eq,
        fun i hi hi' => ?_⟩))
      · rw [List.map_cons, List.flatten_cons, List.mem_append, or_iff_left]
        intro hlater
        obtain ⟨id', hid', hcall'⟩ := Rounds.exists_of_mem_flatten hrounds hlater
        exact hfresh (eq_of_mem_requestedCalls hcall hcall' ▸ hid')
      · obtain ⟨hown, hentries⟩ := (List.forall₂_iff_get.mp (ih hrest)).2 i hi hi'
        refine ⟨hown, fun entry hcall => ?_⟩
        rw [List.map_cons, List.flatten_cons, List.mem_append, hentries entry hcall, or_iff_right]
        intro hfirst
        refine hfresh ?_
        rw [eq_of_mem_requestedCalls (hround.mem_calls hfirst) hcall]
        exact List.getElem_mem _

theorem Round.counts {id : ℤ} {tail : HygieneLog} {attempt : Attempt}
    (h : Round (requestedCalls options id) tail false attempt)
    (hentries : ∀ entry : HygieneCall × HygieneAnswer, entry.1 ∈ requestedCalls options id →
      (entry ∈ log ↔ entry ∈ tail))
    (hrefused : ∀ entry ∈ log, entry.2.isRefused = false) :
    attempt.mutated = acceptsSome options log id ∧
      attempt.failed = !acceptsAll options log id := by
  have hkind {answer : HygieneAnswer} (hanswer : answer.isRefused = false) :
      answer.isAccepted = true ↔ ¬ Threw answer := by
    cases answer <;> simp [HygieneAnswer.isAccepted, Threw, HygieneAnswer.isRefused] at hanswer ⊢
  have hlog {entry : HygieneCall × HygieneAnswer} (hentry : entry ∈ tail) : entry ∈ log :=
    (hentries entry (h.mem_calls hentry)).mpr hentry
  constructor
  · rw [Bool.eq_iff_iff, h.mutated, acceptsSome, List.any_eq_true]
    simp only [Bool.false_eq_true, false_or, Bool.and_eq_true, decide_eq_true_eq]
    constructor
    · rintro ⟨entry, hentry, hthrew⟩
      exact ⟨entry, hlog hentry, h.mem_calls hentry, (hkind (hrefused _ (hlog hentry))).mpr hthrew⟩
    · rintro ⟨entry, hentry, hcall, haccepted⟩
      exact ⟨entry, (hentries entry hcall).mp hentry, (hkind (hrefused _ hentry)).mp haccepted⟩
  · cases hfailed : attempt.failed with
    | false =>
        have hthrew : ∀ entry ∈ tail, ¬ Threw entry.2 := by
          intro entry hentry hthrew
          have htrue := h.failed.mpr ⟨entry, hentry, hthrew⟩
          rw [hfailed] at htrue
          cases htrue
        have hall : acceptsAll options log id = true := by
          refine List.all_eq_true.mpr fun call hcall => List.any_eq_true.mpr ?_
          rw [← h.all hfailed] at hcall
          obtain ⟨entry, hentry, rfl⟩ := List.mem_map.mp hcall
          refine ⟨entry, hlog hentry, ?_⟩
          simpa using (hkind (hrefused _ (hlog hentry))).mpr (hthrew entry hentry)
        rw [hall]
        rfl
    | true =>
        obtain ⟨entry, hentry, hthrew⟩ := h.failed.mp hfailed
        have hnot : acceptsAll options log id = false := by
          rw [acceptsAll, List.all_eq_false]
          refine ⟨entry.1, h.mem_calls hentry, ?_⟩
          rw [List.any_eq_true]
          rintro ⟨other, hother, hsame⟩
          simp only [Bool.and_eq_true, decide_eq_true_eq] at hsame
          have hown : other ∈ tail := by
            refine (hentries other ?_).mp hother
            rw [hsame.1]
            exact h.mem_calls hentry
          have hdistinct : (tail.map Prod.fst).Nodup := h.asked.sublist.nodup nodup_requestedCalls
          obtain rfl := List.inj_on_of_nodup_map hdistinct hown hentry hsame.1
          exact (hkind (hrefused _ hother)).mp hsame.2 hthrew
        rw [hnot]
        rfl

theorem Rounds.counts (h : Rounds options ids rounds) (distinct : ids.Nodup)
    {answer : HygieneAnswer}
    (hlog : log = (.list, answer) :: (rounds.map Prod.fst).flatten)
    (hrefused : ∀ entry ∈ log, entry.2.isRefused = false) :
    (rounds.map Prod.snd).countP (·.mutated) = ids.countP (acceptsSome options log) ∧
      (rounds.map Prod.snd).countP (·.failed) =
        ids.countP fun id => !acceptsAll options log id := by
  have hcounts : List.Forall₂ (fun id round => round.2.mutated = acceptsSome options log id ∧
      round.2.failed = !acceptsAll options log id) ids rounds := by
    refine (h.own_entries distinct).imp fun id round hround => hround.1.counts ?_ hrefused
    intro entry hcall
    rw [hlog, List.mem_cons, ← hround.2 entry hcall, or_iff_right]
    rintro rfl
    exact list_notMem_requestedCalls hcall
  have hmutated := map_eq_of_forall₂ (g := fun round : HygieneLog × Attempt => round.2.mutated)
    hcounts fun hround => hround.1
  have hfailed := map_eq_of_forall₂ (g := fun round : HygieneLog × Attempt => round.2.failed)
    hcounts fun hround => hround.2
  have hcount {α : Type} (p : α → Bool) (xs : List α) : xs.countP p = (xs.map p).countP id := by
    rw [List.countP_map]
    rfl
  constructor
  · rw [List.countP_map, hcount, hcount (acceptsSome options log), ← hmutated]
    rfl
  · rw [List.countP_map, hcount, hcount fun id => !acceptsAll options log id, ← hfailed]
    rfl

end Counting

/-! ## The reviewed set -/

section Reviewed

variable [CaseMapping] [DateParsing]

/-- An execution of a run under the answers it is given: how it ended, and its record. -/
def executed (options : SubscriberHygieneOptions) (now : ℤ) (answers : List HygieneAnswer) :
    Option (Except HygieneError SubscriberHygieneResult) × HygieneLog :=
  Program.run Program.recorded (runSubscriberHygiene options now).run [] answers

def preview (options : SubscriberHygieneOptions) : SubscriberHygieneOptions :=
  { options with dryRun := some true }

/-- The destructive run of some options that echoes identifiers. -/
def applied (options : SubscriberHygieneOptions) (ids : List ℤ) : SubscriberHygieneOptions :=
  { options with dryRun := some false, subscriberIds := some ids }

variable {options : SubscriberHygieneOptions} {now now' : ℤ} {subscribers : List Subscriber}

theorem resultOf_eq_ok {attempts : List Attempt} {result : SubscriberHygieneResult}
    (h : resultOf options now subscribers attempts = .ok result) :
    (∃ cutoff, cutoffDate options now = some cutoff) ∧
      result.subscriberIds = idsOf (selectedOf options now subscribers) ∧
      result.processedSubscribers = attempts.countP (·.mutated) ∧
      result.errors = warningsOf options ++
        (attempts.filter (·.failed)).map fun _ => mutationFailed := by
  unfold resultOf at h
  cases hcutoff : cutoffDate options now with
  | none =>
      rw [hcutoff] at h
      cases h
  | some cutoff =>
      rw [hcutoff] at h
      obtain rfl := Except.ok.inj h
      exact ⟨⟨cutoff, rfl⟩, rfl, rfl, rfl⟩

omit [CaseMapping] [DateParsing] in
theorem checkMutations_eq_ok (h : ∀ id, requestedCalls options id ≠ []) :
    checkMutations options = .ok () := by
  have hasks := h 0
  unfold requestedCalls at hasks
  unfold checkMutations
  cases hmode : modeOf options <;> cases htarget : targetOf options <;>
    cases hblocklist : blocklistOf options <;>
    simp [hmode, htarget, hblocklist, pure, Except.pure] at hasks ⊢

theorem of_executed_preview {reported : SubscriberHygieneResult} {log : HygieneLog}
    (h : executed (preview options) now [.subscribers subscribers] = (some (.ok reported), log)) :
    (∃ cutoff, cutoffDate options now = some cutoff) ∧
      reported.subscriberIds = idsOf (selectedOf (preview options) now subscribers) := by
  have hdry : isDryRun (preview options) = true := rfl
  rw [executed, run_runSubscriberHygiene] at h
  simp only [readSubscribers] at h
  cases hecho : checkEcho (preview options) with
  | error error =>
      rw [hecho] at h
      cases h
  | ok _ =>
      rw [hecho, hdry] at h
      have hresult := resultOf_eq_ok (Option.some.inj (congrArg Prod.fst h))
      exact ⟨hresult.1, hresult.2.1⟩

theorem length_idsOf_selectedOf_le :
    (idsOf (selectedOf options now subscribers)).length ≤ ⌊maxSubscribersOf options⌋₊ :=
  (List.length_filterMap_le _ _).trans (List.length_take_le _ _)

/-- On a table that has not changed, the echoed subscribers are selected again. -/
theorem idsOf_selectedOf_applied (htable : IsTable subscribers) {cutoff : ℤ}
    (hcutoff : cutoffDate options now = some cutoff) (hle : now ≤ now')
    (hlimit : now' ≤ 8640000000000000) {ids : List ℤ}
    (hids : ids = idsOf (selectedOf (preview options) now subscribers)) :
    idsOf (selectedOf (applied options ids) now' subscribers) = ids := by
  obtain ⟨cutoff', hcutoff', hlater⟩ := cutoffDate_mono hle hlimit hcutoff
  have hsublist : (selectedOf (preview options) now subscribers).Sublist subscribers :=
    selectedOf_sublist subscribers
  have hnodup : (idsOf subscribers).Nodup := htable.nodup_idsOf (List.Sublist.refl _)
  -- The echoed subscribers are the candidates among those that carry the echoed identifiers.
  have hcandidate : ∀ subscriber ∈ subscribers, ∀ id ∈ ids, toPositiveInt subscriber.id = some id →
      isCandidate (some cutoff') (options.sourceListIds.getD []) subscriber = true := by
    intro subscriber hmem id hid hsubscriber
    rw [hids] at hid
    obtain ⟨chosen, hchosen, hchosenId, -⟩ := mem_idsOf.mp hid
    obtain rfl := htable.eq_of_id hmem (hsublist.subset hchosen)
      (Option.filter_eq_some_iff.mp hsubscriber).1 hchosenId
    refine isCandidate_mono hlater ?_
    have heligible := List.mem_of_mem_take hchosen
    have hcandidates : subscriber ∈ candidatesOf (preview options) now subscribers := by
      unfold eligibleForEcho at heligible
      split at heligible
      · exact heligible
      · exact (List.mem_filter.mp heligible).1
    have hpassed := (List.mem_filter.mp hcandidates).2
    have hsame : cutoffDate (preview options) now = some cutoff := hcutoff
    rw [hsame] at hpassed
    exact hpassed
  have heligible : eligibleForEcho (applied options ids)
      (candidatesOf (applied options ids) now' subscribers) =
        subscribers.filter fun subscriber => (toPositiveInt subscriber.id).any (· ∈ ids) := by
    have hsame : cutoffDate (applied options ids) now' = some cutoff' := hcutoff'
    change (subscribers.filter (isCandidate (cutoffDate (applied options ids) now')
      (options.sourceListIds.getD []))).filter _ = _
    rw [hsame, List.filter_filter]
    refine List.filter_congr fun subscriber hmem => ?_
    cases hid : toPositiveInt subscriber.id with
    | none => rfl
    | some id =>
        rw [Option.any_some]
        by_cases hechoed : id ∈ ids
        · rw [hcandidate subscriber hmem id hechoed hid, Bool.and_true]
        · simp [hechoed]
  have hall : idsOf (subscribers.filter fun subscriber =>
      (toPositiveInt subscriber.id).any (· ∈ ids)) = ids := by
    have hfilter : idsOf (subscribers.filter fun subscriber =>
        (toPositiveInt subscriber.id).any (· ∈ ids)) = (idsOf subscribers).filter (· ∈ ids) := by
      rw [idsOf, idsOf, List.filterMap_filter, List.filter_filterMap]
      refine List.filterMap_congr fun subscriber _ => ?_
      cases toPositiveInt subscriber.id with
      | none => rfl
      | some id => by_cases hechoed : id ∈ ids <;> simp [hechoed, Option.filter]
    rw [hfilter]
    refine filter_mem_eq_of_sublist ?_ hnodup
    rw [hids]
    exact hsublist.filterMap _
  have hlength : (subscribers.filter fun subscriber =>
      (toPositiveInt subscriber.id).any (· ∈ ids)).length ≤ ⌊maxSubscribersOf options⌋₊ := by
    have hcount : (idsOf (subscribers.filter fun subscriber =>
        (toPositiveInt subscriber.id).any (· ∈ ids))).length = (subscribers.filter fun subscriber =>
          (toPositiveInt subscriber.id).any (· ∈ ids)).length := by
      rw [idsOf, List.length_filterMap_eq_countP, List.countP_eq_length]
      intro subscriber hmem
      have hany := (List.mem_filter.mp hmem).2
      cases hid : toPositiveInt subscriber.id with
      | none => simp [hid] at hany
      | some id => rfl
    rw [← hcount, hall, hids]
    exact length_idsOf_selectedOf_le
  rw [selectedOf, heligible]
  change idsOf (List.take ⌊maxSubscribersOf options⌋₊ _) = ids
  rw [List.take_of_length_le hlength, hall]

theorem checkEcho_applied (htable : IsTable subscribers) {ids : List ℤ}
    (hids : ids = idsOf (selectedOf (preview options) now subscribers)) :
    checkEcho (applied options ids) = .ok () := by
  have hsafe : (ids.eraseDups.any fun id => !(0 < id && id ≤ maxSafeInteger)) = false := by
    refine List.any_eq_false.mpr fun id hid => ?_
    rw [List.mem_eraseDups, hids] at hid
    obtain ⟨subscriber, hmem, hsubscriber, hpos⟩ := mem_idsOf.mp hid
    have hmax := htable.safe subscriber ((selectedOf_sublist subscribers).subset hmem) id hsubscriber
    simp [hpos, hmax]
  have hlength : ¬ maxSubscribersOf (applied options ids) < (ids.eraseDups.length : ℚ) := by
    rw [not_lt]
    have hdups : ids.eraseDups.length ≤ ids.length :=
      ((nodup_eraseDups ids).subperm fun _ hmem => List.mem_eraseDups.mp hmem).length_le
    have hle : ids.eraseDups.length ≤ ⌊maxSubscribersOf options⌋₊ := by
      refine hdups.trans ?_
      rw [hids]
      exact length_idsOf_selectedOf_le
    have hone : (0 : ℚ) ≤ maxSubscribersOf options :=
      le_trans (by norm_num) (le_max_left (1 : ℚ) _)
    exact (Nat.cast_le.mpr hle).trans (Nat.floor_le hone)
  simp only [checkEcho, applied, Option.getD_some, hsafe] at hlength ⊢
  simp [isDryRun, hlength, pure, Except.pure]

theorem rounds_of_executed (hdry : isDryRun options = false) {answers : List HygieneAnswer}
    {ended : Except HygieneError SubscriberHygieneResult} {log : HygieneLog}
    (hecho : checkEcho options = .ok ()) (hmutations : checkMutations options = .ok ())
    (h : executed options now (.subscribers subscribers :: answers) = (some ended, log)) :
    ∃ rounds, Rounds options (idsOf (selectedOf options now subscribers)) rounds ∧
      log = (.list, .subscribers subscribers) :: (rounds.map Prod.fst).flatten ∧
      ended = resultOf options now subscribers (rounds.map Prod.snd) := by
  rw [executed, run_runSubscriberHygiene] at h
  simp only [readSubscribers, hecho, hdry, hmutations] at h
  cases hloop : (mutateAll options (idsOf (selectedOf options now subscribers))).run
    Program.recorded [(.list, .subscribers subscribers)] answers with
  | mk attempts log' =>
      rw [hloop] at h
      obtain ⟨hended, rfl⟩ := Prod.mk.inj h
      obtain ⟨attempts, rfl, rfl⟩ := Option.map_eq_some_iff.mp hended
      obtain ⟨rounds, rfl, rfl, hrounds⟩ := rounds_of_run hloop
      exact ⟨rounds, hrounds, rfl, rfl⟩

theorem checks_of_executed (hdry : isDryRun options = false) {answers : List HygieneAnswer}
    {result : SubscriberHygieneResult} {log : HygieneLog}
    (h : executed options now (.subscribers subscribers :: answers) = (some (.ok result), log)) :
    checkEcho options = .ok () ∧ checkMutations options = .ok () := by
  rw [executed, run_runSubscriberHygiene] at h
  simp only [readSubscribers, hdry] at h
  cases hecho : checkEcho options with
  | error error =>
      rw [hecho] at h
      cases congrArg Prod.fst h
  | ok _ =>
      rw [hecho] at h
      cases hmutations : checkMutations options with
      | error error =>
          rw [hmutations] at h
          cases congrArg Prod.fst h
      | ok _ => exact ⟨rfl, rfl⟩

omit [CaseMapping] [DateParsing] in
theorem count_errors (options : SubscriberHygieneOptions) (attempts : List Attempt) :
    (warningsOf options ++ (attempts.filter (·.failed)).map fun _ => mutationFailed).count
      mutationFailed = attempts.countP (·.failed) := by
  have hwarnings : mutationFailed ∉ warningsOf options := by
    unfold warningsOf
    split
    · rw [List.mem_singleton]
      decide +kernel
    · exact List.not_mem_nil
  rw [List.count_append, List.count_eq_zero.mpr hwarnings, Nat.zero_add, List.map_const',
    List.count_replicate_self, List.countP_eq_length_filter]

/-- A destructive hygiene run touches the reviewed set. Whatever the server answers, what it
asks to mutate is echoed and was a candidate in the list it was given. On a table that has
not changed since a dry run of the same options reported, a run that echoes the report and
whose options ask for a mutation ends with a result, and has asked for a mutation of every
reported subscriber. And where no request was answered with an error envelope, its count is
of the subscribers that some requested mutation was carried out for, and it reports as many
errors as there are subscribers that some was not carried out for. -/
theorem hygiene_touches_reviewed_set :
    (∀ options now answers, ∀ entry ∈ (executed options now answers).2, entry.1 = .list ∨
      isDryRun options = false ∧ ∃ subscribers id,
        answers.head? = some (.subscribers subscribers) ∧
        (∃ subscriber ∈ candidatesOf options now subscribers, subscriber.id = some id) ∧
        id ∈ options.subscriberIds.getD [] ∧ entry.1 ∈ requestedCalls options id) ∧
    (∀ options now now' subscribers reported reportedLog answers ended log,
      IsTable subscribers → (∀ id, requestedCalls options id ≠ []) →
      executed (preview options) now [.subscribers subscribers] =
        (some (.ok reported), reportedLog) →
      now ≤ now' → now' ≤ 8640000000000000 →
      executed (applied options reported.subscriberIds) now' (.subscribers subscribers :: answers) =
        (some ended, log) →
      (∃ result, ended = .ok result ∧ result.subscriberIds = reported.subscriberIds) ∧
        ∀ id ∈ reported.subscriberIds, ∃ entry ∈ log, entry.1 ∈ requestedCalls options id) ∧
    ∀ options now subscribers answers result log,
      IsTable subscribers → isDryRun options = false →
      executed options now (.subscribers subscribers :: answers) = (some (.ok result), log) →
      (∀ entry ∈ log, entry.2.isRefused = false) →
      result.processedSubscribers = result.subscriberIds.countP (acceptsSome options log) ∧
        result.errors.count mutationFailed =
          result.subscriberIds.countP fun id => !acceptsAll options log id := by
  refine ⟨fun options now answers entry hentry => ?_, ?_, ?_⟩
  · refine (mem_log_of_run hentry).imp (fun hlist => hlist) ?_
    rintro ⟨hdry, hecho, subscribers, id, hanswers, hid, hcall⟩
    obtain ⟨hechoed, hcandidate⟩ := of_mem_selectedOf hdry hecho hid
    exact ⟨hdry, subscribers, id, hanswers, hcandidate, hechoed, hcall⟩
  · intro options now now' subscribers reported reportedLog answers ended log htable hasks
      hpreview hle hlimit happlied
    obtain ⟨⟨cutoff, hcutoff⟩, hids⟩ := of_executed_preview hpreview
    obtain ⟨cutoff', hcutoff', -⟩ := cutoffDate_mono hle hlimit hcutoff
    have hselected := idsOf_selectedOf_applied htable hcutoff hle hlimit hids
    obtain ⟨rounds, hrounds, rfl, rfl⟩ := rounds_of_executed rfl (checkEcho_applied htable hids)
      (checkMutations_eq_ok hasks) happlied
    refine ⟨?_, fun id hid => ?_⟩
    · have hsame : cutoffDate (applied options reported.subscriberIds) now' = some cutoff' :=
        hcutoff'
      unfold resultOf
      rw [hsame]
      exact ⟨_, rfl, hselected⟩
    · rw [← hselected] at hid
      obtain ⟨round, hround, hrel⟩ := exists_right_of_forall₂ hrounds hid
      obtain ⟨entry, hentry⟩ := List.exists_mem_of_ne_nil _ (hrel.some (hasks id))
      refine ⟨entry, List.mem_cons_of_mem _ (List.mem_flatten.mpr ?_), hrel.mem_calls hentry⟩
      exact ⟨round.1, List.mem_map_of_mem hround, hentry⟩
  · intro options now subscribers answers result log htable hdry hrun hrefused
    obtain ⟨hecho, hmutations⟩ := checks_of_executed hdry hrun
    obtain ⟨rounds, hrounds, hlog, hresult⟩ := rounds_of_executed hdry hecho hmutations hrun
    obtain ⟨-, hids, hprocessed, herrors⟩ := resultOf_eq_ok hresult.symm
    have hcounts := hrounds.counts (htable.nodup_idsOf (selectedOf_sublist subscribers)) hlog
      hrefused
    rw [hids, hprocessed, herrors, count_errors]
    exact hcounts

end Reviewed

/-! ## Sample runs -/

/-- A subscriber that has been inactive since 2020. -/
def sampleSubscriber : Subscriber where
  id := some 7
  email := some "jane@example.com"
  status := some "enabled"
  updated_at := some "2020-01-01T00:00:00.000Z"

def sampleTime : ℤ := 1767225600000

def sunsetBoth : SubscriberHygieneOptions :=
  { mode := some .sunset, targetListId := some 3, blocklist := some true }

/-- Winback without a target list reports a subscriber, and throws when the report is applied,
with no mutation asked for. Sunset with both mutations, of which the second throws, counts the
subscriber as processed, and reports an error. -/
theorem hygiene_refuses_and_counts_half :
    letI := asciiCaseMapping
    letI := isoDateParsing
    let half := executed (applied sunsetBoth [7]) sampleTime
      [.subscribers [sampleSubscriber], .accepted, .thrown "timeout"]
    ((executed (preview {}) sampleTime [.subscribers [sampleSubscriber]]).1.bind fun ended =>
        ended.toOption.map (·.subscriberIds)) = some [7] ∧
    executed (applied {} [7]) sampleTime [.subscribers [sampleSubscriber]] =
      (some (.error (.message "targetListId is required for winback mode when dryRun=false")),
        [(.list, .subscribers [sampleSubscriber])]) ∧
    half.2 = [(.list, .subscribers [sampleSubscriber]), (.manageListById 7 3, .accepted),
      (.manageBlocklistById 7, .thrown "timeout")] ∧
    (half.1.bind fun ended => ended.toOption.map fun result =>
        (result.processedSubscribers, result.errors)) = some (1, [mutationFailed]) := by
  let _ := asciiCaseMapping
  let _ := isoDateParsing
  refine ⟨by decide +kernel, ?_, by decide +kernel, by decide +kernel⟩
  have hdry : isDryRun (applied {} [7]) = false := rfl
  have hecho : checkEcho (applied {} [7]) = .ok () := by decide +kernel
  rw [executed, run_runSubscriberHygiene]
  simp only [readSubscribers, hecho, hdry]
  rfl

def sampleReport : SubscriberHygieneResult where
  mode := .sunset
  cutoffAt := { time := 1759449600000 }
  dryRun := true
  totalSubscribersScanned := 1
  candidateSubscribers := 1
  processedSubscribers := 0
  skippedDueToLimit := 0
  subscriberIds := [7]
  targetListId := some 3
  blocklist := true
  sample := [{ emailMasked := "j***@example.com", updated_at := some "2020-01-01T00:00:00.000Z" }]
  errors := []

/-- The report of a dry run, and the run that applies it an hour later. -/
theorem hygiene_touches_sampleSubscriber :
    letI := asciiCaseMapping
    letI := isoDateParsing
    let run := executed (applied sunsetBoth [7]) (sampleTime + 3600000)
      [.subscribers [sampleSubscriber], .accepted, .accepted]
    (∃ entry ∈ run.2, entry.1 ∈ requestedCalls sunsetBoth 7) ∧
      (run.1.bind fun ended => ended.toOption.map (·.processedSubscribers)) =
        some ([(7 : ℤ)].countP (acceptsSome (applied sunsetBoth [7]) run.2)) := by
  let _ := asciiCaseMapping
  let _ := isoDateParsing
  have htable : IsTable [sampleSubscriber] := ⟨by decide, by decide⟩
  have hpreview : executed (preview sunsetBoth) sampleTime [.subscribers [sampleSubscriber]] =
      (some (.ok sampleReport), [(.list, .subscribers [sampleSubscriber])]) := by
    decide +kernel
  obtain ⟨-, hattempts, hcounts⟩ := hygiene_touches_reviewed_set
  rcases hrun : executed (applied sunsetBoth [7]) (sampleTime + 3600000)
    [.subscribers [sampleSubscriber], .accepted, .accepted] with ⟨_ | ended, log⟩
  · have hended : (executed (applied sunsetBoth [7]) (sampleTime + 3600000)
        [.subscribers [sampleSubscriber], .accepted, .accepted]).1.isSome = true := by
      decide +kernel
    rw [hrun] at hended
    cases hended
  · obtain ⟨⟨result, rfl, hids⟩, hall⟩ := hattempts sunsetBoth sampleTime (sampleTime + 3600000)
      [sampleSubscriber] sampleReport _ _ _ _ htable (fun id => List.cons_ne_nil _ _) hpreview
      (by decide) (by decide) hrun
    have hrefused : ∀ entry ∈ log, entry.2.isRefused = false := by
      have hlog : ∀ entry ∈ (executed (applied sunsetBoth [7]) (sampleTime + 3600000)
          [.subscribers [sampleSubscriber], .accepted, .accepted]).2,
            entry.2.isRefused = false := by
        decide +kernel
      rwa [hrun] at hlog
    refine ⟨hall 7 (by decide), ?_⟩
    have hcount := (hcounts _ _ _ _ _ _ htable rfl hrun hrefused).1
    rw [hids] at hcount
    exact congrArg some hcount

end ListmonkOps.Subscribers
