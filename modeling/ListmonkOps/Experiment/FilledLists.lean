/-
The lists hold what the manifest says.

What a list holds is read off the calls that were made: a new list holds nobody,
a full query says who is in the list, and a bulk change that was confirmed adds
or removes those it names. After a segmentation that returned, the list of a
group holds exactly the subscribers that a lookup assigns to the group.
-/

import ListmonkOps.Experiment.Partition
import ListmonkOps.Runtime.JsonFileStore

namespace ListmonkOps.Experiment

open ListmonkOps.Math ListmonkOps.Runtime
open Fallible (safe_bind safe_pure)

/-- The calls that were made, with what they came to. -/
abbrev Log := List (Call × Answer)

/-! ## What a list holds -/

/-- The id that the creation of a list was answered with. -/
def createdList? : Answer → Option ℤ
  | .returned response =>
      match unwrapData response [] with
      | .ok data => (requireNumericId (data.property? "id") []).toOption
      | .error _ => none
  | .thrown _ => none

/-- The ids that a query of a list was answered with. -/
def queriedMembers (answer : Answer) : List ℤ :=
  match answer with
  | .returned response => ((unwrapData response [] >>= memberIds).toOption).getD []
  | .thrown _ => []

/-- A bulk change came back with its data. -/
def Answer.confirmed : Answer → Bool
  | .returned response => (envelopeError? response).isNone && (response.property? "data").isTruthy
  | .thrown _ => false

/-- What one call leaves of the members of a list. -/
def membersAfter (listId : ℤ) (members : List ℤ) : Call × Answer → List ℤ
  | (.listCreate _, answer) => if createdList? answer = some listId then [] else members
  | (.subscriberList queried _ none, answer) =>
      if queried = listId then queriedMembers answer else members
  | (.subscriberManageLists action ids targets, answer) =>
      if listId ∈ targets ∧ answer.confirmed then
        match action with
        | .add => members ++ ids
        | .remove => members.filter (· ∉ ids)
      else members
  | _ => members

/-- The members of a list after the calls. -/
def listContents (log : Log) (listId : ℤ) : List ℤ := log.foldl (membersAfter listId) []

/-- The lists that were created, in order. -/
def createdLists (log : Log) : List ℤ :=
  log.filterMap fun
    | (.listCreate _, answer) => createdList? answer
    | _ => none

/-- The lists the server creates are new: none was there before, and none is created
twice. -/
structure FreshLists (existing : List ℤ) (log : Log) : Prop where
  distinct : (createdLists log).Nodup
  notExisting : ∀ listId ∈ createdLists log, listId ∉ existing

section Contents

variable {log : Log} {listId : ℤ}

@[simp]
theorem listContents_concat (entry : Call × Answer) :
    listContents (log ++ [entry]) listId = membersAfter listId (listContents log listId) entry := by
  rw [listContents, listContents, List.foldl_append]
  rfl

theorem membersAfter_change (members : List ℤ) (action : MembershipAction) (ids targets : List ℤ)
    (answer : Answer) :
    membersAfter listId members (.subscriberManageLists action ids targets, answer) =
      if listId ∈ targets ∧ answer.confirmed then
        match action with
        | .add => members ++ ids
        | .remove => members.filter (· ∉ ids)
      else members := rfl

theorem membersAfter_create (members : List ℤ) (body : ListBody) (answer : Answer) :
    membersAfter listId members (.listCreate body, answer) =
      if createdList? answer = some listId then [] else members := rfl

theorem membersAfter_query (members : List ℤ) (queried : ℤ) (page : ℕ) (answer : Answer) :
    membersAfter listId members (.subscriberList queried page none, answer) =
      if queried = listId then queriedMembers answer else members := rfl

/-- A program that edits one list: any other list keeps its members, and none is
created. -/
def EditsOnly (listId : ℤ) (log log' : Log) : Prop :=
  createdLists log' = createdLists log ∧
    ∀ other, other ≠ listId → listContents log' other = listContents log other

theorem EditsOnly.refl : EditsOnly listId log log := ⟨rfl, fun _ _ => rfl⟩

theorem EditsOnly.trans {log' log'' : Log} (h : EditsOnly listId log log')
    (h' : EditsOnly listId log' log'') : EditsOnly listId log log'' :=
  ⟨h'.1.trans h.1, fun other hother => (h'.2 other hother).trans (h.2 other hother)⟩

end Contents

/-! ## What returns -/

/-- Whatever the answers are, where `x` returns a value that value and the calls on
record satisfy `Q`. -/
def Leaves {α : Type} (x : Remote α) (Q : α → Log → Prop) (log : Log) : Prop :=
  Fallible.Safe Program.recorded (fun _ => True) x Q (fun _ _ => True) log

namespace Leaves

variable {α β : Type} {x : Remote α} {log : Log} {Q Q' : α → Log → Prop}

theorem imp (h : Leaves x Q log) (post : ∀ a log', Q a log' → Q' a log') : Leaves x Q' log :=
  Fallible.Safe.imp h (fun a log' _ => post a log') fun _ _ _ _ => trivial

theorem bind {f : α → Remote β} {Q : β → Log → Prop}
    (h : Leaves x (fun a log' => Leaves (f a) Q log') log) : Leaves (x >>= f) Q log :=
  safe_bind.mpr h

theorem pure {a : α} (h : Q a log) : Leaves (pure a) Q log := ⟨trivial, h⟩

theorem throw {error : JsValue} : Leaves (throw error : Remote α) Q log := ⟨trivial, trivial⟩

theorem await {call : Call} {Q : JsValue → Log → Prop}
    (h : ∀ response, Q response (log ++ [(call, .returned response)])) :
    Leaves (await call) Q log := by
  refine ⟨trivial, fun answer => ?_⟩
  cases answer with
  | returned response => exact ⟨trivial, h response⟩
  | thrown error => exact ⟨trivial, trivial⟩

theorem ofExcept {outcome : Except JsValue α} (h : ∀ a, outcome = .ok a → Q a log) :
    Leaves (ofExcept outcome) Q log := by
  cases outcome with
  | ok a => exact ⟨trivial, h a rfl⟩
  | error error => exact ⟨trivial, trivial⟩

theorem of_run (h : Leaves x Q log) {script : List Answer} {a : α} {log' : Log}
    (hrun : Program.run Program.recorded x.run log script = (some (.ok a), log')) : Q a log' := by
  have hpost := (Program.Safe.run h script).2 (.ok a) (by rw [hrun])
  rw [hrun] at hpost
  exact hpost

end Leaves

/-! ## Bulk changes -/

section Bulk

variable {log : Log} {listId : ℤ} {ids : List ℤ}

theorem flatMap_chunks {α : Type} {size : ℕ} (hsize : 0 < size) (xs : List α) :
    (chunks size xs).flatMap Prod.snd = xs := by
  have htake : ∀ n, ((List.range n).map fun i =>
      (i * size, (xs.drop (i * size)).take size)).flatMap Prod.snd = xs.take (n * size) := by
    intro n
    induction n with
    | zero => simp
    | succ n ih =>
        rw [List.range_succ, List.map_append, List.flatMap_append, ih, Nat.succ_mul, List.take_add]
        simp
  rw [chunks, htake]
  refine List.take_of_length_le ?_
  have := Nat.div_add_mod (xs.length + size - 1) size
  have := Nat.mod_lt (xs.length + size - 1) hsize
  rw [Nat.mul_comm]
  omega

theorem listContents_change {action : MembershipAction} {response : JsValue}
    (hconfirmed : (Answer.returned response).confirmed) :
    EditsOnly listId log
      (log ++ [(.subscriberManageLists action ids [listId], .returned response)]) ∧
    listContents (log ++ [(.subscriberManageLists action ids [listId], .returned response)])
        listId =
      match action with
      | .add => listContents log listId ++ ids
      | .remove => (listContents log listId).filter (· ∉ ids) := by
  refine ⟨⟨by simp [createdLists], fun other hother => ?_⟩, ?_⟩
  · rw [listContents_concat, membersAfter_change, if_neg (by simp [hother])]
  · rw [listContents_concat, membersAfter_change, if_pos ⟨by simp, hconfirmed⟩]

theorem addChunk_leaves (chunk : ℕ × List ℤ) :
    Leaves (addChunk listId chunk) (fun _ log' => EditsOnly listId log log' ∧
      listContents log' listId = listContents log listId ++ chunk.2) log := by
  refine .bind (.await fun response => .ofExcept fun _ hok => ?_)
  have hconfirmed : (Answer.returned response).confirmed := by
    split at hok
    · cases hok
    · split at hok
      · cases hok
      · next hnone hdata => simp [Answer.confirmed, hnone, hdata, JsValue.isTruthy]
      · cases hok
  exact listContents_change hconfirmed

theorem addSubscribersToListBulk_leaves :
    Leaves (addSubscribersToListBulk ids listId) (fun _ log' => EditsOnly listId log log' ∧
      listContents log' listId = listContents log listId ++ ids) log := by
  refine .bind (Leaves.imp (Fallible.safe_mapM (fun ahead _ log' => EditsOnly listId log log' ∧
    listContents log' listId = listContents log listId ++ ahead.flatMap Prod.snd) ?_ trivial
    ⟨.refl, by simp⟩) fun _ log' h => .pure ?_)
  · rintro ahead chunk results log' - ⟨hedits, hcontents⟩
    refine Leaves.imp (addChunk_leaves chunk) fun _ log'' ⟨hedits', hcontents'⟩ =>
      ⟨hedits.trans hedits', ?_⟩
    rw [hcontents', hcontents, List.append_assoc, List.flatMap_append]
    simp
  · rwa [flatMap_chunks (by decide)] at h

theorem removeChunk_leaves (chunk : ℕ × List ℤ) :
    Leaves (removeChunk listId chunk) (fun _ log' => EditsOnly listId log log' ∧
      listContents log' listId = (listContents log listId).filter (· ∉ chunk.2)) log := by
  refine .bind (.await fun response => .ofExcept fun _ hok => ?_)
  have hconfirmed : (Answer.returned response).confirmed := by
    split at hok
    · cases hok
    · split at hok
      · cases hok
      · next hgood =>
          rw [Bool.or_eq_true, not_or, Option.not_isSome_iff_eq_none, Bool.not_eq_true'] at hgood
          simp [Answer.confirmed, hgood.1, hgood.2]
  exact listContents_change hconfirmed

theorem removeSubscribersFromListBulk_leaves :
    Leaves (removeSubscribersFromListBulk ids listId) (fun _ log' => EditsOnly listId log log' ∧
      listContents log' listId = (listContents log listId).filter (· ∉ ids)) log := by
  refine .bind (Leaves.imp (Fallible.safe_mapM (fun ahead _ log' => EditsOnly listId log log' ∧
    listContents log' listId =
      (listContents log listId).filter (· ∉ ahead.flatMap Prod.snd)) ?_ trivial
    ⟨.refl, by simp⟩) fun _ log' h => .pure ?_)
  · rintro ahead chunk results log' - ⟨hedits, hcontents⟩
    refine Leaves.imp (removeChunk_leaves chunk) fun _ log'' ⟨hedits', hcontents'⟩ =>
      ⟨hedits.trans hedits', ?_⟩
    rw [hcontents', hcontents, List.filter_filter, List.flatMap_append]
    refine List.filter_congr fun id _ => ?_
    rw [Bool.eq_iff_iff, Bool.and_eq_true, decide_eq_true_eq, decide_eq_true_eq,
      decide_eq_true_eq, List.mem_append, not_or, and_comm]
    simp
  · rwa [flatMap_chunks (by decide)] at h

end Bulk

/-! ## The lists of the groups -/

theorem unwrapData_context {response data : JsValue} {context : Text} (context' : Text)
    (h : unwrapData response context = .ok data) : unwrapData response context' = .ok data := by
  simp only [unwrapData] at h ⊢
  split at h
  · cases h
  · next hmembers =>
      rw [if_neg hmembers]
      cases henvelope : envelopeError? response with
      | some error =>
          rw [henvelope] at h
          cases h
      | none =>
          rw [henvelope] at h
          revert h
          generalize response.property? "data" = value
          cases value with
          | undefined => exact nofun
          | _ => exact id

section Lists

variable {log : Log} {listId : ℤ} {ids : List ℤ}

theorem reconcileListMembership_leaves :
    Leaves (reconcileListMembership ids listId) (fun _ log' => EditsOnly listId log log' ∧
      ∀ id, id ∈ listContents log' listId ↔ id ∈ ids) log := by
  refine .bind (.await fun response => .bind (.ofExcept fun current hcurrent => ?_))
  set queried := log ++ [(Call.subscriberList listId 1 none, Answer.returned response)] with hqueried
  have hedits : EditsOnly listId log queried := by
    refine ⟨by simp [hqueried, createdLists], fun other hother => ?_⟩
    rw [hqueried, listContents_concat, membersAfter_query, if_neg hother.symm]
  have hcontents : listContents queried listId = current := by
    rw [hqueried, listContents_concat, membersAfter_query, if_pos rfl]
    obtain ⟨data, hdata, hmembers⟩ := except_bind_eq_ok.mp hcurrent
    rw [queriedMembers, unwrapData_context [] hdata]
    change (memberIds data).toOption.getD [] = current
    rw [hmembers]
    rfl
  refine .bind (removeSubscribersFromListBulk_leaves.imp fun _ removed ⟨hedits', hremoved⟩ => ?_)
  refine addSubscribersToListBulk_leaves.imp fun _ added ⟨hedits'', hadded⟩ =>
    ⟨(hedits.trans hedits').trans hedits'', fun id => ?_⟩
  rw [hadded, hremoved, hcontents]
  by_cases hid : id ∈ current <;> simp [hid]

theorem createList_leaves {body : ListBody} {context : Text} :
    Leaves (createList body context) (fun listId log' =>
      createdLists log' = createdLists log ++ [listId] ∧ listContents log' listId = [] ∧
        ∀ other, other ≠ listId → listContents log' other = listContents log other) log := by
  refine .bind (.await fun response => .ofExcept fun listId hok => ?_)
  have hcreated : createdList? (.returned response) = some listId := by
    obtain ⟨data, hdata, hid⟩ := except_bind_eq_ok.mp hok
    obtain ⟨value, hvalue, hnumber⟩ := except_bind_eq_ok.mp hid
    have hread : data.property? "id" = value := by
      unfold JsValue.property at hvalue
      split at hvalue
      · cases hvalue
      · cases hvalue
      · exact Except.ok.inj hvalue
    cases value with
    | number id =>
        obtain rfl : id = listId := Except.ok.inj hnumber
        simp only [createdList?, unwrapData_context [] hdata, hread]
        rfl
    | _ => cases hnumber
  refine ⟨by simp [createdLists, hcreated], ?_, fun other hother => ?_⟩
  · rw [listContents_concat, membersAfter_create, if_pos hcreated]
  · rw [listContents_concat, membersAfter_create, hcreated, if_neg (by simpa using hother.symm)]

/-- What a program that fills one list leaves: the list holds the members it was to get, no other
list has changed, and it was adopted or is the only one that was created. -/
structure Fills (adopted : Option ℤ) (ids : List ℤ) (listId : ℤ) (log log' : Log) : Prop where
  contents : ∀ id, id ∈ listContents log' listId ↔ id ∈ ids
  others : ∀ other, other ≠ listId → listContents log' other = listContents log other
  origin : (adopted = some listId ∧ createdLists log' = createdLists log) ∨
    (adopted = none ∧ createdLists log' = createdLists log ++ [listId])

theorem ensureList_safe {adopted : Option ℤ} {body : ListBody} {context : Text}
    {created : List ℤ} :
    (ensureList adopted body context ids created).Safe Program.recorded (fun _ => True)
      (fun ended log' => ∀ listId, ended.2 = .ok listId → Fills adopted ids listId log log')
      log := by
  cases adopted with
  | some adoptedId =>
      refine Program.safe_bind.mpr (Program.Safe.imp reconcileListMembership_leaves
        fun outcome log' _ hends => ?_)
      cases outcome with
      | error error => exact ⟨trivial, nofun⟩
      | ok done =>
          refine ⟨trivial, fun listId hok => ?_⟩
          obtain rfl := Except.ok.inj hok
          exact ⟨hends.2, hends.1.2, .inl ⟨rfl, hends.1.1⟩⟩
  | none =>
      refine Program.safe_bind.mpr (Program.Safe.imp createList_leaves
        fun outcome created _ hends => ?_)
      cases outcome with
      | error error => exact ⟨trivial, nofun⟩
      | ok listId =>
          obtain ⟨hcreated, hempty, hothers⟩ := hends
          refine Program.safe_bind.mpr (Program.Safe.imp addSubscribersToListBulk_leaves
            fun outcome log' _ hends => ?_)
          cases outcome with
          | error error => exact ⟨trivial, nofun⟩
          | ok done =>
              refine ⟨trivial, fun listId' hok => ?_⟩
              obtain rfl := Except.ok.inj hok
              obtain ⟨⟨hsame, hkept⟩, hadded⟩ := hends
              refine ⟨fun id => by rw [hadded, hempty, List.nil_append], fun other hother => ?_,
                .inr ⟨rfl, hsame.trans hcreated⟩⟩
              rw [hkept other hother, hothers other hother]

/-- What a program that fills one list after another leaves, each under a key that an
earlier list may have been adopted for: where the new lists are lists of their own,
each holds what it was meant to. -/
structure FillsAll {κ : Type} (adopted : κ → Option ℤ) (existing : List ℤ)
    (entries : List (κ × List ℤ)) (listIds : List ℤ) (log log' : Log) : Prop where
  created : createdLists log <+: createdLists log'
  distinct : FreshLists existing log' → listIds.Nodup
  origin : FreshLists existing log' → ∀ listId ∈ listIds,
    (∃ entry ∈ entries, adopted entry.1 = some listId) ∨
      listId ∈ createdLists log' ∧ listId ∉ createdLists log
  others : ∀ other, other ∉ listIds → listContents log' other = listContents log other
  contents : FreshLists existing log' → List.Forall₂ (fun entry listId =>
    ∀ id, id ∈ listContents log' listId ↔ id ∈ entry.2) entries listIds

/-- The lists that are adopted were there before, and no two keys adopt the same one. -/
structure Adopts {κ : Type} (adopted : κ → Option ℤ) (existing : List ℤ) : Prop where
  existing : ∀ {key listId}, adopted key = some listId → listId ∈ existing
  injective : ∀ {key key' listId}, adopted key = some listId → adopted key' = some listId →
    key = key'

section FillsAll

variable {κ : Type} {adopted : κ → Option ℤ} {existing : List ℤ} {entries : List (κ × List ℤ)}
  {listIds : List ℤ} {log' : Log}

theorem FillsAll.nil : FillsAll adopted existing [] [] log log :=
  ⟨List.prefix_rfl, fun _ => List.nodup_nil, fun _ => nofun, fun _ _ => rfl, fun _ => .nil⟩

theorem FillsAll.cons {key : κ} {members : List ℤ} {filled : Log}
    (hadopts : Adopts adopted existing) (hkey : key ∉ entries.map Prod.fst)
    (hfirst : Fills (adopted key) members listId log filled)
    (hrest : FillsAll adopted existing entries listIds filled log') :
    FillsAll adopted existing ((key, members) :: entries) (listId :: listIds) log log' := by
  have hcreated : createdLists log <+: createdLists filled := by
    rcases hfirst.origin with ⟨-, hsame⟩ | ⟨-, hnew⟩
    · rw [hsame]
    · rw [hnew]
      exact List.prefix_append _ _
  have hnot : FreshLists existing log' → listId ∉ listIds := by
    intro hfresh hmem
    rcases hrest.origin hfresh listId hmem with ⟨entry, hentry, hother⟩ | ⟨hin, hout⟩
    · rcases hfirst.origin with ⟨howned, -⟩ | ⟨-, hnew⟩
      · exact hkey (hadopts.injective howned hother ▸ List.mem_map_of_mem hentry)
      · exact hfresh.notExisting listId (hrest.created.subset (by simp [hnew]))
          (hadopts.existing hother)
    · rcases hfirst.origin with ⟨howned, -⟩ | ⟨-, hnew⟩
      · exact hfresh.notExisting listId hin (hadopts.existing howned)
      · exact hout (by simp [hnew])
  refine ⟨hcreated.trans hrest.created, fun hfresh => ?_, fun hfresh => ?_, ?_, fun hfresh => ?_⟩
  · exact List.nodup_cons.mpr ⟨hnot hfresh, hrest.distinct hfresh⟩
  · intro other hother
    rcases List.mem_cons.mp hother with rfl | hother
    · rcases hfirst.origin with ⟨howned, -⟩ | ⟨-, hnew⟩
      · exact .inl ⟨_, List.mem_cons_self, howned⟩
      · refine .inr ⟨hrest.created.subset (by simp [hnew]), fun hold => ?_⟩
        have hnodup := hfresh.distinct.sublist hrest.created.sublist
        rw [hnew, List.nodup_append] at hnodup
        exact hnodup.2.2 _ hold _ (List.mem_singleton_self _) rfl
    · rcases hrest.origin hfresh other hother with ⟨entry, hentry, howned⟩ | ⟨hin, hout⟩
      · exact .inl ⟨entry, List.mem_cons_of_mem _ hentry, howned⟩
      · exact .inr ⟨hin, fun hold => hout (hcreated.subset hold)⟩
  · intro other hother
    rw [List.mem_cons, not_or] at hother
    rw [hrest.others other hother.2, hfirst.others other hother.1]
  · refine .cons (fun id => ?_) (hrest.contents hfresh)
    rw [hrest.others listId (hnot hfresh)]
    exact hfirst.contents id

end FillsAll

/-- The keys under which the lists of a test are adopted: its variants, and `none` for
the holdout. -/
def AdoptedLists.ofKey (adopted : AdoptedLists) : Option Text → Option ℤ
  | none => adopted.holdout
  | some variantId => adopted.get variantId

/-- The members of the variants under their keys. -/
def keyed (entries : List (Variant × List ℤ)) : List (Option Text × List ℤ) :=
  entries.map fun entry => (some entry.1.id, entry.2)

theorem ensureVariantLists_safe {adopted : AdoptedLists} {existing : List ℤ}
    {entries : List (Variant × List ℤ)} {body : Variant → ListBody} {context : Variant → Text}
    (hadopts : Adopts adopted.ofKey existing) (hvariants : (entries.map (·.1.id)).Nodup)
    {created : List ℤ} :
    (ensureVariantLists adopted.get body context entries created).Safe Program.recorded
      (fun _ => True) (fun ended log' => ∀ mappings, ended.2 = .ok mappings →
        mappings.map (·.variantId) = entries.map (·.1.id) ∧
        FillsAll adopted.ofKey existing (keyed entries) (mappings.map (·.listId)) log log')
      log := by
  induction entries generalizing created log with
  | nil =>
      refine ⟨trivial, fun mappings hok => ?_⟩
      obtain rfl := Except.ok.inj hok
      exact ⟨rfl, .nil⟩
  | cons entry entries ih =>
      obtain ⟨variant, members⟩ := entry
      rw [List.map_cons, List.nodup_cons] at hvariants
      refine Program.safe_bind.mpr (ensureList_safe.imp fun ended filled _ hfills => ?_)
      obtain ⟨created, outcome⟩ := ended
      cases outcome with
      | error error => exact ⟨trivial, nofun⟩
      | ok listId =>
          refine Program.safe_bind.mpr ((ih hvariants.2).imp fun ended log' _ hrest => ?_)
          obtain ⟨created, outcome⟩ := ended
          cases outcome with
          | error error => exact ⟨trivial, nofun⟩
          | ok mappings =>
              refine ⟨trivial, fun mappings' hok => ?_⟩
              obtain rfl := Except.ok.inj hok
              obtain ⟨hnames, hall⟩ := hrest mappings rfl
              refine ⟨by rw [List.map_cons, List.map_cons, hnames], ?_⟩
              have hkey : some variant.id ∉ (keyed entries).map Prod.fst := by
                simpa [keyed] using hvariants.1
              exact FillsAll.cons hadopts hkey (hfills listId rfl) hall

theorem fillHoldoutLists_safe {adopted : AdoptedLists} {existing : List ℤ} {testId : Text}
    {now : ℤ} {holdoutIds : List ℤ} {entries : List (Variant × List ℤ)}
    (hadopts : Adopts adopted.ofKey existing) (hvariants : (entries.map (·.1.id)).Nodup) :
    (fillHoldoutLists adopted testId now holdoutIds entries).Safe Program.recorded
      (fun _ => True) (fun ended log' => ∀ holdoutListId mappings,
        ended.2 = .ok (holdoutListId, mappings) →
        mappings.map (·.variantId) = entries.map (·.1.id) ∧
        FillsAll adopted.ofKey existing ((none, holdoutIds) :: keyed entries)
          (holdoutListId :: mappings.map (·.listId)) log log') log := by
  refine Program.safe_bind.mpr (ensureList_safe.imp fun ended filled _ hfills => ?_)
  obtain ⟨created, outcome⟩ := ended
  cases outcome with
  | error error => exact ⟨trivial, nofun⟩
  | ok listId =>
      refine Program.safe_bind.mpr ((ensureVariantLists_safe hadopts hvariants).imp
        fun ended log' _ hrest => ?_)
      obtain ⟨created, outcome⟩ := ended
      cases outcome with
      | error error => exact ⟨trivial, nofun⟩
      | ok mappings =>
          refine ⟨trivial, fun holdoutListId mappings' hok => ?_⟩
          obtain ⟨rfl, rfl⟩ := Prod.mk.inj (Except.ok.inj hok)
          obtain ⟨hnames, hall⟩ := hrest mappings rfl
          exact ⟨hnames, FillsAll.cons hadopts (by simp [keyed]) (hfills listId rfl) hall⟩

/-- Where nothing is thrown, nothing is deleted again. -/
theorem orDeleteLists_leaves {α : Type}
    {attempt : Program Call Answer (List ℤ × Except JsValue α)} {Q : α → Log → Prop}
    (h : attempt.Safe Program.recorded (fun _ => True)
      (fun ended log' => ∀ a, ended.2 = .ok a → Q a log') log) :
    Leaves (orDeleteLists attempt) Q log := by
  refine .bind (Fallible.safe_lift.mpr (h.imp fun ended log' _ hok => ?_))
  obtain ⟨created, outcome⟩ := ended
  cases outcome with
  | ok result => exact .pure (hok result rfl)
  | error error =>
      exact .bind (Fallible.safe_lift.mpr
        (Program.safe_of_preserved (fun _ _ _ => trivial) trivial _ |>.imp
          fun _ _ _ _ => .throw))

theorem adopts_of_adoptLists {testId : Text} {existingLists : List TaggedResource}
    {adopted : AdoptedLists} (h : adoptLists testId existingLists = .ok adopted) :
    Adopts adopted.ofKey (existingLists.map (·.id)) := by
  simp only [adoptLists] at h
  split at h
  · cases h
  split at h
  · cases h
  split at h
  · cases h
  next hnodup =>
  split at h
  · cases h
  next hholdout =>
  split at h
  · cases h
  obtain rfl := Except.ok.inj h
  set ofTest := existingLists.filter (testTag testId ∈ ·.tags) with hofTest
  set tagged := (ofTest.filter (variantRoleTag ∈ ·.tags)).flatMap fun list =>
    list.variants.map (·, list.id) with htagged
  rw [not_not] at hnodup
  have hvariant : ∀ {variantId listId},
      ((Table.ofList Prod.fst tagged).get? variantId).map Prod.snd = some listId →
        (variantId, listId) ∈ (Table.ofList Prod.fst tagged).entries := by
    intro variantId listId hget
    obtain ⟨entry, hentry, rfl⟩ := Option.map_eq_some_iff.mp hget
    obtain ⟨hmem, rfl⟩ := Table.get?_eq_some_iff.mp hentry
    exact hmem
  have hin : ∀ {list : TaggedResource}, list ∈ ofTest → list.id ∈ existingLists.map (·.id) :=
    fun hlist => List.mem_map_of_mem (List.mem_filter.mp hlist).1
  have hapart : ∀ {variantId listId},
      ((ofTest.filter (holdoutRoleTag ∈ ·.tags)).head?.map (·.id)) = some listId →
        (variantId, listId) ∉ (Table.ofList Prod.fst tagged).entries := by
    intro variantId listId hheld hmem
    rw [hheld, Option.filter_some, if_pos (by
      simpa using ⟨variantId, hmem⟩)] at hholdout
    cases hholdout
  constructor
  · rintro (_ | variantId) listId hkey
    · obtain ⟨list, hlist, rfl⟩ := Option.map_eq_some_iff.mp hkey
      exact hin (List.mem_filter.mp (List.mem_of_head? hlist)).1
    · obtain ⟨list, hlist, hpair⟩ := List.mem_flatMap.mp (Table.mem_of_mem_ofList (hvariant hkey))
      obtain ⟨_, -, hsame⟩ := List.mem_map.mp hpair
      obtain rfl := congrArg Prod.snd hsame
      exact hin (List.mem_filter.mp hlist).1
  · rintro (_ | variantId) (_ | variantId') listId hkey hkey'
    · rfl
    · exact absurd (hvariant hkey') (hapart hkey)
    · exact absurd (hvariant hkey) (hapart hkey')
    · have hsame := List.inj_on_of_nodup_map hnodup (hvariant hkey) (hvariant hkey') rfl
      exact congrArg (some ∘ Prod.fst) hsame

end Lists

/-! ## The audience of a segmentation -/

section Audience

variable {members members' : List AudienceMember}

/-- No id and no UUID occurs twice. -/
structure DistinctMembers (members : List AudienceMember) : Prop where
  ids : (members.map (·.subscriberId)).Nodup
  uuids : (members.map (·.subscriberUuid)).Nodup

theorem DistinctMembers.nil : DistinctMembers [] := ⟨List.nodup_nil, List.nodup_nil⟩

theorem DistinctMembers.collectSubscriber {subscriber : JsValue} (h : DistinctMembers members)
    (hcollect : collectSubscriber members subscriber = .ok members') : DistinctMembers members' := by
  obtain ⟨status, -, hcollect⟩ := except_bind_eq_ok.mp hcollect
  split at hcollect
  · split at hcollect
    · exact Except.ok.inj hcollect ▸ h
    split at hcollect
    · next id uuid _ _ =>
        split at hcollect
        · cases hcollect
        split at hcollect
        · cases hcollect
        split at hcollect
        · cases hcollect
        next hother =>
        split at hcollect
        · exact Except.ok.inj hcollect ▸ h
        next hnew =>
          obtain rfl := Except.ok.inj hcollect
          have huuid : ∀ member ∈ members, member.subscriberUuid ≠ uuid := by
            simpa using hnew
          have hid : ∀ member ∈ members, member.subscriberId ≠ id := by
            intro member hmember hsame
            exact List.find?_eq_none.mp hother member hmember (by simp [hsame, huuid member hmember])
          constructor
          · exact nodup_map_key_append h.ids hid
          · exact nodup_map_key_append h.uuids huuid
    · cases hcollect
  · exact Except.ok.inj hcollect ▸ h

theorem DistinctMembers.foldlM {subscribers : List JsValue} (h : DistinctMembers members)
    (hcollect : subscribers.foldlM Experiment.collectSubscriber members = .ok members') :
    DistinctMembers members' := by
  induction subscribers generalizing members with
  | nil => exact Except.ok.inj hcollect ▸ h
  | cons subscriber subscribers ih =>
      obtain ⟨next, hnext, hrest⟩ := except_bind_eq_ok.mp hcollect
      exact ih (h.collectSubscriber hnext) hrest

theorem resolvePages_leaves {listId : ℤ} {pageSize fuel page emptyPages : ℕ} {log : Log}
    (h : DistinctMembers members) :
    Leaves (resolvePages pageSize listId fuel page emptyPages members)
      (fun members' _ => DistinctMembers members') log := by
  induction fuel generalizing page emptyPages members log with
  | zero => exact .pure h
  | succ fuel ih =>
      refine .bind (.await fun response => .bind (.ofExcept fun subscribers _ => ?_))
      split
      · split
        · exact .pure h
        · exact ih h
      · refine .bind (.ofExcept fun members' hcollect => ?_)
        split
        · exact .pure (h.foldlM hcollect)
        · exact ih (h.foldlM hcollect)

theorem resolveLists_leaves {listIds : List ℤ} {pageSize : ℕ} {log : Log}
    (h : DistinctMembers members) :
    Leaves (resolveLists pageSize listIds members) (fun members' _ => DistinctMembers members')
      log := by
  induction listIds generalizing members log with
  | nil => exact .pure h
  | cons listId listIds ih => exact .bind ((resolvePages_leaves h).imp fun _ _ => ih)

theorem resolveAudience_leaves [AssignmentPlatform] {sourceListIds : List ℤ} {now : ℤ} {log : Log} :
    Leaves (resolveAudience sourceListIds now) (fun resolved _ => DistinctMembers resolved.2)
      log := by
  rw [resolveAudience, resolveAudienceBy]
  split
  · exact .throw
  · exact .bind ((resolveLists_leaves .nil).imp fun _ _ h => .pure h)

end Audience

/-! ## Segmentation -/

section Segmentation

variable [AssignmentPlatform] {testId seed : Text} {members : List AudienceMember}
  {variants : List Variant} {percentage : ℚ} {audience : AudienceSnapshot}
  {manifest : AssignmentManifest}

theorem fills_groupMembers (hvariants : (variants.map (·.id)).Nodup)
    (h : buildAssignmentManifest testId seed audience members variants percentage =
      .ok manifest) :
    let ranked := rankMembers testId seed members
    (manifest.variantSlices variants ranked).map (·.1) = variants ∧
      (manifest.variantSlices variants ranked).map (·.2) ++ [manifest.holdoutSlice ranked] =
        (manifest.groupMembers testId members).map fun group => group.map (·.subscriberId) := by
  intro ranked
  obtain ⟨-, -, sizes, hlength, hsizes, hmembers⟩ := groupMembers_of_build h
  obtain ⟨sizes', holdout, -, hlength', -, -, -, hgroups⟩ := buildAssignmentManifest_ok h
  have hvariantGroups : manifest.groups.filter (·.kind ≠ .holdout) = manifest.groups.dropLast := by
    rw [hgroups, List.dropLast_concat, List.filter_append]
    simp [List.filter_map, Function.comp_def]
  have hfind : manifest.groups.dropLast.map (fun group => variants.find? fun variant =>
      decide (group.kind = .variant variant.id)) = variants.map some := by
    rw [hgroups, List.dropLast_concat, List.map_map]
    calc _ = (variants.zipIdx.map Prod.fst).map some := by
            rw [List.map_map]
            refine List.map_congr_left fun entry hentry => ?_
            have hmem : entry.1 ∈ variants := List.fst_mem_of_mem_zipIdx hentry
            simpa [eq_comm] using (find?_key_eq_some_iff hvariants).mpr ⟨hmem, rfl⟩
      _ = variants.map some := by rw [List.zipIdx_map_fst]
  have hslices : manifest.variantSlices variants ranked =
      (variants.zip (slices sizes ranked)).map fun entry =>
        (entry.1, entry.2.map (·.subscriberId)) := by
    rw [AssignmentManifest.variantSlices, AssignmentManifest.variantSizes, hvariantGroups, hsizes]
    calc _ = ((manifest.groups.dropLast.map fun group => variants.find? fun variant =>
              decide (group.kind = .variant variant.id)).zip (slices sizes ranked)).filterMap
                fun entry => entry.1.map (·, entry.2.map (·.subscriberId)) := by
            rw [List.zip_map_left, List.filterMap_map]
            rfl
      _ = _ := by
            rw [hfind, List.zip_map_left, List.filterMap_map]
            exact congrFun List.filterMap_eq_map _
  have hcut : (slices sizes ranked).length = variants.length := by
    rw [slices_eq_splitLengths, List.length_splitLengths, hlength]
  constructor
  · rw [hslices, List.map_map]
    exact List.map_fst_zip hcut.ge
  · rw [hslices, hmembers, List.map_append, List.map_map, AssignmentManifest.holdoutSlice,
      AssignmentManifest.variantSizes, hvariantGroups, hsizes]
    congr 1
    calc _ = ((variants.zip (slices sizes ranked)).map Prod.snd).map
              fun group => group.map (·.subscriberId) := by
            rw [List.map_map]
            rfl
      _ = _ := by rw [List.map_snd_zip hcut.le]

/-- After a segmentation that returned, the manifest is the one of the audience, and the
lists hold its groups. -/
theorem segmentSubscribersForHoldout_run {originalLists : List ℤ}
    {existingLists : List TaggedResource} {now : ℤ} {script : List Answer} {log : Log}
    {result : SegmentationResult} (hvariants : (variants.map (·.id)).Nodup)
    (hresolved : (Program.run Program.recorded (resolveAudience originalLists now).run []
      script).1 = some (.ok (audience, members)))
    (hrun : Program.run Program.recorded (segmentSubscribersForHoldout originalLists variants
      percentage testId seed existingLists now).run [] script = (some (.ok result), log)) :
    DistinctMembers members ∧
      buildAssignmentManifest testId seed audience members variants percentage =
        .ok result.assignmentManifest ∧
      result.testListMappings.map (·.variantId) = variants.map (·.id) ∧
      (FreshLists (existingLists.map (·.id)) log →
        List.Forall₂ (fun group listId => ∀ id, id ∈ listContents log listId ↔
            id ∈ group.map (·.subscriberId))
          (result.assignmentManifest.groupMembers testId members)
          (result.testListMappings.map (·.listId) ++ [result.holdoutListId])) := by
  obtain ⟨⟨audience', members'⟩, before, rest, hfirst, hsecond⟩ :=
    Fallible.exists_of_run_bind hrun
  obtain ⟨rfl, rfl⟩ : audience' = audience ∧ members' = members := by
    rw [hfirst] at hresolved
    simpa using hresolved
  refine ⟨resolveAudience_leaves.of_run hfirst, ?_⟩
  refine Leaves.of_run (Q := fun result log => buildAssignmentManifest testId seed audience' members'
      variants percentage = .ok result.assignmentManifest ∧
    result.testListMappings.map (·.variantId) = variants.map (·.id) ∧
    (FreshLists (existingLists.map (·.id)) log →
      List.Forall₂ (fun group listId => ∀ id, id ∈ listContents log listId ↔
          id ∈ group.map (·.subscriberId))
        (result.assignmentManifest.groupMembers testId members')
        (result.testListMappings.map (·.listId) ++ [result.holdoutListId]))) ?_ hsecond
  refine .bind (.ofExcept fun manifest hbuilt => .bind (.ofExcept fun adopted hadopted => ?_))
  obtain ⟨hslices, hfills⟩ := fills_groupMembers hvariants hbuilt
  set ranked := rankMembers testId seed members'
  have hnames : (manifest.variantSlices variants ranked).map (·.1.id) = variants.map (·.id) := by
    rw [← congrArg (List.map (·.id)) hslices, List.map_map]
    rfl
  refine .bind (orDeleteLists_leaves ((fillHoldoutLists_safe (adopts_of_adoptLists hadopted)
    (hnames ▸ hvariants)).imp fun ended log' _ hfilled filled hok => .pure ?_))
  obtain ⟨hmappings, hall⟩ := hfilled filled.1 filled.2 hok
  refine ⟨hbuilt, hmappings.trans hnames, fun hfresh => ?_⟩
  suffices hlists : List.Forall₂ (fun ids listId => ∀ id, id ∈ listContents log' listId ↔ id ∈ ids)
      ((manifest.groupMembers testId members').map fun group => group.map (·.subscriberId))
      (filled.2.map (·.listId) ++ [filled.1]) from List.forall₂_map_left_iff.mp hlists
  rw [← hfills]
  cases hall.contents hfresh with
  | cons hholdout hvariantLists =>
      refine List.rel_append ?_ (.cons hholdout .nil)
      rw [List.forall₂_map_left_iff]
      exact List.forall₂_map_left_iff.mp hvariantLists

/-- The manifest partitions the audience, whatever order its members are listed in; a
lookup names the group of a member and none for anybody else or for an audience that
drifted; and a segmentation fills the lists of the groups with the members that the
lookup assigns to them. -/
theorem assignment_partitions_audience (hdistinct : (members.map (·.subscriberUuid)).Nodup)
    (hbuilt : buildAssignmentManifest testId seed audience members variants percentage =
      .ok manifest) :
    Partitions manifest testId members variants percentage ∧
    (∀ members' : List AudienceMember, members'.Perm members →
      buildAssignmentManifest testId seed audience members' variants percentage = .ok manifest ∧
      manifest.groupMembers testId members' = manifest.groupMembers testId members ∧
      ∀ uuid, (∀ i : ℕ, groupIndexForUuid manifest testId members' uuid = i ↔
          ∃ group, (manifest.groupMembers testId members)[i]? = some group ∧
            ∃ member ∈ group, member.subscriberUuid = uuid) ∧
        (groupIndexForUuid manifest testId members' uuid = -1 ↔
          uuid ∉ members.map (·.subscriberUuid))) ∧
    (∀ (members' : List AudienceMember) uuid,
      groupIndexForUuid manifest testId members' uuid ≠ -1 →
        groupChecksum (members'.map (·.subscriberUuid)) = manifest.audienceChecksum ∧
        uuid ∈ members'.map (·.subscriberUuid)) ∧
    (∀ (members' : List AudienceMember) uuids uuid,
      (groupIndexForUuids manifest testId members' uuids).get? uuid =
        if uuid ∈ uuids then some (uuid, groupIndexForUuid manifest testId members' uuid)
        else none) ∧
    ∀ (originalLists : List ℤ) (existingLists : List TaggedResource) (now : ℤ)
      (script : List Answer) (log : Log) (result : SegmentationResult),
      (variants.map (·.id)).Nodup →
      (Program.run Program.recorded (resolveAudience originalLists now).run [] script).1 =
        some (.ok (audience, members)) →
      Program.run Program.recorded (segmentSubscribersForHoldout originalLists variants
        percentage testId seed existingLists now).run [] script = (some (.ok result), log) →
      FreshLists (existingLists.map (·.id)) log →
      result.assignmentManifest = manifest ∧
      result.testListMappings.map (·.variantId) = variants.map (·.id) ∧
      ∀ (i : ℕ) listId, (result.testListMappings.map (·.listId) ++ [result.holdoutListId])[i]? =
          some listId →
        (∀ id ∈ listContents log listId, id ∈ members.map (·.subscriberId)) ∧
        ∀ member ∈ members, member.subscriberId ∈ listContents log listId ↔
          groupIndexForUuid manifest testId members member.subscriberUuid = i := by
  have hpartitions := partitions_of_build hdistinct hbuilt
  obtain ⟨-, -, -, -, -, hseed, hchecksum, -⟩ := buildAssignmentManifest_ok hbuilt
  refine ⟨hpartitions, fun members' hperm => ⟨?_, ?_, ?_⟩, fun members' uuid => ?_,
    fun members' uuids uuid => get?_groupIndexForUuids uuids uuid, ?_⟩
  · rw [buildAssignmentManifest_eq_of_perm hdistinct hperm, hbuilt]
  · rw [AssignmentManifest.groupMembers, rankMembers_eq_of_perm hdistinct hperm]
    rfl
  · exact groupIndexForUuid_eq_iff hdistinct hpartitions hchecksum hperm
  · intro hnamed
    exact ⟨by_contra fun hdrift => hnamed (groupIndexForUuid_of_drift hdrift uuid),
      mem_of_groupIndexForUuid hnamed⟩
  · intro originalLists existingLists now script log result hvariants hresolved hrun hfresh
    obtain ⟨hmembers, hmanifest, hnames, hfilled⟩ :=
      segmentSubscribersForHoldout_run hvariants hresolved hrun
    obtain rfl : result.assignmentManifest = manifest :=
      Except.ok.inj (hmanifest.symm.trans hbuilt)
    refine ⟨rfl, hnames, fun i listId hlist => ?_⟩
    obtain ⟨hlength, hget⟩ := List.forall₂_iff_get.mp (hfilled hfresh)
    obtain ⟨hi, hlistId⟩ := List.getElem?_eq_some_iff.mp hlist
    have hgroup := hget i (hlength ▸ hi) hi
    rw [List.get_eq_getElem, List.get_eq_getElem, hlistId] at hgroup
    have hin : ∀ member ∈ (result.assignmentManifest.groupMembers testId members)[i],
        member ∈ members := fun member hmember =>
      hpartitions.covers.mem_iff.mp (List.mem_flatten.mpr ⟨_, List.getElem_mem _, hmember⟩)
    constructor
    · intro id hid
      obtain ⟨member, hmember, rfl⟩ := List.mem_map.mp ((hgroup id).mp hid)
      exact List.mem_map_of_mem (hin member hmember)
    · intro member hmember
      rw [hgroup, (groupIndexForUuid_eq_iff hdistinct hpartitions hchecksum (List.Perm.refl _)
        member.subscriberUuid).1 i]
      constructor
      · intro hid
        obtain ⟨other, hother, hsame⟩ := List.mem_map.mp hid
        obtain rfl := List.inj_on_of_nodup_map hmembers.ids (hin other hother) hmember hsame
        exact ⟨_, List.getElem?_eq_getElem _, other, hother, rfl⟩
      · rintro ⟨group, hat, other, hother, hsame⟩
        obtain ⟨_, rfl⟩ := List.getElem?_eq_some_iff.mp hat
        obtain rfl := List.inj_on_of_nodup_map hdistinct (hin other hother) hmember hsame
        exact List.mem_map_of_mem hother

end Segmentation

/-! ## A segmentation -/

section Sample

/-- The digests of the sample, and exact quotas. -/
@[reducible]
def samplePlatform : AssignmentPlatform where
  sha256 stream := (List.lookup stream
    [(("abtest-assignment:v1" : Text) ++ 0 :: ("test_1" : Text) ++ 0 :: ("seed-1" : Text) ++
        0 :: ("ali" : Text),
      ("b79c7189e92ee632f56da8b7ef2b6e6c086aaa837d4bd08a3a8ef86c86586a8a" : Text)),
    (("abtest-assignment:v1" : Text) ++ 0 :: ("test_1" : Text) ++ 0 :: ("seed-1" : Text) ++
        0 :: ("eve" : Text),
      ("dfa75770d683ef5129e552725cb8d92763c821eb2b5ca19efe6db04ffc67464a" : Text)),
    (("abtest-assignment:v1" : Text) ++ 0 :: ("test_1" : Text) ++ 0 :: ("seed-1" : Text) ++
        0 :: ("mia" : Text),
      ("e0c1c8dee96666701e5a9254d9b9734e99398cc9d3cee68d82d59764c0d25fa2" : Text)),
    ("ali", "94419b99b12c11133a4dfeccc3e17885974beb48f7827c48239aabfbcad238d8"),
    ("eve", "85262adf74518bbb70c7cb94cd6159d91669e5a81edf1efebd543eadbda9fa2b"),
    ("mia", "a6ae07ad556c5f9348cc09c16ed17a437e65acc71e689c1b19f872f1dab3c9c1"),
    ("ali\neve\nmia", "fd3fc79490b11c4af1d952d324c1f5fa9527dee12f6981aad1ce58ba2033a4a7")]).getD []
  weightSum := List.sum
  quota total weight sum :=
    let quota := total * weight / sum
    (quota.floor.toNat, quota - quota.floor)
  complement percentage := 100 - percentage
  numberText value := (if value < 0 then ("-" : Text) else []) ++ Text.ofNat value.num.natAbs

def sampleMembers : List AudienceMember := [⟨1, "ali"⟩, ⟨2, "eve"⟩, ⟨3, "mia"⟩]

def sampleVariants : List Variant :=
  [⟨"a", "A", 50, ⟨none, none⟩⟩, ⟨"b", "B", 50, ⟨none, none⟩⟩]

/-- A page with the members, and for each list its creation and one bulk change. -/
def sampleAnswers : List Answer :=
  let subscriber (id : ℤ) (uuid : Text) : JsValue :=
    .object [("id", .number id), ("uuid", .string uuid), ("status", .string "enabled")]
  let list (id : ℤ) : Answer := .returned (.object [("data", .object [("id", .number id)])])
  let changed : Answer := .returned (.object [("data", .boolean true)])
  [.returned (.object [("data", .object [("results", .array
      [subscriber 1 "ali", subscriber 2 "eve", subscriber 3 "mia"])])]),
    list 30, changed, list 31, changed, list 32, changed]

local instance : AssignmentPlatform := samplePlatform

def sampleSnapshot : AudienceSnapshot where
  capturedAt := { time := 0 }
  sourceListIds := [1]
  subscriberCount := 3
  subscriberChecksum := "fd3fc79490b11c4af1d952d324c1f5fa9527dee12f6981aad1ce58ba2033a4a7"

def sampleManifest : AssignmentManifest where
  seed := "seed-1"
  audienceChecksum := "fd3fc79490b11c4af1d952d324c1f5fa9527dee12f6981aad1ce58ba2033a4a7"
  groups := [⟨.variant "a", 1, "94419b99b12c11133a4dfeccc3e17885974beb48f7827c48239aabfbcad238d8"⟩,
    ⟨.variant "b", 1, "85262adf74518bbb70c7cb94cd6159d91669e5a81edf1efebd543eadbda9fa2b"⟩,
    ⟨.holdout, 1, "a6ae07ad556c5f9348cc09c16ed17a437e65acc71e689c1b19f872f1dab3c9c1"⟩]
  assignedCount := 3

def sampleSegmentation : SegmentationResult where
  testListMappings := [⟨"a", 31⟩, ⟨"b", 32⟩]
  holdoutListId := 30
  testGroupSize := 2
  holdoutGroupSize := 1
  assignmentSeed := "seed-1"
  audienceSnapshot := sampleSnapshot
  assignmentManifest := sampleManifest

theorem sample_rankMembers : rankMembers "test_1" "seed-1" sampleMembers = sampleMembers :=
  List.mergeSort_of_pairwise (by decide)

/-- The quotas of the two allocations: 66 of three members, then halves of two. -/
theorem sample_quotas :
    AssignmentPlatform.complement 66 = 34 ∧
      ([66, 34] : List ℚ).map (fun weight => AssignmentPlatform.quota 3 weight
        (AssignmentPlatform.weightSum [66, 34])) = [(1, 49 / 50), (1, 1 / 50)] ∧
      ([50, 50] : List ℚ).map (fun weight => AssignmentPlatform.quota 2 weight
        (AssignmentPlatform.weightSum [50, 50])) = [(1, 0), (1, 0)] ∧
      ∀ quotas ∈ ([[(1, 49 / 50), (1, 1 / 50)], [(1, 0), (1, 0)]] : List (List (ℕ × ℚ))),
        quotas.zipIdx.Pairwise fun a b =>
          (b.1.2 < a.1.2 || (b.1.2 = a.1.2 && a.2 ≤ b.2) : Bool) := by
  decide +kernel

theorem sample_remainderRanking :
    remainderRanking [(1, 49 / 50), (1, 1 / 50)] = [0, 1] ∧
      remainderRanking [(1, 0), (1, 0)] = [0, 1] := by
  obtain ⟨-, -, -, hordered⟩ := sample_quotas
  constructor
  · rw [remainderRanking, List.mergeSort_of_pairwise (hordered _ (by simp))]
    rfl
  · rw [remainderRanking, List.mergeSort_of_pairwise (hordered _ (by simp))]
    rfl

theorem sample_allocation : allocateTestAndHoldout 3 66 = .ok (2, 1) ∧
    allocateByLargestRemainder 2 [50, 50] = .ok [1, 1] := by
  obtain ⟨hcomplement, htest, hvariants, -⟩ := sample_quotas
  constructor
  · simp only [allocateTestAndHoldout, hcomplement, allocateByLargestRemainder, htest,
      sample_remainderRanking]
    rfl
  · simp only [allocateByLargestRemainder, hvariants, sample_remainderRanking]
    rfl

theorem sample_checksum : groupChecksum [("ali" : Text), "eve", "mia"] =
    "fd3fc79490b11c4af1d952d324c1f5fa9527dee12f6981aad1ce58ba2033a4a7" := by
  rw [groupChecksum, List.mergeSort_of_pairwise (by decide)]
  decide

theorem sample_build : buildAssignmentManifest "test_1" "seed-1" sampleSnapshot sampleMembers
    sampleVariants 66 = .ok sampleManifest := by
  have hsizes : allocateByLargestRemainder 2 (sampleVariants.map (·.percentage)) = .ok [1, 1] :=
    sample_allocation.2
  have hsingle : ∀ uuid : Text, groupChecksum [uuid] = AssignmentPlatform.sha256 uuid := by
    intro uuid
    rw [groupChecksum, List.mergeSort_singleton]
    exact congrArg _ (List.append_nil uuid)
  have hgroups : groupChecksum [("ali" : Text)] =
        "94419b99b12c11133a4dfeccc3e17885974beb48f7827c48239aabfbcad238d8" ∧
      groupChecksum [("eve" : Text)] =
        "85262adf74518bbb70c7cb94cd6159d91669e5a81edf1efebd543eadbda9fa2b" ∧
      groupChecksum [("mia" : Text)] =
        "a6ae07ad556c5f9348cc09c16ed17a437e65acc71e689c1b19f872f1dab3c9c1" := by
    rw [hsingle, hsingle, hsingle]
    decide
  have hlength : sampleMembers.length = 3 := rfl
  have hall : sampleMembers.map (·.subscriberUuid) = [("ali" : Text), "eve", "mia"] := rfl
  simp only [buildAssignmentManifest, sample_rankMembers, hlength, sample_allocation.1,
    except_ok_bind, hsizes, hall, sample_checksum]
  rw [if_neg (by decide), if_neg (by decide), if_neg (by decide), if_neg (by decide),
    if_neg (by simp [sampleSnapshot])]
  simp only [sampleManifest, ← hgroups.1, ← hgroups.2.1, ← hgroups.2.2]
  rfl

theorem sample_resolveAudience :
    Program.consume Program.recorded (resolveAudience [1] 0).run [] (sampleAnswers.take 1) =
      some (.ok (sampleSnapshot, sampleMembers),
        [(.subscriberList 1 1 (some 500), sampleAnswers[0])]) := by
  have hsource : sourceLists [1] = [1] := by
    rw [sourceLists, show ([1] : List ℤ).eraseDups.filter (0 < ·) = [1] from by decide,
      List.mergeSort_singleton]
  have hsnapshot : sampleSnapshot = { sampleSnapshot with
      subscriberChecksum := groupChecksum (sampleMembers.map (·.subscriberUuid)) } := by
    rw [show groupChecksum (sampleMembers.map (·.subscriberUuid)) =
      sampleSnapshot.subscriberChecksum from sample_checksum]
  rw [resolveAudience, resolveAudienceBy, hsource, hsnapshot]
  rfl

theorem sample_segmentSubscribersForHoldout :
    ∃ log, Program.run Program.recorded (segmentSubscribersForHoldout [1] sampleVariants 66
        "test_1" "seed-1" [] 0).run [] sampleAnswers = (some (.ok sampleSegmentation), log) ∧
      createdLists log = [30, 31, 32] := by
  rw [← List.take_append_drop 1 sampleAnswers, segmentSubscribersForHoldout,
    Fallible.run_bind_of_consume sample_resolveAudience]
  simp only [sample_build, sample_rankMembers]
  exact ⟨_, rfl, rfl⟩

/-- Three subscribers: whoever is looked up in the first group is in its list. -/
theorem assignment_partitions_audience_sample :
    ∃ log, Program.run Program.recorded (segmentSubscribersForHoldout [1] sampleVariants 66
        "test_1" "seed-1" [] 0).run [] sampleAnswers = (some (.ok sampleSegmentation), log) ∧
      ∀ member ∈ sampleMembers, member.subscriberId ∈ listContents log 31 ↔
        groupIndexForUuid sampleManifest "test_1" sampleMembers member.subscriberUuid = 0 := by
  obtain ⟨log, hrun, hcreated⟩ := sample_segmentSubscribersForHoldout
  have hfresh : FreshLists [] log :=
    ⟨by rw [hcreated]; decide, by simp⟩
  have hresolved : (Program.run Program.recorded (resolveAudience [1] 0).run []
      sampleAnswers).1 = some (.ok (sampleSnapshot, sampleMembers)) := by
    rw [← List.take_append_drop 1 sampleAnswers, Program.run_of_consume sample_resolveAudience]
  obtain ⟨-, -, -, -, hsegmentation⟩ :=
    assignment_partitions_audience (by decide) sample_build
  exact ⟨log, hrun, (hsegmentation [1] [] 0 sampleAnswers log sampleSegmentation (by decide)
    hresolved hrun hfresh).2.2 0 31 rfl |>.2⟩

end Sample

end ListmonkOps.Experiment
