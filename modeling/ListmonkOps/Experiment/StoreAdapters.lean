/-
The in-memory and the JSON file adapter of the A/B test store.

A callback is handed objects and gives objects back, so it is described by the
heap it leaves: what it did to the objects it was given, and the objects it made.
The in-memory adapter hands out copies and files what comes back under its id;
the JSON adapter hands out the records of the document it has just read and
writes the list that comes back. They agree as long as a callback leaves alone
the given record that it does not return, and returns every id once.
-/

import Mathlib.Logic.Function.Basic
import ListmonkOps.Math.Keyed
import ListmonkOps.Runtime.Text

namespace ListmonkOps.Experiment

open ListmonkOps.Math ListmonkOps.Runtime

/-! ## Tests and callbacks -/

/-- A test; two are equal where `JSON.stringify` writes them alike. -/
structure StoredTest where
  id : Text
  status : Text
  revision : Option ℕ
  updatedAt : ℤ
  /-- The other members, as they are written. -/
  rest : Text
  deriving DecidableEq

/-- `bumpRevision`, at some moment. -/
def bumpRevision (now : ℤ) (test : StoredTest) : StoredTest :=
  { test with revision := some (test.revision.getD 0 + 1), updatedAt := now }

/-- The objects there are, by reference. -/
abbrev Heap := ℕ → StoredTest

/-- What a callback leaves. The objects that it was given come first on the heap; its result may
refer to objects, and is read when the transaction is done. -/
structure Outcome (ν τ : Type) where
  heap : Heap
  next : ν
  result : Heap → τ

/-- A callback: it throws, or it leaves an outcome. -/
abbrev Callback (α ν τ : Type) := α → Except Text (Outcome ν τ)

/-- `preSnapshots`; of several records of one id the last counts. -/
def preSnapshots (tests : List StoredTest) (id : Text) : Option StoredTest :=
  tests.reverse.find? (·.id = id)

/-- The loop that bumps the revisions of the records that differ from their snapshots. -/
def bumpChanged (now : ℤ) (pre : Text → Option StoredTest) : List ℕ → Heap → Heap
  | [], heap => heap
  | ref :: refs, heap =>
      bumpChanged now pre refs
        (if pre (heap ref).id = some (heap ref) then heap
        else Function.update heap ref (bumpRevision now (heap ref)))

/-- The error of a transaction that changed the id. -/
def idMismatch (expected actual : Text) : Text :=
  ("transaction id mismatch: expected " : Text) ++ expected ++ (", got " : Text) ++ actual

/-! ## The in-memory adapter -/

/-- `InMemoryAbTestStore`: a map whose keys are the ids. -/
abbrev InMemoryAbTestStore := Table StoredTest.id

namespace InMemoryAbTestStore

variable {τ : Type}

def get (store : InMemoryAbTestStore) (id : Text) : Option StoredTest := store.get? id

def list (store : InMemoryAbTestStore) (status : Option Text) : List StoredTest :=
  match status with
  | some status => store.entries.filter (·.status = status)
  | none => store.entries

/-- `transaction`, whose callback is given the record if there is one. -/
def transaction (store : InMemoryAbTestStore) (now : ℤ) (id : Text)
    (fn : Callback (Option StoredTest) (Option ℕ) τ) : Except Text (τ × InMemoryAbTestStore) :=
  match fn (store.get? id) with
  | .error error => .error error
  | .ok ⟨heap, none, result⟩ => .ok (result heap, store.erase id)
  | .ok ⟨heap, some next, result⟩ =>
      if (heap next).id ≠ id then .error (idMismatch id (heap next).id)
      else if store.get? id = some (heap next) then .ok (result heap, store)
      else
        let heap := Function.update heap next (bumpRevision now (heap next))
        .ok (result heap, store.set (heap next))

def transactionAll (store : InMemoryAbTestStore) (now : ℤ)
    (fn : Callback (List StoredTest) (List ℕ) τ) : Except Text (τ × InMemoryAbTestStore) :=
  match fn store.entries with
  | .error error => .error error
  | .ok ⟨heap, next, result⟩ =>
      let heap := bumpChanged now (preSnapshots store.entries) next heap
      .ok (result heap, Table.ofList StoredTest.id (next.map heap))

end InMemoryAbTestStore

/-! ## The JSON file adapter -/

/-- The document of a `JsonFileAbTestStore`. -/
abbrev JsonFileAbTestStore := List StoredTest

namespace JsonFileAbTestStore

variable {τ : Type}

def get (store : JsonFileAbTestStore) (id : Text) : Option StoredTest := store.find? (·.id = id)

def list (store : JsonFileAbTestStore) (status : Option Text) : List StoredTest :=
  match status with
  | some status => store.filter (·.status = status)
  | none => store

/-- `transactionAll`, over an update that reads the document and writes what comes back. -/
def transactionAll (store : JsonFileAbTestStore) (now : ℤ)
    (fn : Callback (List StoredTest) (List ℕ) τ) : Except Text (τ × JsonFileAbTestStore) :=
  match fn store with
  | .error error => .error error
  | .ok ⟨heap, next, result⟩ =>
      let heap := bumpChanged now (preSnapshots store) next heap
      .ok (result heap, next.map heap)

/-- Where an object of the inner callback is: the record that it was given is one of the
document, and the others come after the document. -/
def place (tests : List StoredTest) (id : Text) (ref : ℕ) : ℕ :=
  match tests.findIdx? (·.id = id) with
  | some i => if ref = 0 then i else tests.length + ref
  | none => tests.length + ref

/-- The records of the document, of which the inner callback had one, and its objects. -/
def documentHeap (tests : List StoredTest) (id : Text) (inner : Heap) : Heap := fun ref =>
  if tests.findIdx? (·.id = id) = some ref then inner 0
  else tests[ref]?.getD (inner (ref - tests.length))

/-- The callback that `transaction` hands to `transactionAll`. -/
def withTest (id : Text) (fn : Callback (Option StoredTest) (Option ℕ) τ) :
    Callback (List StoredTest) (List ℕ) τ := fun tests =>
  match fn (tests.find? (·.id = id)) with
  | .error error => .error error
  | .ok ⟨inner, next, result⟩ =>
      let heap := documentHeap tests id inner
      let refs := List.range tests.length
      let result := fun (final : Heap) => result fun ref => final (place tests id ref)
      match next with
      | none => .ok ⟨heap, refs.filter fun ref => (heap ref).id ≠ id, result⟩
      | some next =>
          if (inner next).id ≠ id then .error (idMismatch id (inner next).id)
          else if tests.find? (·.id = id) = some (inner next) then .ok ⟨heap, refs, result⟩
          else
            let updated := refs.map fun ref =>
              if (heap ref).id = id then place tests id next else ref
            .ok ⟨heap, if updated.any (fun ref => (heap ref).id = id) then updated
              else updated ++ [place tests id next], result⟩

def transaction (store : JsonFileAbTestStore) (now : ℤ) (id : Text)
    (fn : Callback (Option StoredTest) (Option ℕ) τ) : Except Text (τ × JsonFileAbTestStore) :=
  transactionAll store now (withTest id fn)

end JsonFileAbTestStore

/-! ## Calls -/

/-- A call of a store; those that may write are made at some moment. -/
inductive StoreCall (τ : Type) where
  | get (id : Text)
  | list (status : Option Text)
  | transaction (now : ℤ) (id : Text) (fn : Callback (Option StoredTest) (Option ℕ) τ)
  | transactionAll (now : ℤ) (fn : Callback (List StoredTest) (List ℕ) τ)

inductive StoreReply (τ : Type) where
  | test (test : Option StoredTest)
  | tests (tests : List StoredTest)
  | result (result : τ)

/-- What is left of a transaction: its reply and the store, as it was where it rejects. -/
def committed {σ τ : Type} (store : σ) :
    Except Text (τ × σ) → Except Text (StoreReply τ) × σ
  | .error error => (.error error, store)
  | .ok (result, store) => (.ok (.result result), store)

section Calls

variable {τ : Type}

def InMemoryAbTestStore.call (store : InMemoryAbTestStore) :
    StoreCall τ → Except Text (StoreReply τ) × InMemoryAbTestStore
  | .get id => (.ok (.test (store.get id)), store)
  | .list status => (.ok (.tests (store.list status)), store)
  | .transaction now id fn => committed store (store.transaction now id fn)
  | .transactionAll now fn => committed store (store.transactionAll now fn)

def JsonFileAbTestStore.call (store : JsonFileAbTestStore) :
    StoreCall τ → Except Text (StoreReply τ) × JsonFileAbTestStore
  | .get id => (.ok (.test (store.get id)), store)
  | .list status => (.ok (.tests (store.list status)), store)
  | .transaction now id fn => committed store (store.transaction now id fn)
  | .transactionAll now fn => committed store (store.transactionAll now fn)

/-- Calls in a row: the replies, and the store afterwards. -/
def callAll {σ : Type} (call : σ → StoreCall τ → Except Text (StoreReply τ) × σ) (store : σ) :
    List (StoreCall τ) → List (Except Text (StoreReply τ)) × σ
  | [] => ([], store)
  | first :: calls =>
      let (reply, store) := call store first
      let (replies, store) := callAll call store calls
      (reply :: replies, store)

end Calls

/-! ## Bumping -/

/-- A record after the loop, where it is there once. -/
def bumped (now : ℤ) (pre : Text → Option StoredTest) (test : StoredTest) : StoredTest :=
  if pre test.id = some test then test else bumpRevision now test

@[simp]
theorem id_bumped (now : ℤ) (pre : Text → Option StoredTest) (test : StoredTest) :
    (bumped now pre test).id = test.id := by
  rw [bumped]
  split_ifs <;> rfl

section Bump

variable {now : ℤ} {pre : Text → Option StoredTest} {refs : List ℕ} {heap : Heap}
  {tests : List StoredTest} {test : StoredTest} {id : Text}

theorem bumpChanged_cons {ref : ℕ} : bumpChanged now pre (ref :: refs) heap =
    bumpChanged now pre refs (Function.update heap ref (bumped now pre (heap ref))) := by
  rw [bumpChanged, bumped]
  split_ifs
  · rw [Function.update_eq_self]
  · rfl

theorem id_bumpChanged (ref : ℕ) : (bumpChanged now pre refs heap ref).id = (heap ref).id := by
  induction refs generalizing heap with
  | nil => rfl
  | cons first refs ih =>
      rw [bumpChanged_cons, ih]
      by_cases href : ref = first
      · rw [href, Function.update_self, id_bumped]
      · rw [Function.update_of_ne href]

theorem bumpChanged_eq (hrefs : refs.Nodup) (ref : ℕ) : bumpChanged now pre refs heap ref =
    if ref ∈ refs then bumped now pre (heap ref) else heap ref := by
  induction refs generalizing heap with
  | nil => rw [if_neg List.not_mem_nil]; rfl
  | cons first refs ih =>
      rw [List.nodup_cons] at hrefs
      rw [bumpChanged_cons, ih hrefs.2]
      by_cases href : ref = first
      · rw [href, if_neg hrefs.1, if_pos List.mem_cons_self, Function.update_self]
      · simp only [Function.update_of_ne href, List.mem_cons, href, false_or]

theorem preSnapshots_eq_some_iff (distinct : (tests.map StoredTest.id).Nodup) :
    preSnapshots tests id = some test ↔ test ∈ tests ∧ test.id = id := by
  have hreverse : (tests.reverse.map StoredTest.id).Nodup := by
    rw [List.map_reverse]
    exact List.nodup_reverse.mpr distinct
  rw [preSnapshots, find?_key_eq_some_iff hreverse, List.mem_reverse]

theorem bumped_of_mem (distinct : (tests.map StoredTest.id).Nodup) (htest : test ∈ tests) :
    bumped now (preSnapshots tests) test = test :=
  if_pos ((preSnapshots_eq_some_iff distinct).mpr ⟨htest, rfl⟩)

theorem bumped_of_not_mem (distinct : (tests.map StoredTest.id).Nodup) (htest : test ∉ tests) :
    bumped now (preSnapshots tests) test = bumpRevision now test :=
  if_neg fun hpre => htest ((preSnapshots_eq_some_iff distinct).mp hpre).1

end Bump

/-! ## Agreement -/

/-- What a transaction of the in-memory store gives, with the records in their order. -/
def withEntries {τ : Type} : Except Text (τ × InMemoryAbTestStore) →
    Except Text (τ × List StoredTest) :=
  Except.map fun (result, store) => (result, store.entries)

section Agreement

variable {τ : Type} {now : ℤ} {id : Text} {store : InMemoryAbTestStore}

theorem transactionAll_agree {fn : Callback (List StoredTest) (List ℕ) τ}
    (h : ∀ outcome, fn store.entries = .ok outcome →
      (outcome.next.map fun ref => (outcome.heap ref).id).Nodup) :
    withEntries (store.transactionAll now fn) =
      JsonFileAbTestStore.transactionAll store.entries now fn := by
  rw [InMemoryAbTestStore.transactionAll, JsonFileAbTestStore.transactionAll]
  cases hfn : fn store.entries with
  | error error => rfl
  | ok outcome =>
      obtain ⟨heap, next, result⟩ := outcome
      have hnext : ((next.map (bumpChanged now (preSnapshots store.entries) next heap)).map
          StoredTest.id).Nodup := by
        rw [List.map_map]
        simpa only [Function.comp_def, id_bumpChanged] using h _ hfn
      simp only [withEntries, Except.map, Table.entries_ofList hnext]

theorem map_range_eq {α β : Type} {f : ℕ → β} {g : α → β} {xs : List α}
    (h : ∀ i x, xs[i]? = some x → f i = g x) : (List.range xs.length).map f = xs.map g := by
  refine List.ext_getElem (by simp) fun i hi _ => ?_
  have hlt : i < xs.length := by simpa using hi
  simpa using h i xs[i] (List.getElem?_eq_getElem hlt)

theorem map_filter_range_eq {α β : Type} {p : ℕ → Bool} {q : α → Bool} {f : ℕ → β} {g : α → β}
    {xs : List α} (hp : ∀ i x, xs[i]? = some x → p i = q x)
    (h : ∀ i x, xs[i]? = some x → q x = true → f i = g x) :
    ((List.range xs.length).filter p).map f = (xs.filter q).map g := by
  have hrange : (List.range xs.length).map (fun i => if p i then some (f i) else none) =
      xs.map fun x => if q x then some (g x) else none :=
    map_range_eq fun i x hx => by
      rw [hp i x hx]
      split_ifs with hq
      · rw [h i x hx hq]
      · rfl
  have hfilter : ∀ {γ : Type} (r : γ → Bool) (k : γ → β) (ys : List γ),
      (ys.filter r).map k = (ys.map fun y => if r y then some (k y) else none).filterMap id := by
    intro γ r k ys
    induction ys with
    | nil => rfl
    | cons y ys ih => cases hr : r y <;> simp [hr, ih]
  rw [hfilter, hfilter, hrange]

/-- No record of a document has the id. -/
structure Absent (tests : List StoredTest) (id : Text) : Prop where
  found : tests.find? (·.id = id) = none
  index : tests.findIdx? (·.id = id) = none
  others : ∀ test ∈ tests, test.id ≠ id

/-- The record of an id stands at one place of a document, and no other record has the id. -/
structure StandsAt (tests : List StoredTest) (id : Text) (i : ℕ) (before : StoredTest) : Prop where
  here : tests[i]? = some before
  id_eq : before.id = id
  found : tests.find? (·.id = id) = some before
  index : tests.findIdx? (·.id = id) = some i
  others : ∀ j other, tests[j]? = some other → j ≠ i → other.id ≠ id

theorem absent_or_standsAt (tests : List StoredTest) (distinct : (tests.map StoredTest.id).Nodup)
    (id : Text) : Absent tests id ∨ ∃ i before, StandsAt tests id i before := by
  cases hindex : tests.findIdx? (·.id = id) with
  | none =>
      have hnone : ∀ test ∈ tests, test.id ≠ id := by
        simpa [List.findIdx?_eq_none_iff] using hindex
      exact .inl ⟨find?_key_eq_none_iff.mpr hnone, hindex, hnone⟩
  | some i =>
      obtain ⟨hi, hid, -⟩ := List.findIdx?_eq_some_iff_getElem.mp hindex
      have hid' : tests[i].id = id := by simpa using hid
      refine .inr ⟨i, tests[i], List.getElem?_eq_getElem hi, hid',
        (find?_key_eq_some_iff distinct).mpr ⟨List.getElem_mem hi, hid'⟩, hindex,
        fun j other hother hne hsame => hne ?_⟩
      obtain ⟨hj, rfl⟩ := List.getElem?_eq_some_iff.mp hother
      have heq := List.inj_on_of_nodup_map distinct (List.getElem_mem hj) (List.getElem_mem hi)
        (hsame.trans hid'.symm)
      exact (List.Nodup.getElem_inj_iff distinct.of_map).mp heq

end Agreement

namespace JsonFileAbTestStore

section Place

variable {τ : Type} {tests : List StoredTest} {id : Text} {inner : Heap} {i ref : ℕ}

theorem lt_of_findIdx? (h : tests.findIdx? (·.id = id) = some i) : i < tests.length :=
  (List.findIdx?_eq_some_iff_getElem.mp h).1

theorem place_of_none (h : tests.findIdx? (·.id = id) = none) :
    place tests id ref = tests.length + ref := by
  rw [place, h]

theorem place_of_some (h : tests.findIdx? (·.id = id) = some i) :
    place tests id ref = if ref = 0 then i else tests.length + ref := by
  rw [place, h]

theorem place_injective (tests : List StoredTest) (id : Text) :
    Function.Injective (place tests id) := by
  intro ref ref' h
  cases hindex : tests.findIdx? (·.id = id) with
  | none =>
      rw [place_of_none hindex, place_of_none hindex] at h
      omega
  | some i =>
      have hlt := lt_of_findIdx? hindex
      rw [place_of_some hindex, place_of_some hindex] at h
      split_ifs at h <;> omega

theorem documentHeap_place (ref : ℕ) :
    documentHeap tests id inner (place tests id ref) = inner ref := by
  rw [documentHeap]
  cases hindex : tests.findIdx? (·.id = id) with
  | none =>
      rw [place_of_none hindex, if_neg nofun, List.getElem?_eq_none (by omega)]
      simp
  | some i =>
      have hlt := lt_of_findIdx? hindex
      rw [place_of_some hindex]
      by_cases href : ref = 0
      · rw [if_pos href, if_pos rfl, href]
      · rw [if_neg href, if_neg (by simp; omega), List.getElem?_eq_none (by omega)]
        simp

theorem documentHeap_of_ne {test : StoredTest} (htest : tests[ref]? = some test)
    (hne : tests.findIdx? (·.id = id) ≠ some ref) : documentHeap tests id inner ref = test := by
  rw [documentHeap, if_neg hne, htest]
  rfl

theorem transaction_of_refs {now : ℤ} {fn : Callback (Option StoredTest) (Option ℕ) τ}
    {refs : List ℕ} {result : Heap → τ} (hrefs : refs.Nodup)
    (h : withTest id fn tests = .ok ⟨documentHeap tests id inner, refs,
      fun final => result fun ref => final (place tests id ref)⟩) :
    transaction tests now id fn = .ok
      (result fun ref => if place tests id ref ∈ refs then
          bumped now (preSnapshots tests) (inner ref) else inner ref,
        refs.map fun ref => bumped now (preSnapshots tests) (documentHeap tests id inner ref)) := by
  rw [transaction, transactionAll, h]
  simp only [bumpChanged_eq hrefs, documentHeap_place]
  congr 2
  exact List.map_congr_left fun ref href => (bumpChanged_eq hrefs ref).trans (if_pos href)

end Place

end JsonFileAbTestStore

/-! ## One record -/

/-- What a callback may do to a record that it was given: it returns it, or it leaves it as it was,
or it returns another in its place and keeps its id. -/
def LeavesGiven {τ : Type} (id : Text) (before : StoredTest) (outcome : Outcome (Option ℕ) τ) :
    Prop :=
  match outcome.next with
  | none => (outcome.heap 0).id = id
  | some next => (outcome.heap next).id = id → next ≠ 0 →
      if outcome.heap next = before then outcome.heap 0 = before else (outcome.heap 0).id = id

section Transaction

open JsonFileAbTestStore

variable {τ : Type} {now : ℤ} {id : Text} {store : InMemoryAbTestStore}
  {fn : Callback (Option StoredTest) (Option ℕ) τ} {inner : Heap} {result : Heap → τ}

theorem transaction_agree_of_mismatch {next : ℕ}
    (hfn : fn (store.get? id) = .ok ⟨inner, some next, result⟩) (hmismatch : (inner next).id ≠ id) :
    withEntries (store.transaction now id fn) =
      JsonFileAbTestStore.transaction store.entries now id fn := by
  have hfind : fn (store.entries.find? (·.id = id)) = .ok ⟨inner, some next, result⟩ := hfn
  rw [InMemoryAbTestStore.transaction, hfn, JsonFileAbTestStore.transaction,
    JsonFileAbTestStore.transactionAll, withTest, hfind]
  simp only [if_pos hmismatch]
  rfl

section Absent

theorem Absent.documentHeap_eq {tests : List StoredTest} {i : ℕ} {test : StoredTest}
    (h : Absent tests id) (htest : tests[i]? = some test) :
    documentHeap tests id inner i = test :=
  documentHeap_of_ne htest (by rw [h.index]; nofun)

theorem Absent.place_notMem {tests : List StoredTest} (h : Absent tests id) (ref : ℕ) :
    place tests id ref ∉ List.range tests.length := by
  rw [place_of_none h.index, List.mem_range]
  omega

theorem Absent.bumped_eq {i : ℕ} {test : StoredTest} (h : Absent store.entries id)
    (htest : store.entries[i]? = some test) :
    bumped now (preSnapshots store.entries) (documentHeap store.entries id inner i) = test := by
  rw [h.documentHeap_eq htest]
  exact bumped_of_mem store.distinct (List.mem_of_getElem? htest)

theorem transaction_agree_of_nothing (h : Absent store.entries id)
    (hfn : fn none = .ok ⟨inner, none, result⟩) :
    withEntries (store.transaction now id fn) =
      JsonFileAbTestStore.transaction store.entries now id fn := by
  have hget : store.get? id = none := h.found
  have hwith : withTest id fn store.entries = .ok ⟨documentHeap store.entries id inner,
      (List.range store.entries.length).filter fun ref =>
        (documentHeap store.entries id inner ref).id ≠ id,
      fun final => result fun ref => final (place store.entries id ref)⟩ := by
    rw [withTest, h.found, hfn]
  rw [transaction_of_refs (List.nodup_range.filter _) hwith, InMemoryAbTestStore.transaction,
    hget, hfn]
  simp only [withEntries, Except.map, List.mem_filter, h.place_notMem, false_and, if_false]
  rw [map_filter_range_eq (g := fun test => test) (q := fun test => test.id ≠ id)
    (fun i test htest => by rw [h.documentHeap_eq htest]) fun i test htest _ => h.bumped_eq htest,
    List.map_id']
  rfl

theorem transaction_agree_of_created {next : ℕ} (h : Absent store.entries id)
    (hfn : fn none = .ok ⟨inner, some next, result⟩) (hid : (inner next).id = id) :
    withEntries (store.transaction now id fn) =
      JsonFileAbTestStore.transaction store.entries now id fn := by
  have hget : store.get? id = none := h.found
  have hrange : ∀ ref ∈ List.range store.entries.length,
      (documentHeap store.entries id inner ref).id ≠ id := by
    intro ref href
    rw [h.documentHeap_eq (List.getElem?_eq_getElem (List.mem_range.mp href))]
    exact h.others _ (List.getElem_mem _)
  have hupdated : (List.range store.entries.length).map (fun ref =>
      if (documentHeap store.entries id inner ref).id = id then place store.entries id next
      else ref) = List.range store.entries.length :=
    List.map_congr_left (g := fun ref => ref) (fun ref href => if_neg (hrange ref href))
      |>.trans (List.map_id' _)
  have hany : (List.range store.entries.length).any (fun ref =>
      (documentHeap store.entries id inner ref).id = id) = false := by
    simpa using hrange
  have hwith : withTest id fn store.entries = .ok ⟨documentHeap store.entries id inner,
      List.range store.entries.length ++ [place store.entries id next],
      fun final => result fun ref => final (place store.entries id ref)⟩ := by
    rw [withTest, h.found, hfn]
    simp only [hid, hupdated, hany, ne_eq, not_true_eq_false, if_false, reduceCtorEq,
      Bool.false_eq_true]
  have hnodup : (List.range store.entries.length ++ [place store.entries id next]).Nodup :=
    List.nodup_range.append (List.nodup_singleton _)
      (List.disjoint_singleton.mpr (h.place_notMem next))
  have hnew : inner next ∉ store.entries := fun hmem => h.others _ hmem hid
  have hfresh : ∀ test ∈ store.entries, test.id ≠ (bumpRevision now (inner next)).id := by
    intro test htest
    rw [bumpRevision, hid]
    exact h.others test htest
  rw [transaction_of_refs hnodup hwith, InMemoryAbTestStore.transaction, hget, hfn]
  simp only [withEntries, Except.map, hid, ne_eq, not_true_eq_false, if_false, reduceCtorEq,
    List.mem_append, h.place_notMem, false_or, List.mem_singleton, (place_injective _ id).eq_iff,
    Function.update_self]
  congr 2
  · congr 1
    funext ref
    by_cases href : ref = next
    · rw [href, if_pos rfl, Function.update_self, bumped_of_not_mem store.distinct hnew]
    · rw [if_neg href, Function.update_of_ne href]
  · rw [Table.set, dif_pos hfresh, List.map_append, List.map_singleton, documentHeap_place,
      bumped_of_not_mem store.distinct hnew,
      map_range_eq (g := fun test => test) fun _ _ => h.bumped_eq, List.map_id']

end Absent

section StandsAt

variable {tests : List StoredTest} {i j next ref : ℕ} {before test : StoredTest}

theorem StandsAt.mem (h : StandsAt tests id i before) : before ∈ tests :=
  List.mem_of_getElem? h.here

theorem StandsAt.eq (h : StandsAt tests id i before) (htest : tests[j]? = some test)
    (hj : j = i) : test = before := by
  rw [hj] at htest
  exact Option.some.inj (htest.symm.trans h.here)

theorem StandsAt.documentHeap_self (h : StandsAt tests id i before) :
    documentHeap tests id inner i = inner 0 :=
  if_pos h.index

theorem StandsAt.documentHeap_other (h : StandsAt tests id i before)
    (htest : tests[j]? = some test) (hne : j ≠ i) : documentHeap tests id inner j = test :=
  documentHeap_of_ne htest (by rw [h.index]; simpa using hne.symm)

theorem StandsAt.bumped_other (h : StandsAt store.entries id i before)
    (htest : store.entries[j]? = some test) (hne : j ≠ i) :
    bumped now (preSnapshots store.entries) (documentHeap store.entries id inner j) = test := by
  rw [h.documentHeap_other htest hne]
  exact bumped_of_mem store.distinct (List.mem_of_getElem? htest)

theorem StandsAt.place_zero (h : StandsAt tests id i before) : place tests id 0 = i := by
  rw [place_of_some h.index, if_pos rfl]

/-- Of the objects of the inner callback the given one alone is in the document. -/
theorem StandsAt.eq_zero_of_place (h : StandsAt tests id i before)
    (href : place tests id ref ∈ List.range tests.length) : ref = 0 := by
  by_contra hne
  rw [place_of_some h.index, if_neg hne, List.mem_range] at href
  omega

/-- The references of a document, with another object in the place of the given one. -/
def replacedRefs (tests : List StoredTest) (id : Text) (i next : ℕ) : List ℕ :=
  (List.range tests.length).map fun ref => if ref = i then place tests id next else ref

theorem StandsAt.replacedRefs_eq (h : StandsAt tests id i before) (hzero : (inner 0).id = id) :
    ((List.range tests.length).map fun ref =>
      if (documentHeap tests id inner ref).id = id then place tests id next else ref) =
        replacedRefs tests id i next := by
  refine List.map_congr_left fun j hj => ?_
  have htest := List.getElem?_eq_getElem (List.mem_range.mp hj)
  by_cases hji : j = i
  · rw [if_pos hji, if_pos (by rw [hji, h.documentHeap_self, hzero])]
  · rw [if_neg hji,
      if_neg (by rw [h.documentHeap_other htest hji]; exact h.others j _ htest hji)]

theorem StandsAt.mem_replacedRefs (h : StandsAt tests id i before) :
    place tests id ref ∈ replacedRefs tests id i next ↔ ref = next := by
  rw [replacedRefs, List.mem_map]
  constructor
  · rintro ⟨j, hj, heq⟩
    split_ifs at heq with hji
    · exact (place_injective _ id heq).symm
    · have href := h.eq_zero_of_place (by rwa [← heq])
      rw [href, h.place_zero] at heq
      exact absurd heq hji
  · rintro rfl
    exact ⟨i, List.mem_range.mpr (lt_of_findIdx? h.index), if_pos rfl⟩

theorem StandsAt.any_replacedRefs (h : StandsAt tests id i before) (hnext : (inner next).id = id) :
    (replacedRefs tests id i next).any (fun ref => (documentHeap tests id inner ref).id = id) =
      true := by
  refine List.any_eq_true.mpr ⟨place tests id next, h.mem_replacedRefs.mpr rfl, ?_⟩
  rw [documentHeap_place]
  exact decide_eq_true hnext

theorem StandsAt.nodup_replacedRefs (h : StandsAt tests id i before) :
    (replacedRefs tests id i next).Nodup := by
  have hplace : ∀ j < tests.length, place tests id next = j → j = i := by
    intro j hj heq
    have hzero := h.eq_zero_of_place (by rw [heq]; exact List.mem_range.mpr hj)
    rw [← heq, hzero, h.place_zero]
  refine List.Nodup.map_on (fun j hj k hk heq => ?_) List.nodup_range
  rw [List.mem_range] at hj hk
  split_ifs at heq with hji hki hki
  · rw [hji, hki]
  · rw [hji, hplace k hk heq]
  · rw [hki, hplace j hj heq.symm]
  · exact heq

theorem transaction_agree_of_deleted (h : StandsAt store.entries id i before)
    (hfn : fn (some before) = .ok ⟨inner, none, result⟩) (hgone : (inner 0).id = id) :
    withEntries (store.transaction now id fn) =
      JsonFileAbTestStore.transaction store.entries now id fn := by
  have hget : store.get? id = some before := h.found
  have hfilter : ∀ j test, store.entries[j]? = some test →
      decide ((documentHeap store.entries id inner j).id ≠ id) = decide (test.id ≠ id) := by
    intro j test htest
    by_cases hj : j = i
    · rw [h.eq htest hj, hj, h.documentHeap_self, hgone, h.id_eq]
    · rw [h.documentHeap_other htest hj]
  have hwith : withTest id fn store.entries = .ok ⟨documentHeap store.entries id inner,
      (List.range store.entries.length).filter fun ref =>
        (documentHeap store.entries id inner ref).id ≠ id,
      fun final => result fun ref => final (place store.entries id ref)⟩ := by
    rw [withTest, h.found, hfn]
  have hplace : ∀ ref, place store.entries id ref ∉
      (List.range store.entries.length).filter fun ref =>
        (documentHeap store.entries id inner ref).id ≠ id := by
    intro ref href
    obtain ⟨hrange, hother⟩ := List.mem_filter.mp href
    rw [documentHeap_place, h.eq_zero_of_place hrange] at hother
    simp [hgone] at hother
  rw [transaction_of_refs (List.nodup_range.filter _) hwith, InMemoryAbTestStore.transaction,
    hget, hfn]
  simp only [withEntries, Except.map, hplace, if_false]
  rw [map_filter_range_eq (g := fun test => test) hfilter fun j test htest hq => ?_,
    List.map_id']
  · rfl
  · refine h.bumped_other htest fun hj => ?_
    rw [h.eq htest hj] at hq
    simp [h.id_eq] at hq

theorem transaction_agree_of_unchanged (h : StandsAt store.entries id i before)
    (hfn : fn (some before) = .ok ⟨inner, some next, result⟩) (hsame : inner next = before)
    (hzero : inner 0 = before) :
    withEntries (store.transaction now id fn) =
      JsonFileAbTestStore.transaction store.entries now id fn := by
  have hget : store.get? id = some before := h.found
  have hwith : withTest id fn store.entries = .ok ⟨documentHeap store.entries id inner,
      List.range store.entries.length,
      fun final => result fun ref => final (place store.entries id ref)⟩ := by
    rw [withTest, h.found, hfn]
    simp only [hsame, h.id_eq, ne_eq, not_true_eq_false, if_false, if_true]
  rw [transaction_of_refs List.nodup_range hwith, InMemoryAbTestStore.transaction, hget, hfn]
  simp only [withEntries, Except.map, hsame, h.id_eq, ne_eq, not_true_eq_false, if_false, if_true]
  congr 2
  · congr 1
    funext ref
    split_ifs with href
    · rw [h.eq_zero_of_place href, hzero, bumped_of_mem store.distinct h.mem]
    · rfl
  · rw [map_range_eq (g := fun test => test) fun j test htest => ?_, List.map_id']
    by_cases hj : j = i
    · rw [hj, h.documentHeap_self, hzero, bumped_of_mem store.distinct h.mem, h.eq htest hj]
    · exact h.bumped_other htest hj

theorem transaction_agree_of_replaced (h : StandsAt store.entries id i before)
    (hfn : fn (some before) = .ok ⟨inner, some next, result⟩) (hnext : (inner next).id = id)
    (hchanged : before ≠ inner next) (hzero : (inner 0).id = id) :
    withEntries (store.transaction now id fn) =
      JsonFileAbTestStore.transaction store.entries now id fn := by
  have hget : store.get? id = some before := h.found
  have hnew : inner next ∉ store.entries := by
    intro hnew
    obtain ⟨j, hj⟩ := List.mem_iff_getElem?.mp hnew
    by_cases hji : j = i
    · exact hchanged (h.eq hj hji).symm
    · exact h.others j _ hj hji hnext
  have hwith : withTest id fn store.entries = .ok ⟨documentHeap store.entries id inner,
      replacedRefs store.entries id i next,
      fun final => result fun ref => final (place store.entries id ref)⟩ := by
    rw [withTest, h.found, hfn]
    simp only [hnext, h.replacedRefs_eq hzero, h.any_replacedRefs hnext, ne_eq, not_true_eq_false,
      if_false, Option.some.injEq, hchanged, if_true]
  have htaken : ¬ ∀ test ∈ store.entries, test.id ≠ (bumpRevision now (inner next)).id :=
    fun hfresh => hfresh before h.mem (h.id_eq.trans hnext.symm)
  have hset : (store.set (bumpRevision now (inner next))).entries =
      replaceBy StoredTest.id store.entries (bumpRevision now (inner next)) := by
    rw [Table.set, dif_neg htaken]
  rw [transaction_of_refs h.nodup_replacedRefs hwith, InMemoryAbTestStore.transaction, hget, hfn]
  simp only [withEntries, Except.map, hnext, ne_eq, not_true_eq_false, if_false,
    Option.some.injEq, hchanged, h.mem_replacedRefs, Function.update_self]
  congr 2
  · congr 1
    funext ref
    by_cases href : ref = next
    · rw [href, if_pos rfl, Function.update_self, bumped_of_not_mem store.distinct hnew]
    · rw [if_neg href, Function.update_of_ne href]
  · rw [hset, replacedRefs, List.map_map, replaceBy]
    refine (map_range_eq fun j test htest => ?_).symm
    have hkey : (bumpRevision now (inner next)).id = id := hnext
    by_cases hji : j = i
    · rw [Function.comp_apply, if_pos hji, documentHeap_place,
        bumped_of_not_mem store.distinct hnew, h.eq htest hji, hkey, if_pos h.id_eq]
    · rw [Function.comp_apply, if_neg hji, hkey, if_neg (h.others j test htest hji)]
      exact h.bumped_other htest hji

end StandsAt

/-- A transaction that leaves alone what it is given and does not return. -/
theorem transaction_agree (h : ∀ before outcome, store.get? id = some before →
    fn (some before) = .ok outcome → LeavesGiven id before outcome) :
    withEntries (store.transaction now id fn) =
      JsonFileAbTestStore.transaction store.entries now id fn := by
  cases hfn : fn (store.get? id) with
  | error error =>
      rw [InMemoryAbTestStore.transaction, hfn, JsonFileAbTestStore.transaction,
        JsonFileAbTestStore.transactionAll, withTest]
      have hfind : fn (store.entries.find? (·.id = id)) = .error error := hfn
      rw [hfind]
      rfl
  | ok outcome =>
      obtain ⟨inner, next, result⟩ := outcome
      obtain habsent | ⟨i, before, hgiven⟩ := absent_or_standsAt store.entries store.distinct id
      · have hget : store.get? id = none := habsent.found
        cases next with
        | none => exact transaction_agree_of_nothing habsent (by rw [← hget, hfn])
        | some next =>
            by_cases hid : (inner next).id = id
            · exact transaction_agree_of_created habsent (by rw [← hget, hfn]) hid
            · exact transaction_agree_of_mismatch hfn hid
      · have hget : store.get? id = some before := hgiven.found
        have hfnGiven := hget ▸ hfn
        have hleaves := h before _ hget hfnGiven
        cases next with
        | none => exact transaction_agree_of_deleted hgiven hfnGiven hleaves
        | some next =>
            by_cases hid : (inner next).id = id
            · by_cases hsame : inner next = before
              · refine transaction_agree_of_unchanged hgiven hfnGiven hsame ?_
                by_cases hnext : next = 0
                · rw [← hnext, hsame]
                · simpa only [if_pos hsame] using hleaves hid hnext
              · refine transaction_agree_of_replaced hgiven hfnGiven hid (Ne.symm hsame) ?_
                by_cases hnext : next = 0
                · rw [← hnext, hid]
                · simpa only [if_neg hsame] using hleaves hid hnext
            · exact transaction_agree_of_mismatch hfn hid

end Transaction

/-! ## Revisions -/

/-- A revision grows by one where the record changes, and not at all where it does not. -/
def RevisionsFollow (before after : List StoredTest) : Prop :=
  ∀ old ∈ before, ∀ new ∈ after, new.id = old.id →
    new.revision.getD 0 = old.revision.getD 0 + if new = old then 0 else 1

section Revisions

variable {τ : Type} {now : ℤ} {id : Text} {store : InMemoryAbTestStore} {new old : StoredTest}

/-- A record that is bumped follows the one that it had the revision of. -/
theorem revision_bumpRevision (h : new.revision.getD 0 = old.revision.getD 0) :
    (bumpRevision now new).revision.getD 0 =
      old.revision.getD 0 + if bumpRevision now new = old then 0 else 1 := by
  have hbumped : (bumpRevision now new).revision.getD 0 = old.revision.getD 0 + 1 := by
    rw [← h]
    rfl
  have hne : bumpRevision now new ≠ old := by
    intro heq
    rw [heq] at hbumped
    omega
  rw [if_neg hne, hbumped]

theorem eq_of_id_eq (hnew : new ∈ store.entries) (hold : old ∈ store.entries)
    (h : new.id = old.id) : new = old :=
  List.inj_on_of_nodup_map store.distinct hnew hold h

theorem revision_of_mem (hnew : new ∈ store.entries) (hold : old ∈ store.entries)
    (h : new.id = old.id) :
    new.revision.getD 0 = old.revision.getD 0 + if new = old then 0 else 1 := by
  rw [eq_of_id_eq hnew hold h, if_pos rfl, Nat.add_zero]

theorem revisionsFollow_refl (store : InMemoryAbTestStore) :
    RevisionsFollow store.entries store.entries :=
  fun _ hold _ hnew h => revision_of_mem hnew hold h

theorem revisionsFollow_transaction {fn : Callback (Option StoredTest) (Option ℕ) τ}
    (h : ∀ before outcome next, store.get? id = some before → fn (some before) = .ok outcome →
      outcome.next = some next → (outcome.heap next).id = id →
        (outcome.heap next).revision.getD 0 = before.revision.getD 0)
    {result : τ} {after : InMemoryAbTestStore}
    (hafter : store.transaction now id fn = .ok (result, after)) :
    RevisionsFollow store.entries after.entries := by
  rw [InMemoryAbTestStore.transaction] at hafter
  split at hafter
  · cases hafter
  · cases hafter
    exact fun old hold new hnew hid => revision_of_mem (List.mem_filter.mp hnew).1 hold hid
  · rename_i heap next read hfn
    split_ifs at hafter with hid hsame
    · cases hafter
      exact revisionsFollow_refl store
    · rw [not_not] at hid
      cases hafter
      intro old hold new hnew hnewId
      rw [Function.update_self, Table.mem_set] at hnew
      obtain rfl | ⟨hnew, -⟩ := hnew
      · have hget : store.get? id = some old :=
          Table.get?_eq_some_iff.mpr ⟨hold, hnewId.symm.trans hid⟩
        rw [hget] at hfn
        exact revision_bumpRevision (h old _ next hget hfn rfl hid)
      · exact revision_of_mem hnew hold hnewId

/-- A transaction over all records that leaves the revisions to the store. -/
theorem revisionsFollow_transactionAll {fn : Callback (List StoredTest) (List ℕ) τ}
    (h : ∀ outcome, fn store.entries = .ok outcome →
      (outcome.next.map fun ref => (outcome.heap ref).id).Nodup ∧
        ∀ ref ∈ outcome.next, ∀ test ∈ store.entries, test.id = (outcome.heap ref).id →
          (outcome.heap ref).revision.getD 0 = test.revision.getD 0)
    {result : τ} {after : InMemoryAbTestStore}
    (hafter : store.transactionAll now fn = .ok (result, after)) :
    RevisionsFollow store.entries after.entries := by
  rw [InMemoryAbTestStore.transactionAll] at hafter
  split at hafter
  · cases hafter
  · rename_i heap next read hfn
    obtain ⟨hnodup, hrevision⟩ := h _ hfn
    cases hafter
    intro old hold new hnew hid
    obtain ⟨ref, href, rfl⟩ := List.mem_map.mp (Table.mem_of_mem_ofList hnew)
    rw [id_bumpChanged] at hid
    rw [bumpChanged_eq hnodup.of_map, if_pos href]
    by_cases hmem : heap ref ∈ store.entries
    · rw [bumped_of_mem store.distinct hmem]
      exact revision_of_mem hmem hold hid
    · rw [bumped_of_not_mem store.distinct hmem]
      exact revision_bumpRevision (hrevision ref href old hold hid.symm)

end Revisions

/-! ## Runs -/

section Runs

variable {τ : Type}

theorem callAll_cons {σ : Type} (call : σ → StoreCall τ → Except Text (StoreReply τ) × σ)
    (store : σ) (first : StoreCall τ) (calls : List (StoreCall τ)) :
    callAll call store (first :: calls) =
      ((call store first).1 :: (callAll call (call store first).2 calls).1,
        (callAll call (call store first).2 calls).2) :=
  rfl

/-- What a call may do to a store: a record that a callback is given and does not return is left
alone, each id is returned once, and the revisions are left to the store. -/
def StoreCall.Meets (tests : List StoredTest) : StoreCall τ → Prop
  | .get _ | .list _ => True
  | .transaction _ id fn => ∀ before outcome, tests.find? (·.id = id) = some before →
      fn (some before) = .ok outcome → LeavesGiven id before outcome ∧
        ∀ next, outcome.next = some next → (outcome.heap next).id = id →
          (outcome.heap next).revision.getD 0 = before.revision.getD 0
  | .transactionAll _ fn => ∀ outcome, fn tests = .ok outcome →
      (outcome.next.map fun ref => (outcome.heap ref).id).Nodup ∧
        ∀ ref ∈ outcome.next, ∀ test ∈ tests, test.id = (outcome.heap ref).id →
          (outcome.heap ref).revision.getD 0 = test.revision.getD 0

/-- Every call meets the condition in the store that it is made on. -/
def AllMeet : JsonFileAbTestStore → List (StoreCall τ) → Prop
  | _, [] => True
  | store, call :: calls => call.Meets store ∧ AllMeet (store.call call).2 calls

/-- What one call does: it leaves the store where it rejects, and the revisions follow. -/
def CallKeeps (store : JsonFileAbTestStore) (call : StoreCall τ) : Prop :=
  (∀ error, (store.call call).1 = .error error → (store.call call).2 = store) ∧
    RevisionsFollow store (store.call call).2

theorem committed_withEntries {store : InMemoryAbTestStore}
    (outcome : Except Text (τ × InMemoryAbTestStore)) :
    Prod.map id Table.entries (committed store outcome) =
      committed store.entries (withEntries outcome) := by
  cases outcome <;> rfl

theorem call_agree {store : InMemoryAbTestStore} {call : StoreCall τ}
    (h : call.Meets store.entries) :
    Prod.map id Table.entries (store.call call) =
      JsonFileAbTestStore.call store.entries call := by
  cases call with
  | get id => rfl
  | list status => cases status <;> rfl
  | transaction now id fn =>
      rw [InMemoryAbTestStore.call, JsonFileAbTestStore.call, committed_withEntries,
        transaction_agree fun before outcome hget hfn => (h before outcome hget hfn).1]
  | transactionAll now fn =>
      rw [InMemoryAbTestStore.call, JsonFileAbTestStore.call, committed_withEntries,
        transactionAll_agree fun outcome hfn => (h outcome hfn).1]

theorem callKeeps_of_meets {store : InMemoryAbTestStore} {call : StoreCall τ}
    (h : call.Meets store.entries) : CallKeeps store.entries call := by
  rw [CallKeeps, ← call_agree h]
  cases call with
  | get id => exact ⟨nofun, revisionsFollow_refl store⟩
  | list status => exact ⟨nofun, revisionsFollow_refl store⟩
  | transaction now id fn =>
      rw [InMemoryAbTestStore.call]
      cases hafter : store.transaction now id fn with
      | error error => exact ⟨fun _ _ => rfl, revisionsFollow_refl store⟩
      | ok committed =>
          exact ⟨nofun, revisionsFollow_transaction (fun before outcome next hget hfn =>
            (h before outcome hget hfn).2 next) hafter⟩
  | transactionAll now fn =>
      rw [InMemoryAbTestStore.call]
      cases hafter : store.transactionAll now fn with
      | error error => exact ⟨fun _ _ => rfl, revisionsFollow_refl store⟩
      | ok committed => exact ⟨nofun, revisionsFollow_transactionAll h hafter⟩

/-- In a run whose calls meet the condition the two stores give the same replies and hold the same
records in the same order; a call that rejects changes nothing, and revisions follow the records. -/
theorem stores_agree (store : InMemoryAbTestStore) (calls : List (StoreCall τ))
    (h : AllMeet store.entries calls) :
    Prod.map id Table.entries
        (callAll InMemoryAbTestStore.call store calls) =
      callAll JsonFileAbTestStore.call store.entries calls ∧
    ∀ first call rest, calls = first ++ call :: rest →
      CallKeeps (callAll JsonFileAbTestStore.call store.entries first).2 call := by
  induction calls generalizing store with
  | nil => exact ⟨rfl, fun first call rest heq => absurd heq (by simp)⟩
  | cons call calls ih =>
      obtain ⟨hcall, hcalls⟩ := h
      have hagree := call_agree hcall
      have hstore : (store.call call).2.entries = (JsonFileAbTestStore.call store.entries call).2 :=
        congrArg Prod.snd hagree
      have hreply : (store.call call).1 = (JsonFileAbTestStore.call store.entries call).1 :=
        congrArg Prod.fst hagree
      rw [← hstore] at hcalls
      obtain ⟨hrest, hkeeps⟩ := ih (store.call call).2 hcalls
      rw [hstore] at hrest hkeeps
      refine ⟨?_, fun first other rest heq => ?_⟩
      · rw [callAll_cons, callAll_cons, ← hrest, ← hreply]
        rfl
      · cases first with
        | nil =>
            rw [List.nil_append, List.cons.injEq] at heq
            rw [← heq.1]
            exact callKeeps_of_meets hcall
        | cons head first =>
            rw [List.cons_append, List.cons.injEq] at heq
            obtain ⟨rfl, heq⟩ := heq
            exact hkeeps first other rest heq

end Runs

def sampleStoredTest : StoredTest := ⟨"test-1", "draft", none, 0, "\x7b\x7d"⟩

/-- Change the record that is given in place; the object after it stays what it was. -/
def changeGiven (change : StoredTest → StoredTest) : Callback (Option StoredTest) (Option ℕ) Unit
  | none => .error "missing"
  | some before => .ok ⟨fun ref => if ref = 0 then change before else before, some 0, fun _ => ()⟩

/-- Leave the record that is given and return a fresh one in its place. -/
def replaceGiven (change : StoredTest → StoredTest) : Callback (Option StoredTest) (Option ℕ) Unit
  | none => .error "missing"
  | some before => .ok ⟨fun ref => if ref = 0 then before else change before, some 1, fun _ => ()⟩

/-- Return all records, the first of them changed, and one more. -/
def changeFirst (change : StoredTest → StoredTest) (another : StoredTest) :
    Callback (List StoredTest) (List ℕ) Unit := fun tests =>
  .ok ⟨fun ref => if ref = 0 then change (tests[0]?.getD another) else tests[ref]?.getD another,
    List.range (tests.length + 1), fun _ => ()⟩

/-- A test that is made, changed in place, replaced by a fresh record, changed again next to
a second one, and missed under another id. -/
def draftCalls : List (StoreCall Unit) :=
  [.transaction 5 "test-1" fun _ => .ok ⟨fun _ => sampleStoredTest, some 0, fun _ => ()⟩,
    .transaction 6 "test-1" (changeGiven fun test => { test with status := "scheduled" }),
    .transaction 7 "test-1" (replaceGiven fun test => { test with status := "running" }),
    .transactionAll 8 (changeFirst (fun test => { test with status := "completed" })
      { sampleStoredTest with id := "test-2" }),
    .transaction 9 "test-3" (changeGiven id),
    .get "test-1"]

def draftDocument (n : ℕ) : JsonFileAbTestStore :=
  (callAll JsonFileAbTestStore.call [] (draftCalls.take n)).2

theorem draftDocument_three :
    draftDocument 3 = [⟨"test-1", "running", some 3, 7, "\x7b\x7d"⟩] := by
  decide +kernel

theorem meets_changeGiven {tests : List StoredTest} {now : ℤ} {id : Text}
    {change : StoredTest → StoredTest} (hrevision : ∀ test, (change test).revision = test.revision) :
    (StoreCall.transaction now id (changeGiven change)).Meets tests := by
  intro before outcome _ hfn
  obtain rfl := Except.ok.inj hfn
  refine ⟨fun _ hne => absurd rfl hne, fun next hnext _ => ?_⟩
  obtain rfl := Option.some.inj hnext
  exact congrArg (Option.getD · 0) (hrevision before)

theorem meets_replaceGiven {tests : List StoredTest} {now : ℤ} {id : Text}
    {change : StoredTest → StoredTest} (hrevision : ∀ test, (change test).revision = test.revision) :
    (StoreCall.transaction now id (replaceGiven change)).Meets tests := by
  intro before outcome hfind hfn
  obtain rfl := Except.ok.inj hfn
  have hid : before.id = id := by simpa using List.find?_some hfind
  refine ⟨fun _ _ => ?_, fun next hnext _ => ?_⟩
  · -- The record that was given is as it was, whatever the fresh one is.
    split_ifs
    · rfl
    · exact hid
  · obtain rfl := Option.some.inj hnext
    exact congrArg (Option.getD · 0) (hrevision before)

/-- Every call of the list is made on the document that the calls before it left. -/
theorem allMeet_draftCalls : AllMeet [] draftCalls := by
  refine ⟨nofun, meets_changeGiven fun _ => rfl, meets_replaceGiven fun _ => rfl, ?_,
    meets_changeGiven fun _ => rfl, trivial, trivial⟩
  change StoreCall.Meets (draftDocument 3) _
  rw [draftDocument_three]
  intro outcome hfn
  obtain rfl := Except.ok.inj hfn
  decide

/-- Two stores that make, change, replace and add records, with a call that throws in between. -/
theorem stores_agree_draftCalls :
    Prod.map id Table.entries
        (callAll InMemoryAbTestStore.call (Table.empty StoredTest.id) draftCalls) =
      callAll JsonFileAbTestStore.call [] draftCalls ∧
    (∀ first call rest, draftCalls = first ++ call :: rest →
      CallKeeps (callAll JsonFileAbTestStore.call [] first).2 call) ∧
    (callAll JsonFileAbTestStore.call [] draftCalls).2.map (fun test => (test.id, test.revision)) =
      [(("test-1" : Text), some 4), (("test-2" : Text), some 1)] := by
  have hagree := stores_agree (Table.empty StoredTest.id) draftCalls allMeet_draftCalls
  exact ⟨hagree.1, hagree.2, by decide +kernel⟩

/-- A callback that returns two records of one id. -/
def twiceCalls : List (StoreCall Unit) :=
  [.transactionAll 5 fun _ => .ok ⟨fun _ => sampleStoredTest, [0, 1], fun _ => ()⟩]

/-- The in-memory store keeps one of them, the JSON file both. -/
theorem not_stores_agree_twiceCalls :
    (callAll InMemoryAbTestStore.call (Table.empty StoredTest.id) twiceCalls).2.entries ≠
      (callAll JsonFileAbTestStore.call [] twiceCalls).2 := by
  decide

end ListmonkOps.Experiment
