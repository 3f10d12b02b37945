/-
JSON values and the JSON file store.

Every store of the system is one JSON document. An update reads and parses the
document, computes the next value, checks that the next value parses, and
replaces the file; whatever throws on the way leaves the file as it was. The
file lock makes one update atomic, so an update is a function here.
-/

import ListmonkOps.Runtime.Text
import Mathlib.Algebra.Order.Ring.Rat
import Mathlib.Data.List.Forall2

namespace ListmonkOps.Runtime

universe u v

/-! ## JSON values -/

inductive Json where
  | null
  | bool (value : Bool)
  | number (value : ℚ)
  | string (value : Text)
  | array (items : List Json)
  | object (members : List (Text × Json))

namespace Json

mutual

/-- `isDeepStrictEqual` on JSON values: the order of object members does not
count. -/
def deepStrictEqual : Json → Json → Bool
  | null, null => true
  | bool a, bool b => a = b
  | number a, number b => a = b
  | string a, string b => a = b
  | array as, array bs => itemsEqual as bs
  | object as, object bs => as.length = bs.length && membersEqual as bs
  | _, _ => false

def itemsEqual : List Json → List Json → Bool
  | [], [] => true
  | a :: as, b :: bs => deepStrictEqual a b && itemsEqual as bs
  | _, _ => false

/-- Every member on the left has an equal one on the right. -/
def membersEqual : List (Text × Json) → List (Text × Json) → Bool
  | [], _ => true
  | (name, a) :: as, bs =>
      (match bs.lookup name with
        | some b => deepStrictEqual a b
        | none => false) && membersEqual as bs

end

/-- An own member of an object; `none` stands for `undefined`. -/
def member? : Json → Text → Option Json
  | object members, name => members.lookup name
  | _, _ => none

/-- Equality of two values that may be `undefined`. -/
def optionDeepStrictEqual : Option Json → Option Json → Bool
  | none, none => true
  | some a, some b => deepStrictEqual a b
  | _, _ => false

end Json

/-! ## Computations that may throw -/

section Throwing

variable {α : Type u} {ε : Type v} {f g : α → Except ε α} {xs ys : List α}

@[simp]
theorem except_ok_bind {β : Type u} {b : β} {next : β → Except ε α} :
    (Except.ok b >>= next) = next b := rfl

@[simp]
theorem except_error_bind {β : Type u} {error : ε} {next : β → Except ε α} :
    (Except.error error >>= next) = .error error := rfl

theorem except_bind_eq_ok {β : Type u} {x : Except ε β} {next : β → Except ε α} {a : α} :
    (x >>= next) = .ok a ↔ ∃ b, x = .ok b ∧ next b = .ok a := by
  cases x <;> simp [bind, Except.bind]

theorem toOption_eq_some_iff {x : Except ε α} {a : α} : x.toOption = some a ↔ x = .ok a := by
  cases x <;> simp [Except.toOption]

/-- A computation that returns values of one kind and throws errors of another. -/
def Yields (x : Except ε α) (returns : α → Prop) (throws : ε → Prop) : Prop :=
  match x with
  | .ok a => returns a
  | .error error => throws error

theorem Yields.bind {β : Type u} {x : Except ε β} {next : β → Except ε α} {middle : β → Prop}
    {returns : α → Prop} {throws : ε → Prop} (h : Yields x middle throws)
    (hnext : ∀ b, middle b → Yields (next b) returns throws) :
    Yields (x >>= next) returns throws := by
  cases x with
  | ok b => exact hnext b h
  | error error => exact h

theorem Yields.mono {x : Except ε α} {returns returns' : α → Prop} {throws throws' : ε → Prop}
    (h : Yields x returns throws) (hreturns : ∀ a, returns a → returns' a)
    (hthrows : ∀ error, throws error → throws' error) : Yields x returns' throws' := by
  cases x with
  | ok a => exact hreturns a h
  | error error => exact hthrows error h

theorem mapM_eq_ok_iff {β : Type*} {f : β → Except ε α} {xs : List β} :
    xs.mapM f = .ok ys ↔ List.Forall₂ (fun x y => f x = .ok y) xs ys := by
  induction xs generalizing ys with
  | nil =>
      rw [List.mapM_nil, List.forall₂_nil_left_iff]
      exact ⟨fun h => (Except.ok.inj h).symm, fun h => by rw [h]; rfl⟩
  | cons x xs ih =>
      rw [List.mapM_cons, List.forall₂_cons_left_iff]
      cases hx : f x with
      | error error => simp [bind, Except.bind]
      | ok y =>
          cases hxs : xs.mapM f with
          | error error =>
              simp only [bind, Except.bind, reduceCtorEq, false_iff, not_exists, not_and]
              rintro _ rest - hrest -
              rw [ih.mpr hrest] at hxs
              simp at hxs
          | ok rest =>
              simp only [bind, Except.bind, pure, Except.pure, Except.ok.injEq]
              constructor
              · rintro rfl
                exact ⟨y, rest, rfl, ih.mp hxs, rfl⟩
              · rintro ⟨y', rest', rfl, hrest, rfl⟩
                rw [ih.mpr hrest] at hxs
                rw [Except.ok.inj hxs]

theorem mapM_eq_self_iff : xs.mapM f = .ok xs ↔ ∀ x ∈ xs, f x = .ok x := by
  rw [mapM_eq_ok_iff, List.forall₂_same]

/-- Parsing a parsed list again changes nothing. -/
theorem mapM_stable (hstable : ∀ {x y}, f x = .ok y → g y = .ok y) (h : xs.mapM f = .ok ys) :
    ys.mapM g = .ok ys := by
  rw [mapM_eq_self_iff]
  intro y hy
  obtain ⟨i, hi, rfl⟩ := List.mem_iff_getElem.mp hy
  have hforall := mapM_eq_ok_iff.mp h
  have hlength := hforall.length_eq
  exact hstable (List.forall₂_iff_get.mp hforall |>.2 i (by omega) hi)

end Throwing

/-! ## The JSON file store -/

/-- A JSON document with its parser. -/
structure JsonFileStore (α : Type u) (ε : Type v) where
  /-- The value of a missing file. -/
  createDefault : α
  /-- The parser of the document. -/
  parse : α → Except ε α
  /-- The `TypeError` of a value that fails the parser before it is written. -/
  invalid : ε

namespace JsonFileStore

variable {α ρ : Type u} {ε : Type v} (store : JsonFileStore α ε)
variable {update : α → Except ε (α × ρ)} {file next : α} {result : ρ}

/-- `updateJsonFileStore`: the next content of the file and the result. -/
def updateJsonFileStore (update : α → Except ε (α × ρ)) (file : α) : Except ε (α × ρ) := do
  let current ← store.parse file
  let (next, result) ← update current
  match store.parse next with
  | .ok _ => .ok (next, result)
  | .error _ => .error store.invalid

/-- What an update leaves in the file, and what its caller sees. -/
def exec (update : α → Except ε (α × ρ)) (file : α) : α × Except ε ρ :=
  match store.updateJsonFileStore update file with
  | .ok (next, result) => (next, .ok result)
  | .error error => (file, .error error)

theorem updateJsonFileStore_eq_ok_iff :
    store.updateJsonFileStore update file = .ok (next, result) ↔
      ∃ current, store.parse file = .ok current ∧ update current = .ok (next, result) ∧
        ∃ parsed, store.parse next = .ok parsed := by
  unfold updateJsonFileStore
  cases hread : store.parse file with
  | error error => simp [bind, Except.bind]
  | ok current =>
      cases hupdate : update current with
      | error error => simp [bind, Except.bind, hupdate]
      | ok step =>
          obtain ⟨value, outcome⟩ := step
          cases hwrite : store.parse value with
          | error error =>
              simp only [bind, Except.bind, hupdate, hwrite, reduceCtorEq, Except.ok.injEq,
                Prod.mk.injEq, exists_eq_left', false_iff, not_exists, not_and]
              rintro ⟨rfl, rfl⟩ parsed
              simp [hwrite]
          | ok parsed =>
              simp only [bind, Except.bind, hupdate, hwrite, Except.ok.injEq, Prod.mk.injEq,
                exists_eq_left']
              constructor
              · rintro ⟨rfl, rfl⟩
                exact ⟨⟨rfl, rfl⟩, parsed, hwrite⟩
              · rintro ⟨⟨rfl, rfl⟩, -⟩
                exact ⟨rfl, rfl⟩

/-- A successful update is one of a document that parses, by a value that
parses. -/
theorem exec_of_ok (h : store.exec update file = (next, .ok result)) :
    ∃ current, store.parse file = .ok current ∧ update current = .ok (next, result) ∧
      ∃ parsed, store.parse next = .ok parsed := by
  unfold exec at h
  split at h
  · next value outcome hok =>
      obtain ⟨rfl, houtcome⟩ := Prod.mk.inj h
      obtain rfl := Except.ok.inj houtcome
      exact (updateJsonFileStore_eq_ok_iff store).mp hok
  · simp at h

theorem exec_of_error {error : ε} (h : store.exec update file = (next, .error error)) :
    next = file := by
  unfold exec at h
  split at h
  · simp at h
  · exact (Prod.mk.inj h).1.symm

/-- What an update throws: an error of the read, one of its own, or the one of a
value that is not written. -/
theorem exec_error_cases {error : ε} (h : (store.exec update file).2 = .error error) :
    store.parse file = .error error ∨
      (∃ current, store.parse file = .ok current ∧ update current = .error error) ∨
      error = store.invalid := by
  cases hread : store.parse file with
  | error error' =>
      refine .inl ?_
      simpa [exec, updateJsonFileStore, hread] using h
  | ok current =>
      cases hupdate : update current with
      | error error' =>
          refine .inr (.inl ⟨current, rfl, ?_⟩)
          simpa [exec, updateJsonFileStore, hread, hupdate] using h
      | ok step =>
          obtain ⟨value, outcome⟩ := step
          cases hwrite : store.parse value with
          | error error' =>
              refine .inr (.inr ?_)
              simpa [exec, updateJsonFileStore, hread, hupdate, hwrite] using h.symm
          | ok parsed => simp [exec, updateJsonFileStore, hread, hupdate, hwrite] at h

/-- On a document that parses to itself, an update whose value parses takes
effect. -/
theorem exec_eq_ok {parsed : α} (hread : store.parse file = .ok file)
    (hupdate : update file = .ok (next, result)) (hwrite : store.parse next = .ok parsed) :
    store.exec update file = (next, .ok result) := by
  have hok : store.updateJsonFileStore update file = .ok (next, result) :=
    (updateJsonFileStore_eq_ok_iff store).mpr ⟨file, hread, hupdate, parsed, hwrite⟩
  simp [exec, hok]

theorem exec_eq_error {error : ε} (hread : store.parse file = .ok file)
    (hupdate : update file = .error error) :
    store.exec update file = (file, .error error) := by
  simp [exec, updateJsonFileStore, hread, hupdate, bind, Except.bind]

end JsonFileStore

/-- How the file system can fail an update: a lock timeout or an input/output
error before the file is replaced, or a lock that cannot be released after. -/
inductive StoreFault (ε : Type v) where
  /-- The file still has its old content. -/
  | beforeWrite (error : ε)
  /-- The file was replaced, yet the caller sees an error. -/
  | afterWrite (error : ε)

def withFault {α ρ : Type u} {ε : Type v} (fault : Option (StoreFault ε))
    (update : α → α × Except ε ρ) (file : α) : α × Except ε ρ :=
  match fault with
  | none => update file
  | some (.beforeWrite error) => (file, .error error)
  | some (.afterWrite error) => ((update file).1, .error error)

end ListmonkOps.Runtime
