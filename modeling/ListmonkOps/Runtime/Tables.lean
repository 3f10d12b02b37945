/-
Objects that serve as tables.

A plain object inherits members that were never put into it, so a look-up by a
key from outside may find one of those instead of nothing.
-/

import ListmonkOps.Runtime.Text

namespace ListmonkOps.Runtime

/-- What a table holds under a key: a value of its own, or a function or object
that every plain object inherits. -/
inductive TableEntry (α : Type) where
  | own (value : α)
  | inherited (name : Text)
  deriving DecidableEq

/-- The names that a plain object inherits. -/
def inheritedNames : List Text :=
  ["constructor", "__defineGetter__", "__defineSetter__", "hasOwnProperty", "__lookupGetter__",
    "__lookupSetter__", "isPrototypeOf", "propertyIsEnumerable", "toString", "valueOf",
    "__proto__", "toLocaleString"]

section Read

variable {α : Type} {table : List (Text × α)} {key : Text}

/-- `table[key]`. -/
def readTable (table : List (Text × α)) (key : Text) : Option (TableEntry α) :=
  match table.lookup key with
  | some value => some (.own value)
  | none => if key ∈ inheritedNames then some (.inherited key) else none

/-- Something is found under the keys of the table and under the inherited names. -/
theorem readTable_isSome_iff :
    (readTable table key).isSome ↔ key ∈ table.map Prod.fst ∨ key ∈ inheritedNames := by
  have hown : table.lookup key = none ↔ key ∉ table.map Prod.fst := by
    rw [List.lookup_eq_none_iff]
    simp only [bne_iff_ne, ne_eq, List.mem_map, not_exists, not_and]
    exact ⟨fun h entry hentry heq => h entry hentry heq.symm,
      fun h entry hentry heq => h entry hentry heq.symm⟩
  unfold readTable
  cases hentry : table.lookup key with
  | some value =>
      have hmem : key ∈ table.map Prod.fst := by
        by_contra hnot
        simp [hown.mpr hnot] at hentry
      simp [hmem]
  | none =>
      have hnot := hown.mp hentry
      by_cases h : key ∈ inheritedNames <;> simp only [h, hnot, if_true, if_false] <;> simp

theorem mem_of_readTable_own {value : α} (h : readTable table key = some (.own value)) :
    (key, value) ∈ table := by
  unfold readTable at h
  split at h
  · next value' hvalue =>
      obtain ⟨before, after, rfl, -⟩ := List.lookup_eq_some_iff.mp hvalue
      cases h
      simp
  · split at h <;> cases h

theorem readTable_eq_some {entry : TableEntry α} (h : readTable table key = some entry)
    (hown : key ∉ inheritedNames) : ∃ value, entry = .own value ∧ (key, value) ∈ table := by
  cases entry with
  | own value => exact ⟨value, rfl, mem_of_readTable_own h⟩
  | inherited name =>
      unfold readTable at h
      split at h
      · cases h
      · simp [hown] at h

end Read

end ListmonkOps.Runtime
