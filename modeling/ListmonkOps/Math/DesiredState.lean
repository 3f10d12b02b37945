/-
Tables whose rows are brought to a desired state by name.

A row has a number, which no other row has, and a name, which others may have. An entry
asks for a row of a name, and is reached when one row alone has the name and is as the
entry asks. To get there a row is added where none has the name, or the only one that has
it is changed. `Advanced` says what has become of the rows of one name, `Progress` what of
the table when some of the entries were worked off, and `Kept` what is left of it after
any number of attempts.
-/

import Mathlib.Algebra.Order.Ring.Int
import Mathlib.Data.List.Nodup

namespace ListmonkOps.Math

/-- Rows, and the number that the next one is given. -/
structure NumberedTable (Row : Type) where
  rows : List Row
  next : ℤ

/-- What the rows of a table and the entries that ask for them are. -/
structure DesiredState (Row D κ : Type) where
  number : Row → ℤ
  name : Row → κ
  wanted : D → κ
  Settled : D → Row → Prop

namespace DesiredState

variable {Row D κ : Type} [DecidableEq κ] (m : DesiredState Row D κ)
variable {entry : D} {done : List D} {before table after : NumberedTable Row}

/-- Numbers tell rows apart, and the next row gets a new one. -/
structure Sound (table : NumberedTable Row) : Prop where
  distinct : (table.rows.map m.number).Nodup
  fresh : ∀ row ∈ table.rows, m.number row < table.next

def named (k : κ) (table : NumberedTable Row) : List Row :=
  table.rows.filter fun row => m.name row = k

def add (row : ℤ → Row) (table : NumberedTable Row) : NumberedTable Row :=
  ⟨table.rows ++ [row table.next], table.next + 1⟩

/-- Change the row of a number. -/
def change (number : ℤ) (f : Row → Row) (table : NumberedTable Row) : NumberedTable Row :=
  { table with rows := table.rows.map fun row => if m.number row = number then f row else row }

/-- One row alone has the name, and it is as the entry asks. -/
def Reached (entry : D) (table : NumberedTable Row) : Prop :=
  ∃ row, m.named (m.wanted entry) table = [row] ∧ m.Settled entry row

/-- What becomes of the rows of a name when its entry is worked off: one row is there and as
asked. It is new where there was none, else the one that was there, untouched if it was as
asked. -/
def Advanced (entry : D) (before after : List Row) : Prop :=
  ∃ row, after = [row] ∧ m.Settled entry row ∧ (before = [] ∨ ∃ old, before = [old] ∧
    m.number row = m.number old ∧ (m.Settled entry old → row = old))

/-- What becomes of a table when some entries were worked off: other names keep their rows, each
entry advanced, and nothing changed where all were reached before. -/
structure Progress (before : NumberedTable Row) (done : List D) (after : NumberedTable Row) :
    Prop where
  sound : m.Sound after
  others : ∀ k ∉ done.map m.wanted, m.named k after = m.named k before
  advanced : ∀ entry ∈ done, m.Advanced entry (m.named (m.wanted entry) before)
    (m.named (m.wanted entry) after)
  still : (∀ entry ∈ done, m.Reached entry before) → after = before

/-- What is left of a table while entries are worked off, in any number of attempts. -/
structure Kept (entries : List D) (before after : NumberedTable Row) : Prop where
  sound : m.Sound after
  others : ∀ k ∉ entries.map m.wanted, m.named k after = m.named k before
  managed : ∀ entry ∈ entries,
    m.named (m.wanted entry) after = m.named (m.wanted entry) before ∨
      m.Advanced entry (m.named (m.wanted entry) before) (m.named (m.wanted entry) after)

variable {m}

theorem named_add {row : ℤ → Row} (k : κ) :
    m.named k (add row table) =
      m.named k table ++ if m.name (row table.next) = k then [row table.next] else [] := by
  rw [named, add, List.filter_append, named]
  by_cases h : m.name (row table.next) = k <;> simp [h]

/-- A row keeps its name when it is changed, so that the rows of a name are changed. -/
theorem named_change {number : ℤ} {f : Row → Row}
    (hname : ∀ row ∈ table.rows, m.number row = number → m.name (f row) = m.name row) (k : κ) :
    m.named k (m.change number f table) =
      (m.named k table).map fun row => if m.number row = number then f row else row := by
  rw [named, change, named, List.filter_map]
  congr 1
  apply List.filter_congr
  intro row hrow
  by_cases h : m.number row = number
  · simp [h, hname row hrow h]
  · simp [h]

omit [DecidableEq κ] in
theorem Sound.add {row : ℤ → Row} (h : m.Sound table)
    (hnumber : m.number (row table.next) = table.next) : m.Sound (add row table) := by
  constructor
  · rw [DesiredState.add, List.map_append, List.nodup_append']
    refine ⟨h.distinct, List.nodup_singleton _, ?_⟩
    rw [List.map_singleton, List.disjoint_singleton, hnumber]
    intro hmem
    obtain ⟨other, hother, hsame⟩ := List.mem_map.mp hmem
    exact (h.fresh other hother).ne hsame
  · intro other hother
    rcases List.mem_append.mp hother with hother | hother
    · exact (h.fresh other hother).trans (Int.lt_succ _)
    · obtain rfl := List.mem_singleton.mp hother
      rw [hnumber]
      exact Int.lt_succ _

omit [DecidableEq κ] in
theorem Sound.change {number : ℤ} {f : Row → Row} (h : m.Sound table)
    (hnumber : ∀ row ∈ table.rows, m.number row = number → m.number (f row) = number) :
    m.Sound (m.change number f table) := by
  have hsame : ∀ row ∈ table.rows,
      m.number (if m.number row = number then f row else row) = m.number row := by
    intro row hrow
    by_cases hrow' : m.number row = number
    · rw [if_pos hrow', hnumber row hrow hrow', hrow']
    · rw [if_neg hrow']
  constructor
  · rw [DesiredState.change, List.map_map]
    exact (List.map_congr_left hsame).symm ▸ h.distinct
  · intro other hother
    obtain ⟨row, hrow, rfl⟩ := List.mem_map.mp hother
    rw [hsame row hrow]
    exact h.fresh row hrow

/-! ## Working entries off -/

theorem Progress.refl (h : m.Sound table) : m.Progress table [] table :=
  ⟨h, fun _ _ => rfl, nofun, fun _ => rfl⟩

section Steps

variable (h : m.Progress before done table) (hwaiting : m.wanted entry ∉ done.map m.wanted)

include h hwaiting

theorem Progress.concat (hsound : m.Sound after)
    (hothers : ∀ k ≠ m.wanted entry, m.named k after = m.named k table)
    (hadvanced : m.Advanced entry (m.named (m.wanted entry) before)
      (m.named (m.wanted entry) after))
    (hstill : m.Reached entry before → after = table) :
    m.Progress before (done ++ [entry]) after := by
  refine ⟨hsound, ?_, ?_, ?_⟩
  · intro k hk
    rw [List.map_append, List.mem_append, not_or, List.map_singleton, List.mem_singleton] at hk
    rw [hothers k hk.2, h.others k hk.1]
  · intro other hother
    rcases List.mem_append.mp hother with hother | hother
    · have hne : m.wanted other ≠ m.wanted entry :=
        fun hsame => hwaiting (hsame ▸ List.mem_map_of_mem hother)
      rw [hothers _ hne]
      exact h.advanced other hother
    · obtain rfl := List.mem_singleton.mp hother
      exact hadvanced
  · intro hreached
    rw [hstill (hreached entry (by simp))]
    exact h.still fun other hother => hreached other (List.mem_append_left _ hother)

theorem Progress.unchanged (hreached : m.Reached entry before) :
    m.Progress before (done ++ [entry]) table := by
  refine h.concat hwaiting h.sound (fun _ _ => rfl) ?_ fun _ => rfl
  obtain ⟨row, hrow, hsettled⟩ := hreached
  exact ⟨row, (h.others _ hwaiting).trans hrow, hsettled, .inr ⟨row, hrow, rfl, fun _ => rfl⟩⟩

/-- An entry whose name no row has is worked off by a new row. -/
theorem Progress.added {row : ℤ → Row} (hnone : m.named (m.wanted entry) before = [])
    (hnumber : m.number (row table.next) = table.next)
    (hname : m.name (row table.next) = m.wanted entry)
    (hsettled : m.Settled entry (row table.next)) :
    m.Progress before (done ++ [entry]) (add row table) := by
  refine h.concat hwaiting (h.sound.add hnumber) ?_ ?_ ?_
  · intro k hk
    rw [named_add, hname, if_neg hk.symm, List.append_nil]
  · refine ⟨row table.next, ?_, hsettled, .inl hnone⟩
    rw [named_add, hname, if_pos rfl, h.others _ hwaiting, hnone, List.nil_append]
  · rintro ⟨old, hold, -⟩
    rw [hnone] at hold
    cases hold

/-- An entry whose name one row has is worked off by a change of that row. -/
theorem Progress.changed {old : Row} {f : Row → Row}
    (hold : m.named (m.wanted entry) before = [old]) (hunsettled : ¬ m.Settled entry old)
    (hnumber : m.number (f old) = m.number old) (hname : m.name (f old) = m.wanted entry)
    (hsettled : m.Settled entry (f old)) :
    m.Progress before (done ++ [entry]) (m.change (m.number old) f table) := by
  have hrows : m.named (m.wanted entry) table = [old] := (h.others _ hwaiting).trans hold
  have hmem : old ∈ table.rows ∧ m.name old = m.wanted entry := by
    have hin : old ∈ m.named (m.wanted entry) table := by rw [hrows]; exact List.mem_cons_self
    simpa [named] using hin
  have honly : ∀ row ∈ table.rows, m.number row = m.number old → row = old :=
    fun row hrow hsame => List.inj_on_of_nodup_map h.sound.distinct hrow hmem.1 hsame
  have hnames : ∀ row ∈ table.rows, m.number row = m.number old → m.name (f row) = m.name row := by
    intro row hrow hsame
    obtain rfl := honly row hrow hsame
    rw [hname, hmem.2]
  refine h.concat hwaiting (h.sound.change ?_) ?_ ?_ ?_
  · intro row hrow hsame
    rw [honly row hrow hsame, hnumber]
  · intro k hk
    rw [named_change hnames]
    refine (List.map_congr_left fun row hrow => ?_).trans (List.map_id _)
    obtain ⟨hrow, hrowName⟩ : row ∈ table.rows ∧ m.name row = k := by simpa [named] using hrow
    refine if_neg fun hsame => hk ?_
    rw [← hrowName, honly row hrow hsame, hmem.2]
  · refine ⟨f old, ?_, hsettled, .inr ⟨old, hold, hnumber, fun h => absurd h hunsettled⟩⟩
    rw [named_change hnames, hrows, List.map_singleton, if_pos rfl]
  · rintro ⟨row, hrow, hrowSettled⟩
    obtain rfl : row = old := List.singleton_inj.mp (hrow.symm.trans hold)
    exact absurd hrowSettled hunsettled

end Steps

theorem Progress.reached (h : m.Progress before done table) (hentry : entry ∈ done) :
    m.Reached entry table := by
  obtain ⟨row, hrow, hsettled, -⟩ := h.advanced entry hentry
  exact ⟨row, hrow, hsettled⟩

/-! ## Attempts -/

theorem Kept.refl {entries : List D} (h : m.Sound table) : m.Kept entries table table :=
  ⟨h, fun _ _ => rfl, fun _ _ => .inl rfl⟩

theorem Progress.kept {entries : List D} (h : m.Progress before done after)
    (hnames : (entries.map m.wanted).Nodup) (hdone : done ⊆ entries) :
    m.Kept entries before after := by
  refine ⟨h.sound, fun k hk => h.others k fun hmem => hk ?_, fun entry hentry => ?_⟩
  · exact List.map_subset _ hdone hmem
  · by_cases hwaiting : m.wanted entry ∈ done.map m.wanted
    · obtain ⟨other, hother, hsame⟩ := List.mem_map.mp hwaiting
      obtain rfl := List.inj_on_of_nodup_map hnames (hdone hother) hentry hsame
      exact .inr (h.advanced other hother)
    · exact .inl (h.others _ hwaiting)

omit [DecidableEq κ] in
theorem Advanced.trans {before middle after : List Row} (h : m.Advanced entry before middle)
    (h' : m.Advanced entry middle after) : after = middle := by
  obtain ⟨row, rfl, hsettled, -⟩ := h
  obtain ⟨row', rfl, -, hempty | ⟨old, hold, -, hsame⟩⟩ := h'
  · cases hempty
  · obtain rfl := List.singleton_inj.mp hold
    rw [hsame hsettled]

theorem Kept.trans {entries : List D} (h : m.Kept entries before table)
    (h' : m.Kept entries table after) : m.Kept entries before after := by
  refine ⟨h'.sound, fun k hk => (h'.others k hk).trans (h.others k hk), fun entry hentry => ?_⟩
  rcases h.managed entry hentry with hfirst | hfirst
  · rw [← hfirst]
    exact h'.managed entry hentry
  · rcases h'.managed entry hentry with hsecond | hsecond
    · rw [hsecond]
      exact .inr hfirst
    · rw [hfirst.trans hsecond]
      exact .inr hfirst

/-- What was reached stays so, and its row stays as it is. -/
theorem Kept.named_eq {entries : List D} (h : m.Kept entries before after)
    (hentry : entry ∈ entries) (hreached : m.Reached entry before) :
    m.named (m.wanted entry) after = m.named (m.wanted entry) before := by
  obtain ⟨row, hrow, hsettled⟩ := hreached
  rcases h.managed entry hentry with hsame | ⟨row', hrow', -, hempty | ⟨old, hold, -, hstays⟩⟩
  · exact hsame
  · rw [hrow] at hempty
    cases hempty
  · obtain rfl : row = old := List.singleton_inj.mp (hrow.symm.trans hold)
    rw [hrow', hrow, hstays hsettled]

end DesiredState

end ListmonkOps.Math
