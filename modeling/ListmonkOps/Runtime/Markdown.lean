/-
The shape of a Markdown text.

A line feed, a carriage return, or both in this order end a line. What a line is
depends on how it begins, and the cells of a table row lie between separators
without a backslash in front. The shape of a text is what is left when everything
else is forgotten: the kinds of its lines in order, and the number of separators
of each table row.

A text that is put together from pieces, each on its own line, has the shape of
the pieces in turn. So a text with no fewer lines in any piece has the same shape
only where the pieces have the same shapes.
-/

import Mathlib.Algebra.Order.BigOperators.Group.List
import ListmonkOps.Runtime.Text

namespace ListmonkOps.Runtime

/-! ## Lines -/

/-- Write every line ending as a line feed. -/
def normalizeBreaks : Text → Text
  | [] => []
  | 13 :: 10 :: rest => 10 :: normalizeBreaks rest
  | unit :: rest => (if unit = 13 then 10 else unit) :: normalizeBreaks rest

def linesOf (text : Text) : List Text := (normalizeBreaks text).splitOn 10

/-- The text without a line ending in it. -/
def Unbroken (text : Text) : Prop := 10 ∉ text ∧ 13 ∉ text

instance (text : Text) : Decidable (Unbroken text) := inferInstanceAs (Decidable (_ ∧ _))

/-- A text that a line feed follows; a carriage return at its end belongs to the
same line ending. -/
def chomp (text : Text) : Text := if text.getLast? = some 13 then text.dropLast else text

theorem normalizeBreaks_cons {unit : UInt16} (h : unit ≠ 13) (rest : Text) :
    normalizeBreaks (unit :: rest) = unit :: normalizeBreaks rest := by
  rw [normalizeBreaks]
  · rw [if_neg h]
  · rintro rest' rfl -
    exact h rfl

/-- Two texts whose border does not cut a line ending in two. -/
theorem normalizeBreaks_append_cons {text : Text} {unit : UInt16} {rest : Text}
    (h : text.getLast? = some 13 → unit ≠ 10) :
    normalizeBreaks (text ++ unit :: rest) =
      normalizeBreaks text ++ normalizeBreaks (unit :: rest) := by
  fun_induction normalizeBreaks text with
  | case1 => rfl
  | case2 more ih =>
      cases more with
      | nil => rfl
      | cons next more =>
          have hlast := ih (by simpa using h)
          simpa [normalizeBreaks] using hlast
  | case3 first more hcut ih =>
      cases more with
      | nil =>
          by_cases hfirst : first = 13
          · subst hfirst
            have hunit : unit ≠ 10 := h rfl
            simp [normalizeBreaks, hunit]
          · simp [normalizeBreaks_cons hfirst, normalizeBreaks, hfirst]
      | cons next more =>
          have hlast := ih (by simpa using h)
          rw [List.cons_append, List.cons_append, normalizeBreaks, ← List.cons_append, hlast]
          · rfl
          · rintro rest' rfl hnext
            obtain ⟨rfl, -⟩ := List.cons.inj hnext
            exact hcut more rfl rfl

theorem notMem_normalizeBreaks {text : Text} : 10 ∉ normalizeBreaks text ↔ Unbroken text := by
  fun_induction normalizeBreaks text with
  | case1 => simp [Unbroken]
  | case2 rest ih => simp [Unbroken]
  | case3 unit rest hcut ih =>
      simp only [Unbroken, List.mem_cons, not_or] at ih ⊢
      by_cases hunit : unit = 13
      · simp [hunit]
      · simp [hunit, ih, eq_comm, and_assoc]

theorem normalizeBreaks_of_unbroken {text : Text} (h : Unbroken text) :
    normalizeBreaks text = text := by
  induction text with
  | nil => rfl
  | cons unit rest ih =>
      simp only [Unbroken, List.mem_cons, not_or] at h
      rw [normalizeBreaks_cons (Ne.symm h.2.1), ih ⟨h.1.2, h.2.2⟩]

theorem normalizeBreaks_lineFeed (text rest : Text) :
    normalizeBreaks (text ++ 10 :: rest) =
      normalizeBreaks (chomp text) ++ 10 :: normalizeBreaks rest := by
  unfold chomp
  split
  · rename_i hlast
    obtain ⟨front, rfl⟩ := List.getLast?_eq_some_iff.mp hlast
    rw [List.dropLast_concat, List.append_assoc, List.singleton_append,
      normalizeBreaks_append_cons fun _ => by decide]
    rfl
  · rename_i hlast
    rw [normalizeBreaks_append_cons fun h => absurd h hlast, normalizeBreaks_cons (by decide)]

theorem linesOf_of_unbroken {text : Text} (h : Unbroken text) : linesOf text = [text] := by
  rw [linesOf, normalizeBreaks_of_unbroken h, List.splitOn_eq_singleton h.1]

theorem linesOf_lineFeed (text rest : Text) :
    linesOf (text ++ 10 :: rest) = linesOf (chomp text) ++ linesOf rest := by
  rw [linesOf, normalizeBreaks_lineFeed, List.splitOn_append_cons_self, linesOf, linesOf]

theorem length_splitOn {text : Text} {unit : UInt16} :
    (text.splitOn unit).length = text.count unit + 1 := by
  induction text with
  | nil => rfl
  | cons first rest ih =>
      rw [List.splitOn_cons_eq_if_modifyHead, List.count_cons]
      split
      · simp [ih]
      · simp [ih]

/-- A text has one line exactly when no line ending is in it. -/
theorem length_linesOf_eq_one {text : Text} : (linesOf text).length = 1 ↔ Unbroken text := by
  rw [linesOf, length_splitOn, ← notMem_normalizeBreaks, ← List.count_eq_zero]
  omega

theorem length_linesOf_pos (text : Text) : 0 < (linesOf text).length := by
  rw [linesOf, length_splitOn]
  exact Nat.succ_pos _

/-! ## Kinds of lines -/

/-- The kinds of lines, as far as their beginnings tell them apart. -/
inductive LineKind where
  | heading
  | listItem
  | tableRow
  | quote
  | blank
  | paragraph
  deriving DecidableEq

def lineKind (line : Text) : LineKind :=
  if line.all fun unit => unit = 32 || unit = 9 then .blank
  else
    match line with
    | 35 :: _ => .heading
    | 45 :: 32 :: _ => .listItem
    | 124 :: _ => .tableRow
    | 62 :: _ => .quote
    | _ => .paragraph

/-- The separators of a line; a backslash takes the next character for itself. -/
def separators : Text → ℕ
  | [] => 0
  | 92 :: _ :: rest => separators rest
  | unit :: rest => (if unit = 124 then 1 else 0) + separators rest

/-- The kind of a line, and its separators where it is a table row. -/
def lineShape (line : Text) : LineKind × ℕ :=
  (lineKind line, if lineKind line = .tableRow then separators line else 0)

def shapeOf (text : Text) : List (LineKind × ℕ) := (linesOf text).map lineShape

theorem separators_cons {unit : UInt16} (h : unit ≠ 92) (rest : Text) :
    separators (unit :: rest) = (if unit = 124 then 1 else 0) + separators rest := by
  rw [separators]
  rintro next rest' rfl -
  exact h rfl

theorem separators_append_blank (text rest : Text) :
    separators (text ++ 32 :: rest) = separators text + separators rest := by
  fun_induction separators text with
  | case1 => simp [separators]
  | case2 next rest' ih => simp [separators, ih]
  | case3 unit rest' hcut ih =>
      cases rest' with
      | nil =>
          by_cases hunit : unit = 92
          · subst hunit
            simp [separators]
          · simp [separators_cons hunit, separators]
      | cons next more =>
          have hunit : unit ≠ 92 := fun h => hcut next more h rfl
          rw [List.cons_append, separators_cons hunit, ih, Nat.add_assoc]

/-! ## Texts put together from pieces -/

/-- The shapes of the pieces of a text that are separated by line feeds. -/
def blocks : List Text → List (List (LineKind × ℕ))
  | [] => [shapeOf []]
  | [piece] => [shapeOf piece]
  | piece :: next :: pieces => shapeOf (chomp piece) :: blocks (next :: pieces)

theorem shapeOf_intercalate (pieces : List Text) :
    shapeOf ([10].intercalate pieces) = (blocks pieces).flatten := by
  induction pieces with
  | nil => simp [blocks]
  | cons piece pieces ih =>
      cases pieces with
      | nil => simp [blocks]
      | cons next pieces =>
          rw [blocks, List.flatten_cons, ← ih, List.intercalate_cons_cons, List.append_assoc,
            List.singleton_append, shapeOf, linesOf_lineFeed, List.map_append]
          rfl

theorem blocks_append (front : List Text) {pieces : List Text} (h : pieces ≠ []) :
    blocks (front ++ pieces) = front.map (fun piece => shapeOf (chomp piece)) ++ blocks pieces := by
  induction front with
  | nil => rfl
  | cons piece front ih =>
      obtain ⟨next, more, hmore⟩ := List.exists_cons_of_ne_nil
        (List.append_ne_nil_of_right_ne_nil front h)
      rw [List.cons_append, hmore, blocks, ← hmore, ih, List.map_cons, List.cons_append]

/-- Two texts of one shape whose pieces are never shorter in the first agree piece
by piece. -/
theorem eq_of_flatten_eq {α : Type} {parts parts' : List (List α)}
    (hlonger : List.Forall₂ (fun part part' => part'.length ≤ part.length) parts parts')
    (h : parts.flatten = parts'.flatten) : parts = parts' := by
  induction hlonger with
  | nil => rfl
  | @cons part part' rest rest' hpart hrest ih =>
      rw [List.flatten_cons, List.flatten_cons] at h
      have hlength := congrArg List.length h
      rw [List.length_append, List.length_append] at hlength
      have hrestLength : rest'.flatten.length ≤ rest.flatten.length := by
        rw [List.length_flatten, List.length_flatten]
        refine List.Forall₂.sum_le_sum ?_
        rw [List.forall₂_map_left_iff, List.forall₂_map_right_iff]
        exact hrest.flip
      obtain ⟨rfl, hflatten⟩ := List.append_inj h (by omega)
      rw [ih hflatten]

/-! ## Lines with a text in them -/

section Lines

variable {front text tail : Text}

theorem chomp_append_blank (front text : Text) :
    chomp (front ++ 32 :: text) = front ++ 32 :: chomp text := by
  cases text using List.reverseRecOn with
  | nil => simp [chomp]
  | append_singleton text last =>
      have hsplit : front ++ 32 :: (text ++ [last]) = (front ++ 32 :: text) ++ [last] := by simp
      rw [hsplit, chomp, chomp, List.getLast?_concat, List.getLast?_concat, List.dropLast_concat,
        List.dropLast_concat]
      split
      · rfl
      · exact hsplit.symm

theorem unbroken_append {a b : Text} : Unbroken (a ++ b) ↔ Unbroken a ∧ Unbroken b := by
  simp only [Unbroken, List.mem_append, not_or]
  tauto

/-- A line that ends with some text stays one line as long as the text has no line
ending in it. -/
theorem shapeOf_trailing (hfront : Unbroken front) (htext : Unbroken text) :
    shapeOf (front ++ 32 :: text) = [lineShape (front ++ 32 :: text)] := by
  have hline : Unbroken (front ++ 32 :: text) :=
    unbroken_append.mpr ⟨hfront, by simpa [Unbroken] using htext⟩
  rw [shapeOf, linesOf_of_unbroken hline, List.map_singleton]

theorem length_shapeOf_trailing (hfront : Unbroken front) :
    (shapeOf (front ++ 32 :: text)).length = 1 ↔ Unbroken text := by
  rw [shapeOf, List.length_map, length_linesOf_eq_one, unbroken_append, and_iff_right hfront]
  simp [Unbroken]

theorem length_shapeOf_pos (text : Text) : 0 < (shapeOf text).length := by
  rw [shapeOf, List.length_map]
  exact length_linesOf_pos text

/-- A text in front of the first line ending belongs to the first line. -/
theorem splitOn_append_of_notMem {unit : UInt16} (h : unit ∉ front) :
    (front ++ text).splitOn unit = (text.splitOn unit).modifyHead (front ++ ·) := by
  induction front with
  | nil =>
      cases htext : text.splitOn unit with
      | nil => exact absurd htext (List.splitOn_ne_nil _ _)
      | cons first rest => simpa using htext
  | cons next front ih =>
      simp only [List.mem_cons, not_or] at h
      rw [List.cons_append, List.splitOn_cons_eq_if_modifyHead, if_neg (by simpa using Ne.symm h.1),
        ih h.2, List.modifyHead_modifyHead]
      rfl

theorem linesOf_row (name tail : Text) :
    linesOf (("| " : Text) ++ (name ++ 32 :: tail)) =
      (124 :: 32 :: (normalizeBreaks name ++ 32 :: normalizeBreaks tail)).splitOn 10 := by
  have hbody : normalizeBreaks (name ++ 32 :: tail) =
      normalizeBreaks name ++ 32 :: normalizeBreaks tail := by
    rw [normalizeBreaks_append_cons fun _ => by decide, normalizeBreaks_cons (by decide)]
  change (normalizeBreaks (124 :: 32 :: (name ++ 32 :: tail))).splitOn 10 = _
  rw [normalizeBreaks_cons (by decide), normalizeBreaks_cons (by decide), hbody]

theorem length_shapeOf_row (name tail : Text) :
    (shapeOf (("| " : Text) ++ (name ++ 32 :: tail))).length =
      (normalizeBreaks name).count 10 + (linesOf tail).length := by
  rw [shapeOf, List.length_map, linesOf_row, length_splitOn, linesOf, length_splitOn]
  simp [List.count_append]
  omega

/-- The shape of a row whose name has no line ending: the separators of the name come
on top. -/
theorem shapeOf_row {name : Text} (hname : Unbroken name) (tail : Text) :
    shapeOf (("| " : Text) ++ (name ++ 32 :: tail)) =
      (LineKind.tableRow, 1 + (separators name + separators ((linesOf tail).headD []))) ::
        (linesOf tail).tail.map lineShape := by
  have hfront : (10 : UInt16) ∉ (124 :: 32 :: (name ++ [32]) : Text) := by
    simpa using hname.1
  rw [shapeOf, linesOf_row, normalizeBreaks_of_unbroken hname]
  have happend : (124 :: 32 :: (name ++ 32 :: normalizeBreaks tail) : Text) =
      (124 :: 32 :: (name ++ [32])) ++ normalizeBreaks tail := by simp
  rw [happend, splitOn_append_of_notMem hfront]
  change List.map lineShape ((linesOf tail).modifyHead _) = _
  cases hlines : linesOf tail with
  | nil => exact absurd hlines (List.splitOn_ne_nil _ _)
  | cons first rest =>
      have hkind : lineKind (124 :: 32 :: (name ++ [32]) ++ first) = .tableRow := by
        simp [lineKind]
      have hseparators : separators (124 :: 32 :: (name ++ [32]) ++ first) =
          1 + (separators name + separators first) := by
        rw [List.cons_append, separators_cons (by decide), List.cons_append,
          separators_cons (by decide), List.append_assoc, List.singleton_append,
          separators_append_blank]
        simp
      rw [List.modifyHead_cons, List.map_cons, lineShape, if_pos hkind, hkind, hseparators]
      rfl

/-- A name is seen in the shape of its row unless it is plain. -/
theorem shapeOf_row_eq_iff {name : Text} (tail : Text) :
    shapeOf (("| " : Text) ++ (name ++ 32 :: tail)) = shapeOf (("| " : Text) ++ ([] ++ 32 :: tail)) ↔
      Unbroken name ∧ separators name = 0 := by
  have hnil : Unbroken [] := ⟨List.not_mem_nil, List.not_mem_nil⟩
  constructor
  · intro h
    have hlength := congrArg List.length h
    rw [length_shapeOf_row, length_shapeOf_row] at hlength
    have hcount : (normalizeBreaks name).count 10 = 0 := by
      simpa [normalizeBreaks] using hlength
    have hname := notMem_normalizeBreaks.mp (List.count_eq_zero.mp hcount)
    rw [shapeOf_row hname, shapeOf_row hnil] at h
    obtain ⟨hhead, -⟩ := List.cons.inj h
    have hseparators := (Prod.mk.inj hhead).2
    exact ⟨hname, by simpa [separators] using hseparators⟩
  · rintro ⟨hname, hseparators⟩
    rw [shapeOf_row hname, shapeOf_row hnil, hseparators]
    rfl

end Lines

end ListmonkOps.Runtime
