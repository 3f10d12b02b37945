/-
Regular expressions as the source writes them.

A pattern is read from its text: the text is cut into tokens, and the tokens are
put together with a stack of the groups that are open. Only the syntax that
occurs in the patterns read here is understood: units, classes, groups without
capture, negative look-ahead, the two anchors, `?` and counts of one digit.
-/

import ListmonkOps.Math.Regex
import ListmonkOps.Runtime.Number

namespace ListmonkOps.Runtime

open ListmonkOps.Math

namespace RegExp

inductive Token where
  | openGroup
  | openNotAhead
  | close
  | bar
  | atStart
  | atEnd
  | unit (ranges : List (UInt16 × UInt16))
  | counts (least most : ℕ)

def digitValue (unit : UInt16) : ℕ := unit.toNat - 48

/-- The units that have a meaning of their own: `$ ( ) * + . ? [ \ ] ^ { | }`. -/
def syntaxUnits : List UInt16 :=
  [36, 40, 41, 42, 43, 46, 63, 91, 92, 93, 94, 123, 124, 125]

/-- The tokens of a pattern, inside a class where ranges are given. -/
def tokens : Option (List (UInt16 × UInt16)) → Text → Option (List Token)
  | none, [] => some []
  | some _, [] => none
  | some ranges, 93 :: rest => (tokens none rest).map (.unit ranges :: ·)
  | some ranges, low :: 45 :: high :: rest => tokens (some (ranges ++ [(low, high)])) rest
  | some ranges, unit :: rest => tokens (some (ranges ++ [(unit, unit)])) rest
  | none, 40 :: 63 :: 58 :: rest => (tokens none rest).map (.openGroup :: ·)
  | none, 40 :: 63 :: 33 :: rest => (tokens none rest).map (.openNotAhead :: ·)
  | none, 41 :: rest => (tokens none rest).map (.close :: ·)
  | none, 124 :: rest => (tokens none rest).map (.bar :: ·)
  | none, 94 :: rest => (tokens none rest).map (.atStart :: ·)
  | none, 36 :: rest => (tokens none rest).map (.atEnd :: ·)
  | none, 63 :: rest => (tokens none rest).map (.counts 0 1 :: ·)
  | none, 91 :: rest => tokens (some []) rest
  | none, 92 :: unit :: rest => (tokens none rest).map (.unit [(unit, unit)] :: ·)
  | none, 123 :: n :: 125 :: rest =>
      (tokens none rest).map (.counts (digitValue n) (digitValue n) :: ·)
  | none, 123 :: m :: 44 :: n :: 125 :: rest =>
      (tokens none rest).map (.counts (digitValue m) (digitValue n) :: ·)
  | none, unit :: rest =>
      if unit ∈ syntaxUnits then none else (tokens none rest).map (.unit [(unit, unit)] :: ·)

/-- A group that is open: what it will become, the alternatives that are
complete, and the terms of the one that is not, both last first. -/
structure Group where
  notAhead : Bool
  alternatives : List (Regex UInt16)
  terms : List (Regex UInt16)

/-- Terms one after the other. -/
def sequence : List (Regex UInt16) → Regex UInt16
  | [] => .empty
  | [term] => term
  | term :: terms => .seq term (sequence terms)

def disjunction : List (Regex UInt16) → Regex UInt16
  | [] => .empty
  | [alternative] => alternative
  | alternative :: alternatives => .alt alternative (disjunction alternatives)

namespace Group

def opened (notAhead : Bool) : Group := ⟨notAhead, [], []⟩

def add (group : Group) (term : Regex UInt16) : Group :=
  { group with terms := term :: group.terms }

def next (group : Group) : Group :=
  { group with alternatives := sequence group.terms.reverse :: group.alternatives, terms := [] }

def closed (group : Group) : Regex UInt16 :=
  let body := disjunction group.next.alternatives.reverse
  if group.notAhead then .notAhead body else body

end Group

/-- Put the tokens together; the innermost open group comes first. -/
def assemble : List Group → List Token → Option (Regex UInt16)
  | [group], [] => some group.closed
  | groups, .openGroup :: tokens => assemble (.opened false :: groups) tokens
  | groups, .openNotAhead :: tokens => assemble (.opened true :: groups) tokens
  | inner :: outer :: groups, .close :: tokens => assemble (outer.add inner.closed :: groups) tokens
  | group :: groups, .bar :: tokens => assemble (group.next :: groups) tokens
  | group :: groups, .atStart :: tokens => assemble (group.add .atStart :: groups) tokens
  | group :: groups, .atEnd :: tokens => assemble (group.add .atEnd :: groups) tokens
  | group :: groups, .unit ranges :: tokens => assemble (group.add (.unit ranges) :: groups) tokens
  | ⟨notAhead, alternatives, term :: terms⟩ :: groups, .counts least most :: tokens =>
      assemble (⟨notAhead, alternatives, .repeated term least most :: terms⟩ :: groups) tokens
  | _, _ => none

/-- `new RegExp(source)`. -/
def ofSource (source : Text) : Option (Regex UInt16) :=
  (tokens none source).bind (assemble [.opened false])

/-! ## Numbers of a fixed width -/

theorem exists_eq_padded {width : ℕ} {text : Text} (hlength : text.length = width)
    (h : ∀ unit ∈ text, (48 : UInt16) ≤ unit ∧ unit ≤ 57) :
    ∃ n < 10 ^ width, text = padded width n := by
  induction width generalizing text with
  | zero => exact ⟨0, by simp, List.eq_nil_of_length_eq_zero hlength⟩
  | succ width ih =>
      rcases text.eq_nil_or_concat with rfl | ⟨front, last, rfl⟩
      · cases hlength
      · rw [List.concat_eq_append] at hlength h ⊢
        have hfront : front.length = width := by simpa using hlength
        obtain ⟨n, hn, rfl⟩ := ih hfront fun unit hunit => h unit (List.mem_append_left _ hunit)
        have hlast := h last (by simp)
        simp only [UInt16.le_iff_toNat_le, UInt16.reduceToNat] at hlast
        refine ⟨n * 10 + (last.toNat - 48), ?_, ?_⟩
        · rw [pow_succ]
          omega
        · rw [padded]
          have hquotient : (n * 10 + (last.toNat - 48)) / 10 = n := by omega
          have hunit : 48 + (n * 10 + (last.toNat - 48)) % 10 = last.toNat := by omega
          rw [hquotient, hunit, UInt16.ofNat_toNat]

theorem padded_add (width width' m n : ℕ) (hn : n < 10 ^ width') :
    padded width m ++ padded width' n = padded (width + width') (m * 10 ^ width' + n) := by
  induction width' generalizing n with
  | zero =>
      obtain rfl : n = 0 := by omega
      simp [padded]
  | succ width' ih =>
      rw [pow_succ] at hn
      have hshift : m * 10 ^ (width' + 1) = 10 * (m * 10 ^ width') := by
        rw [pow_succ, ← Nat.mul_assoc, Nat.mul_comm]
      have hquotient : (m * 10 ^ (width' + 1) + n) / 10 = m * 10 ^ width' + n / 10 := by omega
      have hlast : (m * 10 ^ (width' + 1) + n) % 10 = n % 10 := by omega
      rw [← Nat.add_assoc, padded, padded, ← List.append_assoc, ih _ (by omega), hquotient, hlast]

/-- An expression matches the numbers of a width that have a property. -/
def Numbers (regex : Regex UInt16) (width : ℕ) (p : ℕ → Prop) : Prop :=
  ∀ text, text ∈ regex.language ↔ ∃ n < 10 ^ width, p n ∧ text = padded width n

theorem numbers_of_accepts {regex : Regex UInt16} {width : ℕ} (p : ℕ → Bool)
    (hplain : regex.isPlain = true) (hwidth : regex.width = some width)
    (hwithin : regex.isWithin 48 57 = true)
    (h : (List.range (10 ^ width)).all (fun n => regex.accepts (padded width n) == p n) = true) :
    Numbers regex width fun n => p n = true := by
  have haccepts : ∀ n < 10 ^ width, padded width n ∈ regex.language ↔ p n = true := by
    intro n hn
    rw [← Regex.accepts_iff hplain]
    have heq := List.all_eq_true.mp h n (List.mem_range.mpr hn)
    rw [beq_iff_eq] at heq
    rw [heq]
  intro text
  constructor
  · intro htext
    obtain ⟨n, hn, rfl⟩ := exists_eq_padded (Regex.length_of_width hwidth htext)
      (Regex.forall_mem_of_isWithin hwithin htext)
    exact ⟨n, hn, (haccepts n hn).mp htext, rfl⟩
  · rintro ⟨n, hn, hp, rfl⟩
    exact (haccepts n hn).mpr hp

section Numbers

variable {regex regex' : Regex UInt16} {width width' : ℕ} {p p' : ℕ → Prop}

theorem Numbers.congr (h : Numbers regex width p) (hp : ∀ n < 10 ^ width, p n ↔ p' n) :
    Numbers regex width p' := by
  intro text
  rw [h text]
  exact exists_congr fun n => and_congr_right fun hn => and_congr_left fun _ => hp n hn

theorem Numbers.mem_mul (h : Numbers regex width p) {L : Language UInt16} {text : Text} :
    text ∈ regex.language * L ↔
      ∃ n < 10 ^ width, p n ∧ ∃ rest ∈ L, text = padded width n ++ rest := by
  rw [Language.mem_mul]
  constructor
  · rintro ⟨part, hpart, rest, hrest, rfl⟩
    obtain ⟨n, hn, hp, rfl⟩ := (h part).mp hpart
    exact ⟨n, hn, hp, rest, hrest, rfl⟩
  · rintro ⟨n, hn, hp, rest, hrest, rfl⟩
    exact ⟨_, (h _).mpr ⟨n, hn, hp, rfl⟩, rest, hrest, rfl⟩

end Numbers

end RegExp

end ListmonkOps.Runtime
