/-
Regular expressions with assertions, matched by backtracking.

A match starts at a position of a text and leaves what follows it; `ends` lists
all the ways to go on, the preferred one first. An expression without assertions
matches the texts of a language, whatever stands around them, and a language of
texts of one length over one range of units is known from finitely many of them.
-/

import Mathlib.Computability.Language

namespace ListmonkOps.Math

open Computability

/-- A regular expression; a class of units is a list of ranges. -/
inductive Regex (α : Type*) where
  | empty
  | unit (ranges : List (α × α))
  | seq (first second : Regex α)
  | alt (first second : Regex α)
  | /-- Between `least` and `most` times, as often as possible. -/
    repeated (body : Regex α) (least most : ℕ)
  | atStart
  | atEnd
  | notAhead (body : Regex α)
  deriving DecidableEq

namespace Regex

variable {α : Type*}

/-- Take a step a fixed number of times. -/
def exactly {β : Type*} (step : β → List β) : ℕ → β → List β
  | 0, rest => [rest]
  | n + 1, rest => (step rest).flatMap (exactly step n)

/-- Take a step a limited number of times, as often as possible. -/
def upTo {β : Type*} (step : β → List β) : ℕ → β → List β
  | 0, rest => [rest]
  | n + 1, rest => (step rest).flatMap (upTo step n) ++ [rest]

/-! ## Languages -/

/-- The language of the texts with a property. -/
def ofPred (p : List α → Prop) : Language α := Set.ofPred p

@[simp]
theorem mem_ofPred {p : List α → Prop} {text : List α} : text ∈ ofPred p ↔ p text := Iff.rfl

/-- At most so many texts of a language, one after the other. -/
def atMost (L : Language α) : ℕ → Language α
  | 0 => 1
  | n + 1 => L * atMost L n + 1

/-- A step takes the texts of a language off the front. -/
def Takes (step : List α → List (List α)) (L : Language α) : Prop :=
  ∀ rest rest', rest' ∈ step rest ↔ ∃ part ∈ L, rest = part ++ rest'

variable {step step' : List α → List (List α)} {L L' : Language α}

theorem takes_singleton : Takes (fun rest => [rest]) (1 : Language α) := by
  intro rest rest'
  simp [Language.mem_one, eq_comm]

theorem Takes.seq (h : Takes step L) (h' : Takes step' L') :
    Takes (fun rest => (step rest).flatMap step') (L * L') := by
  intro rest rest'
  simp only [List.mem_flatMap, Language.mem_mul]
  constructor
  · rintro ⟨middle, hmiddle, hrest⟩
    obtain ⟨part, hpart, rfl⟩ := (h _ _).mp hmiddle
    obtain ⟨part', hpart', rfl⟩ := (h' _ _).mp hrest
    exact ⟨part ++ part', ⟨part, hpart, part', hpart', rfl⟩, by rw [List.append_assoc]⟩
  · rintro ⟨_, ⟨part, hpart, part', hpart', rfl⟩, rfl⟩
    refine ⟨part' ++ rest', (h _ _).mpr ⟨part, hpart, by rw [List.append_assoc]⟩, ?_⟩
    exact (h' _ _).mpr ⟨part', hpart', rfl⟩

theorem Takes.alt (h : Takes step L) (h' : Takes step' L') :
    Takes (fun rest => step rest ++ step' rest) (L + L') := by
  intro rest rest'
  rw [List.mem_append, h, h']
  simp only [Language.mem_add, or_and_right, exists_or]

theorem Takes.exactly (h : Takes step L) (n : ℕ) : Takes (Regex.exactly step n) (L ^ n) := by
  induction n with
  | zero => exact takes_singleton
  | succ n ih =>
      rw [pow_succ']
      exact h.seq ih

theorem Takes.upTo (h : Takes step L) (n : ℕ) : Takes (Regex.upTo step n) (atMost L n) := by
  induction n with
  | zero => exact takes_singleton
  | succ n ih => exact (h.seq ih).alt takes_singleton

section Words

variable {L : Language α}

theorem length_of_mem_pow {n k : ℕ} (hL : ∀ text ∈ L, text.length = n)
    {text : List α} (h : text ∈ L ^ k) : text.length = k * n := by
  induction k generalizing text with
  | zero =>
      rw [pow_zero, Language.mem_one] at h
      simp [h]
  | succ k ih =>
      rw [pow_succ', Language.mem_mul] at h
      obtain ⟨part, hpart, rest, hrest, rfl⟩ := h
      rw [List.length_append, hL part hpart, ih hrest]
      rw [Nat.succ_mul, Nat.add_comm]

theorem forall_mem_pow {p : α → Prop} (hL : ∀ text ∈ L, ∀ a ∈ text, p a) {n : ℕ}
    {text : List α} (h : text ∈ L ^ n) : ∀ a ∈ text, p a := by
  obtain ⟨parts, rfl, -, hparts⟩ := Language.mem_pow.mp h
  intro a ha
  obtain ⟨part, hpart, ha⟩ := List.mem_flatten.mp ha
  exact hL part (hparts part hpart) a ha

theorem forall_mem_atMost {p : α → Prop} (hL : ∀ text ∈ L, ∀ a ∈ text, p a)
    {n : ℕ} {text : List α} (h : text ∈ atMost L n) : ∀ a ∈ text, p a := by
  induction n generalizing text with
  | zero =>
      rw [atMost, Language.mem_one] at h
      simp [h]
  | succ n ih =>
      rcases h with ⟨part, hpart, rest, hrest, rfl⟩ | hnil
      · intro a ha
        rcases List.mem_append.mp ha with ha | ha
        · exact hL part hpart a ha
        · exact ih hrest a ha
      · rw [(Language.mem_one text).mp hnil]
        simp

end Words

/-! ## Matching -/

section Matching

variable [LE α] [DecidableLE α]

def inRanges (ranges : List (α × α)) (a : α) : Bool :=
  ranges.any fun range => range.1 ≤ a && a ≤ range.2

/-- What a match at `rest` may leave, inside the text `whole`. -/
def ends (whole : List α) : Regex α → List α → List (List α)
  | .empty, rest => [rest]
  | .unit _, [] => []
  | .unit ranges, a :: rest => if inRanges ranges a then [rest] else []
  | .seq first second, rest => (ends whole first rest).flatMap (ends whole second)
  | .alt first second, rest => ends whole first rest ++ ends whole second rest
  | .repeated body least most, rest =>
      (exactly (ends whole body) least rest).flatMap (upTo (ends whole body) (most - least))
  | .atStart, rest => if rest.length = whole.length then [rest] else []
  | .atEnd, rest => if rest.isEmpty then [rest] else []
  | .notAhead body, rest => if (ends whole body rest).isEmpty then [rest] else []

/-- There is a match at some position of the text. -/
def test (regex : Regex α) (text : List α) : Bool :=
  text.tails.any fun rest => !(ends text regex rest).isEmpty

def isPlain : Regex α → Bool
  | .empty | .unit _ => true
  | .seq first second | .alt first second => first.isPlain && second.isPlain
  | .repeated body _ _ => body.isPlain
  | .atStart | .atEnd | .notAhead _ => false

/-- The texts that an expression without assertions matches. -/
def language : Regex α → Language α
  | .empty => 1
  | .unit ranges => ofPred fun text => ∃ a, inRanges ranges a = true ∧ text = [a]
  | .seq first second => first.language * second.language
  | .alt first second => first.language + second.language
  | .repeated body least most => body.language ^ least * atMost body.language (most - least)
  | .atStart | .atEnd | .notAhead _ => 0

theorem takes_ends {regex : Regex α} (whole : List α) (h : regex.isPlain = true) :
    Takes (ends whole regex) regex.language := by
  induction regex with
  | empty =>
      intro rest rest'
      rw [ends]
      exact takes_singleton rest rest'
  | unit ranges =>
      intro rest rest'
      have hunit : (∃ part ∈ (unit ranges).language, rest = part ++ rest') ↔
          ∃ a, inRanges ranges a = true ∧ rest = a :: rest' := by
        constructor
        · rintro ⟨_, ⟨a, ha, rfl⟩, rfl⟩
          exact ⟨a, ha, rfl⟩
        · rintro ⟨a, ha, rfl⟩
          exact ⟨[a], ⟨a, ha, rfl⟩, rfl⟩
      rw [hunit]
      cases rest with
      | nil => simp [ends]
      | cons a rest =>
          rw [ends]
          split_ifs with hin
          · constructor
            · intro h
              exact ⟨a, hin, by rw [List.mem_singleton.mp h]⟩
            · rintro ⟨_, -, heq⟩
              rw [(List.cons.inj heq).2]
              exact List.mem_singleton_self _
          · refine iff_of_false List.not_mem_nil ?_
            rintro ⟨b, hb, heq⟩
            rw [← (List.cons.inj heq).1] at hb
            exact hin hb
  | seq first second ih ih' =>
      rw [isPlain, Bool.and_eq_true] at h
      intro rest rest'
      rw [ends, language]
      exact (ih h.1).seq (ih' h.2) rest rest'
  | alt first second ih ih' =>
      rw [isPlain, Bool.and_eq_true] at h
      intro rest rest'
      rw [ends, language]
      exact (ih h.1).alt (ih' h.2) rest rest'
  | repeated body least most ih =>
      intro rest rest'
      rw [ends, language]
      exact ((ih h).exactly least).seq ((ih h).upTo (most - least)) rest rest'
  | atStart => cases h
  | atEnd => cases h
  | notAhead body _ => cases h

def accepts (regex : Regex α) (text : List α) : Bool := (ends text regex text).any List.isEmpty

theorem accepts_iff {regex : Regex α} {text : List α} (h : regex.isPlain = true) :
    regex.accepts text = true ↔ text ∈ regex.language := by
  rw [accepts, List.any_eq_true]
  simp only [List.isEmpty_iff, exists_eq_right, takes_ends text h text [], List.append_nil,
    exists_eq_right']

theorem ends_seq_atStart (whole : List α) (regex : Regex α) (rest : List α) :
    ends whole (.seq .atStart regex) rest =
      if rest.length = whole.length then ends whole regex rest else [] := by
  rw [ends, ends]
  split_ifs <;> simp

theorem ends_seq_notAhead (whole : List α) (ahead regex : Regex α) (rest : List α) :
    ends whole (.seq (.notAhead ahead) regex) rest =
      if (ends whole ahead rest).isEmpty then ends whole regex rest else [] := by
  rw [ends, ends]
  split_ifs <;> simp

theorem ends_seq_atEnd_ne_nil {whole rest : List α} {regex : Regex α} :
    ends whole (.seq regex .atEnd) rest ≠ [] ↔ [] ∈ ends whole regex rest := by
  rw [ends, Ne, List.flatMap_eq_nil_iff, not_forall]
  constructor
  · rintro ⟨rest', hrest⟩
    rw [Classical.not_imp, ends] at hrest
    obtain ⟨hmem, hrest⟩ := hrest
    split_ifs at hrest with hnil
    · rwa [List.isEmpty_iff.mp hnil] at hmem
    · exact absurd rfl hrest
  · intro hmem
    exact ⟨[], fun h => by simpa [ends] using h hmem⟩

theorem ends_seq_assoc (whole : List α) (first second third : Regex α) (rest : List α) :
    ends whole (.seq first (.seq second third)) rest =
      ends whole (.seq (.seq first second) third) rest := by
  rw [ends, ends, ends, List.flatMap_assoc]
  rfl

/-- Two expressions between the ends of the text, and one that must not match at
its beginning. -/
theorem test_anchored {ahead first last : Regex α} (text : List α) (hahead : ahead.isPlain = true)
    (h : first.isPlain = true) (h' : last.isPlain = true) :
    test (.seq .atStart (.seq (.notAhead ahead) (.seq first (.seq last .atEnd)))) text = true ↔
      text ∈ first.language * last.language ∧ ∀ part ∈ ahead.language, ¬ part <+: text := by
  have hends : ends text ahead text = [] ↔ ∀ part ∈ ahead.language, ¬ part <+: text := by
    rw [List.eq_nil_iff_forall_not_mem]
    constructor
    · rintro hnone part hpart ⟨rest', heq⟩
      exact hnone rest' ((takes_ends text hahead text rest').mpr ⟨part, hpart, heq.symm⟩)
    · intro hnone rest' hrest'
      obtain ⟨part, hpart, heq⟩ := (takes_ends text hahead text rest').mp hrest'
      exact hnone part hpart ⟨rest', heq.symm⟩
  have hmatch : [] ∈ ends text (.seq first last) text ↔ text ∈ first.language * last.language := by
    rw [takes_ends text (by rw [isPlain, h, h']; rfl) text [], language]
    simp only [List.append_nil, exists_eq_right']
  rw [test, List.any_eq_true]
  constructor
  · rintro ⟨rest, hsuffix, hrest⟩
    rw [Bool.not_eq_true', List.isEmpty_eq_false_iff, ends_seq_atStart] at hrest
    split_ifs at hrest with hlength
    · obtain rfl := (List.mem_tails _ _ |>.mp hsuffix).eq_of_length hlength
      rw [ends_seq_notAhead] at hrest
      split_ifs at hrest with hnone
      · rw [ends_seq_assoc, ends_seq_atEnd_ne_nil] at hrest
        exact ⟨hmatch.mp hrest, hends.mp (List.isEmpty_iff.mp hnone)⟩
      · exact absurd rfl hrest
    · exact absurd rfl hrest
  · rintro ⟨hlanguage, hnone⟩
    refine ⟨text, List.mem_tails _ _ |>.mpr List.suffix_rfl, ?_⟩
    rw [Bool.not_eq_true', List.isEmpty_eq_false_iff, ends_seq_atStart, if_pos rfl,
      ends_seq_notAhead, if_pos (List.isEmpty_iff.mpr (hends.mpr hnone)), ends_seq_assoc,
      ends_seq_atEnd_ne_nil]
    exact hmatch.mpr hlanguage

/-! ## Texts of one length -/

section Units

variable {ranges : List (α × α)}

theorem mem_unit_pow {n : ℕ} {text : List α} :
    text ∈ (unit ranges).language ^ n ↔
      text.length = n ∧ ∀ a ∈ text, inRanges ranges a = true := by
  induction n generalizing text with
  | zero => cases text <;> simp
  | succ n ih =>
      rw [pow_succ', Language.mem_mul]
      constructor
      · rintro ⟨_, ⟨a, ha, rfl⟩, rest, hrest, rfl⟩
        obtain ⟨hlength, hrest⟩ := ih.mp hrest
        simpa [hlength, ha] using hrest
      · rintro ⟨hlength, htext⟩
        cases text with
        | nil => cases hlength
        | cons a rest =>
            rw [List.forall_mem_cons] at htext
            exact ⟨[a], ⟨a, htext.1, rfl⟩, rest, ih.mpr ⟨Nat.succ.inj hlength, htext.2⟩, rfl⟩

theorem mem_unit_atMost {n : ℕ} {text : List α} :
    text ∈ atMost (unit ranges).language n ↔
      text.length ≤ n ∧ ∀ a ∈ text, inRanges ranges a = true := by
  induction n generalizing text with
  | zero => cases text <;> simp [atMost]
  | succ n ih =>
      rw [atMost, Language.mem_add, Language.mem_mul, Language.mem_one]
      constructor
      · rintro (⟨_, ⟨a, ha, rfl⟩, rest, hrest, rfl⟩ | rfl)
        · obtain ⟨hlength, hrest⟩ := ih.mp hrest
          simpa [hlength, ha] using hrest
        · simp
      · rintro ⟨hlength, htext⟩
        cases text with
        | nil => exact .inr rfl
        | cons a rest =>
            rw [List.forall_mem_cons] at htext
            have hrest := ih.mpr ⟨Nat.succ_le_succ_iff.mp hlength, htext.2⟩
            exact .inl ⟨[a], ⟨a, htext.1, rfl⟩, rest, hrest, rfl⟩

end Units

/-- The length of every match, where there is only one. -/
def width : Regex α → Option ℕ
  | .empty => some 0
  | .unit _ => some 1
  | .seq first second => do return (← first.width) + (← second.width)
  | .alt first second =>
      if first.width = second.width then first.width else none
  | .repeated body least most =>
      if most ≤ least then body.width.map (least * ·) else none
  | .atStart | .atEnd | .notAhead _ => none

/-- The units of every match are in one range. -/
def isWithin (low high : α) : Regex α → Bool
  | .unit ranges => ranges.all fun range => low ≤ range.1 && range.2 ≤ high
  | .seq first second | .alt first second => first.isWithin low high && second.isWithin low high
  | .repeated body _ _ => body.isWithin low high
  | .empty | .atStart | .atEnd | .notAhead _ => true

theorem length_of_width {regex : Regex α} {n : ℕ} (h : regex.width = some n) {text : List α}
    (htext : text ∈ regex.language) : text.length = n := by
  induction regex generalizing n text with
  | empty =>
      cases h
      rw [(Language.mem_one text).mp htext]
      rfl
  | unit ranges =>
      cases h
      obtain ⟨a, -, rfl⟩ := htext
      rfl
  | seq first second ih ih' =>
      simp only [width, Option.bind_eq_bind, Option.bind_eq_some_iff] at h
      obtain ⟨m, hm, k, hk, hsum⟩ := h
      cases hsum
      obtain ⟨part, hpart, rest, hrest, rfl⟩ := Language.mem_mul.mp htext
      rw [List.length_append, ih hm hpart, ih' hk hrest]
  | alt first second ih ih' =>
      rw [width] at h
      split_ifs at h with hsame
      rcases htext with hfirst | hsecond
      · exact ih h hfirst
      · exact ih' (hsame ▸ h) hsecond
  | repeated body least most ih =>
      rw [width] at h
      split_ifs at h with hle
      obtain ⟨m, hm, rfl⟩ := Option.map_eq_some_iff.mp h
      rw [language, Nat.sub_eq_zero_of_le hle, atMost, mul_one] at htext
      exact length_of_mem_pow (fun _ => ih hm) htext
  | atStart => cases h
  | atEnd => cases h
  | notAhead body _ => cases h

end Matching

section Within

variable [LE α] [Std.IsPreorder α] [DecidableLE α] {low high : α}

theorem forall_mem_of_isWithin {regex : Regex α} (h : regex.isWithin low high = true)
    {text : List α} (htext : text ∈ regex.language) : ∀ a ∈ text, low ≤ a ∧ a ≤ high := by
  induction regex generalizing text with
  | empty =>
      rw [(Language.mem_one text).mp htext]
      simp
  | unit ranges =>
      obtain ⟨a, ha, rfl⟩ := htext
      obtain ⟨range, hmem, hrange⟩ := List.any_eq_true.mp ha
      have hwithin := List.all_eq_true.mp h range hmem
      simp only [Bool.and_eq_true, decide_eq_true_eq] at hrange hwithin
      intro b hb
      rw [List.mem_singleton.mp hb]
      exact ⟨Std.le_trans hwithin.1 hrange.1, Std.le_trans hrange.2 hwithin.2⟩
  | seq first second ih ih' =>
      rw [isWithin, Bool.and_eq_true] at h
      obtain ⟨part, hpart, rest, hrest, rfl⟩ := Language.mem_mul.mp htext
      intro a ha
      rcases List.mem_append.mp ha with ha | ha
      · exact ih h.1 hpart a ha
      · exact ih' h.2 hrest a ha
  | alt first second ih ih' =>
      rw [isWithin, Bool.and_eq_true] at h
      rcases htext with hfirst | hsecond
      · exact ih h.1 hfirst
      · exact ih' h.2 hsecond
  | repeated body least most ih =>
      obtain ⟨part, hpart, rest, hrest, rfl⟩ := Language.mem_mul.mp htext
      intro a ha
      rcases List.mem_append.mp ha with ha | ha
      · exact forall_mem_pow (fun _ => ih h) hpart a ha
      · exact forall_mem_atMost (fun _ => ih h) hrest a ha
  | atStart => cases htext
  | atEnd => cases htext
  | notAhead body _ => cases htext

end Within

end Regex

end ListmonkOps.Math
