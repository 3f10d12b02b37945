/-
Ranges as sets of addresses.

A list of ranges stands for the addresses in one of them. Such a list is in
canonical form when every range begins at or before its end, and each one begins
more than one address after the end of those before it, or belongs to a later
version: then ranges neither overlap nor touch. Normalizing, intersecting and
subtracting lists are read here as what they do to the sets. The set of a range
in prefix notation is given by the leading bits that its addresses share.
-/

import Mathlib.Data.Set.Lattice
import ListmonkOps.Provider.SpfIntervals

namespace ListmonkOps.Provider

open ListmonkOps.Runtime

/-- An address: its version and its number. -/
abbrev Address := IpFamily × ℕ

namespace SpfIpInterval

/-- The range begins at or before its end. -/
def IsRange (range : SpfIpInterval) : Prop := range.start ≤ range.stop

/-- The addresses from the start to the end of a range, both included. -/
def addresses (range : SpfIpInterval) : Set Address :=
  {a | a.1 = range.family ∧ range.start ≤ a.2 ∧ a.2 ≤ range.stop}

/-- The second range begins beyond the address next to the end of the first. -/
def Precedes (left right : SpfIpInterval) : Prop :=
  left.family.number < right.family.number ∨
    (left.family = right.family ∧ left.stop + 1 < right.start)

/-- The second range begins no earlier; the addresses of version 4 come first. -/
def StartsBefore (left right : SpfIpInterval) : Prop :=
  left.family.number < right.family.number ∨
    (left.family = right.family ∧ left.start ≤ right.start)

end SpfIpInterval

open SpfIpInterval

def addressesOf (ranges : List SpfIpInterval) : Set Address :=
  {a | ∃ range ∈ ranges, a ∈ range.addresses}

/-- Sorted ranges that neither overlap nor touch, so that a set of addresses has one such list. -/
structure Canonical (ranges : List SpfIpInterval) : Prop where
  isRange : ∀ range ∈ ranges, range.IsRange
  sorted : ranges.Pairwise Precedes

/-! ## Addresses of lists -/

section Addresses

variable {range : SpfIpInterval} {ranges left right : List SpfIpInterval}

@[simp]
theorem addressesOf_nil : addressesOf [] = ∅ := by
  ext a
  simp [addressesOf]

@[simp]
theorem addressesOf_cons :
    addressesOf (range :: ranges) = range.addresses ∪ addressesOf ranges := by
  ext a
  simp [addressesOf]

@[simp]
theorem addressesOf_append :
    addressesOf (left ++ right) = addressesOf left ∪ addressesOf right := by
  ext a
  simp only [addressesOf, List.mem_append, Set.mem_ofPred_eq, Set.mem_union]
  constructor
  · rintro ⟨range, hmem | hmem, ha⟩
    · exact .inl ⟨range, hmem, ha⟩
    · exact .inr ⟨range, hmem, ha⟩
  · rintro (⟨range, hmem, ha⟩ | ⟨range, hmem, ha⟩)
    · exact ⟨range, .inl hmem, ha⟩
    · exact ⟨range, .inr hmem, ha⟩

theorem addressesOf_congr (h : ∀ range, range ∈ left ↔ range ∈ right) :
    addressesOf left = addressesOf right := by
  ext a
  simp only [addressesOf, Set.mem_ofPred_eq, h]

theorem addressesOf_flatMap {f : SpfIpInterval → List SpfIpInterval} {removed : Set Address}
    (h : ∀ range ∈ ranges, addressesOf (f range) = range.addresses \ removed) :
    addressesOf (ranges.flatMap f) = addressesOf ranges \ removed := by
  induction ranges with
  | nil => simp
  | cons range ranges ih =>
      rw [List.flatMap_cons, addressesOf_append, addressesOf_cons, Set.union_sdiff_distrib,
        h range List.mem_cons_self, ih fun other hmem => h other (List.mem_cons_of_mem range hmem)]

end Addresses

/-! ## The order of ranges -/

theorem IpFamily.number_injective : Function.Injective IpFamily.number := by
  intro a b h
  cases a <;> cases b <;> first | rfl | cases h

theorem SpfIpInterval.Precedes.trans {a b c : SpfIpInterval} (hab : a.Precedes b)
    (hb : b.IsRange) (hbc : b.Precedes c) : a.Precedes c := by
  unfold IsRange at hb
  rcases hab with hab | ⟨hab, hgap⟩ <;> rcases hbc with hbc | ⟨hbc, hgap'⟩
  · exact .inl (hab.trans hbc)
  · exact .inl (hbc ▸ hab)
  · exact .inl (hab ▸ hbc)
  · exact .inr ⟨hab.trans hbc, by omega⟩

/-- The order that ranges are sorted by. -/
def SortedBefore (left right : SpfIpInterval) : Prop := left.before right = true

instance : DecidableRel SortedBefore := fun left right =>
  inferInstanceAs (Decidable (left.before right = true))

theorem SortedBefore.startsBefore {left right : SpfIpInterval} (h : SortedBefore left right) :
    left.StartsBefore right := by
  unfold SortedBefore SpfIpInterval.before at h
  unfold StartsBefore
  grind [IpFamily.number_injective]

instance : Std.Total SortedBefore where
  total left right := by
    have hnumber : left.family ≠ right.family → left.family.number ≠ right.family.number :=
      fun hne heq => hne (IpFamily.number_injective heq)
    unfold SortedBefore SpfIpInterval.before
    grind

instance : IsTrans SpfIpInterval SortedBefore where
  trans a b c hab hbc := by
    unfold SortedBefore SpfIpInterval.before at *
    grind [IpFamily.number_injective]

/-! ## Merging -/

section Merging

variable {init : List SpfIpInterval} {previous range : SpfIpInterval}

/-- Take a range in after the last one: behind it, or as its continuation. -/
theorem mergeInterval_concat :
    mergeInterval (init ++ [previous]) range =
      if previous.family ≠ range.family ∨ previous.stop + 1 < range.start then
        init ++ [previous] ++ [range]
      else init ++ [{ previous with stop := max previous.stop range.stop }] := by
  simp only [mergeInterval, List.getLast?_append, List.getLast?_singleton, Option.some_or,
    List.dropLast_concat, Bool.or_eq_true, decide_eq_true_eq]
  split
  · rfl
  · split
    · rw [max_eq_right (by omega)]
    · rw [max_eq_left (by omega)]

/-- What a list looks like after the next range: canonical, with the addresses of
both, and a last range that begins no later than the new one. -/
structure Merged (before after : List SpfIpInterval) (range : SpfIpInterval) : Prop where
  canonical : Canonical after
  addresses : addressesOf after = addressesOf before ∪ range.addresses
  last : ∃ init last, after = init ++ [last] ∧ last.StartsBefore range

/-- A range that begins too far behind the last one is a range of its own. -/
theorem merged_apart (hinit : Canonical (init ++ [previous])) (hrange : range.IsRange)
    (hapart : previous.Precedes range) :
    Merged (init ++ [previous]) (init ++ [previous] ++ [range]) range where
  canonical := by
    obtain ⟨hranges, hsorted⟩ := hinit
    refine ⟨fun other hmem => ?_, ?_⟩
    · rcases List.mem_append.mp hmem with hmem | hmem
      · exact hranges other hmem
      · exact List.mem_singleton.mp hmem ▸ hrange
    · refine List.pairwise_append.mpr ⟨hsorted, List.pairwise_singleton _ _, ?_⟩
      intro other hmem last hlast
      obtain rfl := List.mem_singleton.mp hlast
      rcases List.mem_append.mp hmem with hmem | hmem
      · have hbefore := (List.pairwise_append.mp hsorted).2.2 other hmem previous
          List.mem_cons_self
        exact hbefore.trans (hranges previous (by simp)) hapart
      · exact List.mem_singleton.mp hmem ▸ hapart
  addresses := by simp [Set.union_assoc]
  last := ⟨init ++ [previous], range, rfl, .inr ⟨rfl, le_rfl⟩⟩

theorem merged_touching (hinit : Canonical (init ++ [previous]))
    (hfamily : previous.family = range.family) (hstart : previous.start ≤ range.start)
    (htouch : range.start ≤ previous.stop + 1) :
    Merged (init ++ [previous]) (init ++ [{ previous with stop := max previous.stop range.stop }])
      range where
  canonical := by
    obtain ⟨hranges, hsorted⟩ := hinit
    obtain ⟨hsortedInit, -, hbefore⟩ := List.pairwise_append.mp hsorted
    refine ⟨fun other hmem => ?_, ?_⟩
    · rcases List.mem_append.mp hmem with hmem | hmem
      · exact hranges other (List.mem_append_left _ hmem)
      · obtain rfl := List.mem_singleton.mp hmem
        exact (hranges previous (by simp)).trans (le_max_left _ _)
    · refine List.pairwise_append.mpr ⟨hsortedInit, List.pairwise_singleton _ _, ?_⟩
      intro other hmem last hlast
      obtain rfl := List.mem_singleton.mp hlast
      exact hbefore other hmem previous List.mem_cons_self
  addresses := by
    have hprevious : previous.IsRange := hinit.isRange previous (by simp)
    unfold IsRange at hprevious
    have hunion : ({ previous with stop := max previous.stop range.stop } : SpfIpInterval).addresses =
        previous.addresses ∪ range.addresses := by
      ext ⟨family, number⟩
      simp only [SpfIpInterval.addresses, Set.mem_ofPred_eq, Set.mem_union, hfamily, ← and_or_left]
      exact and_congr_right fun _ => by omega
    simp [hunion, Set.union_assoc]
  last := ⟨init, _, rfl, .inr ⟨hfamily, hstart⟩⟩

/-- The step of the merge, for a range that begins no earlier than the last one. -/
theorem merged_mergeInterval (hinit : Canonical (init ++ [previous])) (hrange : range.IsRange)
    (hbefore : previous.StartsBefore range) :
    Merged (init ++ [previous]) (mergeInterval (init ++ [previous]) range) range := by
  rw [mergeInterval_concat]
  rcases hbefore with hfamily | ⟨hfamily, hstart⟩
  · have hne : previous.family ≠ range.family := fun heq => by
      rw [heq] at hfamily
      exact lt_irrefl _ hfamily
    rw [if_pos (.inl hne)]
    exact merged_apart hinit hrange (.inl hfamily)
  · split
    · rename_i hapart
      rcases hapart with hne | hgap
      · exact absurd hfamily hne
      · exact merged_apart hinit hrange (.inr ⟨hfamily, hgap⟩)
    · rename_i htouch
      exact merged_touching hinit hfamily hstart (by omega)

theorem SpfIpInterval.StartsBefore.trans {a b c : SpfIpInterval} (hab : a.StartsBefore b)
    (hbc : b.StartsBefore c) : a.StartsBefore c := by
  rcases hab with hab | ⟨hab, hle⟩ <;> rcases hbc with hbc | ⟨hbc, hle'⟩
  · exact .inl (hab.trans hbc)
  · exact .inl (hbc ▸ hab)
  · exact .inl (hab ▸ hbc)
  · exact .inr ⟨hab.trans hbc, hle.trans hle'⟩

/-- The whole merge, by induction on the ranges still to come: they begin no earlier
than the last range so far. -/
theorem foldl_mergeInterval {ranges : List SpfIpInterval} (hinit : Canonical (init ++ [previous]))
    (hranges : ∀ range ∈ ranges, range.IsRange) (hsorted : ranges.Pairwise StartsBefore)
    (hbefore : ∀ range ∈ ranges, previous.StartsBefore range) :
    Canonical (ranges.foldl mergeInterval (init ++ [previous])) ∧
      addressesOf (ranges.foldl mergeInterval (init ++ [previous])) =
        addressesOf (init ++ [previous]) ∪ addressesOf ranges := by
  induction ranges generalizing init previous with
  | nil => exact ⟨hinit, by simp⟩
  | cons range ranges ih =>
      obtain ⟨hfirst, hrest⟩ := List.pairwise_cons.mp hsorted
      obtain ⟨hcanonical, haddresses, init', last, hafter, hlast⟩ :=
        merged_mergeInterval hinit (hranges range List.mem_cons_self)
          (hbefore range List.mem_cons_self)
      rw [List.foldl_cons, hafter]
      rw [hafter] at hcanonical haddresses
      obtain ⟨hdone, hall⟩ := ih hcanonical
        (fun other hmem => hranges other (List.mem_cons_of_mem range hmem)) hrest
        fun other hmem => hlast.trans (hfirst other hmem)
      exact ⟨hdone, by rw [hall, haddresses, addressesOf_cons, Set.union_assoc]⟩

end Merging

/-! ## The operations on sets -/

section Operations

variable {ranges left right : List SpfIpInterval}

/-- Normalizing brings a list into canonical form and keeps its addresses. -/
theorem normalizeSpfIntervals_canonical (h : ∀ range ∈ ranges, range.IsRange) :
    Canonical (normalizeSpfIntervals ranges) ∧
      addressesOf (normalizeSpfIntervals ranges) = addressesOf ranges := by
  have hsorted : (ranges.insertionSort SortedBefore).Pairwise SortedBefore :=
    List.pairwise_insertionSort _ _
  have hmem : ∀ range, range ∈ ranges.insertionSort SortedBefore ↔ range ∈ ranges :=
    fun range => List.mem_insertionSort SortedBefore
  rw [← addressesOf_congr hmem]
  have hranges : ∀ range ∈ ranges.insertionSort SortedBefore, range.IsRange :=
    fun range hrange => h range ((hmem range).mp hrange)
  change Canonical ((ranges.insertionSort SortedBefore).foldl mergeInterval []) ∧
    addressesOf ((ranges.insertionSort SortedBefore).foldl mergeInterval []) = _
  generalize ranges.insertionSort SortedBefore = sorted at hsorted hranges
  cases sorted with
  | nil => exact ⟨⟨by simp, .nil⟩, rfl⟩
  | cons first rest =>
      obtain ⟨hfirst, hrest⟩ := List.pairwise_cons.mp hsorted
      have hsingle : Canonical ([] ++ [first]) :=
        ⟨by simpa using hranges first List.mem_cons_self, List.pairwise_singleton _ _⟩
      obtain ⟨hcanonical, haddresses⟩ := foldl_mergeInterval hsingle
        (fun range hrange => hranges range (List.mem_cons_of_mem first hrange))
        (hrest.imp SortedBefore.startsBefore) fun range hrange => (hfirst range hrange).startsBefore
      refine ⟨hcanonical, ?_⟩
      have hfirstMerged : mergeInterval [] first = [] ++ [first] := rfl
      rw [List.foldl_cons, hfirstMerged, haddresses]
      simp

/-- The common addresses of two ranges are a range, or there are none. -/
theorem addresses_inter {a b : SpfIpInterval} :
    a.addresses ∩ b.addresses =
      if intervalsOverlap a b then
        SpfIpInterval.addresses ⟨a.family, max a.start b.start, min a.stop b.stop⟩
      else ∅ := by
  ext ⟨family, number⟩
  by_cases hfamily : a.family = b.family
  · by_cases hoverlap : a.start ≤ b.stop ∧ b.start ≤ a.stop
    · rw [if_pos (by simpa [intervalsOverlap, hfamily] using hoverlap)]
      simp only [SpfIpInterval.addresses, Set.mem_inter_iff, Set.mem_ofPred_eq, hfamily]
      constructor
      · rintro ⟨⟨hfam, hle⟩, -, hle'⟩
        exact ⟨hfam, by omega⟩
      · rintro ⟨hfam, hle⟩
        exact ⟨⟨hfam, by omega⟩, hfam, by omega⟩
    · rw [if_neg (by simpa [intervalsOverlap, hfamily] using hoverlap)]
      simp only [SpfIpInterval.addresses, Set.mem_inter_iff, Set.mem_ofPred_eq,
        Set.mem_empty_iff_false, iff_false]
      rintro ⟨⟨-, hle⟩, -, hle'⟩
      omega
  · rw [if_neg (by simp [intervalsOverlap, hfamily])]
    simp only [SpfIpInterval.addresses, Set.mem_inter_iff, Set.mem_ofPred_eq,
      Set.mem_empty_iff_false, iff_false]
    rintro ⟨⟨hfam, -⟩, hfam', -⟩
    exact hfamily (hfam.symm.trans hfam')

/-- Intersecting normalizes the ranges that pairs of ranges have in common. -/
theorem addressesOf_intersections :
    addressesOf (left.flatMap fun leftRange =>
      (right.filter (intervalsOverlap leftRange)).map fun rightRange =>
        { family := leftRange.family
          start := max leftRange.start rightRange.start
          stop := min leftRange.stop rightRange.stop }) =
      addressesOf left ∩ addressesOf right := by
  have hpair (a b : SpfIpInterval) (x : Address) : x ∈ a.addresses ∩ b.addresses ↔
      intervalsOverlap a b = true ∧
        x ∈ SpfIpInterval.addresses ⟨a.family, max a.start b.start, min a.stop b.stop⟩ := by
    rw [addresses_inter]
    split
    · rename_i hoverlap
      exact (and_iff_right hoverlap).symm
    · rename_i hoverlap
      simp [hoverlap]
  ext x
  simp only [addressesOf, List.mem_flatMap, List.mem_map, List.mem_filter, Set.mem_ofPred_eq,
    Set.mem_inter_iff]
  constructor
  · rintro ⟨-, ⟨a, ha, b, ⟨hb, hoverlap⟩, rfl⟩, hx⟩
    obtain ⟨hxa, hxb⟩ := (hpair a b x).mpr ⟨hoverlap, hx⟩
    exact ⟨⟨a, ha, hxa⟩, b, hb, hxb⟩
  · rintro ⟨⟨a, ha, hxa⟩, b, hb, hxb⟩
    obtain ⟨hoverlap, hx⟩ := (hpair a b x).mp ⟨hxa, hxb⟩
    exact ⟨_, ⟨a, ha, b, ⟨hb, hoverlap⟩, rfl⟩, hx⟩

theorem intersectSpfIntervals_canonical (hleft : ∀ range ∈ left, range.IsRange)
    (hright : ∀ range ∈ right, range.IsRange) :
    Canonical (intersectSpfIntervals left right) ∧
      addressesOf (intersectSpfIntervals left right) = addressesOf left ∩ addressesOf right := by
  have hranges : ∀ range ∈ left.flatMap fun leftRange =>
      (right.filter (intervalsOverlap leftRange)).map fun rightRange =>
        ({ family := leftRange.family
           start := max leftRange.start rightRange.start
           stop := min leftRange.stop rightRange.stop } : SpfIpInterval), range.IsRange := by
    intro range hmem
    simp only [List.mem_flatMap, List.mem_map, List.mem_filter] at hmem
    obtain ⟨a, ha, b, ⟨hb, hoverlap⟩, rfl⟩ := hmem
    have ha := hleft a ha
    have hb := hright b hb
    unfold IsRange at ha hb ⊢
    simp only [intervalsOverlap, Bool.and_eq_true, decide_eq_true_eq] at hoverlap
    change max a.start b.start ≤ min a.stop b.stop
    omega
  obtain ⟨hcanonical, haddresses⟩ := normalizeSpfIntervals_canonical hranges
  exact ⟨hcanonical, haddresses.trans addressesOf_intersections⟩

theorem addressesOf_subtractSpfInterval (source authorized : SpfIpInterval) :
    addressesOf (subtractSpfInterval source authorized) =
      source.addresses \ authorized.addresses := by
  ext ⟨family, number⟩
  unfold subtractSpfInterval
  by_cases hoverlap : intervalsOverlap source authorized
  · rw [if_neg (by simpa using hoverlap)]
    simp only [intervalsOverlap, Bool.and_eq_true, decide_eq_true_eq] at hoverlap
    obtain ⟨⟨hfamily, hle⟩, hle'⟩ := hoverlap
    simp only [addressesOf, SpfIpInterval.addresses, List.mem_append, List.mem_ite_nil_right,
      List.mem_singleton, Set.mem_ofPred_eq, Set.mem_sdiff]
    constructor
    · rintro ⟨range, ⟨hlt, rfl⟩ | ⟨hlt, rfl⟩, hfam, hstart, hstop⟩
      · dsimp only at hfam hstart hstop
        exact ⟨⟨hfam, by omega⟩, fun h => by omega⟩
      · dsimp only at hfam hstart hstop
        exact ⟨⟨hfam, by omega⟩, fun h => by omega⟩
    · rintro ⟨⟨hfam, hin⟩, hout⟩
      have hside : number < authorized.start ∨ authorized.stop < number := by
        by_contra hinside
        exact hout ⟨hfam.trans hfamily, by omega⟩
      rcases hside with hside | hside
      · exact ⟨_, .inl ⟨by omega, rfl⟩, hfam, hin.1, Nat.le_sub_one_of_lt hside⟩
      · exact ⟨_, .inr ⟨by omega, rfl⟩, hfam, hside, hin.2⟩
  · rw [if_pos (by simpa using hoverlap)]
    have hempty : source.addresses ∩ authorized.addresses = ∅ := by
      rw [addresses_inter, if_neg hoverlap]
    simp only [addressesOf_cons, addressesOf_nil, Set.union_empty, Set.mem_sdiff]
    refine (and_iff_left_of_imp fun hsource hauthorized => ?_).symm
    have hboth : (family, number) ∈ source.addresses ∩ authorized.addresses :=
      ⟨hsource, hauthorized⟩
    rw [hempty] at hboth
    exact hboth

theorem isRange_subtractSpfInterval {source authorized range : SpfIpInterval}
    (hsource : source.IsRange) (hmem : range ∈ subtractSpfInterval source authorized) :
    range.IsRange := by
  unfold IsRange at hsource ⊢
  unfold subtractSpfInterval at hmem
  split at hmem
  · exact List.mem_singleton.mp hmem ▸ hsource
  · simp only [List.mem_append, List.mem_ite_nil_right, List.mem_singleton] at hmem
    rcases hmem with ⟨hlt, rfl⟩ | ⟨hlt, rfl⟩
    · exact Nat.le_sub_one_of_lt hlt
    · exact hlt

/-- Taking ranges out one after another takes all their addresses out. -/
theorem foldl_subtract (removed : List SpfIpInterval) (h : ∀ range ∈ ranges, range.IsRange) :
    let remaining := removed.foldl
      (fun remaining range => remaining.flatMap (subtractSpfInterval · range)) ranges
    (∀ range ∈ remaining, range.IsRange) ∧
      addressesOf remaining = addressesOf ranges \ addressesOf removed := by
  induction removed generalizing ranges with
  | nil => exact ⟨h, by simp⟩
  | cons range removed ih =>
      have hranges : ∀ other ∈ ranges.flatMap (subtractSpfInterval · range), other.IsRange := by
        intro other hmem
        obtain ⟨source, hsource, hother⟩ := List.mem_flatMap.mp hmem
        exact isRange_subtractSpfInterval (h source hsource) hother
      obtain ⟨hrest, haddresses⟩ := ih hranges
      refine ⟨hrest, haddresses.trans ?_⟩
      rw [addressesOf_flatMap fun source _ => addressesOf_subtractSpfInterval source range,
        addressesOf_cons, Set.sdiff_sdiff]

theorem subtractSpfIntervals_canonical (hleft : ∀ range ∈ left, range.IsRange)
    (hright : ∀ range ∈ right, range.IsRange) :
    Canonical (subtractSpfIntervals left right) ∧
      addressesOf (subtractSpfIntervals left right) = addressesOf left \ addressesOf right := by
  obtain ⟨hleftCanonical, hleftAddresses⟩ := normalizeSpfIntervals_canonical hleft
  have hrightAddresses := (normalizeSpfIntervals_canonical hright).2
  obtain ⟨hranges, haddresses⟩ :=
    foldl_subtract (normalizeSpfIntervals right) hleftCanonical.isRange
  obtain ⟨hcanonical, hnormalized⟩ := normalizeSpfIntervals_canonical hranges
  rw [hleftAddresses, hrightAddresses] at haddresses
  exact ⟨hcanonical, hnormalized.trans haddresses⟩

end Operations

/-! ## Parsed ranges -/

def IpFamily.width : IpFamily → ℕ
  | .v4 => 32
  | .v6 => 128

/-- Two numbers of `width` bits have the first `p` of them in common. -/
def SharesPrefix (width p m n : ℕ) : Prop :=
  ∀ i, width - p ≤ i → i < width → m.testBit i = n.testBit i

/-- The addresses of a version that share the first `p` bits of a number. -/
def networkOf (family : IpFamily) (n p : ℕ) : Set Address :=
  {a | a.1 = family ∧ a.2 < 2 ^ family.width ∧ SharesPrefix family.width p a.2 n}

theorem sharesPrefix_iff {width p m n : ℕ} (hm : m < 2 ^ width) (hn : n < 2 ^ width) :
    SharesPrefix width p m n ↔ m >>> (width - p) = n >>> (width - p) := by
  constructor
  · intro h
    refine Nat.eq_of_testBit_eq fun i => ?_
    rw [Nat.testBit_shiftRight, Nat.testBit_shiftRight]
    by_cases hi : width - p + i < width
    · exact h _ (Nat.le_add_right _ _) hi
    · have hpow : 2 ^ width ≤ 2 ^ (width - p + i) := Nat.pow_le_pow_right (by decide) (by omega)
      rw [Nat.testBit_lt_two_pow (hm.trans_le hpow), Nat.testBit_lt_two_pow (hn.trans_le hpow)]
  · intro h i hle hlt
    have hbit := congrArg (Nat.testBit · (i - (width - p))) h
    simpa [Nat.testBit_shiftRight, Nat.add_sub_cancel' hle] using hbit

/-- A number with the leading bits of a number of `width` bits has no more bits. -/
theorem lt_of_shiftRight_eq {width p m n : ℕ} (hle : p ≤ width) (hn : n < 2 ^ width)
    (h : m >>> (width - p) = n >>> (width - p)) : m < 2 ^ width := by
  have hpow : 2 ^ width = 2 ^ p * 2 ^ (width - p) := by
    rw [← Nat.pow_add, Nat.add_sub_cancel' hle]
  rw [Nat.shiftRight_eq_div_pow, Nat.shiftRight_eq_div_pow] at h
  rw [hpow] at hn ⊢
  rw [← Nat.div_lt_iff_lt_mul (Nat.two_pow_pos _)] at hn ⊢
  exact h ▸ hn

/-- The range that clearing and setting the last `hostBits` bits gives. -/
theorem addresses_hostBits {family : IpFamily} {n hostBits : ℕ} :
    let start := (n >>> hostBits) <<< hostBits
    SpfIpInterval.addresses ⟨family, start, start ||| (2 ^ hostBits - 1)⟩ =
      {a | a.1 = family ∧ a.2 >>> hostBits = n >>> hostBits} := by
  have hpos : 0 < 2 ^ hostBits := Nat.two_pow_pos hostBits
  ext ⟨version, number⟩
  simp only [SpfIpInterval.addresses, Set.mem_ofPred_eq]
  refine and_congr_right fun _ => ?_
  rw [← Nat.shiftLeft_add_eq_or_of_lt (Nat.sub_lt hpos Nat.one_pos), Nat.shiftLeft_eq,
    Nat.shiftRight_eq_div_pow number]
  generalize n >>> hostBits = q
  rw [Nat.div_eq_iff hpos, Nat.mul_comm]
  omega

/-- The range that a number and a prefix length are read as. -/
def prefixRange (family : IpFamily) (n p : ℕ) : SpfIpInterval :=
  let start := (n >>> (family.width - p)) <<< (family.width - p)
  ⟨family, start, start ||| (2 ^ (family.width - p) - 1)⟩

theorem isRange_prefixRange {family : IpFamily} {n p : ℕ} : (prefixRange family n p).IsRange :=
  Nat.left_le_or

theorem addresses_prefixRange {family : IpFamily} {n p : ℕ} (hn : n < 2 ^ family.width)
    (hle : p ≤ family.width) : (prefixRange family n p).addresses = networkOf family n p := by
  refine addresses_hostBits.trans ?_
  ext ⟨version, number⟩
  simp only [networkOf, Set.mem_ofPred_eq]
  refine and_congr_right fun _ => ?_
  constructor
  · intro hshift
    have hnumber : number < 2 ^ family.width := lt_of_shiftRight_eq hle hn hshift
    exact ⟨hnumber, (sharesPrefix_iff hnumber hn).mpr hshift⟩
  · rintro ⟨hnumber, hshares⟩
    exact (sharesPrefix_iff hnumber hn).mp hshares

section Parsing

variable [CaseMapping] [IpSyntax]

/-- The number that the text of an address is read as. -/
def addressInteger : IpFamily → Text → Option ℕ
  | .v4, address => ipv4Integer address
  | .v6, address => ipv6Integer address

omit [CaseMapping] [IpSyntax] in
theorem splitAtLast_concat {separator : UInt16} {front rest : Text} (h : separator ∉ rest) :
    splitAtLast separator (front ++ separator :: rest) = (front, some rest) := by
  have hrest : ∀ unit ∈ rest, decide (unit ≠ separator) = true :=
    fun unit hmem => decide_eq_true fun heq => h (heq ▸ hmem)
  have hdrop : (front ++ separator :: rest).rdropWhile (· ≠ separator) = front ++ [separator] := by
    rw [← List.singleton_append, ← List.append_assoc, List.rdropWhile,
      List.reverse_append, List.dropWhile_append_of_pos fun unit hmem =>
        hrest unit (List.mem_reverse.mp hmem)]
    simp
  have htake : (front ++ separator :: rest).rtakeWhile (· ≠ separator) = rest := by
    rw [← List.singleton_append, ← List.append_assoc, List.rtakeWhile,
      List.reverse_append, List.takeWhile_append_of_pos fun unit hmem =>
        hrest unit (List.mem_reverse.mp hmem)]
    simp
  rw [splitAtLast, if_pos (by simp), hdrop, htake, List.dropLast_concat]

omit [CaseMapping] [IpSyntax] in
theorem notMem_of_isDecimal {digits : Text} {unit : UInt16} (h : isDecimal digits = true)
    (hunit : isDigit unit = false) : unit ∉ digits := by
  simp only [isDecimal, Bool.and_eq_true, List.all_eq_true] at h
  intro hmem
  exact absurd (h.2 unit hmem) (by simp [hunit])

theorem parseSpfIpInterval_eq {value address : Text} (prefixText : Option Text)
    {family : IpFamily} {n p : ℕ} (hrecognized : IpSyntax.isIP address = family.number)
    (hzoneless : 37 ∉ address) (hinteger : addressInteger family address = some n)
    (hsplit : splitAtLast 47 (CaseMapping.toLowerCase value) = (address, prefixText))
    (hbits : match prefixText with
      | none => p = family.width
      | some digits => isDecimal digits = true ∧ decimalValue digits = p) (hle : p ≤ family.width) :
    parseSpfIpInterval value = some (prefixRange family n p) := by
  unfold parseSpfIpInterval prefixRange
  simp only [hsplit, if_neg hzoneless]
  cases family with
  | v4 =>
      simp only [IpFamily.number] at hrecognized
      simp only [addressInteger] at hinteger
      simp only [IpFamily.width] at hbits hle ⊢
      cases prefixText with
      | none =>
          subst hbits
          simp [hrecognized, hinteger]
      | some digits =>
          obtain ⟨hdigits, rfl⟩ := hbits
          simp [hrecognized, hinteger, hdigits, Nat.not_lt.mpr hle]
  | v6 =>
      simp only [IpFamily.number] at hrecognized
      simp only [addressInteger] at hinteger
      simp only [IpFamily.width] at hbits hle ⊢
      cases prefixText with
      | none =>
          subst hbits
          simp [hrecognized, hinteger]
      | some digits =>
          obtain ⟨hdigits, rfl⟩ := hbits
          simp [hrecognized, hinteger, hdigits, Nat.not_lt.mpr hle]

omit [CaseMapping] in
/-- The four numbers of a text that the platform takes for an address are its bits. -/
theorem ipv4Integer_dotted {a b c d : Text}
    (hparts : ∀ part ∈ [a, b, c, d], isDecimal part = true ∧ decimalValue part < 256)
    (hrecognized : IpSyntax.isIP ([46].intercalate [a, b, c, d]) = 4) :
    ipv4Integer ([46].intercalate [a, b, c, d]) =
      some (((decimalValue a * 256 + decimalValue b) * 256 + decimalValue c) * 256 +
        decimalValue d) := by
  have hdots : ∀ part ∈ [a, b, c, d], (46 : UInt16) ∉ part :=
    fun part hmem => notMem_of_isDecimal (hparts part hmem).1 rfl
  have hshift : ∀ value part : ℕ, part < 256 → (value <<< 8) ||| part = value * 256 + part :=
    fun value part hlt => by
      rw [← Nat.shiftLeft_add_eq_or_of_lt (i := 8) hlt, Nat.shiftLeft_eq]
  have hsplit : ([46].intercalate [a, b, c, d]).splitOn 46 = [a, b, c, d] :=
    List.splitOn_intercalate 46 hdots (List.cons_ne_nil _ _)
  simp only [List.forall_mem_cons] at hparts
  obtain ⟨⟨-, ha⟩, ⟨-, hb⟩, ⟨-, hc⟩, ⟨-, hd⟩, -⟩ := hparts
  rw [ipv4Integer, if_neg (not_not.mpr hrecognized), hsplit]
  simp only [List.foldl_cons, List.foldl_nil]
  rw [hshift 0 _ ha, hshift _ _ hb, hshift _ _ hc, hshift _ _ hd, Nat.zero_mul, Nat.zero_add]

end Parsing

/-- A platform that knows dotted addresses only. -/
@[reducible]
def dottedIpSyntax : IpSyntax where
  isIP text :=
    let parts := text.splitOn 46
    if parts.length = 4 ∧ ∀ part ∈ parts, isDecimal part = true ∧ decimalValue part < 256 then 4
    else 0

end ListmonkOps.Provider
