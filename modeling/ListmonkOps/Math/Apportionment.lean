/-
Apportionment by largest remainders.

Seats are divided among groups with given quotas: every group has the floor of
its quota, and the seats that are left go one each to the groups with the largest
fractional remainders. Whichever way ties are broken, the seats add up and every
group ends at the floor or the ceiling of its quota.
-/

import Mathlib.Algebra.BigOperators.Group.Finset.Piecewise
import Mathlib.Algebra.BigOperators.Ring.Finset
import Mathlib.Algebra.Order.Floor.Semiring
import Mathlib.Algebra.Order.BigOperators.Group.Finset
import Mathlib.Data.List.Sort
import Mathlib.Tactic.Linarith
import Mathlib.Tactic.Push

namespace ListmonkOps.Math.Apportionment

variable {ι K : Type} [DecidableEq ι] [Field K] [LinearOrder K] [IsStrictOrderedRing K]
  [FloorSemiring K] {quota : ι → K} {groups served : Finset ι} {total : ℕ} {i j : ι}

/-! ## Remainders -/

def remainder (quota : ι → K) (i : ι) : K := quota i - ⌊quota i⌋₊

omit [DecidableEq ι] in
theorem remainder_lt_one : remainder quota i < 1 := by
  rw [remainder]
  linarith [Nat.lt_floor_add_one (quota i)]

/-- The seats of a group: one above the floor for those that are served. -/
def seats (quota : ι → K) (served : Finset ι) (i : ι) : ℕ :=
  ⌊quota i⌋₊ + if i ∈ served then 1 else 0

/-- The quotas of `groups` use up the total. -/
structure Quotas (quota : ι → K) (groups : Finset ι) (total : ℕ) : Prop where
  nonneg : ∀ i ∈ groups, 0 ≤ quota i
  sum : ∑ i ∈ groups, quota i = total

namespace Quotas

omit [DecidableEq ι] in
theorem sum_floor_le (h : Quotas quota groups total) : ∑ i ∈ groups, ⌊quota i⌋₊ ≤ total := by
  have hle : ((∑ i ∈ groups, ⌊quota i⌋₊ : ℕ) : K) ≤ total := by
    rw [Nat.cast_sum, ← h.sum]
    exact Finset.sum_le_sum fun i hi => Nat.floor_le (h.nonneg i hi)
  exact_mod_cast hle

omit [DecidableEq ι] in
theorem sum_remainder (h : Quotas quota groups total) :
    ∑ i ∈ groups, remainder quota i = ((total - ∑ i ∈ groups, ⌊quota i⌋₊ : ℕ) : K) := by
  rw [Nat.cast_sub h.sum_floor_le, Nat.cast_sum, ← h.sum, ← Finset.sum_sub_distrib]
  rfl

omit [DecidableEq ι] in
theorem left_le_card_pos (h : Quotas quota groups total) :
    total - ∑ i ∈ groups, ⌊quota i⌋₊ ≤ (groups.filter (0 < remainder quota ·)).card := by
  have hle : ((total - ∑ i ∈ groups, ⌊quota i⌋₊ : ℕ) : K) ≤
      ((groups.filter (0 < remainder quota ·)).card : K) := by
    rw [← h.sum_remainder, ← Finset.sum_filter_add_sum_filter_not groups (0 < remainder quota ·),
      Finset.card_eq_sum_ones, Nat.cast_sum]
    have hzero : ∑ i ∈ groups.filter (¬ 0 < remainder quota ·), remainder quota i ≤ 0 :=
      Finset.sum_nonpos fun i hi => not_lt.mp (Finset.mem_filter.mp hi).2
    have hone : ∑ i ∈ groups.filter (0 < remainder quota ·), remainder quota i ≤
        ∑ i ∈ groups.filter (0 < remainder quota ·), ((1 : ℕ) : K) :=
      Finset.sum_le_sum fun i _ => by rw [Nat.cast_one]; exact remainder_lt_one.le
    linarith
  exact_mod_cast hle

end Quotas

/-! ## Serving the largest remainders -/

/-- The served groups take the seats that are left and have the largest remainders. -/
structure Serves (quota : ι → K) (groups served : Finset ι) (total : ℕ) : Prop where
  subset : served ⊆ groups
  card : served.card = total - ∑ i ∈ groups, ⌊quota i⌋₊
  largest : ∀ i ∈ served, ∀ j ∈ groups, j ∉ served → remainder quota j ≤ remainder quota i

namespace Serves

theorem sum_seats (hserves : Serves quota groups served total)
    (hquotas : Quotas quota groups total) : ∑ i ∈ groups, seats quota served i = total := by
  simp only [seats]
  rw [Finset.sum_add_distrib, Finset.sum_ite_mem, Finset.inter_eq_right.mpr hserves.subset,
    ← Finset.card_eq_sum_ones, hserves.card]
  have := hquotas.sum_floor_le
  omega

theorem remainder_pos (hserves : Serves quota groups served total)
    (hquotas : Quotas quota groups total) (hi : i ∈ served) : 0 < remainder quota i := by
  by_contra hpos
  -- a group without a remainder is served only after all that have one
  have hsubset : groups.filter (0 < remainder quota ·) ⊆ served.erase i := by
    intro j hj
    obtain ⟨hgroup, hj⟩ := Finset.mem_filter.mp hj
    refine Finset.mem_erase.mpr ⟨fun heq => hpos (heq ▸ hj), ?_⟩
    by_contra hserved
    exact hpos (hj.trans_le (hserves.largest i hi j hgroup hserved))
  have hcard := Finset.card_le_card hsubset
  rw [Finset.card_erase_of_mem hi, hserves.card] at hcard
  have hleft := hquotas.left_le_card_pos
  have : 0 < served.card := Finset.card_pos.mpr ⟨i, hi⟩
  rw [hserves.card] at this
  omega

omit [IsStrictOrderedRing K] in
theorem floor_le_seats : ⌊quota i⌋₊ ≤ seats quota served i := Nat.le_add_right _ _

omit [IsStrictOrderedRing K] in
theorem seats_le_succ : seats quota served i ≤ ⌊quota i⌋₊ + 1 := by
  rw [seats]
  split_ifs <;> omega

theorem seats_eq (hserves : Serves quota groups served total)
    (hquotas : Quotas quota groups total) :
    seats quota served i = ⌊quota i⌋₊ ∨ seats quota served i = ⌈quota i⌉₊ := by
  by_cases hi : i ∈ served
  · right
    have hpos := hserves.remainder_pos hquotas hi
    rw [seats, if_pos hi]
    symm
    rw [Nat.ceil_eq_iff (Nat.succ_ne_zero _)]
    rw [remainder] at hpos
    constructor
    · rw [Nat.succ_sub_one]
      linarith
    · push_cast
      exact (Nat.lt_floor_add_one _).le
  · left
    rw [seats, if_neg hi, Nat.add_zero]

/-- A larger quota never gets fewer seats. -/
theorem seats_mono (hserves : Serves quota groups served total) (hj : j ∈ groups)
    (h : quota i < quota j) : seats quota served i ≤ seats quota served j := by
  rcases (Nat.floor_le_floor h.le).lt_or_eq with hlt | heq
  · calc seats quota served i ≤ ⌊quota i⌋₊ + 1 := seats_le_succ
      _ ≤ ⌊quota j⌋₊ := hlt
      _ ≤ seats quota served j := floor_le_seats
  · have hremainder : remainder quota i < remainder quota j := by
      rw [remainder, remainder, heq]
      linarith
    by_cases hi : i ∈ served
    · have hserved : j ∈ served := by
        by_contra hserved
        exact absurd (hserves.largest i hi j hj hserved) (not_le.mpr hremainder)
      rw [seats, seats, if_pos hi, if_pos hserved, heq]
    · rw [seats, if_neg hi, heq]
      exact floor_le_seats

end Serves

/-! ## The first of a ranking -/

/-- Whoever precedes a member of the front of a ranking is in the front as well. -/
theorem mem_take_of_pairwise {α : Type} {R : α → α → Prop} {ranking : List α} {k : ℕ} {x y : α}
    (hranking : ranking.Pairwise R) (hx : x ∈ ranking.take k) (hy : y ∈ ranking)
    (hprecedes : ¬ R x y) : y ∈ ranking.take k := by
  rw [← List.take_append_drop k ranking] at hranking hy
  rcases List.mem_append.mp hy with hy | hy
  · exact hy
  · exact absurd ((List.pairwise_append.mp hranking).2.2 x hx y hy) hprecedes

theorem sum_range_getD {α M : Type} [AddCommMonoid M] (xs : List α) (d : α) (f : α → M) :
    ∑ i ∈ Finset.range xs.length, f (xs[i]?.getD d) = (xs.map f).sum := by
  induction xs with
  | nil => rfl
  | cons x xs ih =>
      rw [List.length_cons, Finset.sum_range_succ', List.map_cons, List.sum_cons, add_comm]
      simp only [List.getElem?_cons_succ, ih]
      rfl

end ListmonkOps.Math.Apportionment
