/-
How date-time texts compare.

Records are sorted by `localeCompare` on the texts of their timestamps. The
root collation puts punctuation before digits and digits before letters, so
that the texts of `toISOString` with four-digit years compare as the instants
they denote; other spellings compare as texts.
-/

import ListmonkOps.Runtime.Timestamp
import Mathlib.Data.List.Lex
import Mathlib.Data.List.Sort

namespace ListmonkOps.Runtime

/-! ## Collation -/

def DateTime.text (d : DateTime) : Text := d.spelling.getD (isoText d.time)

/-- The rank of a unit of a date-time text in the root collation. -/
def collationRank (unit : UInt16) : ℕ :=
  if unit = 45 then 0 else if unit = 58 then 1 else if unit = 46 then 2
  else if unit = 43 then 3 else unit.toNat

def collationKey (text : Text) : List ℕ := text.map collationRank

@[simp]
theorem length_collationKey (text : Text) : (collationKey text).length = text.length :=
  List.length_map _

/-- `left.localeCompare(right) <= 0`, of date-time texts. -/
def DateTime.LocaleLE (left right : DateTime) : Prop :=
  collationKey left.text ≤ collationKey right.text

instance : DecidableRel DateTime.LocaleLE := fun left right =>
  inferInstanceAs (Decidable (collationKey left.text ≤ collationKey right.text))

/-- An offset is part of the text, and so is a fraction. -/
example :
    let noonInTokyo : DateTime := { time := 10800000, spelling := some "1970-01-01T12:00:00+09:00" }
    let four : DateTime := { time := 14400000 }
    noonInTokyo.time ≤ four.time ∧ ¬ noonInTokyo.LocaleLE four ∧ four.LocaleLE noonInTokyo := by
  decide +kernel

instance : Std.Total DateTime.LocaleLE := ⟨fun left _ => le_total (collationKey left.text) _⟩

instance : IsTrans DateTime DateTime.LocaleLE := ⟨fun _ _ _ => le_trans⟩

/-! ## Digits -/

section Digits

variable {xs ys : List ℕ}

theorem append_lt_append_of_lt (hlength : xs.length = ys.length) (h : xs < ys) (us vs : List ℕ) :
    xs ++ us < ys ++ vs := by
  induction xs generalizing ys with
  | nil =>
      obtain rfl := List.eq_nil_of_length_eq_zero hlength.symm
      exact absurd h (lt_irrefl _)
  | cons x xs ih =>
      cases ys with
      | nil => simp at hlength
      | cons y ys =>
          rcases List.cons_lt_cons_iff.mp h with hlt | ⟨rfl, hlt⟩
          · exact List.cons_lt_cons_iff.mpr (.inl hlt)
          · exact List.cons_lt_cons_iff.mpr (.inr ⟨rfl, ih (by simpa using hlength) hlt⟩)

theorem collationRank_digit {d : ℕ} (h : d < 10) :
    collationRank (UInt16.ofNat (48 + d)) = 48 + d := by
  revert d
  decide

/-- Digits in front of a separator compare as numbers, and leave the rest to decide where they
are equal. -/
theorem collationKey_padded_lt {width m n : ℕ} (h : m < n) (hn : n < 10 ^ width) :
    collationKey (padded width m) < collationKey (padded width n) := by
  induction width generalizing m n with
  | zero => omega
  | succ width ih =>
      rw [pow_succ] at hn
      simp only [collationKey, padded, List.map_append, List.map_cons, List.map_nil]
      rw [collationRank_digit (Nat.mod_lt m (by decide)),
        collationRank_digit (Nat.mod_lt n (by decide))]
      by_cases hfront : m / 10 = n / 10
      · rw [hfront]
        exact List.append_left_lt (List.cons_lt_cons_iff.mpr (.inl (by omega)))
      · exact append_lt_append_of_lt (by simp) (ih (by omega) (by omega)) _ _

theorem collationKey_field_lt {width m n : ℕ} {separator : UInt16} {rest rest' : Text}
    (hn : n < 10 ^ width)
    (h : m < n ∨ m = n ∧ collationKey rest < collationKey rest') :
    collationKey (padded width m ++ separator :: rest) <
      collationKey (padded width n ++ separator :: rest') := by
  simp only [collationKey, List.map_append, List.map_cons] at h ⊢
  rcases h with hlt | ⟨rfl, hrest⟩
  · exact append_lt_append_of_lt (by simp) (collationKey_padded_lt hlt hn) _ _
  · exact List.append_left_lt (List.cons_lt_cons_iff.mpr (.inr ⟨rfl, hrest⟩))

end Digits

/-! ## The calendar runs forward -/

section Calendar

/-- The year of an era a day falls in, as `dateOfDay` computes it. -/
def yearOfEra (dayOfEra : ℤ) : ℤ :=
  (dayOfEra - dayOfEra / 1460 + dayOfEra / 36524 - dayOfEra / 146096) / 365

def yearStart (year : ℕ) : ℤ := (365 * year + year / 4 - year / 100 + year / 400 : ℕ)

/-- A date of a year that begins in March, as a number: year after the turn, month and day. -/
def dateCodeOfDay (dayOfYear : ℤ) : ℤ :=
  let index := (5 * dayOfYear + 2) / 153
  let month := if index < 10 then index + 3 else index - 9
  (if month ≤ 2 then 10000 else 0) + month * 100 + (dayOfYear - (153 * index + 2) / 5 + 1)

theorem yearOfEra_mono {m n : ℤ} (h : m ≤ n) : yearOfEra m ≤ yearOfEra n := by
  refine Int.ediv_le_ediv (by decide) ?_
  induction n, h using Int.leInduction with
  | base => exact le_rfl
  | succ n _ ih => omega

theorem yearOfEra_ends : ∀ year < 400, yearOfEra (yearStart year) = year ∧
    yearOfEra (yearStart (year + 1) - 1) = year := by
  decide +kernel

theorem exists_year {dayOfEra : ℤ} (hnonneg : 0 ≤ dayOfEra) :
    ∀ years : ℕ, dayOfEra < yearStart years →
      ∃ year < years, yearStart year ≤ dayOfEra ∧ dayOfEra < yearStart (year + 1) := by
  intro years
  induction years with
  | zero => exact fun h => absurd h (not_lt.mpr hnonneg)
  | succ years ih =>
      intro h
      by_cases hbefore : dayOfEra < yearStart years
      · obtain ⟨year, hyear, hin⟩ := ih hbefore
        exact ⟨year, Nat.lt_succ_of_lt hyear, hin⟩
      · exact ⟨years, Nat.lt_succ_self years, not_lt.mp hbefore, h⟩

theorem yearOfEra_eq {dayOfEra : ℤ} {year : ℕ} (hyear : year < 400)
    (hstart : yearStart year ≤ dayOfEra) (hend : dayOfEra < yearStart (year + 1)) :
    yearOfEra dayOfEra = year := by
  obtain ⟨hfirst, hlast⟩ := yearOfEra_ends year hyear
  have hlow := yearOfEra_mono hstart
  have hhigh := yearOfEra_mono (show dayOfEra ≤ yearStart (year + 1) - 1 by omega)
  omega

def dateCode (date : ℤ × ℕ × ℕ) : ℤ := date.1 * 10000 + date.2.1 * 100 + date.2.2

theorem dateCodeOfDay_ends : ∀ day : ℕ, day < 366 →
    dateCodeOfDay day < dateCodeOfDay (day + 1 : ℕ) ∧
    dateCodeOfDay 0 ≤ dateCodeOfDay day ∧ dateCodeOfDay day < 10000 + dateCodeOfDay 0 := by
  decide +kernel

theorem dateCodeOfDay_lt {m n : ℕ} (h : m < n) (hn : n < 366) :
    dateCodeOfDay m < dateCodeOfDay n := by
  induction n, h using Nat.le_induction with
  | base => exact (dateCodeOfDay_ends m (by omega)).1
  | succ n _ ih => exact (ih (by omega)).trans (dateCodeOfDay_ends n (by omega)).1

theorem yearStart_mono {year year' : ℕ} (h : year ≤ year') : yearStart year ≤ yearStart year' := by
  induction h with
  | refl => exact le_rfl
  | step _ ih =>
      refine ih.trans ?_
      simp only [yearStart]
      omega

/-- Where a day falls: its era, its year in the era, and its day in the year. -/
theorem exists_dateOfDay (day : ℤ) : ∃ era : ℤ, ∃ year < 400, ∃ dayOfYear : ℕ, dayOfYear < 366 ∧
    day + 719468 = era * 146097 + yearStart year + dayOfYear ∧
    yearStart year + dayOfYear < yearStart (year + 1) ∧
    dateCode (dateOfDay day) = (era * 400 + year) * 10000 + dateCodeOfDay dayOfYear ∧
    (dateOfDay day).2.1 < 100 ∧ (dateOfDay day).2.2 < 100 := by
  have hrange : (day + 719468) % 146097 < yearStart 400 := Int.emod_lt_of_pos _ (by decide)
  obtain ⟨year, hyear, hstart, hend⟩ :=
    exists_year (Int.emod_nonneg (day + 719468) (by decide)) 400 hrange
  have hlength : yearStart (year + 1) ≤ yearStart year + 366 := by
    simp only [yearStart]
    omega
  have hyearOfEra := yearOfEra_eq hyear hstart hend
  obtain ⟨dayOfYear, hdayOfYear⟩ :=
    Int.eq_ofNat_of_zero_le (show 0 ≤ (day + 719468) % 146097 - yearStart year by omega)
  refine ⟨(day + 719468) / 146097, year, hyear, dayOfYear, by omega, by omega, by omega, ?_⟩
  have hdayOfEra : day + 719468 - (day + 719468) / 146097 * 146097 =
      (day + 719468) % 146097 := by omega
  have hstart' : (365 * (year : ℤ) + year / 4 - year / 100) = yearStart year := by
    simp only [yearStart]
    omega
  rw [yearOfEra] at hyearOfEra
  simp only [dateOfDay, dateCode, hdayOfEra, hyearOfEra, hstart', hdayOfYear, dateCodeOfDay]
  have hindex : 0 ≤ (5 * (dayOfYear : ℤ) + 2) / 153 ∧ (5 * (dayOfYear : ℤ) + 2) / 153 ≤ 11 := by
    omega
  refine ⟨?_, ?_, by omega⟩ <;> split_ifs <;> omega

theorem dateCode_dateOfDay_lt {day day' : ℤ} (h : day < day') :
    dateCode (dateOfDay day) < dateCode (dateOfDay day') := by
  obtain ⟨era, year, hyear, n, hn, hday, hend, hcode, -⟩ := exists_dateOfDay day
  obtain ⟨era', year', hyear', n', hn', hday', hend', hcode', -⟩ := exists_dateOfDay day'
  obtain ⟨-, hfirst, hlast⟩ := dateCodeOfDay_ends n hn
  obtain ⟨-, hfirst', hlast'⟩ := dateCodeOfDay_ends n' hn'
  have hbounds : 0 ≤ yearStart year ∧ yearStart (year + 1) ≤ 146097 :=
    ⟨yearStart_mono (Nat.zero_le year), yearStart_mono hyear⟩
  have hbounds' : 0 ≤ yearStart year' ∧ yearStart (year' + 1) ≤ 146097 :=
    ⟨yearStart_mono (Nat.zero_le year'), yearStart_mono hyear'⟩
  have hera : era ≤ era' := by omega
  by_cases hsameEra : era = era'
  · subst hsameEra
    rcases Nat.lt_trichotomy year year' with hlt | rfl | hgt
    · omega
    · have hcodes := dateCodeOfDay_lt (show n < n' by omega) hn'
      omega
    · have := yearStart_mono (show year' + 1 ≤ year from hgt)
      omega
  · omega

/-- Within the four-digit years, a date is fields of so many digits. -/
theorem dateOfDay_fields {day : ℤ} (hfirst : -719528 ≤ day) (hlast : day ≤ 2932896) :
    ∃ year month dayOfMonth : ℕ, dateOfDay day = ((year : ℤ), month, dayOfMonth) ∧
      year < 10 ^ 4 ∧ month < 10 ^ 2 ∧ dayOfMonth < 10 ^ 2 := by
  obtain ⟨-, -, -, -, -, -, -, -, hmonth, hdayOfMonth⟩ := exists_dateOfDay day
  have hmono : Monotone fun day => dateCode (dateOfDay day) :=
    monotone_iff_forall_lt.mpr fun _ _ h => (dateCode_dateOfDay_lt h).le
  have hlow : 101 ≤ dateCode (dateOfDay day) :=
    le_trans (by decide) (hmono hfirst)
  have hhigh : dateCode (dateOfDay day) ≤ 99991231 :=
    le_trans (hmono hlast) (by decide)
  rw [dateCode] at hlow hhigh
  obtain ⟨year, hyear⟩ := Int.eq_ofNat_of_zero_le (show 0 ≤ (dateOfDay day).1 by omega)
  exact ⟨year, (dateOfDay day).2.1, (dateOfDay day).2.2, Prod.ext hyear rfl, by omega, hmonth,
    hdayOfMonth⟩

end Calendar

/-! ## Canonical texts -/

section Canonical

variable {a b : ℤ}

theorem isoText_eq {time : ℤ} {year month dayOfMonth : ℕ} (hyear : year < 10 ^ 4)
    (h : dateOfDay (time / 86400000) = ((year : ℤ), month, dayOfMonth)) :
    isoText time = padded 4 year ++ 45 :: (padded 2 month ++ 45 :: (padded 2 dayOfMonth ++ 84 ::
      (padded 2 ((time % 86400000).toNat / 3600000) ++ 58 ::
        (padded 2 ((time % 86400000).toNat / 60000 % 60) ++ 58 ::
          (padded 2 ((time % 86400000).toNat / 1000 % 60) ++ 46 ::
            (padded 3 ((time % 86400000).toNat % 1000) ++ 90 :: [])))))) := by
  have hrange : 0 ≤ (year : ℤ) ∧ (year : ℤ) ≤ 9999 := by omega
  simp only [isoText, h, if_pos hrange, Int.toNat_natCast]
  simp

theorem collationKey_isoText_lt (ha : hasFourDigitYear a = true) (hb : hasFourDigitYear b = true)
    (h : a < b) : collationKey (isoText a) < collationKey (isoText b) := by
  simp only [hasFourDigitYear, Bool.and_eq_true, decide_eq_true_eq] at ha hb
  obtain ⟨year, month, dayOfMonth, hdate, hyear, hmonth, hday⟩ :=
    @dateOfDay_fields (a / 86400000) (by omega) (by omega)
  obtain ⟨year', month', dayOfMonth', hdate', hyear', hmonth', hday'⟩ :=
    @dateOfDay_fields (b / 86400000) (by omega) (by omega)
  rw [isoText_eq hyear hdate, isoText_eq hyear' hdate']
  rcases (Int.ediv_le_ediv (show (0 : ℤ) < 86400000 by decide) h.le).lt_or_eq with hdays | hdays
  · have hcode := dateCode_dateOfDay_lt hdays
    simp only [hdate, hdate', dateCode] at hcode
    refine collationKey_field_lt hyear' ?_
    by_cases hsameYear : year = year'
    · refine .inr ⟨hsameYear, collationKey_field_lt hmonth' ?_⟩
      by_cases hsameMonth : month = month'
      · exact .inr ⟨hsameMonth, collationKey_field_lt hday' (.inl (by omega))⟩
      · exact .inl (by omega)
    · exact .inl (by omega)
  · rw [hdays] at hdate
    obtain ⟨rfl, rfl, rfl⟩ : year = year' ∧ month = month' ∧ dayOfMonth = dayOfMonth' := by
      simpa using hdate.symm.trans hdate'
    have hrest : (a % 86400000).toNat < (b % 86400000).toNat := by omega
    have hrange : (b % 86400000).toNat < 86400000 := by omega
    generalize (a % 86400000).toNat = rest at hrest ⊢
    generalize (b % 86400000).toNat = rest' at hrest hrange ⊢
    -- the day is the same: the time of day decides, from the hour down
    refine collationKey_field_lt hyear (.inr ⟨rfl, collationKey_field_lt hmonth (.inr ⟨rfl,
      collationKey_field_lt hday (.inr ⟨rfl, collationKey_field_lt (by omega) ?_⟩)⟩)⟩)
    by_cases hhour : rest / 3600000 = rest' / 3600000
    · refine .inr ⟨hhour, collationKey_field_lt (by omega) ?_⟩
      by_cases hminute : rest / 60000 % 60 = rest' / 60000 % 60
      · refine .inr ⟨hminute, collationKey_field_lt (by omega) ?_⟩
        by_cases hsecond : rest / 1000 % 60 = rest' / 1000 % 60
        · exact .inr ⟨hsecond, collationKey_field_lt (by omega) (.inl (by omega))⟩
        · exact .inl (by omega)
      · exact .inl (by omega)
    · exact .inl (by omega)

/-- Canonical texts with four-digit years are in the order of the instants. -/
theorem localeLE_canonical_iff (ha : hasFourDigitYear a = true) (hb : hasFourDigitYear b = true) :
    DateTime.LocaleLE { time := a } { time := b } ↔ a ≤ b := by
  have hkey : ∀ time : ℤ, DateTime.text { time } = isoText time := fun _ => rfl
  rw [DateTime.LocaleLE, hkey, hkey]
  constructor
  · intro h
    by_contra hlater
    exact absurd h (not_le.mpr (collationKey_isoText_lt hb ha (not_le.mp hlater)))
  · intro h
    rcases h.lt_or_eq with hlt | rfl
    · exact (collationKey_isoText_lt ha hb hlt).le
    · exact le_rfl

end Canonical

end ListmonkOps.Runtime
