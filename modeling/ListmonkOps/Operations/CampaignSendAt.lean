/-
The pattern of the time at which a campaign is sent.

The pattern writes the calendar out as alternatives of digits. Every part of it
that stands for a number matches texts of two digits, so that what it matches is
known from the hundred numbers of two digits, and the parts are put together to
dates, times of day and offsets.
-/

import ListmonkOps.Runtime.RegExp
import ListmonkOps.Runtime.Timestamp

namespace ListmonkOps.Operations

open ListmonkOps.Math ListmonkOps.Runtime
open ListmonkOps.Math.Regex ListmonkOps.Runtime.RegExp

/-! ## The pattern -/

/-- `CAMPAIGN_SEND_AT_PATTERN_SOURCE`, piece by piece. -/
def campaignSendAtPatternSource : Text :=
  ([("^(?!0000-)(?:" : Text), "(?:[0-9]\x7b4\x7d-(?:", "(?:01|03|05|07|08|10|12)-",
    "(?:0[1-9]|[12][0-9]|3[01])|", "(?:04|06|09|11)-", "(?:0[1-9]|[12][0-9]|30)|",
    "02-(?:0[1-9]|1[0-9]|2[0-8])))|", "(?:(?:(?:[0-9]\x7b2\x7d",
    "(?:0[48]|[2468][048]|", "[13579][26]))|(?:(?:", "[02468][048]|[13579][26])", "00))-02-29))",
    "(?:(?:T(?:[01][0-9]|2[0-3])", ":[0-5][0-9](?::[0-5][0-9]", "(?:\\.[0-9]\x7b1,9\x7d)?)?",
    "(?:Z|\\+(?:[01][0-9]|2[0-3])", ":?[0-5][0-9]|-(?:(?:", "0[1-9]|1[0-9]|2[0-3])",
    ":?[0-5][0-9]|00:?(?:", "0[1-9]|[1-5][0-9]))))|", "(?: (?:[01][0-9]|2[0-3])",
    ":[0-5][0-9](?::[0-5][0-9]", "(?:\\.[0-9]\x7b1,9\x7d)?)?))$"] : List Text).flatten

/-- `CAMPAIGN_SEND_AT_PATTERN`; `none` would be a `SyntaxError`. -/
def campaignSendAtPattern : Option (Regex UInt16) := ofSource campaignSendAtPatternSource

def isParseableCampaignSendAt (value : Text) : Bool :=
  campaignSendAtPattern.any fun pattern => pattern.test value

/-- The field `send_at` of `scheduleCampaignInputSchema`. -/
def scheduleSendAt (value : Text) : Option Text :=
  if isParseableCampaignSendAt (Text.trim value) then some (Text.trim value) else none

/-! ## Timestamps -/

structure SendDate where
  year : ℕ
  month : ℕ
  day : ℕ

/-- A time of day as it is written. -/
structure SendClock where
  hours : ℕ
  minutes : ℕ
  /-- The seconds, and the digits of a fraction. -/
  seconds : Option (ℕ × Option Text)

inductive SendZone where
  | utc
  | offset (negative : Bool) (hours : ℕ) (colon : Bool) (minutes : ℕ)

/-- A timestamp as it is written. -/
inductive SendAt where
  | zoned (date : SendDate) (clock : SendClock) (zone : SendZone)
  | unzoned (date : SendDate) (clock : SendClock)

namespace SendDate

/-- A date of the proleptic Gregorian calendar, from the year 0001 to the year 9999. -/
def IsValid (date : SendDate) : Prop :=
  (1 ≤ date.year ∧ date.year ≤ 9999) ∧ (1 ≤ date.month ∧ date.month ≤ 12) ∧
    1 ≤ date.day ∧ date.day ≤ daysInMonth date.year date.month

/-- `YYYY-MM-DD`. -/
def toText (date : SendDate) : Text :=
  padded 4 date.year ++ 45 :: padded 2 date.month ++ 45 :: padded 2 date.day

end SendDate

def IsFraction (digits : Text) : Prop :=
  (1 ≤ digits.length ∧ digits.length ≤ 9) ∧ ∀ unit ∈ digits, isDigit unit = true

namespace SendClock

def ValidSeconds (time : Option (ℕ × Option Text)) : Prop :=
  ∀ seconds fraction, time = some (seconds, fraction) →
    seconds ≤ 59 ∧ ∀ digits, fraction = some digits → IsFraction digits

def IsValid (clock : SendClock) : Prop :=
  clock.hours ≤ 23 ∧ clock.minutes ≤ 59 ∧ ValidSeconds clock.seconds

/-- Nothing, `:SS` or `:SS.F`. -/
def secondsText : Option (ℕ × Option Text) → Text
  | none => []
  | some (seconds, none) => 58 :: padded 2 seconds
  | some (seconds, some digits) => 58 :: padded 2 seconds ++ 46 :: digits

/-- `HH:MM`, and the seconds. -/
def toText (clock : SendClock) : Text :=
  padded 2 clock.hours ++ 58 :: padded 2 clock.minutes ++ secondsText clock.seconds

end SendClock

namespace SendZone

/-- Hours and minutes in range, and not the negative zero. -/
def IsValid : SendZone → Prop
  | .utc => True
  | .offset negative hours _ minutes =>
      hours ≤ 23 ∧ minutes ≤ 59 ∧ ¬ (negative = true ∧ hours = 0 ∧ minutes = 0)

/-- `Z`, `±HH:MM` or `±HHMM`. -/
def toText : SendZone → Text
  | .utc => [90]
  | .offset negative hours colon minutes =>
      (if negative then 45 else 43) :: padded 2 hours ++
        (if colon then [58] else []) ++ padded 2 minutes

end SendZone

namespace SendAt

def IsValid : SendAt → Prop
  | .zoned date clock zone => date.IsValid ∧ clock.IsValid ∧ zone.IsValid
  | .unzoned date clock => date.IsValid ∧ clock.IsValid

def toText : SendAt → Text
  | .zoned date clock zone => date.toText ++ 84 :: clock.toText ++ zone.toText
  | .unzoned date clock => date.toText ++ 32 :: clock.toText

end SendAt

/-! ## The parts of the pattern -/

def char (unit : UInt16) : Regex UInt16 := .unit [(unit, unit)]

/-- The digits from one to another. -/
def digits (low high : UInt16) : Regex UInt16 := .unit [(48 + low, 48 + high)]

def digitOf (choices : List UInt16) : Regex UInt16 :=
  .unit (choices.map fun choice => (48 + choice, 48 + choice))

def twoDigits (first second : UInt16) : Regex UInt16 := .seq (digits first first) (digits second second)

/-- `01|03|05|07|08|10|12`. -/
def longMonth : Regex UInt16 :=
  disjunction [twoDigits 0 1, twoDigits 0 3, twoDigits 0 5, twoDigits 0 7, twoDigits 0 8,
    twoDigits 1 0, twoDigits 1 2]

/-- `04|06|09|11`. -/
def shortMonth : Regex UInt16 :=
  disjunction [twoDigits 0 4, twoDigits 0 6, twoDigits 0 9, twoDigits 1 1]

/-- `0[1-9]|[12][0-9]|3[01]`. -/
def dayTo31 : Regex UInt16 :=
  disjunction [.seq (digits 0 0) (digits 1 9), .seq (digitOf [1, 2]) (digits 0 9),
    .seq (digits 3 3) (digitOf [0, 1])]

/-- `0[1-9]|[12][0-9]|30`. -/
def dayTo30 : Regex UInt16 :=
  disjunction [.seq (digits 0 0) (digits 1 9), .seq (digitOf [1, 2]) (digits 0 9), twoDigits 3 0]

/-- `0[1-9]|1[0-9]|2[0-8]`. -/
def dayTo28 : Regex UInt16 :=
  disjunction [.seq (digits 0 0) (digits 1 9), .seq (digits 1 1) (digits 0 9),
    .seq (digits 2 2) (digits 0 8)]

/-- `0[48]|[2468][048]|[13579][26]`. -/
def leapRest : Regex UInt16 :=
  disjunction [.seq (digits 0 0) (digitOf [4, 8]), .seq (digitOf [2, 4, 6, 8]) (digitOf [0, 4, 8]),
    .seq (digitOf [1, 3, 5, 7, 9]) (digitOf [2, 6])]

/-- `[02468][048]|[13579][26]`. -/
def leapCentury : Regex UInt16 :=
  disjunction [.seq (digitOf [0, 2, 4, 6, 8]) (digitOf [0, 4, 8]),
    .seq (digitOf [1, 3, 5, 7, 9]) (digitOf [2, 6])]

/-- `[0-9]{4}-(?:…)`. -/
def commonDate : Regex UInt16 :=
  sequence [.repeated (digits 0 9) 4 4, char 45,
    disjunction [sequence [longMonth, char 45, dayTo31], sequence [shortMonth, char 45, dayTo30],
      sequence [digits 0 0, digits 2 2, char 45, dayTo28]]]

def leapDate : Regex UInt16 :=
  sequence [.alt (.seq (.repeated (digits 0 9) 2 2) leapRest)
      (sequence [leapCentury, digits 0 0, digits 0 0]),
    char 45, digits 0 0, digits 2 2, char 45, digits 2 2, digits 9 9]

/-- `[01][0-9]|2[0-3]`. -/
def hour : Regex UInt16 :=
  .alt (.seq (digitOf [0, 1]) (digits 0 9)) (.seq (digits 2 2) (digits 0 3))

/-- `(?::[0-5][0-9](?:\.[0-9]{1,9})?)?`. -/
def seconds : Regex UInt16 :=
  .repeated (sequence [char 58, digits 0 5, digits 0 9,
    .repeated (.seq (char 46) (.repeated (digits 0 9) 1 9)) 0 1]) 0 1

/-- `:?`. -/
def colon : Regex UInt16 := .repeated (char 58) 0 1

/-- `0[1-9]|1[0-9]|2[0-3]`. -/
def hourFromOne : Regex UInt16 :=
  disjunction [.seq (digits 0 0) (digits 1 9), .seq (digits 1 1) (digits 0 9),
    .seq (digits 2 2) (digits 0 3)]

/-- `0[1-9]|[1-5][0-9]`. -/
def minuteFromOne : Regex UInt16 :=
  .alt (.seq (digits 0 0) (digits 1 9)) (.seq (digits 1 5) (digits 0 9))

/-- `Z` or an offset. -/
def zone : Regex UInt16 :=
  disjunction [char 90, sequence [char 43, hour, colon, digits 0 5, digits 0 9],
    .seq (char 45) (.alt (sequence [hourFromOne, colon, digits 0 5, digits 0 9])
      (sequence [digits 0 0, digits 0 0, colon, minuteFromOne]))]

def clockPart : Regex UInt16 :=
  .alt (sequence [char 84, hour, char 58, digits 0 5, digits 0 9, seconds, zone])
    (sequence [char 32, hour, char 58, digits 0 5, digits 0 9, seconds])

theorem campaignSendAtPattern_eq : campaignSendAtPattern =
    some (.seq .atStart (.seq (.notAhead (sequence [digits 0 0, digits 0 0, digits 0 0, digits 0 0,
      char 45])) (.seq (.alt commonDate leapDate) (.seq clockPart .atEnd)))) := by
  decide +kernel

/-! ## What the parts match -/

theorem mem_unit_mul {unit : UInt16} {L : Language UInt16} {text : Text} :
    text ∈ (Regex.unit [(unit, unit)]).language * L ↔ ∃ rest ∈ L, text = unit :: rest := by
  have hunit : ∀ other, inRanges [(unit, unit)] other = true ↔ other = unit := by
    intro other
    simp only [inRanges, List.any_cons, List.any_nil, Bool.or_false, Bool.and_eq_true,
      decide_eq_true_eq]
    exact ⟨fun h => UInt16.le_antisymm h.2 h.1, by simp +contextual⟩
  rw [Language.mem_mul]
  constructor
  · rintro ⟨_, ⟨other, hother, rfl⟩, rest, hrest, rfl⟩
    rw [(hunit other).mp hother]
    exact ⟨rest, hrest, rfl⟩
  · rintro ⟨rest, hrest, rfl⟩
    exact ⟨[unit], ⟨unit, (hunit unit).mpr rfl, rfl⟩, rest, hrest, rfl⟩

theorem mem_unit {unit : UInt16} {text : Text} :
    text ∈ (Regex.unit [(unit, unit)]).language ↔ text = [unit] := by
  rw [← mul_one (Regex.unit [(unit, unit)]).language, mem_unit_mul]
  simp

theorem mem_literal (units : Text) {text : Text} :
    text ∈ (sequence (units.map char)).language ↔ text = units := by
  induction units generalizing text with
  | nil => exact Language.mem_one text
  | cons unit units ih =>
      cases units with
      | nil => exact mem_unit
      | cons next units =>
          rw [List.map_cons, List.map_cons, RegExp.sequence, language, char, mem_unit_mul]
          · rw [List.map_cons] at ih
            simp only [ih, exists_eq_left]
          · simp

theorem inRanges_digits (unit : UInt16) : inRanges [(48 + 0, 48 + 9)] unit = isDigit unit := by
  simp only [inRanges, List.any_cons, List.any_nil, Bool.or_false]
  rfl

theorem numbers_digits (width : ℕ) :
    Numbers (.repeated (digits 0 9) width width) width fun _ => True := by
  intro text
  rw [language, Nat.sub_self, atMost, mul_one, digits, mem_unit_pow]
  simp only [inRanges_digits]
  constructor
  · rintro ⟨hlength, hdigits⟩
    obtain ⟨n, hn, rfl⟩ := exists_eq_padded hlength fun unit hunit => by
      simpa [isDigit] using hdigits unit hunit
    exact ⟨n, hn, trivial, rfl⟩
  · rintro ⟨n, -, -, rfl⟩
    exact ⟨length_padded width n, fun _ => isDigit_of_mem_padded⟩

/-- The parts that stand for numbers of two digits, and the numbers. -/
def numberParts : List (Regex UInt16 × (ℕ → Bool)) :=
  [(longMonth, fun n => n ∈ [1, 3, 5, 7, 8, 10, 12]), (shortMonth, fun n => n ∈ [4, 6, 9, 11]),
    (dayTo31, fun n => 1 ≤ n ∧ n ≤ 31), (dayTo30, fun n => 1 ≤ n ∧ n ≤ 30),
    (dayTo28, fun n => 1 ≤ n ∧ n ≤ 28), (leapRest, fun n => n % 4 = 0 ∧ n ≠ 0),
    (leapCentury, fun n => n % 4 = 0), (hour, fun n => n ≤ 23),
    (.seq (digits 0 5) (digits 0 9), fun n => n ≤ 59), (hourFromOne, fun n => 1 ≤ n ∧ n ≤ 23),
    (minuteFromOne, fun n => 1 ≤ n ∧ n ≤ 59)]

theorem numbers_of_mem (part : Regex UInt16 × (ℕ → Bool)) (hpart : part ∈ numberParts) :
    Numbers part.1 2 fun n => part.2 n = true := by
  have hchecked : numberParts.all (fun part => part.1.isPlain && part.1.width == some 2 &&
      part.1.isWithin 48 57 &&
      (List.range (10 ^ 2)).all fun n => part.1.accepts (padded 2 n) == part.2 n) = true := by
    decide +kernel
  have hone := List.all_eq_true.mp hchecked part hpart
  simp only [Bool.and_eq_true, beq_iff_eq] at hone
  obtain ⟨⟨⟨hplain, hwidth⟩, hwithin⟩, haccepts⟩ := hone
  exact numbers_of_accepts part.2 hplain hwidth hwithin haccepts

theorem numbers_longMonth : Numbers longMonth 2 fun n => n ∈ [1, 3, 5, 7, 8, 10, 12] :=
  (numbers_of_mem (longMonth, fun n => n ∈ [1, 3, 5, 7, 8, 10, 12]) (by simp [numberParts])).congr (by simp)

theorem numbers_shortMonth : Numbers shortMonth 2 fun n => n ∈ [4, 6, 9, 11] :=
  (numbers_of_mem (shortMonth, fun n => n ∈ [4, 6, 9, 11]) (by simp [numberParts])).congr (by simp)

theorem numbers_dayTo31 : Numbers dayTo31 2 fun n => 1 ≤ n ∧ n ≤ 31 :=
  (numbers_of_mem (dayTo31, fun n => 1 ≤ n ∧ n ≤ 31) (by simp [numberParts])).congr (by simp)

theorem numbers_dayTo30 : Numbers dayTo30 2 fun n => 1 ≤ n ∧ n ≤ 30 :=
  (numbers_of_mem (dayTo30, fun n => 1 ≤ n ∧ n ≤ 30) (by simp [numberParts])).congr (by simp)

theorem numbers_dayTo28 : Numbers dayTo28 2 fun n => 1 ≤ n ∧ n ≤ 28 :=
  (numbers_of_mem (dayTo28, fun n => 1 ≤ n ∧ n ≤ 28) (by simp [numberParts])).congr (by simp)

theorem numbers_leapRest : Numbers leapRest 2 fun n => n % 4 = 0 ∧ n ≠ 0 :=
  (numbers_of_mem (leapRest, fun n => n % 4 = 0 ∧ n ≠ 0) (by simp [numberParts])).congr (by simp)

theorem numbers_leapCentury : Numbers leapCentury 2 fun n => n % 4 = 0 :=
  (numbers_of_mem (leapCentury, fun n => n % 4 = 0) (by simp [numberParts])).congr (by simp)

theorem numbers_hour : Numbers hour 2 fun n => n ≤ 23 :=
  (numbers_of_mem (hour, fun n => n ≤ 23) (by simp [numberParts])).congr (by simp)

theorem numbers_minute : Numbers (.seq (digits 0 5) (digits 0 9)) 2 fun n => n ≤ 59 :=
  (numbers_of_mem (.seq (digits 0 5) (digits 0 9), fun n => n ≤ 59) (by simp [numberParts])).congr (by simp)

theorem numbers_hourFromOne : Numbers hourFromOne 2 fun n => 1 ≤ n ∧ n ≤ 23 :=
  (numbers_of_mem (hourFromOne, fun n => 1 ≤ n ∧ n ≤ 23) (by simp [numberParts])).congr (by simp)

theorem numbers_minuteFromOne : Numbers minuteFromOne 2 fun n => 1 ≤ n ∧ n ≤ 59 :=
  (numbers_of_mem (minuteFromOne, fun n => 1 ≤ n ∧ n ≤ 59) (by simp [numberParts])).congr (by simp)

/-! ## Dates -/

/-- The days of a month where there is no 29 February. -/
def commonDays (month : ℕ) : ℕ := if month = 2 then 28 else daysInMonth 1 month

theorem daysInMonth_eq (year month : ℕ) : daysInMonth year month =
    if month = 2 ∧ year % 4 = 0 ∧ (year % 100 ≠ 0 ∨ year % 400 = 0) then 29
    else commonDays month := by
  unfold daysInMonth commonDays daysInMonth
  by_cases hmonth : month = 2
  · simp [hmonth]
  · simp [hmonth]

theorem mem_commonDate {text : Text} : text ∈ commonDate.language ↔
    ∃ date : SendDate, date.year < 10000 ∧ (1 ≤ date.month ∧ date.month ≤ 12) ∧
      (1 ≤ date.day ∧ date.day ≤ commonDays date.month) ∧ text = date.toText := by
  have hlong : ∀ month ∈ [1, 3, 5, 7, 8, 10, 12],
      commonDays month = 31 ∧ 1 ≤ month ∧ month ≤ 12 := by decide
  have hshort : ∀ month ∈ [4, 6, 9, 11],
      commonDays month = 30 ∧ 1 ≤ month ∧ month ≤ 12 := by decide
  have hfebruary : padded 2 2 = [48 + 0, 48 + 2] := by decide
  have hsplit : commonDate.language = (Regex.repeated (digits 0 9) 4 4).language *
      ((char 45).language * (longMonth.language * ((char 45).language * dayTo31.language) +
        (shortMonth.language * ((char 45).language * dayTo30.language) +
          (digits 0 0).language * ((digits 2 2).language *
            ((char 45).language * dayTo28.language))))) := rfl
  rw [hsplit, (numbers_digits 4).mem_mul]
  constructor
  · rintro ⟨year, hyear, -, dashed, hdashed, rfl⟩
    obtain ⟨rest, hrest, rfl⟩ := mem_unit_mul.mp hdashed
    rw [Language.mem_add, Language.mem_add] at hrest
    rcases hrest with hrest | hrest | hrest
    · obtain ⟨month, -, hmonth, last, hlast, rfl⟩ := numbers_longMonth.mem_mul.mp hrest
      obtain ⟨number, hnumber, rfl⟩ := mem_unit_mul.mp hlast
      obtain ⟨day, -, hday, rfl⟩ := (numbers_dayTo31 number).mp hnumber
      refine ⟨⟨year, month, day⟩, hyear, (hlong month hmonth).2, ?_, rfl⟩
      rwa [(hlong month hmonth).1]
    · obtain ⟨month, -, hmonth, last, hlast, rfl⟩ := numbers_shortMonth.mem_mul.mp hrest
      obtain ⟨number, hnumber, rfl⟩ := mem_unit_mul.mp hlast
      obtain ⟨day, -, hday, rfl⟩ := (numbers_dayTo30 number).mp hnumber
      refine ⟨⟨year, month, day⟩, hyear, (hshort month hmonth).2, ?_, rfl⟩
      rwa [(hshort month hmonth).1]
    · obtain ⟨second, hsecond, rfl⟩ := mem_unit_mul.mp hrest
      obtain ⟨last, hlast, rfl⟩ := mem_unit_mul.mp hsecond
      obtain ⟨number, hnumber, rfl⟩ := mem_unit_mul.mp hlast
      obtain ⟨day, -, hday, rfl⟩ := (numbers_dayTo28 number).mp hnumber
      refine ⟨⟨year, 2, day⟩, hyear, by simp, hday, ?_⟩
      rw [SendDate.toText, hfebruary]
      rfl
  · rintro ⟨⟨year, month, day⟩, hyear, ⟨hmonth, hmonth'⟩, ⟨hday, hday'⟩, rfl⟩
    simp only at hyear hmonth hmonth' hday hday'
    refine ⟨year, hyear, trivial, _, mem_unit_mul.mpr ⟨_, ?_, rfl⟩, rfl⟩
    have hsmall : day < 10 ^ 2 := by
      have : commonDays month ≤ 31 := by
        unfold commonDays daysInMonth
        split_ifs <;> omega
      omega
    have hcases : month ∈ [1, 3, 5, 7, 8, 10, 12] ∨ month ∈ [4, 6, 9, 11] ∨ month = 2 := by
      simp only [List.mem_cons, List.not_mem_nil, or_false]
      omega
    rcases hcases with hmem | hmem | rfl
    · rw [(hlong month hmem).1] at hday'
      exact .inl (numbers_longMonth.mem_mul.mpr ⟨month, by omega, hmem, _,
        mem_unit_mul.mpr ⟨_, (numbers_dayTo31 _).mpr ⟨day, hsmall, ⟨hday, hday'⟩, rfl⟩, rfl⟩, rfl⟩)
    · rw [(hshort month hmem).1] at hday'
      exact .inr (.inl (numbers_shortMonth.mem_mul.mpr ⟨month, by omega, hmem, _,
        mem_unit_mul.mpr ⟨_, (numbers_dayTo30 _).mpr ⟨day, hsmall, ⟨hday, hday'⟩, rfl⟩, rfl⟩, rfl⟩))
    · simp only [hfebruary]
      exact .inr (.inr (mem_unit_mul.mpr ⟨_, mem_unit_mul.mpr ⟨_, mem_unit_mul.mpr ⟨_,
        (numbers_dayTo28 _).mpr ⟨day, hsmall, ⟨hday, hday'⟩, rfl⟩, rfl⟩, rfl⟩, rfl⟩))

theorem mem_leapDate {text : Text} : text ∈ leapDate.language ↔
    ∃ year < 10000, (year % 4 = 0 ∧ (year % 100 ≠ 0 ∨ year % 400 = 0)) ∧
      text = (⟨year, 2, 29⟩ : SendDate).toText := by
  have hrest : ∀ rest, rest ∈ (sequence [char 45, digits 0 0, digits 2 2, char 45, digits 2 2,
      digits 9 9]).language ↔ rest = 45 :: padded 2 2 ++ 45 :: padded 2 29 :=
    fun rest => mem_literal [45, 48, 50, 45, 50, 57]
  have hcentury : ∀ rest, rest ∈ (sequence [digits 0 0, digits 0 0]).language ↔
      rest = padded 2 0 := fun rest => mem_literal [48, 48]
  have hyear : ∀ front, front ∈ (Regex.alt (.seq (.repeated (digits 0 9) 2 2) leapRest)
      (sequence [leapCentury, digits 0 0, digits 0 0])).language ↔
        ∃ year < 10000, (year % 4 = 0 ∧ (year % 100 ≠ 0 ∨ year % 400 = 0)) ∧
          front = padded 4 year := by
    intro front
    have hsplit : (sequence [leapCentury, digits 0 0, digits 0 0]).language =
        leapCentury.language * (sequence [digits 0 0, digits 0 0]).language := rfl
    rw [language, Language.mem_add, language, hsplit, (numbers_digits 2).mem_mul,
      numbers_leapCentury.mem_mul]
    constructor
    · rintro (⟨century, hcentury, -, rest, hrest, rfl⟩ | ⟨century, hcentury', hleap, rest, hrest, rfl⟩)
      · obtain ⟨year, hyear, ⟨hleap, hne⟩, rfl⟩ := (numbers_leapRest _).mp hrest
        rw [padded_add 2 2 century year hyear]
        exact ⟨_, by omega, by omega, rfl⟩
      · rw [(hcentury _).mp hrest, padded_add 2 2 century 0 (by omega)]
        exact ⟨_, by omega, by omega, rfl⟩
    · rintro ⟨year, hyear, ⟨hfour, hleap⟩, rfl⟩
      have hparts : padded 4 year = padded 2 (year / 100) ++ padded 2 (year % 100) := by
        rw [padded_add 2 2 _ _ (by omega)]
        congr 1
        omega
      rw [hparts]
      by_cases hzero : year % 100 = 0
      · refine .inr ⟨year / 100, by omega, by omega, _, (hcentury _).mpr rfl, ?_⟩
        rw [hzero]
      · exact .inl ⟨year / 100, by omega, trivial, _,
          (numbers_leapRest _).mpr ⟨year % 100, by omega, ⟨by omega, hzero⟩, rfl⟩, rfl⟩
  have hsplit : leapDate.language = (Regex.alt (.seq (.repeated (digits 0 9) 2 2) leapRest)
      (sequence [leapCentury, digits 0 0, digits 0 0])).language *
        (sequence [char 45, digits 0 0, digits 2 2, char 45, digits 2 2, digits 9 9]).language := rfl
  rw [hsplit, Language.mem_mul]
  constructor
  · rintro ⟨front, hfront, rest, hmem, rfl⟩
    obtain ⟨year, hbound, hleap, rfl⟩ := (hyear front).mp hfront
    rw [(hrest rest).mp hmem]
    exact ⟨year, hbound, hleap, by simp [SendDate.toText]⟩
  · rintro ⟨year, hbound, hleap, rfl⟩
    exact ⟨_, (hyear _).mpr ⟨year, hbound, hleap, rfl⟩, _, (hrest _).mpr rfl,
      by simp [SendDate.toText]⟩

theorem mem_date {text : Text} : text ∈ (Regex.alt commonDate leapDate).language ↔
    ∃ date : SendDate, date.year < 10000 ∧ (1 ≤ date.month ∧ date.month ≤ 12) ∧
      (1 ≤ date.day ∧ date.day ≤ daysInMonth date.year date.month) ∧ text = date.toText := by
  rw [language, Language.mem_add, mem_commonDate, mem_leapDate]
  constructor
  · rintro (⟨date, hyear, hmonth, ⟨hday, hday'⟩, rfl⟩ | ⟨year, hyear, hleap, rfl⟩)
    · refine ⟨date, hyear, hmonth, ⟨hday, ?_⟩, rfl⟩
      rw [daysInMonth_eq]
      split_ifs with hfebruary
      · rw [commonDays, if_pos hfebruary.1] at hday'
        omega
      · exact hday'
    · refine ⟨⟨year, 2, 29⟩, hyear, by simp, ⟨by simp, ?_⟩, rfl⟩
      rw [daysInMonth_eq, if_pos ⟨rfl, hleap⟩]
  · rintro ⟨⟨year, month, day⟩, hyear, hmonth, ⟨hday, hday'⟩, rfl⟩
    simp only at hyear hmonth hday hday'
    rw [daysInMonth_eq] at hday'
    split_ifs at hday' with hleap
    · obtain ⟨rfl, hleap⟩ := hleap
      by_cases hlast : day = 29
      · exact .inr ⟨year, hyear, hleap, by rw [hlast]⟩
      · exact .inl ⟨⟨year, 2, day⟩, hyear, hmonth, ⟨hday, show day ≤ 28 by omega⟩, rfl⟩
    · exact .inl ⟨⟨year, month, day⟩, hyear, hmonth, ⟨hday, hday'⟩, rfl⟩

/-! ## Times of day and zones -/

theorem mem_repeated_zero_one {regex : Regex UInt16} {text : Text} :
    text ∈ (Regex.repeated regex 0 1).language ↔ text ∈ regex.language ∨ text = [] := by
  rw [language, pow_zero, one_mul, atMost, atMost, mul_one, Language.mem_add, Language.mem_one]

theorem mem_fraction {text : Text} :
    text ∈ (Regex.seq (char 46) (.repeated (digits 0 9) 1 9)).language ↔
      ∃ digits, IsFraction digits ∧ text = 46 :: digits := by
  have hdigits : ∀ rest, rest ∈ (Regex.repeated (digits 0 9) 1 9).language ↔ IsFraction rest := by
    intro rest
    rw [language, pow_one, Language.mem_mul, IsFraction]
    constructor
    · rintro ⟨_, ⟨first, hfirst, rfl⟩, others, hothers, rfl⟩
      obtain ⟨hlength, hall⟩ := mem_unit_atMost.mp hothers
      simp only [inRanges_digits] at hfirst hall
      refine ⟨⟨by simp, Nat.succ_le_succ hlength⟩, ?_⟩
      intro unit hunit
      rcases List.mem_cons.mp hunit with rfl | hunit
      · exact hfirst
      · exact hall unit hunit
    · rintro ⟨⟨hpos, hlength⟩, hall⟩
      cases rest with
      | nil => cases hpos
      | cons first others =>
          rw [List.forall_mem_cons] at hall
          refine ⟨[first], ⟨first, (inRanges_digits first).trans hall.1, rfl⟩, others, ?_, rfl⟩
          refine mem_unit_atMost.mpr ⟨Nat.le_of_succ_le_succ hlength, fun unit hunit => ?_⟩
          exact (inRanges_digits unit).trans (hall.2 unit hunit)
  rw [language, char, mem_unit_mul]
  simp only [hdigits]

theorem mem_minute_mul {L : Language UInt16} {text : Text} :
    text ∈ (digits 0 5).language * ((digits 0 9).language * L) ↔
      ∃ minutes ≤ 59, ∃ rest ∈ L, text = padded 2 minutes ++ rest := by
  rw [← mul_assoc]
  refine numbers_minute.mem_mul.trans ?_
  constructor
  · rintro ⟨minutes, -, hminutes, hrest⟩
    exact ⟨minutes, hminutes, hrest⟩
  · rintro ⟨minutes, hminutes, hrest⟩
    exact ⟨minutes, by omega, hminutes, hrest⟩

theorem mem_seconds {text : Text} : text ∈ seconds.language ↔
    ∃ time, SendClock.ValidSeconds time ∧ text = SendClock.secondsText time := by
  have hsplit : (sequence [char 58, digits 0 5, digits 0 9,
      .repeated (.seq (char 46) (.repeated (digits 0 9) 1 9)) 0 1]).language =
      (char 58).language * ((digits 0 5).language * ((digits 0 9).language *
        (Regex.repeated (.seq (char 46) (.repeated (digits 0 9) 1 9)) 0 1).language)) := rfl
  rw [seconds, mem_repeated_zero_one, hsplit, char, mem_unit_mul]
  simp only [mem_minute_mul]
  constructor
  · rintro (⟨_, ⟨seconds, hseconds, rest, hrest, rfl⟩, rfl⟩ | rfl)
    · rcases mem_repeated_zero_one.mp hrest with hfraction | rfl
      · obtain ⟨digits, hdigits, rfl⟩ := mem_fraction.mp hfraction
        refine ⟨some (seconds, some digits), ?_, rfl⟩
        rintro _ _ heq
        cases heq
        exact ⟨hseconds, by rintro _ heq; cases heq; exact hdigits⟩
      · refine ⟨some (seconds, none), ?_, by simp [SendClock.secondsText]⟩
        rintro _ _ heq
        cases heq
        exact ⟨hseconds, by simp⟩
    · exact ⟨none, by simp [SendClock.ValidSeconds], rfl⟩
  · rintro ⟨time, htime, rfl⟩
    rcases time with _ | ⟨seconds, _ | digits⟩
    · exact .inr rfl
    · refine .inl ⟨_, ⟨seconds, (htime _ _ rfl).1, [], ?_, rfl⟩, by simp [SendClock.secondsText]⟩
      exact mem_repeated_zero_one.mpr (.inr rfl)
    · refine .inl ⟨_, ⟨seconds, (htime _ _ rfl).1, 46 :: digits, ?_, rfl⟩, rfl⟩
      exact mem_repeated_zero_one.mpr (.inl (mem_fraction.mpr
        ⟨digits, (htime _ _ rfl).2 _ rfl, rfl⟩))

theorem mem_clock_mul {L : Language UInt16} {text : Text} :
    text ∈ hour.language * ((char 58).language * ((digits 0 5).language *
      ((digits 0 9).language * (seconds.language * L)))) ↔
        ∃ clock : SendClock, clock.IsValid ∧ ∃ rest ∈ L, text = clock.toText ++ rest := by
  rw [numbers_hour.mem_mul]
  constructor
  · rintro ⟨hours, -, hhours, afterHours, hafter, rfl⟩
    obtain ⟨rest, hrest, rfl⟩ := mem_unit_mul.mp hafter
    obtain ⟨minutes, hminutes, afterMinutes, hafter', rfl⟩ := mem_minute_mul.mp hrest
    obtain ⟨part, hpart, last, hlast, rfl⟩ := Language.mem_mul.mp hafter'
    obtain ⟨time, htime, rfl⟩ := mem_seconds.mp hpart
    exact ⟨⟨hours, minutes, time⟩, ⟨hhours, hminutes, htime⟩, last, hlast,
      by simp [SendClock.toText]⟩
  · rintro ⟨⟨hours, minutes, time⟩, ⟨hhours, hminutes, htime⟩, rest, hrest, rfl⟩
    simp only at hhours hminutes htime
    refine ⟨hours, by omega, hhours, _, mem_unit_mul.mpr ⟨_, mem_minute_mul.mpr ⟨minutes, hminutes,
      _, Language.mem_mul.mpr ⟨_, mem_seconds.mpr ⟨time, htime, rfl⟩, rest, hrest, rfl⟩, rfl⟩, rfl⟩,
      ?_⟩
    simp [SendClock.toText]

theorem mem_colon_mul {L : Language UInt16} {text : Text} :
    text ∈ colon.language * L ↔
      ∃ written : Bool, ∃ rest ∈ L, text = (if written then [58] else []) ++ rest := by
  rw [Language.mem_mul]
  constructor
  · rintro ⟨part, hpart, rest, hrest, rfl⟩
    rcases mem_repeated_zero_one.mp hpart with hpart | rfl
    · exact ⟨true, rest, hrest, by rw [mem_unit.mp hpart]; rfl⟩
    · exact ⟨false, rest, hrest, rfl⟩
  · rintro ⟨written, rest, hrest, rfl⟩
    cases written with
    | false => exact ⟨[], mem_repeated_zero_one.mpr (.inr rfl), rest, hrest, rfl⟩
    | true => exact ⟨[58], mem_repeated_zero_one.mpr (.inl (mem_unit.mpr rfl)), rest, hrest, rfl⟩

theorem mem_minute {text : Text} :
    text ∈ (digits 0 5).language * (digits 0 9).language ↔
      ∃ minutes ≤ 59, text = padded 2 minutes := by
  rw [← mul_one (digits 0 9).language, mem_minute_mul]
  simp only [Language.mem_one, exists_eq_left, List.append_nil]

theorem mem_zone {text : Text} : text ∈ zone.language ↔
    ∃ written : SendZone, written.IsValid ∧ text = written.toText := by
  have hsplit : zone.language = (char 90).language + ((char 43).language * (hour.language *
      (colon.language * ((digits 0 5).language * (digits 0 9).language))) +
        (char 45).language * (hourFromOne.language *
          (colon.language * ((digits 0 5).language * (digits 0 9).language)) +
            (digits 0 0).language * ((digits 0 0).language *
              (colon.language * minuteFromOne.language)))) := rfl
  rw [hsplit, Language.mem_add, Language.mem_add, char, char, char, mem_unit, mem_unit_mul,
    mem_unit_mul]
  simp only [Language.mem_add, numbers_hour.mem_mul, numbers_hourFromOne.mem_mul, mem_colon_mul,
    mem_minute]
  constructor
  · rintro (rfl | ⟨_, ⟨hours, -, hhours, _, ⟨written, _, ⟨minutes, hminutes, rfl⟩, rfl⟩, rfl⟩, rfl⟩ |
      ⟨rest, ⟨hours, -, hhours, _, ⟨written, _, ⟨minutes, hminutes, rfl⟩, rfl⟩, rfl⟩ | hzero, rfl⟩)
    · exact ⟨.utc, trivial, rfl⟩
    · exact ⟨.offset false hours written minutes, ⟨hhours, hminutes, by simp⟩, by
        simp [SendZone.toText]⟩
    · exact ⟨.offset true hours written minutes, ⟨hhours.2, hminutes, by omega⟩, by
        simp [SendZone.toText]⟩
    · obtain ⟨second, hsecond, rfl⟩ := mem_unit_mul.mp hzero
      obtain ⟨rest, hrest, rfl⟩ := mem_unit_mul.mp hsecond
      obtain ⟨written, number, hnumber, rfl⟩ := mem_colon_mul.mp hrest
      obtain ⟨minutes, -, hminutes, rfl⟩ := (numbers_minuteFromOne number).mp hnumber
      exact ⟨.offset true 0 written minutes, ⟨by omega, hminutes.2, by omega⟩, rfl⟩
  · rintro ⟨written, hvalid, rfl⟩
    rcases written with _ | ⟨_ | _, hours, written, minutes⟩
    · exact .inl rfl
    · obtain ⟨hhours, hminutes, -⟩ := hvalid
      exact .inr (.inl ⟨_, ⟨hours, by omega, hhours, _, ⟨written, _, ⟨minutes, hminutes, rfl⟩, rfl⟩,
        rfl⟩, by simp [SendZone.toText]⟩)
    · obtain ⟨hhours, hminutes, hpositive⟩ := hvalid
      by_cases hzero : hours = 0
      · subst hzero
        refine .inr (.inr ⟨_, .inr (mem_unit_mul.mpr ⟨_, mem_unit_mul.mpr ⟨_, mem_colon_mul.mpr
          ⟨written, _, (numbers_minuteFromOne _).mpr ⟨minutes, by omega, ⟨?_, hminutes⟩, rfl⟩, rfl⟩,
          rfl⟩, rfl⟩), rfl⟩)
        by_contra hminute
        exact hpositive ⟨rfl, rfl, by omega⟩
      · exact .inr (.inr ⟨_, .inl ⟨hours, by omega, ⟨by omega, hhours⟩, _, ⟨written, _,
          ⟨minutes, hminutes, rfl⟩, rfl⟩, rfl⟩, by simp [SendZone.toText]⟩)

/-! ## Timestamps -/

theorem mem_clockPart {text : Text} : text ∈ clockPart.language ↔
    ∃ clock : SendClock, clock.IsValid ∧
      ((∃ written : SendZone, written.IsValid ∧ text = 84 :: clock.toText ++ written.toText) ∨
        text = 32 :: clock.toText) := by
  have hzoned : (sequence [char 84, hour, char 58, digits 0 5, digits 0 9, seconds, zone]).language =
      (Regex.unit [(84, 84)]).language * (hour.language * ((char 58).language * ((digits 0 5).language *
        ((digits 0 9).language * (seconds.language * zone.language))))) := rfl
  have hunzoned : (sequence [char 32, hour, char 58, digits 0 5, digits 0 9, seconds]).language =
      (Regex.unit [(32, 32)]).language * (hour.language * ((char 58).language * ((digits 0 5).language *
        ((digits 0 9).language * (seconds.language * 1))))) := by
    rw [mul_one]
    rfl
  rw [clockPart, language, Language.mem_add, hzoned, hunzoned, mem_unit_mul,
    mem_unit_mul]
  simp only [mem_clock_mul, mem_zone, Language.mem_one, exists_eq_left, List.append_nil]
  constructor
  · rintro (⟨_, ⟨clock, hclock, _, ⟨written, hzone, rfl⟩, rfl⟩, rfl⟩ | ⟨_, ⟨clock, hclock, rfl⟩, rfl⟩)
    · exact ⟨clock, hclock, .inl ⟨written, hzone, rfl⟩⟩
    · exact ⟨clock, hclock, .inr rfl⟩
  · rintro ⟨clock, hclock, ⟨written, hzone, rfl⟩ | rfl⟩
    · exact .inl ⟨_, ⟨clock, hclock, _, ⟨written, hzone, rfl⟩, rfl⟩, rfl⟩
    · exact .inr ⟨_, ⟨clock, hclock, rfl⟩, rfl⟩

theorem yearZero_prefix_iff {date : SendDate} (hyear : date.year < 10000) {rest : Text} :
    ([48, 48, 48, 48, 45] : Text) <+: date.toText ++ rest ↔ date.year = 0 := by
  have hzero : ([48, 48, 48, 48, 45] : Text) = padded 4 0 ++ [45] := by decide
  have htext : date.toText ++ rest =
      padded 4 date.year ++ [45] ++ (padded 2 date.month ++ 45 :: padded 2 date.day ++ rest) := by
    simp [SendDate.toText]
  rw [hzero, htext]
  constructor
  · rintro ⟨after, heq⟩
    have hfront := (List.append_inj heq (by simp)).1
    exact (padded_inj (by simp) hyear (List.append_inj' hfront rfl).1).symm
  · intro hyear
    rw [hyear]
    exact List.prefix_append _ _

/-- The look-ahead refuses the year zero; what it leaves is a date before a clock. -/
theorem isParseable_iff_mem {value : Text} :
    isParseableCampaignSendAt value = true ↔
      value ∈ (Regex.alt commonDate leapDate).language * clockPart.language ∧
        ¬([48, 48, 48, 48, 45] : Text) <+: value := by
  have hahead : ∀ part, part ∈ (sequence [digits 0 0, digits 0 0, digits 0 0, digits 0 0,
      char 45]).language ↔ part = [48, 48, 48, 48, 45] :=
    fun part => mem_literal [48, 48, 48, 48, 45]
  rw [isParseableCampaignSendAt, campaignSendAtPattern_eq, Option.any_some,
    test_anchored value rfl rfl rfl]
  simp only [hahead, forall_eq]

theorem exists_toText_of_isParseable {value : Text} (h : isParseableCampaignSendAt value = true) :
    ∃ written : SendAt, written.IsValid ∧ value = written.toText := by
  rw [isParseable_iff_mem, Language.mem_mul] at h
  obtain ⟨⟨front, hfront, last, hlast, rfl⟩, hnotZero⟩ := h
  obtain ⟨date, hyear, hmonth, hday, rfl⟩ := mem_date.mp hfront
  rw [yearZero_prefix_iff hyear] at hnotZero
  have hdate : date.IsValid := ⟨⟨by omega, by omega⟩, hmonth, hday⟩
  obtain ⟨clock, hclock, ⟨written, hzone, rfl⟩ | rfl⟩ := mem_clockPart.mp hlast
  · exact ⟨.zoned date clock written, ⟨hdate, hclock, hzone⟩, by simp [SendAt.toText]⟩
  · exact ⟨.unzoned date clock, ⟨hdate, hclock⟩, by simp [SendAt.toText]⟩

theorem isParseable_toText {written : SendAt} (h : written.IsValid) :
    isParseableCampaignSendAt written.toText = true := by
  rw [isParseable_iff_mem, Language.mem_mul]
  cases written with
  | zoned date clock written =>
      obtain ⟨⟨hyear, hmonth, hday⟩, hclock, hzone⟩ := h
      have hlt : date.year < 10000 := by omega
      rw [SendAt.toText, List.append_assoc, yearZero_prefix_iff hlt]
      exact ⟨⟨_, mem_date.mpr ⟨date, hlt, hmonth, hday, rfl⟩, _,
        mem_clockPart.mpr ⟨clock, hclock, .inl ⟨written, hzone, rfl⟩⟩, rfl⟩, by omega⟩
  | unzoned date clock =>
      obtain ⟨⟨hyear, hmonth, hday⟩, hclock⟩ := h
      have hlt : date.year < 10000 := by omega
      rw [SendAt.toText, yearZero_prefix_iff hlt]
      exact ⟨⟨_, mem_date.mpr ⟨date, hlt, hmonth, hday, rfl⟩, _,
        mem_clockPart.mpr ⟨clock, hclock, .inr rfl⟩, rfl⟩, by omega⟩

/-- The pattern matches exactly the valid timestamps. -/
theorem isParseableCampaignSendAt_iff (value : Text) :
    isParseableCampaignSendAt value = true ↔
      ∃ written : SendAt, written.IsValid ∧ value = written.toText := by
  constructor
  · exact exists_toText_of_isParseable
  · rintro ⟨written, hvalid, rfl⟩
    exact isParseable_toText hvalid

theorem scheduleSendAt_eq_some {value accepted : Text} (h : scheduleSendAt value = some accepted) :
    accepted = Text.trim value ∧
      ∃ written : SendAt, written.IsValid ∧ accepted = written.toText := by
  rw [scheduleSendAt] at h
  split_ifs at h with hparseable
  cases h
  exact ⟨rfl, exists_toText_of_isParseable hparseable⟩

end ListmonkOps.Operations
