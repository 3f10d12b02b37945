/-
Date-time texts, checked and read.

The source checks a timestamp by a regular expression, by building the calendar
date again, and by `Date.parse`. The format that ECMAScript specifies is only a
part of what `Date.parse` reads, and which other texts it reads is left to the
platform: reading is a parameter here.
-/

import ListmonkOps.Runtime.Number

namespace ListmonkOps.Runtime

/-- `Date.parse` of the platform: a time value, or `none` where it is `NaN`. -/
class DateParsing where
  parse : Text → Option ℤ

/-! ## Calendar -/

/-- The days of a month of the proleptic Gregorian calendar. -/
def daysInMonth (year month : ℕ) : ℕ :=
  if month = 2 then if year % 4 = 0 ∧ (year % 100 ≠ 0 ∨ year % 400 = 0) then 29 else 28
  else if month = 4 ∨ month = 6 ∨ month = 9 ∨ month = 11 then 30
  else 31

/-- `Date.UTC(year, month - 1, day)` falls on the year, month and day it was
made from. Years below 100 are taken for years of the twentieth century. -/
def isCalendarDate (year month day : ℕ) : Bool :=
  100 ≤ year && 1 ≤ month && month ≤ 12 && 1 ≤ day && day ≤ daysInMonth year month

def dayNumber (year month day : ℤ) : ℤ :=
  let shifted := if month ≤ 2 then year - 1 else year
  let era := shifted / 400
  let yearOfEra := shifted - era * 400
  let dayOfYear := (153 * (if month > 2 then month - 3 else month + 9) + 2) / 5 + day - 1
  era * 146097 + (yearOfEra * 365 + yearOfEra / 4 - yearOfEra / 100 + dayOfYear) - 719468

/-- The year, month and day a number of days from the epoch. -/
def dateOfDay (day : ℤ) : ℤ × ℕ × ℕ :=
  let shifted := day + 719468
  let era := shifted / 146097
  let dayOfEra := shifted - era * 146097
  let yearOfEra := (dayOfEra - dayOfEra / 1460 + dayOfEra / 36524 - dayOfEra / 146096) / 365
  let dayOfYear := dayOfEra - (365 * yearOfEra + yearOfEra / 4 - yearOfEra / 100)
  let index := (5 * dayOfYear + 2) / 153
  let month := if index < 10 then index + 3 else index - 9
  let year := yearOfEra + era * 400 + (if month ≤ 2 then 1 else 0)
  (year, month.toNat, (dayOfYear - (153 * index + 2) / 5 + 1).toNat)

/-- The text of `toISOString` for a time value. -/
def isoText (time : ℤ) : Text :=
  let (year, month, day) := dateOfDay (time / 86400000)
  let rest := (time % 86400000).toNat
  (if 0 ≤ year ∧ year ≤ 9999 then padded 4 year.toNat
    else (if year < 0 then 45 else 43) :: padded 6 year.natAbs) ++
  45 :: padded 2 month ++ 45 :: padded 2 day ++ 84 :: padded 2 (rest / 3600000) ++
  58 :: padded 2 (rest / 60000 % 60) ++ 58 :: padded 2 (rest / 1000 % 60) ++
  46 :: padded 3 (rest % 1000) ++ [90]

/-! ## Formats -/

/-- A text of a fixed form; a zero in the pattern stands for any digit. -/
def fits : Text → Text → Bool
  | [], [] => true
  | p :: pattern, unit :: text =>
      (if p = 48 then isDigit unit else unit = p) && fits pattern text
  | _, _ => false

/-- What follows an optional fraction of at most `maximum` digits. -/
def afterFraction (maximum : ℕ) : Text → Option Text
  | 46 :: rest =>
      if 1 ≤ (rest.takeWhile isDigit).length ∧ (rest.takeWhile isDigit).length ≤ maximum then
        some (rest.dropWhile isDigit)
      else none
  | text => some text

/-- `Z` or an offset of hours and minutes. -/
def isZone (text : Text) : Bool :=
  text = ("Z" : Text) || fits "+00:00" text || fits "-00:00" text

/-- A separator, a time of day with an optional fraction, and a zone. -/
def isClock (maximumFraction : ℕ) (zone : Text → Bool) : Text → Bool
  | separator :: text =>
      (separator = 84 || separator = 32) && fits "00:00:00" (text.take 8) &&
        (afterFraction maximumFraction (text.drop 8)).any zone
  | [] => false

/-- The number a run of digits denotes. -/
def digitsValue (text : Text) : ℕ :=
  text.foldl (fun value unit => value * 10 + (unit.toNat - 48)) 0

/-- The first ten units are a date of the calendar. -/
def startsWithDate (text : Text) : Bool :=
  fits "0000-00-00" (text.take 10) &&
    isCalendarDate (digitsValue (text.take 4)) (digitsValue ((text.drop 5).take 2))
      (digitsValue ((text.drop 8).take 2))

/-- A platform that reads no more than the format of `toISOString` and the same
without milliseconds. -/
@[reducible]
def isoDateParsing : DateParsing where
  parse text :=
    if startsWithDate text && isClock 3 (fun zone => zone = ("Z" : Text)) (text.drop 10) &&
        digitsValue ((text.drop 11).take 2) < 24 && digitsValue ((text.drop 14).take 2) < 60 &&
        digitsValue ((text.drop 17).take 2) < 60 &&
        (text.length = 20 || text.length = 24) then
      some (dayNumber (digitsValue (text.take 4)) (digitsValue ((text.drop 5).take 2))
          (digitsValue ((text.drop 8).take 2)) * 86400000 +
        digitsValue ((text.drop 11).take 2) * 3600000 +
        digitsValue ((text.drop 14).take 2) * 60000 + digitsValue ((text.drop 17).take 2) * 1000 +
        digitsValue ((text.drop 20).take 3))
    else none

/-- A time value, its text, and the text read back. -/
example : isoText 1767225599999 = ("2025-12-31T23:59:59.999Z" : Text) ∧
    isoDateParsing.parse ("2025-12-31T23:59:59.999Z" : Text) = some 1767225599999 ∧
    isoDateParsing.parse ("2026-02-30T00:00:00Z" : Text) = none := by decide +kernel

end ListmonkOps.Runtime
