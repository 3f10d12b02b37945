/-
Strings, identifiers and date-times as the source sees them.

A JavaScript string is a sequence of UTF-16 code units, and its length, slices
and comparisons count those units; a Lean `String` could not hold the halves of
a surrogate pair that `slice` may leave behind. Dates are the time values of
valid `Date` objects, and a date-time field of a document is kept as the
instant it denotes together with its spelling where that is not the canonical
one of `toISOString`.
-/

import Mathlib.Data.List.DropRight
import Mathlib.Data.List.Infix
import Mathlib.Data.Nat.Digits.Defs

namespace ListmonkOps.Runtime

/-- A JavaScript string: its UTF-16 code units. -/
abbrev Text := List UInt16

instance instLawfulBEqText : LawfulBEq Text := inferInstance

namespace Text

/-- The UTF-16 code units of one character. -/
def unitsOfChar (c : Char) : Text :=
  if c.toNat < 0x10000 then [UInt16.ofNat c.toNat]
  else
    [UInt16.ofNat (0xD800 + (c.toNat - 0x10000) / 0x400),
      UInt16.ofNat (0xDC00 + (c.toNat - 0x10000) % 0x400)]

def ofString (s : String) : Text := s.toList.flatMap unitsOfChar

instance : Coe String Text := ⟨ofString⟩

/-- The decimal rendering of an integer in a template literal. -/
def ofNat (n : ℕ) : Text := ofString (toString n)

/-- The characters `String.prototype.trim` removes: white space and line
terminators. -/
def isWhiteSpace (unit : UInt16) : Bool :=
  (9 ≤ unit && unit ≤ 13) || unit = 0x20 || unit = 0xA0 || unit = 0x1680 ||
    (0x2000 ≤ unit && unit ≤ 0x200A) || unit = 0x2028 || unit = 0x2029 ||
    unit = 0x202F || unit = 0x205F || unit = 0x3000 || unit = 0xFEFF

def trim (t : Text) : Text := (t.dropWhile isWhiteSpace).rdropWhile isWhiteSpace

def includes (t part : Text) : Bool := part <:+: t

@[simp]
theorem trim_trim (t : Text) : trim (trim t) = trim t := by
  unfold trim
  have hleft : ((t.dropWhile isWhiteSpace).rdropWhile isWhiteSpace).dropWhile isWhiteSpace =
      (t.dropWhile isWhiteSpace).rdropWhile isWhiteSpace := by
    rw [List.dropWhile_eq_self_iff]
    intro hpos
    have hkept := List.rdropWhile_prefix isWhiteSpace (l := t.dropWhile isWhiteSpace)
    have hne : 0 < (t.dropWhile isWhiteSpace).length :=
      lt_of_lt_of_le hpos hkept.length_le
    have hhead := List.dropWhile_get_zero_not isWhiteSpace t hne
    rw [hkept.getElem hpos]
    exact hhead
  rw [hleft, List.rdropWhile_idempotent]

theorem unitsOfChar_of_isDigit {c : Char} (h : c.isDigit = true) :
    unitsOfChar c = [UInt16.ofNat c.toNat] ∧ (UInt16.ofNat c.toNat).toNat = c.toNat ∧
      UInt16.ofNat c.toNat ≠ 58 := by
  rw [Char.isDigit_iff_toNat] at h
  have hupper : c.toNat ≤ 57 := h.2
  have hunit : (UInt16.ofNat c.toNat).toNat = c.toNat := by
    simp only [UInt16.toNat_ofNat']
    omega
  refine ⟨if_pos (by omega), hunit, fun hcolon => ?_⟩
  rw [hcolon] at hunit
  change 58 = c.toNat at hunit
  omega

theorem colon_notMem_ofNat (n : ℕ) : (58 : UInt16) ∉ ofNat n := by
  simp only [ofNat, ofString, Nat.toString_eq_repr, Nat.toList_repr, List.mem_flatMap, not_exists,
    not_and]
  intro c hc hcolon
  obtain ⟨hunits, -, hne⟩ :=
    unitsOfChar_of_isDigit (Nat.isDigit_of_mem_toDigits (by decide) (by decide) hc)
  rw [hunits, List.mem_singleton] at hcolon
  exact hne hcolon.symm

theorem ofNat_injective : Function.Injective ofNat := by
  have hdecode : ∀ n, (ofNat n).map (fun unit => Char.ofNat unit.toNat) = Nat.toDigits 10 n := by
    intro n
    simp only [ofNat, ofString, Nat.toString_eq_repr, Nat.toList_repr, List.map_flatMap]
    have hdigits : ∀ c ∈ Nat.toDigits 10 n,
        (unitsOfChar c).map (fun unit => Char.ofNat unit.toNat) = [c] := by
      intro c hc
      obtain ⟨hunits, hunit, -⟩ :=
        unitsOfChar_of_isDigit (Nat.isDigit_of_mem_toDigits (by decide) (by decide) hc)
      rw [hunits, List.map_singleton, hunit, Char.ofNat_toNat]
    rw [List.flatMap_congr hdigits, List.flatMap_singleton']
  intro m n h
  have hparsed := congrArg (Nat.ofDigitChars 10 · 0) ((hdecode m).symm.trans (h ▸ hdecode n))
  simpa only [Nat.ofDigitChars_ten_toDigits] using hparsed

theorem unitsOfChar_append_inj {c d : Char} {rest rest' : Text}
    (h : unitsOfChar c ++ rest = unitsOfChar d ++ rest') : c = d ∧ rest = rest' := by
  have hc : c.toNat < 0xD800 ∨ 0xDFFF < c.toNat ∧ c.toNat < 0x110000 := c.valid
  have hd : d.toNat < 0xD800 ∨ 0xDFFF < d.toNat ∧ d.toNat < 0x110000 := d.valid
  have hvalue : ∀ {n : ℕ}, n < 65536 → (UInt16.ofNat n).toNat = n := fun hn => by
    simp only [UInt16.toNat_ofNat']
    omega
  have hunit : ∀ {m n : ℕ}, m < 65536 → n < 65536 → UInt16.ofNat m = UInt16.ofNat n → m = n :=
    fun hm hn hsame => by rw [← hvalue hm, ← hvalue hn, hsame]
  have hboth : c.toNat = d.toNat ∧ rest = rest' := by
    unfold unitsOfChar at h
    split at h <;> split at h <;>
      simp only [List.cons_append, List.nil_append, List.cons.injEq] at h
    · exact ⟨hunit (by omega) (by omega) h.1, h.2⟩
    · have := hunit (by omega) (by omega) h.1
      omega
    · have := hunit (by omega) (by omega) h.1
      omega
    · have hhigh := hunit (by omega) (by omega) h.1
      have hlow := hunit (by omega) (by omega) h.2.1
      exact ⟨by omega, h.2.2⟩
  exact ⟨Char.toNat_inj.mp hboth.1, hboth.2⟩

theorem unitsOfChar_ne_nil (c : Char) : unitsOfChar c ≠ [] := by
  unfold unitsOfChar
  split <;> simp

@[simp]
theorem ofString_inj {s t : String} : ofString s = ofString t ↔ s = t := by
  refine ⟨fun h => String.toList_inj.mp ?_, congrArg ofString⟩
  unfold ofString at h
  generalize s.toList = cs at h
  generalize t.toList = ds at h
  induction cs generalizing ds with
  | nil =>
      cases ds with
      | nil => rfl
      | cons d ds => simp [unitsOfChar_ne_nil] at h
  | cons c cs ih =>
      cases ds with
      | nil => simp [unitsOfChar_ne_nil] at h
      | cons d ds =>
          obtain ⟨rfl, hrest⟩ := unitsOfChar_append_inj h
          rw [ih ds hrest]

end Text

/-- Case conversion of the platform. Nothing in the source depends on which
letters it identifies. -/
class CaseMapping where
  /-- `String.prototype.toLowerCase`. -/
  toLowerCase : Text → Text

/-- The case mapping of a platform that knows the letters of ASCII only. -/
@[reducible]
def asciiCaseMapping : CaseMapping :=
  ⟨fun t => t.map fun unit => if 65 ≤ unit && unit ≤ 90 then unit + 32 else unit⟩

/-! ## Identifiers -/

def isHexDigit (unit : UInt16) : Bool :=
  (48 ≤ unit && unit ≤ 57) || (65 ≤ unit && unit ≤ 70) || (97 ≤ unit && unit ≤ 102)

/-- A group of `n` hexadecimal digits. -/
def isHexGroup (n : ℕ) (group : Text) : Bool :=
  group.length = n && group.all isHexDigit

/-- The format of `z.uuid()`: the five groups of an RFC 9562 UUID with version
1 to 8 and its variant, or the nil or the max UUID. -/
def isUuid (t : Text) : Bool :=
  match t.splitOn 45 with
  | [timeLow, timeMid, version, variant, node] =>
      isHexGroup 8 timeLow && isHexGroup 4 timeMid && isHexGroup 4 version &&
        isHexGroup 4 variant && isHexGroup 12 node &&
        ((version.head?.any (fun unit => 49 ≤ unit && unit ≤ 56) &&
            variant.head?.any (fun unit => unit ∈ ("89abAB" : Text))) ||
          t = ("00000000-0000-0000-0000-000000000000" : Text) ||
          t = ("ffffffff-ffff-ffff-ffff-ffffffffffff" : Text))
  | _ => false

/-- A UUID contains no colon, so it can be joined with one and split again. -/
theorem colon_not_mem_of_isUuid {t : Text} (h : isUuid t) : (58 : UInt16) ∉ t := by
  unfold isUuid at h
  split at h
  · next timeLow timeMid version variant node hsplit =>
      have hgroup : ∀ {n : ℕ} {group : Text}, isHexGroup n group → (58 : UInt16) ∉ group := by
        intro n group hhex hcolon
        simp only [isHexGroup, Bool.and_eq_true, List.all_eq_true] at hhex
        exact absurd (hhex.2 58 hcolon) (by decide)
      simp only [Bool.and_eq_true] at h
      obtain ⟨⟨⟨⟨⟨h₁, h₂⟩, h₃⟩, h₄⟩, h₅⟩, -⟩ := h
      have hjoin : [45].intercalate (t.splitOn 45) = t := List.intercalate_splitOn 45
      rw [hsplit] at hjoin
      rw [← hjoin]
      simp [List.intercalate, List.intersperse, hgroup h₁, hgroup h₂, hgroup h₃, hgroup h₄,
        hgroup h₅]
  · exact absurd h (by decide)

/-- Two texts joined by a colon after a colon-free part determine both parts. -/
theorem append_colon_inj {a a' b b' : Text} (ha : (58 : UInt16) ∉ a)
    (ha' : (58 : UInt16) ∉ a') (h : a ++ 58 :: b = a' ++ 58 :: b') : a = a' ∧ b = b' := by
  induction a generalizing a' with
  | nil =>
      cases a' with
      | nil => simpa using h
      | cons unit rest =>
          have hhead : (58 : UInt16) = unit := by simpa using (List.cons.inj h).1
          exact absurd (by simp [hhead]) ha'
  | cons unit rest ih =>
      cases a' with
      | nil =>
          have hhead : unit = (58 : UInt16) := by simpa using (List.cons.inj h).1
          exact absurd (by simp [hhead]) ha
      | cons unit' rest' =>
          obtain ⟨rfl, htail⟩ := List.cons.inj h
          obtain ⟨rfl, hb⟩ := ih (by simp at ha; exact ha.2) (by simp at ha'; exact ha'.2) htail
          exact ⟨rfl, hb⟩

/-! ## Instants -/

/-- A date-time string of a document: the instant `Date.parse` gives for it,
and its text where that differs from the canonical one of `toISOString`. Two
such strings are equal exactly when both agree. -/
structure DateTime where
  /-- The time value, in milliseconds since the epoch. -/
  time : ℤ
  /-- The text, when it is not `new Date(time).toISOString()`. -/
  spelling : Option Text := none
  deriving DecidableEq

/-- The canonical rendering has a four-digit year, 0000 to 9999. -/
def hasFourDigitYear (time : ℤ) : Bool :=
  -62167219200000 ≤ time && time ≤ 253402300799999

/-- `z.iso.datetime({ offset: true })`: a canonical text needs a four-digit
year; any other spelling a document keeps was accepted as it came in. -/
def isoDateTimeSchema (d : DateTime) : Bool :=
  d.spelling.isSome || hasFourDigitYear d.time

/-- `new Date(time).toISOString()`, which throws a `RangeError` (here `none`)
beyond the range of time values. -/
def toISOString (time : ℤ) : Option DateTime :=
  if time.natAbs ≤ 8640000000000000 then some { time } else none

/-- The largest integer that zod's `int()` accepts. -/
def maxSafeInteger : ℕ := 9007199254740991

theorem toISOString_eq_some {time : ℤ} {d : DateTime} (h : toISOString time = some d) :
    d = { time } := by
  unfold toISOString at h
  split at h
  · exact (Option.some.inj h).symm
  · simp at h

theorem toISOString_of_hasFourDigitYear {time : ℤ} (h : hasFourDigitYear time) :
    toISOString time = some { time } := by
  simp only [hasFourDigitYear, Bool.and_eq_true, decide_eq_true_eq] at h
  rw [toISOString, if_pos (by omega)]

@[simp]
theorem isoDateTimeSchema_canonical (time : ℤ) :
    isoDateTimeSchema { time } = hasFourDigitYear time := rfl

end ListmonkOps.Runtime
