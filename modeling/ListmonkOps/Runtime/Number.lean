/-
Numbers as the source sees them, and the texts they are written as.

`Number.prototype.toString` writes a finite double as the shortest decimal that
reads back as it, so a finite number is kept here as the digits and the
exponent of that decimal. The two zeros compare equal and are written alike:
there is one zero.
-/

import ListmonkOps.Runtime.Text

namespace ListmonkOps.Runtime

/-- A finite number: `digits * 10 ^ exponent` with its sign. -/
structure Decimal where
  negative : Bool
  digits : ℕ
  exponent : ℤ
  /-- No decimal with fewer digits denotes it. -/
  canonical : digits % 10 ≠ 0 ∨ (digits = 0 ∧ exponent = 0 ∧ negative = false)
  deriving DecidableEq

/-- A value of type `number`. -/
inductive Number where
  | nan
  | infinity (negative : Bool)
  | finite (value : Decimal)
  deriving DecidableEq

namespace Decimal

/-- `value > 0`. -/
def isPositive (x : Decimal) : Bool := x.digits != 0 && !x.negative

/-- `value >= 0`. -/
def isNonnegative (x : Decimal) : Bool := !x.negative

def zero : Decimal := ⟨false, 0, 0, .inr ⟨rfl, rfl, rfl⟩⟩

def one : Decimal := ⟨false, 1, 0, by decide⟩

def two : Decimal := ⟨false, 2, 0, by decide⟩

def hundred : Decimal := ⟨false, 1, 2, by decide⟩

end Decimal

/-! ## Digits -/

def isDigit (unit : UInt16) : Bool := 48 ≤ unit && unit ≤ 57

/-- The last `width` digits of a number, zeros in front included. -/
def padded : ℕ → ℕ → Text
  | 0, _ => []
  | width + 1, n => padded width (n / 10) ++ [UInt16.ofNat (48 + n % 10)]

@[simp]
theorem length_padded (width n : ℕ) : (padded width n).length = width := by
  induction width generalizing n with
  | zero => rfl
  | succ width ih => simp [padded, ih]

theorem toNat_digit {d : ℕ} (h : d < 10) : (UInt16.ofNat (48 + d)).toNat = 48 + d := by
  simp only [UInt16.toNat_ofNat']
  omega

theorem isDigit_digit {d : ℕ} (h : d < 10) : isDigit (UInt16.ofNat (48 + d)) = true := by
  have hunit := toNat_digit h
  simp only [isDigit, Bool.and_eq_true, decide_eq_true_eq, UInt16.le_iff_toNat_le, hunit]
  exact ⟨Nat.le_add_right 48 d, show 48 + d ≤ 57 by omega⟩

theorem isDigit_of_mem_padded {width n : ℕ} {unit : UInt16} (h : unit ∈ padded width n) :
    isDigit unit = true := by
  induction width generalizing n with
  | zero => simp [padded] at h
  | succ width ih =>
      rcases List.mem_append.mp h with hfront | hlast
      · exact ih hfront
      · rw [List.mem_singleton.mp hlast]
        exact isDigit_digit (Nat.mod_lt _ (by decide))

theorem padded_inj {width m n : ℕ} (hm : m < 10 ^ width) (hn : n < 10 ^ width)
    (h : padded width m = padded width n) : m = n := by
  induction width generalizing m n with
  | zero => omega
  | succ width ih =>
      rw [pow_succ] at hm hn
      obtain ⟨hfront, hlast⟩ := List.append_inj' h rfl
      have hdigit : m % 10 = n % 10 := by
        have hunit := congrArg UInt16.toNat (List.singleton_inj.mp hlast)
        rw [toNat_digit (Nat.mod_lt _ (by decide)), toNat_digit (Nat.mod_lt _ (by decide))] at hunit
        omega
      have hrest : m / 10 = n / 10 := ih (by omega) (by omega) hfront
      omega

theorem isDigit_of_mem_ofNat {n : ℕ} {unit : UInt16} (h : unit ∈ Text.ofNat n) :
    isDigit unit = true := by
  simp only [Text.ofNat, Text.ofString, Nat.toString_eq_repr, Nat.toList_repr,
    List.mem_flatMap] at h
  obtain ⟨c, hc, hunit⟩ := h
  have hdigit : c.isDigit = true := Nat.isDigit_of_mem_toDigits (by decide) (by decide) hc
  obtain ⟨hunits, hvalue, -⟩ := Text.unitsOfChar_of_isDigit hdigit
  rw [hunits, List.mem_singleton] at hunit
  rw [Char.isDigit_iff_toNat] at hdigit
  rw [hunit]
  simp only [isDigit, Bool.and_eq_true, decide_eq_true_eq, UInt16.le_iff_toNat_le, hvalue]
  exact hdigit

theorem ofNat_ne_nil (n : ℕ) : Text.ofNat n ≠ [] := by
  intro h
  have hlength := Nat.length_toDigits_pos (b := 10) (n := n)
  rcases hdigits : Nat.toDigits 10 n with _ | ⟨c, rest⟩
  · simp [hdigits] at hlength
  · have hc : c.isDigit = true :=
      Nat.isDigit_of_mem_toDigits (b := 10) (n := n) (by decide) (by decide) (by simp [hdigits])
    simp [Text.ofNat, Text.ofString, Nat.toString_eq_repr, Nat.toList_repr, hdigits,
      (Text.unitsOfChar_of_isDigit hc).1] at h

def intText (n : ℤ) : Text := (if n < 0 then ("-" : Text) else []) ++ Text.ofNat n.natAbs

theorem intText_ne_nil (n : ℤ) : intText n ≠ [] :=
  List.append_ne_nil_of_right_ne_nil _ (ofNat_ne_nil _)

theorem notMem_intText {n : ℤ} {unit : UInt16} (hdigit : isDigit unit = false)
    (hsign : unit ≠ 45) : unit ∉ intText n := by
  intro hmem
  rcases List.mem_append.mp hmem with hminus | hdigits
  · split at hminus
    · exact hsign (List.mem_singleton.mp hminus)
    · exact absurd hminus List.not_mem_nil
  · rw [isDigit_of_mem_ofNat hdigits] at hdigit
    cases hdigit

theorem intText_injective : Function.Injective intText := by
  have hminus (n : ℕ) : (45 : UInt16) ∉ Text.ofNat n := fun hmem =>
    absurd (isDigit_of_mem_ofNat hmem) (by decide)
  intro m n h
  unfold intText at h
  by_cases hm : m < 0 <;> by_cases hn : n < 0 <;> simp only [hm, hn, if_true, if_false] at h
  · have habs := Text.ofNat_injective (List.append_cancel_left h)
    omega
  · rw [List.nil_append] at h
    exact absurd (h ▸ List.mem_append_left _ (List.mem_singleton_self 45)) (hminus n.natAbs)
  · rw [List.nil_append] at h
    exact absurd (h ▸ List.mem_append_left _ (List.mem_singleton_self 45)) (hminus m.natAbs)
  · rw [List.nil_append, List.nil_append] at h
    have habs := Text.ofNat_injective h
    omega

/-- Two texts cut at the first occurrence of a separator determine both parts. -/
theorem append_separator_inj {α : Type*} {separator : α} {a a' b b' : List α}
    (ha : separator ∉ a) (ha' : separator ∉ a')
    (h : a ++ separator :: b = a' ++ separator :: b') : a = a' ∧ b = b' := by
  induction a generalizing a' with
  | nil =>
      cases a' with
      | nil => simpa using h
      | cons unit rest =>
          obtain ⟨hunit, -⟩ := List.cons.inj h
          exact absurd (by simp [hunit]) ha'
  | cons unit rest ih =>
      cases a' with
      | nil =>
          obtain ⟨hunit, -⟩ := List.cons.inj h
          exact absurd (by simp [hunit]) ha
      | cons unit' rest' =>
          obtain ⟨rfl, htail⟩ := List.cons.inj h
          simp only [List.mem_cons, not_or] at ha ha'
          obtain ⟨rfl, hb⟩ := ih ha.2 ha'.2 htail
          exact ⟨rfl, hb⟩

/-! ## Writing a number -/

namespace Decimal

/-- `digits` with its last `places` digits behind the point. -/
def fixedPoint (digits places : ℕ) : Text :=
  Text.ofNat (digits / 10 ^ places) ++ 46 :: padded places (digits % 10 ^ places)

def digitCount (digits : ℕ) : ℕ := (Nat.toDigits 10 digits).length

/-- The digits in exponent form: one of them before the point. -/
def mantissa (digits : ℕ) : Text :=
  if digitCount digits = 1 then Text.ofNat digits else fixedPoint digits (digitCount digits - 1)

/-- `Number::toString` of the absolute value; `point` is where the decimal
point stands, counted from the first digit. -/
def magnitude (digits : ℕ) (exponent : ℤ) : Text :=
  let point : ℤ := digitCount digits + exponent
  if 0 ≤ exponent ∧ point ≤ 21 then Text.ofNat (digits * 10 ^ exponent.toNat)
  else if exponent < 0 ∧ -6 < point ∧ point ≤ 21 then fixedPoint digits (-exponent).toNat
  else
    mantissa digits ++ 101 ::
      ((if point - 1 < 0 then 45 else 43) :: Text.ofNat (point - 1).natAbs)

/-- `Number::toString`. -/
def toText (x : Decimal) : Text :=
  (if x.negative then [45] else []) ++ magnitude x.digits x.exponent

theorem notMem_ofNat {n : ℕ} {unit : UInt16} (h : isDigit unit = false) :
    unit ∉ Text.ofNat n := by
  intro hmem
  rw [isDigit_of_mem_ofNat hmem] at h
  exact absurd h (by decide)

theorem point_notMem_ofNat (n : ℕ) : (46 : UInt16) ∉ Text.ofNat n :=
  notMem_ofNat (by decide)

theorem isDigit_of_mem_fixedPoint {digits places : ℕ} {unit : UInt16}
    (h : unit ∈ fixedPoint digits places) : unit = 46 ∨ isDigit unit = true := by
  rcases List.mem_append.mp h with hwhole | hrest
  · exact .inr (isDigit_of_mem_ofNat hwhole)
  · rcases List.mem_cons.mp hrest with rfl | hplaces
    · exact .inl rfl
    · exact .inr (isDigit_of_mem_padded hplaces)

theorem fixedPoint_inj {digits digits' places places' : ℕ}
    (h : fixedPoint digits places = fixedPoint digits' places') :
    digits = digits' ∧ places = places' := by
  obtain ⟨hwhole, hrest⟩ :=
    append_separator_inj (point_notMem_ofNat _) (point_notMem_ofNat _) h
  have hplaces : places = places' := by simpa using congrArg List.length hrest
  subst hplaces
  have hquotient := Text.ofNat_injective hwhole
  have hpos : 0 < 10 ^ places := by positivity
  have hremainder := padded_inj (Nat.mod_lt _ hpos) (Nat.mod_lt _ hpos) hrest
  refine ⟨?_, rfl⟩
  rw [← Nat.div_add_mod digits (10 ^ places), hquotient, hremainder, Nat.div_add_mod]

theorem isDigit_of_mem_mantissa {digits : ℕ} {unit : UInt16} (h : unit ∈ mantissa digits) :
    unit = 46 ∨ isDigit unit = true := by
  unfold mantissa at h
  split at h
  · exact .inr (isDigit_of_mem_ofNat h)
  · exact isDigit_of_mem_fixedPoint h

theorem mantissa_inj {digits digits' : ℕ} (h : mantissa digits = mantissa digits') :
    digits = digits' := by
  have hpoint : ∀ n places, Text.ofNat n ≠ fixedPoint digits places ∧
      Text.ofNat n ≠ fixedPoint digits' places := by
    intro n places
    constructor <;>
    · intro heq
      exact point_notMem_ofNat n (by rw [heq]; simp [fixedPoint])
  unfold mantissa at h
  split at h
  · split at h
    · exact Text.ofNat_injective h
    · exact absurd h (hpoint _ _).2
  · split at h
    · exact absurd h.symm (hpoint _ _).1
    · exact (fixedPoint_inj h).1

theorem scaled_inj {m n : ℕ} {e f : ℕ} (hm : m % 10 ≠ 0) (hn : n % 10 ≠ 0)
    (h : m * 10 ^ e = n * 10 ^ f) : m = n ∧ e = f := by
  rcases Nat.lt_trichotomy e f with hlt | rfl | hgt
  · obtain ⟨d, rfl⟩ := Nat.exists_eq_add_of_lt hlt
    have hcancel : m = n * 10 ^ (d + 1) := by
      refine Nat.eq_of_mul_eq_mul_right (show 0 < 10 ^ e by positivity) ?_
      rw [h]
      ring
    rw [hcancel, pow_succ, ← mul_assoc] at hm
    omega
  · exact ⟨Nat.eq_of_mul_eq_mul_right (show 0 < 10 ^ e by positivity) h, rfl⟩
  · obtain ⟨d, rfl⟩ := Nat.exists_eq_add_of_lt hgt
    have hcancel : n = m * 10 ^ (d + 1) := by
      refine Nat.eq_of_mul_eq_mul_right (show 0 < 10 ^ f by positivity) ?_
      rw [← h]
      ring
    rw [hcancel, pow_succ, ← mul_assoc] at hn
    omega

/-- The three ways to write a number differ in which signs they contain. -/
theorem magnitude_shape (digits : ℕ) (exponent : ℤ) :
    (0 ≤ exponent ∧ magnitude digits exponent = Text.ofNat (digits * 10 ^ exponent.toNat)) ∨
    (exponent < 0 ∧ magnitude digits exponent = fixedPoint digits (-exponent).toNat) ∨
    ∃ point : ℤ, point = digitCount digits + exponent ∧ magnitude digits exponent =
      mantissa digits ++ 101 ::
        ((if point - 1 < 0 then 45 else 43) :: Text.ofNat (point - 1).natAbs) := by
  unfold magnitude
  dsimp only
  split
  · next h => exact .inl ⟨h.1, rfl⟩
  · split
    · next h => exact .inr (.inl ⟨h.1, rfl⟩)
    · exact .inr (.inr ⟨_, rfl, rfl⟩)

theorem exponent_notMem_ofNat (n : ℕ) : (101 : UInt16) ∉ Text.ofNat n :=
  notMem_ofNat (by decide)

theorem exponent_notMem_fixedPoint (digits places : ℕ) :
    (101 : UInt16) ∉ fixedPoint digits places := by
  intro h
  rcases isDigit_of_mem_fixedPoint h with h | h <;> exact absurd h (by decide)

theorem exponent_notMem_mantissa (digits : ℕ) : (101 : UInt16) ∉ mantissa digits := by
  intro h
  rcases isDigit_of_mem_mantissa h with h | h <;> exact absurd h (by decide)

theorem point_mem_fixedPoint (digits places : ℕ) : (46 : UInt16) ∈ fixedPoint digits places := by
  simp [fixedPoint]

theorem signed_inj {m n : ℤ}
    (h : (if m < 0 then (45 : UInt16) else 43) :: Text.ofNat m.natAbs =
      (if n < 0 then 45 else 43) :: Text.ofNat n.natAbs) : m = n := by
  obtain ⟨hsign, hsize⟩ := List.cons.inj h
  have habs := Text.ofNat_injective hsize
  by_cases hm : m < 0 <;> by_cases hn : n < 0 <;> simp [hm, hn] at hsign <;> omega

/-- Numbers that cannot be shortened are determined by how they are written. -/
theorem magnitude_inj {m n : ℕ} {e f : ℤ} (hm : m % 10 ≠ 0 ∨ (m = 0 ∧ e = 0))
    (hn : n % 10 ≠ 0 ∨ (n = 0 ∧ f = 0)) (h : magnitude m e = magnitude n f) :
    m = n ∧ e = f := by
  rcases magnitude_shape m e with ⟨he, hme⟩ | ⟨he, hme⟩ | ⟨p, hp, hme⟩ <;>
  rcases magnitude_shape n f with ⟨hf, hnf⟩ | ⟨hf, hnf⟩ | ⟨q, hq, hnf⟩ <;>
  rw [hme, hnf] at h
  · -- both written as integers
    have hvalue := Text.ofNat_injective h
    rcases hm with hm | ⟨rfl, rfl⟩ <;> rcases hn with hn | ⟨rfl, rfl⟩
    · obtain ⟨rfl, hexp⟩ := scaled_inj hm hn hvalue
      exact ⟨rfl, by omega⟩
    · have hzero : m = 0 := by simpa using hvalue
      exact absurd hm (by simp [hzero])
    · have hzero : n = 0 := by simpa using hvalue.symm
      exact absurd hn (by simp [hzero])
    · exact ⟨rfl, rfl⟩
  · exact absurd (h ▸ point_mem_fixedPoint n _) (point_notMem_ofNat _)
  · exact absurd (h ▸ by simp) (exponent_notMem_ofNat (m * 10 ^ e.toNat))
  · exact absurd (h ▸ point_mem_fixedPoint m _) (point_notMem_ofNat _)
  · -- both with a point
    obtain ⟨rfl, hplaces⟩ := fixedPoint_inj h
    exact ⟨rfl, by omega⟩
  · exact absurd (h ▸ by simp) (exponent_notMem_fixedPoint m (-e).toNat)
  · exact absurd (h ▸ by simp) (exponent_notMem_ofNat (n * 10 ^ f.toNat))
  · exact absurd (h ▸ by simp) (exponent_notMem_fixedPoint n (-f).toNat)
  · -- both with an exponent
    obtain ⟨hmantissa, hexponent⟩ :=
      append_separator_inj (exponent_notMem_mantissa m) (exponent_notMem_mantissa n) h
    obtain rfl := mantissa_inj hmantissa
    have hpoint := signed_inj hexponent
    exact ⟨rfl, by omega⟩

/-- The units a number is written with. -/
def isNumberUnit (unit : UInt16) : Bool :=
  isDigit unit || unit = 43 || unit = 45 || unit = 46 || unit = 101

theorem isNumberUnit_of_mem_magnitude {digits : ℕ} {exponent : ℤ} {unit : UInt16}
    (h : unit ∈ magnitude digits exponent) : isNumberUnit unit = true := by
  have hdigit : ∀ {u : UInt16}, u = 46 ∨ isDigit u = true → isNumberUnit u = true := by
    rintro u (rfl | hu)
    · decide
    · simp [isNumberUnit, hu]
  rcases magnitude_shape digits exponent with ⟨-, heq⟩ | ⟨-, heq⟩ | ⟨point, -, heq⟩ <;>
    rw [heq] at h
  · exact hdigit (.inr (isDigit_of_mem_ofNat h))
  · exact hdigit (isDigit_of_mem_fixedPoint h)
  · rcases List.mem_append.mp h with hmantissa | hexponent
    · exact hdigit (isDigit_of_mem_mantissa hmantissa)
    · rcases List.mem_cons.mp hexponent with rfl | hsigned
      · decide
      · rcases List.mem_cons.mp hsigned with rfl | hsize
        · split <;> decide
        · exact hdigit (.inr (isDigit_of_mem_ofNat hsize))

theorem isNumberUnit_of_mem_toText {x : Decimal} {unit : UInt16} (h : unit ∈ x.toText) :
    isNumberUnit unit = true := by
  rcases List.mem_append.mp h with hsign | hmagnitude
  · split at hsign
    · rw [List.mem_singleton.mp hsign]
      decide
    · simp at hsign
  · exact isNumberUnit_of_mem_magnitude hmagnitude

theorem magnitude_head (digits : ℕ) (exponent : ℤ) :
    ∃ unit rest, magnitude digits exponent = unit :: rest ∧ isDigit unit = true := by
  have hnat : ∀ (n : ℕ) (rest : Text),
      ∃ unit rest', Text.ofNat n ++ rest = unit :: rest' ∧ isDigit unit = true := by
    intro n rest
    rcases htext : Text.ofNat n with _ | ⟨unit, tail⟩
    · exact absurd htext (ofNat_ne_nil n)
    · exact ⟨unit, tail ++ rest, rfl, isDigit_of_mem_ofNat (n := n) (by simp [htext])⟩
  rcases magnitude_shape digits exponent with ⟨-, heq⟩ | ⟨-, heq⟩ | ⟨point, -, heq⟩ <;> rw [heq]
  · simpa using hnat (digits * 10 ^ exponent.toNat) []
  · exact hnat _ _
  · unfold mantissa
    split
    · exact hnat _ _
    · rw [fixedPoint, List.append_assoc]
      exact hnat _ _

/-- A number is written with its own text only. -/
theorem toText_injective : Function.Injective toText := by
  intro x y h
  obtain ⟨u, rest, hx, hu⟩ := magnitude_head x.digits x.exponent
  obtain ⟨v, rest', hy, hv⟩ := magnitude_head y.digits y.exponent
  have hminus : ∀ {w : UInt16}, isDigit w = true → w ≠ 45 := by
    rintro w hw rfl
    exact absurd hw (by decide)
  have hboth : x.negative = y.negative ∧
      magnitude x.digits x.exponent = magnitude y.digits y.exponent := by
    unfold toText at h
    rcases hxn : x.negative <;> rcases hyn : y.negative <;> simp [hxn, hyn] at h
    · exact ⟨rfl, h⟩
    · rw [hx] at h
      exact absurd (List.cons.inj h).1 (hminus hu)
    · rw [hy] at h
      exact absurd (List.cons.inj h).1.symm (hminus hv)
    · exact ⟨rfl, h⟩
  have hcanonical : ∀ z : Decimal, z.digits % 10 ≠ 0 ∨ (z.digits = 0 ∧ z.exponent = 0) := by
    intro z
    rcases z.canonical with hz | ⟨hdigits, hexponent, -⟩
    · exact .inl hz
    · exact .inr ⟨hdigits, hexponent⟩
  obtain ⟨hdigits, hexponent⟩ := magnitude_inj (hcanonical x) (hcanonical y) hboth.2
  cases x
  cases y
  simp only [Decimal.mk.injEq]
  exact ⟨hboth.1, hdigits, hexponent⟩

/-- `0.1`, `25`, `1e+21` and `1.5e-7`. -/
example : toText ⟨false, 1, -1, by decide⟩ = ("0.1" : Text) ∧
    toText ⟨false, 25, 0, by decide⟩ = ("25" : Text) ∧
    toText ⟨false, 1, 21, by decide⟩ = ("1e+21" : Text) ∧
    toText ⟨true, 15, -8, by decide⟩ = ("-1.5e-7" : Text) := ⟨rfl, rfl, rfl, rfl⟩

end Decimal

/-- `String(value)` of a number. -/
def Number.toText : Number → Text
  | .nan => "NaN"
  | .infinity negative => if negative then "-Infinity" else "Infinity"
  | .finite value => value.toText

end ListmonkOps.Runtime
