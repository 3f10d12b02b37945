/-
Addresses written as text.

An address of version 4 is four numbers with dots between them. One of version 6
is eight groups of hexadecimal digits with colons between them, where one run of
groups of zeros may be left out at a double colon and the last two groups may be
written as an address of version 4; a zone may follow it. One address has many
such texts. The checker reads each of them as the address it stands for, and
reads nothing else, so that what it refuses is a set of addresses.
-/

import ListmonkOps.Network.Addresses
import ListmonkOps.Provider.SpfAddressSets

namespace ListmonkOps.Network

open ListmonkOps.Runtime ListmonkOps.Provider

/-! ## Notation -/

/-- The number with these digits, the highest first. -/
def bigEndian (base : ℕ) (digits : List ℕ) : ℕ :=
  digits.foldl (fun value digit => value * base + digit) 0

/-- The text is a number below 256 in decimal digits, without leading zeros. -/
structure IsOctet (part : Text) (n : ℕ) : Prop where
  decimal : isDecimal part = true
  plain : part.head? = some 48 → part = [48]
  value : decimalValue part = n
  octet : n < 256

/-- The text is four octets with dots between them, and the number is made of them in order. -/
def IsDotted (text : Text) (n : ℕ) : Prop :=
  ∃ parts octets, List.Forall₂ IsOctet parts octets ∧ octets.length = 4 ∧
    text = [46].intercalate parts ∧ n = bigEndian 256 octets

/-- The text is one to four hexadecimal digits, with the letters in lower case. -/
def IsGroup (part : Text) (n : ℕ) : Prop := part.length ≤ 4 ∧ hexValue part = some n

/-- The parts stand for these groups: each for one of them, or the last one for the
last two. -/
inductive Fields : List Text → List ℕ → Prop where
  | nil : Fields [] []
  | dotted {quad : Text} {n : ℕ} (h : IsDotted quad n) : Fields [quad] [n / 65536, n % 65536]
  | group {part : Text} {n : ℕ} {parts : List Text} {groups : List ℕ} (h : IsGroup part n)
      (rest : Fields parts groups) : Fields (part :: parts) (n :: groups)

/-- The text is eight groups, or fewer with a double colon in place of the others.
What the parts in front of a double colon stand for is fixed; `back` says it of the
others. -/
inductive Spelled (back : List Text → List ℕ → Prop) : Text → ℕ → Prop where
  | full {parts : List Text} {groups : List ℕ} (fields : back parts groups)
      (eight : groups.length = 8) :
      Spelled back ([58].intercalate parts) (bigEndian 65536 groups)
  | compressed {left right : List Text} {high low : List ℕ}
      (leading : List.Forall₂ IsGroup left high) (trailing : back right low)
      (fewer : high.length + low.length < 8) :
      Spelled back ([58].intercalate left ++ 58 :: 58 :: [58].intercalate right)
        (bigEndian 65536 (high ++ List.replicate (8 - high.length - low.length) 0 ++ low))

/-- The text is an address of version 6 without a zone, in lower case. -/
def IsLiteral6 : Text → ℕ → Prop := Spelled Fields

/-! ## Joined parts -/

section Joined

variable {α β : Type} {R : α → β → Prop}

theorem exists_of_forall₂_left {xs : List α} {ys : List β} (h : List.Forall₂ R xs ys) {x : α}
    (hx : x ∈ xs) : ∃ y ∈ ys, R x y := by
  induction h with
  | nil => cases hx
  | @cons a b xs ys hab rest ih =>
      rcases List.mem_cons.mp hx with rfl | hx
      · exact ⟨b, List.mem_cons_self, hab⟩
      · obtain ⟨y, hy, hxy⟩ := ih hx
        exact ⟨y, List.mem_cons_of_mem b hy, hxy⟩

theorem forall₂_append_left {xs xs' : List α} {ys : List β} :
    List.Forall₂ R (xs ++ xs') ys ↔
      ∃ first second, ys = first ++ second ∧ List.Forall₂ R xs first ∧
        List.Forall₂ R xs' second := by
  constructor
  · intro h
    induction xs generalizing ys with
    | nil => exact ⟨[], ys, rfl, .nil, h⟩
    | cons x xs ih =>
        obtain ⟨y, rest, hxy, hrest, rfl⟩ := List.forall₂_cons_left_iff.mp h
        obtain ⟨first, second, rfl, hfirst, hsecond⟩ := ih hrest
        exact ⟨y :: first, second, rfl, .cons hxy hfirst, hsecond⟩
  · rintro ⟨first, second, rfl, hfirst, hsecond⟩
    exact List.rel_append hfirst hsecond

variable {separator unit : UInt16} {parts : List Text}

theorem notMem_intercalate (hne : unit ≠ separator) (h : ∀ part ∈ parts, unit ∉ part) :
    unit ∉ [separator].intercalate parts := by
  induction parts with
  | nil => exact List.not_mem_nil
  | cons part parts ih =>
      rw [List.forall_mem_cons] at h
      cases parts with
      | nil =>
          rw [List.intercalate_singleton]
          exact h.1
      | cons next parts =>
          rw [List.intercalate_cons_cons]
          simp only [List.mem_append, List.mem_singleton, not_or]
          exact ⟨⟨h.1, hne⟩, ih h.2⟩

/-- The last part stands behind the others, each of which a separator follows. -/
theorem intercalate_concat {last : Text} :
    [separator].intercalate (parts ++ [last]) = parts.flatMap (· ++ [separator]) ++ last := by
  induction parts with
  | nil => exact List.intercalate_singleton
  | cons part parts ih =>
      have hcons : [separator].intercalate (part :: (parts ++ [last])) =
          part ++ [separator] ++ [separator].intercalate (parts ++ [last]) := by
        cases parts with
        | nil => rw [List.nil_append, List.intercalate_cons_cons]
        | cons next parts => rw [List.cons_append, List.intercalate_cons_cons]
      rw [List.cons_append, hcons, ih, List.flatMap_cons, List.append_assoc, List.append_assoc]
      simp

end Joined

/-! ## Digits -/

/-- The value of a hexadecimal digit in lower case. -/
def hexDigitValue (unit : UInt16) : Option ℕ :=
  if isDigit unit then some (unit.toNat - 48)
  else if 97 ≤ unit && unit ≤ 102 then some (unit.toNat - 87)
  else none

theorem hexDigitValue_lt {unit : UInt16} {n : ℕ} (h : hexDigitValue unit = some n) : n < 16 := by
  unfold hexDigitValue isDigit at h
  simp only [Bool.and_eq_true, decide_eq_true_eq, UInt16.le_iff_toNat_le] at h
  have h57 : (57 : UInt16).toNat = 57 := rfl
  have h102 : (102 : UInt16).toNat = 102 := rfl
  split_ifs at h with hdigit hletter
  · obtain rfl := Option.some.inj h
    omega
  · obtain rfl := Option.some.inj h
    omega

/-- Reading more digits behind a number. -/
def readHex (text : Text) (value : ℕ) : Option ℕ :=
  text.foldlM (fun value unit => (hexDigitValue unit).map (16 * value + ·)) value

theorem hexValue_eq_readHex {text : Text} (h : text ≠ []) : hexValue text = readHex text 0 := by
  rw [hexValue, if_neg h, readHex]
  congr 1
  funext value unit
  unfold hexDigitValue
  split_ifs <;> rfl

theorem readHex_cons {unit : UInt16} {text : Text} {value : ℕ} :
    readHex (unit :: text) value =
      (hexDigitValue unit).bind fun digit => readHex text (16 * value + digit) := by
  rw [readHex, List.foldlM_cons]
  cases hexDigitValue unit <;> rfl

theorem readHex_append {text more : Text} {value : ℕ} :
    readHex (text ++ more) value = (readHex text value).bind (readHex more) :=
  List.foldlM_append

theorem readHex_lt {text : Text} {value n : ℕ} (h : readHex text value = some n) :
    n < 16 ^ text.length * (value + 1) := by
  induction text generalizing value with
  | nil =>
      obtain rfl : value = n := Option.some.inj h
      simp
  | cons unit text ih =>
      rw [readHex_cons] at h
      obtain ⟨digit, hdigit, hrest⟩ := Option.bind_eq_some_iff.mp h
      have hlt := hexDigitValue_lt hdigit
      calc n < 16 ^ text.length * (16 * value + digit + 1) := ih hrest
        _ ≤ 16 ^ text.length * (16 * (value + 1)) := Nat.mul_le_mul_left _ (by omega)
        _ = 16 ^ (unit :: text).length * (value + 1) := by
            rw [List.length_cons, Nat.pow_succ, Nat.mul_assoc]

theorem isSome_readHex {text : Text} (value : ℕ) :
    (readHex text value).isSome =
      text.all fun unit => isDigit unit || (97 ≤ unit && unit ≤ 102) := by
  induction text generalizing value with
  | nil => rfl
  | cons unit text ih =>
      rw [readHex_cons, List.all_cons]
      unfold hexDigitValue
      split_ifs with hdigit hletter
      · simp [hdigit, ih]
      · simp [hletter, ih]
      · simp [hdigit, hletter]

theorem IsGroup.ne_nil {part : Text} {n : ℕ} (h : IsGroup part n) : part ≠ [] := by
  rintro rfl
  cases h.2

/-- A group has digits only. -/
theorem IsGroup.notMem {part : Text} {n : ℕ} {unit : UInt16} (h : IsGroup part n)
    (hunit : (isDigit unit || (97 ≤ unit && unit ≤ 102)) = false) : unit ∉ part := by
  have hread : (readHex part 0).isSome = true := by
    rw [← hexValue_eq_readHex h.ne_nil, h.2, Option.isSome_some]
  rw [isSome_readHex, List.all_eq_true] at hread
  intro hmem
  rw [hread unit hmem] at hunit
  cases hunit

theorem IsGroup.lt {part : Text} {n : ℕ} (h : IsGroup part n) : n < 65536 := by
  have hread := h.2
  rw [hexValue_eq_readHex h.ne_nil] at hread
  calc n < 16 ^ part.length * (0 + 1) := readHex_lt hread
    _ ≤ 16 ^ 4 := by
        rw [Nat.zero_add, Nat.mul_one]
        exact Nat.pow_le_pow_right (by norm_num) h.1
    _ = 65536 := by norm_num

theorem isGroupText_iff {part : Text} : isGroupText part = true ↔ ∃ n, IsGroup part n := by
  simp only [isGroupText, Bool.and_eq_true, decide_eq_true_eq]
  constructor
  · rintro ⟨⟨hpos, hle⟩, hdigits⟩
    have hne : part ≠ [] := List.ne_nil_of_length_pos hpos
    rw [← isSome_readHex 0, ← hexValue_eq_readHex hne] at hdigits
    obtain ⟨n, hn⟩ := Option.isSome_iff_exists.mp hdigits
    exact ⟨n, hle, hn⟩
  · rintro ⟨n, h⟩
    refine ⟨⟨List.length_pos_iff.mpr h.ne_nil, h.1⟩, ?_⟩
    rw [← isSome_readHex 0, ← hexValue_eq_readHex h.ne_nil, h.2, Option.isSome_some]

theorem readHex_hexText (n : ℕ) :
    (hexText n).length = (Nat.toDigits 16 n).length ∧ readHex (hexText n) 0 = some n := by
  have hdigit : ∀ k < 16, (Text.unitsOfChar (Nat.digitChar k)).map hexDigitValue = [some k] := by
    decide
  have hsingle : ∀ k < 16, ∃ unit, Text.unitsOfChar (Nat.digitChar k) = [unit] ∧
      hexDigitValue unit = some k := by
    intro k hk
    obtain ⟨unit, hunit, hvalue⟩ := List.map_eq_singleton_iff.mp (hdigit k hk)
    exact ⟨unit, hunit, hvalue⟩
  have htext : ∀ m, hexText m = (Nat.toDigits 16 m).flatMap Text.unitsOfChar := fun m => by
    rw [hexText, Text.ofString, String.toList_ofList]
  simp only [htext]
  induction n using Nat.base_induction 16 (by norm_num) with
  | single m hm =>
      obtain ⟨unit, hunit, hvalue⟩ := hsingle m hm
      rw [Nat.toDigits_of_lt_base hm, List.flatMap_singleton, hunit]
      exact ⟨rfl, by simp [readHex, hvalue]⟩
  | digit m k hk hm ih =>
      obtain ⟨unit, hunit, hvalue⟩ := hsingle k hk
      rw [← Nat.toDigits_append_toDigits (by norm_num) hm hk, Nat.toDigits_of_lt_base hk,
        List.flatMap_append, List.flatMap_singleton, hunit, readHex_append, ih.2]
      refine ⟨by simp [ih.1], ?_⟩
      simp [readHex, hvalue]

theorem isGroup_hexText {n : ℕ} (h : n < 65536) : IsGroup (hexText n) n := by
  obtain ⟨hlength, hread⟩ := readHex_hexText n
  have hpos : 0 < (hexText n).length := hlength ▸ Nat.length_toDigits_pos
  refine ⟨?_, ?_⟩
  · rw [hlength, Nat.length_toDigits_le_iff (by norm_num) (by norm_num)]
    exact h
  · rwa [hexValue_eq_readHex (List.ne_nil_of_length_pos hpos)]

/-! ## Addresses of version 4 -/

theorem le_foldl_decimal {digits : Text} {value : ℕ} :
    10 ^ digits.length * value ≤
      digits.foldl (fun value unit => 10 * value + (unit.toNat - 48)) value := by
  induction digits generalizing value with
  | nil => simp
  | cons unit digits ih =>
      rw [List.foldl_cons, List.length_cons, Nat.pow_succ, Nat.mul_assoc]
      refine le_trans ?_ ih
      exact Nat.mul_le_mul_left _ (Nat.le_add_right _ _)

theorem isOctet_iff {part : Text} {n : ℕ} :
    IsOctet part n ↔ isOctetText part = true ∧ decimalValue part = n ∧ n ≤ 255 := by
  simp only [isOctetText, Bool.or_eq_true, Bool.and_eq_true, decide_eq_true_eq]
  constructor
  · intro h
    refine ⟨?_, h.value, Nat.le_of_lt_succ h.octet⟩
    by_cases hzero : part.head? = some 48
    · exact .inl (h.plain hzero)
    · refine .inr ⟨⟨h.decimal, ?_⟩, hzero⟩
      cases part with
      | nil => exact Nat.zero_le _
      | cons digit rest =>
          have hdigit : isDigit digit = true := by
            have hall := h.decimal
            simp only [isDecimal, List.all_cons, Bool.and_eq_true] at hall
            exact hall.2.1
          -- the first digit is one at least, and each of the others multiplies by ten
          have hfirst : 1 ≤ digit.toNat - 48 := by
            simp only [isDigit, Bool.and_eq_true, decide_eq_true_eq, UInt16.le_iff_toNat_le]
              at hdigit
            have hne : digit.toNat ≠ 48 := fun heq => hzero (by
              rw [List.head?_cons, Option.some.injEq, ← UInt16.toNat_inj]
              exact heq)
            have h48 : (48 : UInt16).toNat = 48 := rfl
            omega
          have hle : 10 ^ rest.length * (10 * 0 + (digit.toNat - 48)) ≤
              decimalValue (digit :: rest) := le_foldl_decimal
          by_contra hlong
          rw [List.length_cons] at hlong
          have hpow : 10 ^ 3 ≤ 10 ^ rest.length := Nat.pow_le_pow_right (by norm_num) (by omega)
          have hoctet := h.octet
          rw [← h.value] at hoctet
          have hmul := Nat.mul_le_mul hpow hfirst
          rw [Nat.mul_zero, Nat.zero_add] at hle
          omega
  · rintro ⟨rfl | ⟨⟨hdecimal, -⟩, hhead⟩, hvalue, hle⟩
    · exact ⟨rfl, fun _ => rfl, hvalue, Nat.lt_succ_of_le hle⟩
    · exact ⟨hdecimal, fun h => absurd h hhead, hvalue, Nat.lt_succ_of_le hle⟩

theorem IsOctet.notMem {part : Text} {n : ℕ} {unit : UInt16} (h : IsOctet part n)
    (hunit : isDigit unit = false) : unit ∉ part :=
  notMem_of_isDecimal h.decimal hunit

theorem shift_or_octets {a b c d : ℕ} (hb : b < 256) (hc : c < 256) (hd : d < 256) :
    (a <<< 24) ||| (b <<< 16) ||| (c <<< 8) ||| d = bigEndian 256 [a, b, c, d] := by
  have hor : ∀ {i m k : ℕ}, m < 2 ^ k → (i <<< k) ||| m = i * 2 ^ k + m := fun hlt => by
    rw [← Nat.shiftLeft_add_eq_or_of_lt hlt, Nat.shiftLeft_eq]
  have hfirst : (a <<< 24) ||| (b <<< 16) = (a * 256 + b) <<< 16 := by
    rw [hor (by rw [Nat.shiftLeft_eq]; omega), Nat.shiftLeft_eq, Nat.shiftLeft_eq]
    omega
  have hsecond : ((a * 256 + b) <<< 16) ||| (c <<< 8) = ((a * 256 + b) * 256 + c) <<< 8 := by
    rw [hor (by rw [Nat.shiftLeft_eq]; omega), Nat.shiftLeft_eq, Nat.shiftLeft_eq]
    omega
  rw [hfirst, hsecond, hor hd]
  simp only [bigEndian, List.foldl_cons, List.foldl_nil]
  omega

theorem splitOn_octets {parts : List Text} {octets : List ℕ}
    (h : List.Forall₂ IsOctet parts octets) (hlength : octets.length = 4) :
    ([46].intercalate parts).splitOn 46 = parts := by
  refine List.splitOn_intercalate 46 (fun part hpart => ?_) ?_
  · obtain ⟨n, -, hoctet⟩ := exists_of_forall₂_left h hpart
    exact hoctet.notMem rfl
  · rintro rfl
    cases h
    cases hlength

theorem IsDotted.cases {text : Text} {n : ℕ} (h : IsDotted text n) :
    ∃ a b c d, (IsOctet a (decimalValue a) ∧ IsOctet b (decimalValue b) ∧
        IsOctet c (decimalValue c) ∧ IsOctet d (decimalValue d)) ∧
      text = [46].intercalate [a, b, c, d] ∧ text.splitOn 46 = [a, b, c, d] ∧
      n = bigEndian 256 [decimalValue a, decimalValue b, decimalValue c, decimalValue d] := by
  obtain ⟨parts, octets, hparts, hlength, rfl, rfl⟩ := h
  have hsplit := splitOn_octets hparts hlength
  obtain ⟨p, q, r, s, rfl⟩ := List.length_eq_four.mp hlength
  obtain ⟨a, _, ha, hbcd, rfl⟩ := List.forall₂_cons_right_iff.mp hparts
  obtain ⟨b, _, hb, hcd, rfl⟩ := List.forall₂_cons_right_iff.mp hbcd
  obtain ⟨c, _, hc, hlast, rfl⟩ := List.forall₂_cons_right_iff.mp hcd
  obtain ⟨d, _, hd, hnil, rfl⟩ := List.forall₂_cons_right_iff.mp hlast
  obtain rfl := List.forall₂_nil_right_iff.mp hnil
  obtain rfl := ha.value
  obtain rfl := hb.value
  obtain rfl := hc.value
  obtain rfl := hd.value
  exact ⟨a, b, c, d, ⟨ha, hb, hc, hd⟩, rfl, hsplit, rfl⟩

/-- The checker reads the addresses of version 4 and nothing else. -/
theorem parseIpv4Address_eq_some {text : Text} {n : ℕ} :
    parseIpv4Address text = some n ↔ IsDotted text n := by
  constructor
  · intro h
    unfold parseIpv4Address at h
    split at h
    · rename_i a b c d hsplit
      split_ifs at h with hform hrange
      simp only [List.any_cons, List.any_nil, Bool.or_eq_true, Bool.not_eq_true', decide_eq_true_eq,
        not_or, Bool.not_eq_false, Bool.or_false] at hform hrange
      obtain ⟨ha, hb, hc, hd⟩ := hform
      obtain ⟨ha', hb', hc', hd'⟩ := hrange
      refine ⟨[a, b, c, d], [decimalValue a, decimalValue b, decimalValue c, decimalValue d],
        ?_, rfl, ?_, ?_⟩
      · exact .cons (isOctet_iff.mpr ⟨ha, rfl, by omega⟩) <|
          .cons (isOctet_iff.mpr ⟨hb, rfl, by omega⟩) <|
          .cons (isOctet_iff.mpr ⟨hc, rfl, by omega⟩) <|
          .cons (isOctet_iff.mpr ⟨hd, rfl, by omega⟩) .nil
      · rw [← hsplit, List.intercalate_splitOn]
      · rw [← Option.some.inj h]
        exact shift_or_octets (by omega) (by omega) (by omega)
    · cases h
  · intro h
    obtain ⟨a, b, c, d, ⟨ha, hb, hc, hd⟩, -, hsplit, rfl⟩ := h.cases
    rw [isOctet_iff] at ha hb hc hd
    obtain ⟨ha, -, ha'⟩ := ha
    obtain ⟨hb, -, hb'⟩ := hb
    obtain ⟨hc, -, hc'⟩ := hc
    obtain ⟨hd, -, hd'⟩ := hd
    simp only [parseIpv4Address, hsplit]
    rw [if_neg (by simp [ha, hb, hc, hd]), if_neg (by simp; omega),
      shift_or_octets (by omega) (by omega) (by omega)]

theorem IsDotted.lt {text : Text} {n : ℕ} (h : IsDotted text n) : n < 2 ^ 32 := by
  obtain ⟨a, b, c, d, ⟨ha, hb, hc, hd⟩, -, -, rfl⟩ := h.cases
  have ha' := ha.octet
  have hb' := hb.octet
  have hc' := hc.octet
  have hd' := hd.octet
  simp only [bigEndian, List.foldl_cons, List.foldl_nil]
  omega

/-- An address of version 4 has digits and dots only. -/
theorem IsDotted.unit {text : Text} {n : ℕ} (h : IsDotted text n) :
    ∀ unit ∈ text, isDigit unit = true ∨ unit = 46 := by
  obtain ⟨parts, octets, hparts, -, rfl, -⟩ := h
  intro unit hmem
  by_contra hother
  rw [not_or, Bool.not_eq_true] at hother
  refine notMem_intercalate hother.2 (fun part hpart => ?_) hmem
  obtain ⟨n, -, hoctet⟩ := exists_of_forall₂_left hparts hpart
  exact hoctet.notMem hother.1

theorem IsDotted.isDottedDigits {text : Text} {n : ℕ} (h : IsDotted text n) :
    isDottedDigits text = true := by
  obtain ⟨parts, octets, hparts, hlength, rfl, -⟩ := h
  simp only [Network.isDottedDigits, splitOn_octets hparts hlength, Bool.and_eq_true,
    decide_eq_true_eq, List.all_eq_true]
  refine ⟨hparts.length_eq.trans hlength, fun part hpart => ?_⟩
  obtain ⟨n, -, hoctet⟩ := exists_of_forall₂_left hparts hpart
  exact hoctet.decimal

/-! ## Colons -/

theorem splitCompression_ne_nil (text : Text) : splitCompression text ≠ [] := by
  fun_cases splitCompression text <;> simp_all

theorem splitCompression_double {text : Text} :
    splitCompression (58 :: 58 :: text) = [] :: splitCompression text := by
  rw [splitCompression, if_pos ⟨rfl, rfl⟩]

/-- A unit that does not begin a double colon belongs to the first half. -/
theorem splitCompression_cons {unit : UInt16} {text : Text}
    (h : unit ≠ 58 ∨ text.head? ≠ some 58) :
    splitCompression (unit :: text) = (splitCompression text).modifyHead (unit :: ·) := by
  cases text with
  | nil => rfl
  | cons next text =>
      have hsingle : ¬(unit = 58 ∧ next = 58) := by
        rintro ⟨rfl, rfl⟩
        simp at h
      rw [splitCompression, if_neg hsingle]
      cases hrest : splitCompression (next :: text) with
      | nil => exact absurd hrest (splitCompression_ne_nil _)
      | cons part parts => rfl

theorem splitCompression_append {part text : Text} (h : (58 : UInt16) ∉ part) :
    splitCompression (part ++ text) = (splitCompression text).modifyHead (part ++ ·) := by
  induction part with
  | nil =>
      cases hrest : splitCompression text with
      | nil => exact absurd hrest (splitCompression_ne_nil _)
      | cons first rest => simp [hrest]
  | cons unit part ih =>
      rw [List.mem_cons, not_or] at h
      rw [List.cons_append, splitCompression_cons (.inl (Ne.symm h.1)), ih h.2]
      cases splitCompression text <;> rfl

theorem splitCompression_intercalate {parts : List Text} {rest : Text}
    (h : ∀ part ∈ parts, part ≠ [] ∧ (58 : UInt16) ∉ part) :
    splitCompression ([58].intercalate parts ++ rest) =
      (splitCompression rest).modifyHead ([58].intercalate parts ++ ·) := by
  induction parts with
  | nil =>
      cases hsplit : splitCompression rest with
      | nil => exact absurd hsplit (splitCompression_ne_nil _)
      | cons first others => simp [hsplit]
  | cons part parts ih =>
      rw [List.forall_mem_cons] at h
      cases parts with
      | nil => rw [List.intercalate_singleton, splitCompression_append h.1.2]
      | cons next parts =>
          have hnext := (List.forall_mem_cons.mp h.2).1
          obtain ⟨unit, more, rfl⟩ := List.exists_cons_of_ne_nil hnext.1
          have hunit : ([58].intercalate ((unit :: more) :: parts) ++ rest).head? = some unit := by
            cases parts with
            | nil => simp
            | cons other parts => simp [List.intercalate_cons_cons]
          have hcolon : unit ≠ 58 := fun heq => hnext.2 (heq ▸ List.mem_cons_self)
          rw [List.intercalate_cons_cons, List.append_assoc, List.append_assoc,
            splitCompression_append h.1.2, List.singleton_append,
            splitCompression_cons (.inr (by rw [hunit]; simpa using hcolon)), ih h.2]
          cases splitCompression rest <;> simp

theorem splitCompression_single {parts : List Text}
    (h : ∀ part ∈ parts, part ≠ [] ∧ (58 : UInt16) ∉ part) :
    splitCompression ([58].intercalate parts) = [[58].intercalate parts] := by
  have hall : splitCompression ([58].intercalate parts ++ []) = _ := splitCompression_intercalate h
  simpa [splitCompression] using hall

theorem intercalate_splitCompression (text : Text) :
    [58, 58].intercalate (splitCompression text) = text := by
  fun_induction splitCompression text with
  | case1 => rfl
  | case2 unit => exact List.intercalate_singleton
  | case3 unit next rest hcolons ih =>
      obtain ⟨rfl, rfl⟩ := hcolons
      cases hrest : splitCompression rest with
      | nil => exact absurd hrest (splitCompression_ne_nil _)
      | cons part parts =>
          rw [List.intercalate_cons_cons, ← hrest, ih]
          rfl
  | case4 unit next rest hcolons hnil ih => exact absurd hnil (splitCompression_ne_nil _)
  | case5 unit next rest hcolons part parts hsplit ih =>
      rw [hsplit] at ih
      cases parts with
      | nil =>
          rw [List.intercalate_singleton] at ih ⊢
          rw [ih]
      | cons other parts =>
          rw [List.intercalate_cons_cons] at ih ⊢
          rw [← ih]
          rfl

theorem intercalate_groupsOf (half : Text) : [58].intercalate (groupsOf half) = half := by
  unfold groupsOf
  split_ifs with hempty
  · rw [hempty]
    rfl
  · exact List.intercalate_splitOn 58

theorem groupsOf_intercalate {parts : List Text}
    (h : ∀ part ∈ parts, part ≠ [] ∧ (58 : UInt16) ∉ part) :
    groupsOf ([58].intercalate parts) = parts := by
  cases parts with
  | nil => rfl
  | cons part parts =>
      have hne : [58].intercalate (part :: parts) ≠ [] := by
        obtain ⟨unit, more, rfl⟩ := List.exists_cons_of_ne_nil (h part List.mem_cons_self).1
        cases parts with
        | nil => simp
        | cons next parts => simp [List.intercalate_cons_cons]
      rw [groupsOf, if_neg hne]
      exact List.splitOn_intercalate 58 (fun part hpart => (h part hpart).2) (List.cons_ne_nil _ _)

/-! ## Groups -/

theorem all_isGroupText_iff {parts : List Text} :
    parts.all isGroupText = true ↔ ∃ groups, List.Forall₂ IsGroup parts groups := by
  induction parts with
  | nil => exact ⟨fun _ => ⟨[], .nil⟩, fun _ => rfl⟩
  | cons part parts ih =>
      rw [List.all_cons, Bool.and_eq_true, isGroupText_iff, ih]
      constructor
      · rintro ⟨⟨n, hn⟩, groups, hgroups⟩
        exact ⟨n :: groups, .cons hn hgroups⟩
      · rintro ⟨_, hgroups⟩
        obtain ⟨n, groups, hn, hrest, -⟩ := List.forall₂_cons_left_iff.mp hgroups
        exact ⟨⟨n, hn⟩, groups, hrest⟩

theorem foldlM_groups {parts : List Text} {groups : List ℕ} (h : List.Forall₂ IsGroup parts groups)
    (value : ℕ) :
    parts.foldlM (fun result part => (hexValue part).map ((result <<< 16) ||| ·)) value =
      some (groups.foldl (fun value group => value * 65536 + group) value) := by
  induction h generalizing value with
  | nil => rfl
  | @cons part n parts groups hn rest ih =>
      have hstep : (value <<< 16) ||| n = value * 65536 + n := by
        rw [← Nat.shiftLeft_add_eq_or_of_lt (i := 16) hn.lt, Nat.shiftLeft_eq]
      rw [List.foldlM_cons, hn.2, Option.map_some, Option.bind_eq_bind, Option.bind_some, hstep, ih,
        List.foldl_cons]

theorem groupsNumber_eq_some {text : Text} {n : ℕ} :
    groupsNumber text = some n ↔ ∃ parts groups, eightGroups text = some parts ∧
      List.Forall₂ IsGroup parts groups ∧ n = bigEndian 65536 groups := by
  unfold groupsNumber
  rw [Option.bind_eq_bind, Option.bind_eq_some_iff]
  refine exists_congr fun parts => ?_
  have hany : parts.any (!isGroupText ·) = !parts.all isGroupText := by
    rw [List.all_eq_not_any_not, Bool.not_not]
  rw [hany]
  constructor
  · rintro ⟨hparts, hnumber⟩
    split_ifs at hnumber with hall
    rw [Bool.not_eq_true, Bool.not_eq_false'] at hall
    obtain ⟨groups, hgroups⟩ := all_isGroupText_iff.mp hall
    rw [foldlM_groups hgroups] at hnumber
    exact ⟨groups, hparts, hgroups, (Option.some.inj hnumber).symm⟩
  · rintro ⟨groups, hparts, hgroups, rfl⟩
    have hall := all_isGroupText_iff.mpr ⟨groups, hgroups⟩
    rw [hall, Bool.not_true, if_neg Bool.false_ne_true, foldlM_groups hgroups]
    exact ⟨hparts, rfl⟩

theorem isGroup_zero {n : ℕ} : IsGroup [48] n ↔ n = 0 := by
  have hvalue : hexValue [48] = some 0 := by decide
  constructor
  · rintro ⟨-, h⟩
    exact Option.some.inj (h.symm.trans hvalue)
  · rintro rfl
    exact ⟨by decide, hvalue⟩

theorem forall₂_zeros {k : ℕ} {groups : List ℕ} :
    List.Forall₂ IsGroup (List.replicate k [48]) groups ↔ groups = List.replicate k 0 := by
  induction k generalizing groups with
  | zero => exact List.forall₂_nil_left_iff
  | succ k ih =>
      rw [List.replicate_succ, List.replicate_succ, List.forall₂_cons_left_iff]
      simp only [isGroup_zero, ih]
      constructor
      · rintro ⟨_, _, rfl, rfl, rfl⟩
        rfl
      · rintro rfl
        exact ⟨_, _, rfl, rfl, rfl⟩

theorem parts_of_groups {parts : List Text} {groups : List ℕ}
    (h : List.Forall₂ IsGroup parts groups) : ∀ part ∈ parts, part ≠ [] ∧ (58 : UInt16) ∉ part := by
  intro part hpart
  obtain ⟨n, -, hgroup⟩ := exists_of_forall₂_left h hpart
  exact ⟨hgroup.ne_nil, hgroup.notMem rfl⟩

theorem notMem_dot_of_groups {parts : List Text} {groups : List ℕ}
    (h : List.Forall₂ IsGroup parts groups) : (46 : UInt16) ∉ [58].intercalate parts := by
  refine notMem_intercalate (by decide) fun part hpart => ?_
  obtain ⟨n, -, hgroup⟩ := exists_of_forall₂_left h hpart
  exact hgroup.notMem rfl

/-- Without a dotted tail, the checker reads the notation and nothing else. -/
theorem groupsNumber_iff {text : Text} {n : ℕ} :
    groupsNumber text = some n ↔ Spelled (List.Forall₂ IsGroup) text n := by
  rw [groupsNumber_eq_some]
  constructor
  · rintro ⟨parts, groups, hparts, hgroups, rfl⟩
    have htext := intercalate_splitCompression text
    unfold eightGroups at hparts
    split at hparts
    · rename_i left hsplit
      rw [hsplit, List.intercalate_singleton] at htext
      split_ifs at hparts with height
      obtain rfl := Option.some.inj hparts
      have hspelled := Spelled.full hgroups (hgroups.length_eq ▸ height)
      rwa [intercalate_groupsOf, htext] at hspelled
    · rename_i left right hsplit
      rw [hsplit, List.intercalate_cons_cons, List.intercalate_singleton] at htext
      split_ifs at hparts with hmany
      obtain rfl := Option.some.inj hparts
      obtain ⟨_, low, rfl, hfirst, hlow⟩ := forall₂_append_left.mp hgroups
      obtain ⟨high, zeros, rfl, hhigh, hzeros⟩ := forall₂_append_left.mp hfirst
      obtain rfl := forall₂_zeros.mp hzeros
      rw [hhigh.length_eq, hlow.length_eq] at hmany ⊢
      have hspelled := Spelled.compressed hhigh hlow (by omega)
      rw [intercalate_groupsOf, intercalate_groupsOf] at hspelled
      rw [← htext, List.append_assoc]
      exact hspelled
    · cases hparts
  · intro h
    cases h with
    | full fields eight =>
        rename_i parts groups
        have hplain := parts_of_groups fields
        refine ⟨parts, groups, ?_, fields, rfl⟩
        simp only [eightGroups, splitCompression_single hplain, groupsOf_intercalate hplain]
        rw [if_pos (fields.length_eq.trans eight)]
    | compressed leading trailing fewer =>
        rename_i left right high low
        have hleft := parts_of_groups leading
        have hright := parts_of_groups trailing
        have hsplit :
            splitCompression ([58].intercalate left ++ 58 :: 58 :: [58].intercalate right) =
              [[58].intercalate left, [58].intercalate right] := by
          rw [splitCompression_intercalate hleft, splitCompression_double,
            splitCompression_single hright]
          simp
        refine ⟨left ++ List.replicate (8 - left.length - right.length) [48] ++ right, _, ?_, ?_,
          rfl⟩
        · simp only [eightGroups, hsplit, groupsOf_intercalate hleft, groupsOf_intercalate hright]
          rw [if_neg (by rw [leading.length_eq, trailing.length_eq]; omega)]
        · rw [leading.length_eq, trailing.length_eq]
          exact List.rel_append (List.rel_append leading (forall₂_zeros.mpr rfl)) trailing

/-! ## The dotted tail -/

/-- A text that is empty or ends with a colon. -/
def EndsOpen (front : Text) : Prop := front = [] ∨ ∃ base, front = base ++ [58]

theorem EndsOpen.colons {base : Text} {parts : List Text} (h : EndsOpen base) :
    EndsOpen (base ++ parts.flatMap (· ++ [58])) := by
  rcases List.eq_nil_or_concat parts with rfl | ⟨init, last, rfl⟩
  · simpa using h
  · exact .inr ⟨base ++ init.flatMap (· ++ [58]) ++ last, by simp⟩

theorem tail_of_endsOpen {front tail : Text} (hfront : EndsOpen front)
    (htail : (58 : UInt16) ∉ tail) :
    (front ++ tail).rtakeWhile (· ≠ 58) = tail ∧ (front ++ tail).rdropWhile (· ≠ 58) = front := by
  have hkept : ∀ unit ∈ tail.reverse, decide (unit ≠ 58) = true :=
    fun unit hmem => decide_eq_true fun heq => htail (heq ▸ List.mem_reverse.mp hmem)
  rw [List.rtakeWhile, List.rdropWhile, List.reverse_append, List.takeWhile_append_of_pos hkept,
    List.dropWhile_append_of_pos hkept]
  rcases hfront with rfl | ⟨base, rfl⟩
  · simp
  · simp

theorem tail_inj {front front' tail tail' : Text} (hfront : EndsOpen front)
    (hfront' : EndsOpen front') (htail : (58 : UInt16) ∉ tail) (htail' : (58 : UInt16) ∉ tail')
    (h : front ++ tail = front' ++ tail') : front = front' ∧ tail = tail' := by
  have hleft := tail_of_endsOpen hfront htail
  have hright := tail_of_endsOpen hfront' htail'
  rw [h] at hleft
  exact ⟨hleft.2.symm.trans hright.2, hleft.1.symm.trans hright.1⟩

theorem endsOpen_rdropWhile (text : Text) : EndsOpen (text.rdropWhile (· ≠ 58)) := by
  by_cases hempty : text.rdropWhile (· ≠ 58) = []
  · exact .inl hempty
  · have hlast := List.rdropWhile_last_not (p := (· ≠ 58)) text hempty
    refine .inr ⟨(text.rdropWhile (· ≠ 58)).dropLast, ?_⟩
    have hcolon : (text.rdropWhile (· ≠ 58)).getLast hempty = 58 := by simpa using hlast
    have happend := List.dropLast_append_getLast hempty
    rw [hcolon] at happend
    exact happend.symm

theorem dotted_groups {quad : Text} {q : ℕ} (h : IsDotted quad q) :
    (q >>> 16) &&& 0xffff = q / 65536 ∧ q &&& 0xffff = q % 65536 ∧
      IsGroup (hexText (q / 65536)) (q / 65536) ∧ IsGroup (hexText (q % 65536)) (q % 65536) := by
  have hlt := h.lt
  have hhigh : q / 65536 < 65536 := by omega
  have hmask : ∀ m : ℕ, m &&& 0xffff = m % 65536 := fun m => Nat.and_two_pow_sub_one_eq_mod m 16
  refine ⟨?_, hmask q, isGroup_hexText hhigh, isGroup_hexText (Nat.mod_lt _ (by norm_num))⟩
  rw [hmask, Nat.shiftRight_eq_div_pow]
  exact Nat.mod_eq_of_lt hhigh

theorem withoutDottedTail_of_dotted {front quad : Text} {q : ℕ} (hfront : EndsOpen front)
    (h : IsDotted quad q) :
    withoutDottedTail (front ++ quad) =
      some (front ++ hexText (q / 65536) ++ 58 :: hexText (q % 65536)) := by
  have hquad : (58 : UInt16) ∉ quad := fun hmem => by
    rcases h.unit 58 hmem with hdigit | hdot
    · exact absurd hdigit (by decide)
    · exact absurd hdot (by decide)
  obtain ⟨htail, hrest⟩ := tail_of_endsOpen hfront hquad
  obtain ⟨hhigh, hlow, -, -⟩ := dotted_groups h
  simp only [withoutDottedTail, htail, hrest, h.isDottedDigits, parseIpv4Address_eq_some.mpr h,
    if_true, Option.map_some, hhigh, hlow]

theorem withoutDottedTail_of_notMem {text : Text} (h : (46 : UInt16) ∉ text) :
    withoutDottedTail text = some text := by
  have htail : (46 : UInt16) ∉ text.rtakeWhile (· ≠ 58) := fun hmem =>
    h ((List.rtakeWhile_suffix _ text).subset hmem)
  have hplain : isDottedDigits (text.rtakeWhile (· ≠ 58)) = false := by
    rw [isDottedDigits, List.splitOn_eq_singleton htail]
    rfl
  rw [withoutDottedTail]
  simp only [hplain]
  rfl

/-! ## Addresses of version 6 -/

theorem fields_of_groups {parts : List Text} {groups : List ℕ}
    (h : List.Forall₂ IsGroup parts groups) : Fields parts groups := by
  induction h with
  | nil => exact .nil
  | cons hgroup rest ih => exact .group hgroup ih

theorem fields_concat {parts : List Text} {groups : List ℕ} {quad : Text} {q : ℕ}
    (h : List.Forall₂ IsGroup parts groups) (hquad : IsDotted quad q) :
    Fields (parts ++ [quad]) (groups ++ [q / 65536, q % 65536]) := by
  induction h with
  | nil => exact .dotted hquad
  | cons hgroup rest ih => exact .group hgroup ih

theorem Fields.cases {parts : List Text} {groups : List ℕ} (h : Fields parts groups) :
    List.Forall₂ IsGroup parts groups ∨
      ∃ front high quad q, List.Forall₂ IsGroup front high ∧ IsDotted quad q ∧
        parts = front ++ [quad] ∧ groups = high ++ [q / 65536, q % 65536] := by
  induction h with
  | nil => exact .inl .nil
  | @dotted quad q hquad => exact .inr ⟨[], [], quad, q, .nil, hquad, rfl, rfl⟩
  | @group part n parts groups hgroup rest ih =>
      rcases ih with hgroups | ⟨front, high, quad, q, hfront, hquad, rfl, rfl⟩
      · exact .inl (.cons hgroup hgroups)
      · exact .inr ⟨part :: front, n :: high, quad, q, .cons hgroup hfront, hquad, rfl, rfl⟩

/-- Texts that end alike with two groups: the last two parts are these groups. -/
theorem last_two {base front high low : Text} {parts : List Text}
    (hbase : base = [] ∨ ∃ text, base = text ++ [58, 58])
    (hparts : ∀ part ∈ parts, part ≠ [] ∧ (58 : UInt16) ∉ part) (hfront : EndsOpen front)
    (hhigh : high ≠ [] ∧ (58 : UInt16) ∉ high) (hlow : low ≠ [] ∧ (58 : UInt16) ∉ low)
    (h : base ++ [58].intercalate parts = front ++ high ++ 58 :: low) :
    ∃ init, parts = init ++ [high, low] ∧ front = base ++ init.flatMap (· ++ [58]) := by
  have hopen : EndsOpen base := by
    rcases hbase with rfl | ⟨text, rfl⟩
    · exact .inl rfl
    · exact .inr ⟨text ++ [58], by simp⟩
  have hright : EndsOpen (front ++ high ++ [58]) := .inr ⟨front ++ high, rfl⟩
  rw [List.append_cons] at h
  rcases List.eq_nil_or_concat' parts with rfl | ⟨others, last, rfl⟩
  · obtain ⟨-, hempty⟩ := tail_inj hopen hright List.not_mem_nil hlow.2 h
    exact absurd hempty.symm hlow.1
  · rw [intercalate_concat, ← List.append_assoc] at h
    have hlast := hparts last (by simp)
    obtain ⟨hfirst, rfl⟩ := tail_inj hopen.colons hright hlast.2 hlow.2 h
    rcases List.eq_nil_or_concat' others with rfl | ⟨init, next, rfl⟩
    · -- a double colon in front of the last group leaves no room for the other one
      rw [List.flatMap_nil, List.append_nil] at hfirst
      rcases hbase with rfl | ⟨text, rfl⟩
      · simp at hfirst
      · have hshort : text ++ [58] ++ [] = front ++ high :=
          (List.append_left_inj [58]).mp (by simpa using hfirst)
        obtain ⟨-, hempty⟩ := tail_inj (.inr ⟨text, rfl⟩) hfront List.not_mem_nil hhigh.2 hshort
        exact absurd hempty.symm hhigh.1
    · have hnext := hparts next (by simp)
      have hshort : base ++ init.flatMap (· ++ [58]) ++ next = front ++ high :=
        (List.append_left_inj [58]).mp (by simpa [List.flatMap_append] using hfirst)
      obtain ⟨hinit, rfl⟩ := tail_inj hopen.colons hfront hnext.2 hhigh.2 hshort
      exact ⟨init, by simp, hinit.symm⟩

/-- Where the last two groups are an address of version 4, it may stand for them. -/
theorem isLiteral6_of_plain {front quad : Text} {q n : ℕ} (hfront : EndsOpen front)
    (hquad : IsDotted quad q)
    (h : Spelled (List.Forall₂ IsGroup) (front ++ hexText (q / 65536) ++ 58 :: hexText (q % 65536))
      n) : IsLiteral6 (front ++ quad) n := by
  obtain ⟨-, -, hhigh, hlow⟩ := dotted_groups hquad
  have hgroups : ∀ {init : List Text} {groups : List ℕ},
      List.Forall₂ IsGroup (init ++ [hexText (q / 65536), hexText (q % 65536)]) groups →
        Fields (init ++ [quad]) groups := by
    intro init groups h
    obtain ⟨first, second, rfl, hfirst, hsecond⟩ := forall₂_append_left.mp h
    obtain ⟨a, _, ha, hrest, rfl⟩ := List.forall₂_cons_left_iff.mp hsecond
    obtain ⟨b, _, hb, hnil, rfl⟩ := List.forall₂_cons_left_iff.mp hrest
    obtain rfl := List.forall₂_nil_left_iff.mp hnil
    obtain rfl := Option.some.inj (ha.2.symm.trans hhigh.2)
    obtain rfl := Option.some.inj (hb.2.symm.trans hlow.2)
    exact fields_concat hfirst hquad
  generalize hplain : front ++ hexText (q / 65536) ++ 58 :: hexText (q % 65536) = plain at h
  cases h with
  | full fields eight =>
      rename_i parts groups
      obtain ⟨init, rfl, hinit⟩ := last_two (.inl rfl) (parts_of_groups fields) hfront
        ⟨hhigh.ne_nil, hhigh.notMem rfl⟩ ⟨hlow.ne_nil, hlow.notMem rfl⟩ hplain.symm
      have htext : front ++ quad = [58].intercalate (init ++ [quad]) := by
        rw [intercalate_concat, hinit, List.nil_append]
      rw [htext]
      exact .full (hgroups fields) eight
  | compressed leading trailing fewer =>
      rename_i left right high low
      have hsame : [58].intercalate left ++ [58, 58] ++ [58].intercalate right =
          front ++ hexText (q / 65536) ++ 58 :: hexText (q % 65536) := by
        rw [hplain]
        simp
      obtain ⟨init, rfl, hinit⟩ := last_two (.inr ⟨_, rfl⟩) (parts_of_groups trailing) hfront
        ⟨hhigh.ne_nil, hhigh.notMem rfl⟩ ⟨hlow.ne_nil, hlow.notMem rfl⟩ hsame
      have htext : front ++ quad =
          [58].intercalate left ++ 58 :: 58 :: [58].intercalate (init ++ [quad]) := by
        rw [intercalate_concat, hinit]
        simp
      rw [htext]
      exact .compressed leading (hgroups trailing) fewer

theorem spelled_notMem {text : Text} {n : ℕ} (h : Spelled (List.Forall₂ IsGroup) text n) :
    (46 : UInt16) ∉ text := by
  cases h with
  | full fields eight => exact notMem_dot_of_groups fields
  | compressed leading trailing fewer =>
      simp [notMem_dot_of_groups leading, notMem_dot_of_groups trailing]

/-- The notation says the same of the text where the dotted tail is written as two
groups. -/
theorem isLiteral6_iff {text : Text} {n : ℕ} :
    IsLiteral6 text n ↔ ∃ plain, withoutDottedTail text = some plain ∧
      Spelled (List.Forall₂ IsGroup) plain n := by
  constructor
  · -- the parts behind `base` end with a dotted address or hold groups only
    have hparts : ∀ {base : Text} {parts : List Text} {groups : List ℕ}, EndsOpen base →
        (46 : UInt16) ∉ base → Fields parts groups → ∃ parts', List.Forall₂ IsGroup parts' groups ∧
          withoutDottedTail (base ++ [58].intercalate parts) =
            some (base ++ [58].intercalate parts') := by
      intro base parts groups hopen hbase hfields
      rcases hfields.cases with hgroups | ⟨front, high, quad, q, hfront, hquad, rfl, rfl⟩
      · refine ⟨parts, hgroups, withoutDottedTail_of_notMem ?_⟩
        rw [List.mem_append, not_or]
        exact ⟨hbase, notMem_dot_of_groups hgroups⟩
      · obtain ⟨-, -, hhigh, hlow⟩ := dotted_groups hquad
        refine ⟨front ++ [hexText (q / 65536), hexText (q % 65536)],
          List.rel_append hfront (.cons hhigh (.cons hlow .nil)), ?_⟩
        rw [intercalate_concat, ← List.append_assoc, withoutDottedTail_of_dotted hopen.colons hquad,
          List.append_cons front, intercalate_concat]
        simp [List.flatMap_append]
    intro h
    cases h with
    | full fields eight =>
        obtain ⟨parts', hgroups, htail⟩ := hparts (.inl rfl) List.not_mem_nil fields
        exact ⟨_, htail, .full hgroups eight⟩
    | compressed leading trailing fewer =>
        rename_i left right high low
        have hopen : EndsOpen ([58].intercalate left ++ [58, 58]) :=
          .inr ⟨[58].intercalate left ++ [58], by simp⟩
        have hbase : (46 : UInt16) ∉ [58].intercalate left ++ [58, 58] := by
          rw [List.mem_append, not_or]
          exact ⟨notMem_dot_of_groups leading, by decide⟩
        obtain ⟨parts', hgroups, htail⟩ := hparts hopen hbase trailing
        refine ⟨[58].intercalate left ++ 58 :: 58 :: [58].intercalate parts', ?_,
          .compressed leading hgroups fewer⟩
        simpa using htail
  · rintro ⟨plain, htail, hspelled⟩
    have htext := List.rdropWhile_append_rtakeWhile (p := (· ≠ 58)) (l := text)
    have hopen := endsOpen_rdropWhile text
    unfold withoutDottedTail at htail
    simp only at htail
    split_ifs at htail with hdigits
    · obtain ⟨q, hparsed, hplain⟩ := Option.map_eq_some_iff.mp htail
      have hquad := parseIpv4Address_eq_some.mp hparsed
      obtain ⟨hhigh, hlow, -, -⟩ := dotted_groups hquad
      rw [hhigh, hlow] at hplain
      rw [← hplain] at hspelled
      rw [← htext]
      exact isLiteral6_of_plain hopen hquad hspelled
    · obtain rfl := Option.some.inj htail
      cases hspelled with
      | full fields eight => exact .full (fields_of_groups fields) eight
      | compressed leading trailing fewer =>
          exact .compressed leading (fields_of_groups trailing) fewer

theorem IsLiteral6.colon {text : Text} {n : ℕ} (h : IsLiteral6 text n) : (58 : UInt16) ∈ text := by
  cases h with
  | full fields eight =>
      rename_i parts groups
      have hlength : groups.length ≤ parts.length + 1 := by
        rcases fields.cases with hgroups | ⟨front, high, quad, q, hfront, -, rfl, rfl⟩
        · rw [hgroups.length_eq]
          exact Nat.le_succ _
        · simp [hfront.length_eq]
      obtain ⟨first, rest, rfl⟩ : ∃ first rest, parts = first :: rest :=
        List.exists_cons_of_length_pos (by omega)
      obtain ⟨second, others, rfl⟩ : ∃ second others, rest = second :: others :=
        List.exists_cons_of_length_pos (by rw [List.length_cons] at hlength; omega)
      rw [List.intercalate_cons_cons]
      simp
  | compressed leading trailing fewer => simp

/-! ## Special addresses -/

/-- The first and the last addresses of the ranges of version 4 that are not routed
globally. -/
def specialBlocks4 : List (ℕ × ℕ) :=
  [(bigEndian 256 [0, 0, 0, 0], bigEndian 256 [0, 255, 255, 255]),
    (bigEndian 256 [10, 0, 0, 0], bigEndian 256 [10, 255, 255, 255]),
    (bigEndian 256 [100, 64, 0, 0], bigEndian 256 [100, 127, 255, 255]),
    (bigEndian 256 [127, 0, 0, 0], bigEndian 256 [127, 255, 255, 255]),
    (bigEndian 256 [169, 254, 0, 0], bigEndian 256 [169, 254, 255, 255]),
    (bigEndian 256 [172, 16, 0, 0], bigEndian 256 [172, 31, 255, 255]),
    (bigEndian 256 [192, 0, 0, 0], bigEndian 256 [192, 0, 0, 255]),
    (bigEndian 256 [192, 0, 2, 0], bigEndian 256 [192, 0, 2, 255]),
    (bigEndian 256 [192, 88, 99, 0], bigEndian 256 [192, 88, 99, 255]),
    (bigEndian 256 [192, 168, 0, 0], bigEndian 256 [192, 168, 255, 255]),
    (bigEndian 256 [198, 18, 0, 0], bigEndian 256 [198, 19, 255, 255]),
    (bigEndian 256 [198, 51, 100, 0], bigEndian 256 [198, 51, 100, 255]),
    (bigEndian 256 [203, 0, 113, 0], bigEndian 256 [203, 0, 113, 255]),
    (bigEndian 256 [224, 0, 0, 0], bigEndian 256 [239, 255, 255, 255]),
    (bigEndian 256 [240, 0, 0, 0], bigEndian 256 [255, 255, 255, 255])]

/-- The groups of the last address whose first groups are given. -/
def lastOf (high : List ℕ) : ℕ := bigEndian 65536 (high ++ List.replicate (8 - high.length) 0xffff)

/-- The groups of the first address whose first groups are given. -/
def firstOf (high : List ℕ) : ℕ := bigEndian 65536 (high ++ List.replicate (8 - high.length) 0)

/-- The same of version 6, among the addresses of global unicast. -/
def specialBlocks6 : List (ℕ × ℕ) :=
  [(firstOf [0x2001], lastOf [0x2001, 0x1ff]), (firstOf [0x2001, 0xdb8], lastOf [0x2001, 0xdb8]),
    (firstOf [0x2002], lastOf [0x2002]), (firstOf [0x3fff], lastOf [0x3fff, 0xfff])]

def IsSpecial4 (n : ℕ) : Prop := ∃ block ∈ specialBlocks4, block.1 ≤ n ∧ n ≤ block.2

/-- The address is not routed globally. One of version 6 that carries an address of
version 4 is judged as that one. -/
def IsSpecial : IpFamily × ℕ → Prop
  | (.v4, n) => IsSpecial4 n
  | (.v6, n) =>
      if n / 2 ^ 32 = 0xffff then IsSpecial4 (n % 2 ^ 32)
      else n < firstOf [0x2000] ∨ lastOf [0x3fff] < n ∨
        ∃ block ∈ specialBlocks6, block.1 ≤ n ∧ n ≤ block.2

theorem shiftRight_eq_iff {n network s : ℕ} (h : 2 ^ s ∣ network) :
    n >>> s = network >>> s ↔ network ≤ n ∧ n ≤ network + (2 ^ s - 1) := by
  have hpos : 0 < 2 ^ s := Nat.two_pow_pos s
  obtain ⟨k, rfl⟩ := h
  rw [Nat.shiftRight_eq_div_pow, Nat.shiftRight_eq_div_pow, Nat.mul_div_cancel_left _ hpos,
    Nat.div_eq_iff hpos, Nat.mul_comm]
  omega

theorem and_mask {n p : ℕ} (hn : n < 2 ^ 32) (hp : p ≤ 32) :
    n &&& ((0xffffffff <<< (32 - p)) % 2 ^ 32) = (n >>> (32 - p)) <<< (32 - p) := by
  have hones : (0xffffffff : ℕ) = 2 ^ 32 - 1 := by norm_num
  apply Nat.eq_of_testBit_eq
  intro i
  rw [hones, Nat.testBit_and, Nat.testBit_mod_two_pow, Nat.testBit_shiftLeft,
    Nat.testBit_two_pow_sub_one, Nat.testBit_shiftLeft, Nat.testBit_shiftRight]
  by_cases hi : i < 32
  · by_cases hlow : 32 - p ≤ i
    · have hsame : 32 - p + (i - (32 - p)) = i := by omega
      have hinner : i - (32 - p) < 32 := by omega
      simp [hi, hlow, hsame, hinner]
    · simp [hlow]
  · have hbit : n.testBit i = false :=
      Nat.testBit_lt_two_pow (lt_of_lt_of_le hn (Nat.pow_le_pow_right (by norm_num) (by omega)))
    have hsame : 32 - p + (i - (32 - p)) = i := by omega
    simp [hbit, hsame]

theorem isIpv4InRange_iff {n : ℕ} {range : ℕ × ℕ} (hn : n < 2 ^ 32) (hrange : range.1 < 2 ^ 32)
    (hp : 0 < range.2 ∧ range.2 ≤ 32) (haligned : 2 ^ (32 - range.2) ∣ range.1) :
    isIpv4InRange n range = true ↔ range.1 ≤ n ∧ n ≤ range.1 + (2 ^ (32 - range.2) - 1) := by
  rw [← shiftRight_eq_iff haligned, isIpv4InRange, decide_eq_true_iff]
  simp only [if_neg (Nat.ne_of_gt hp.1), and_mask hn hp.2, and_mask hrange hp.2]
  constructor
  · intro h
    rw [Nat.shiftLeft_eq, Nat.shiftLeft_eq] at h
    exact Nat.eq_of_mul_eq_mul_right (Nat.two_pow_pos _) h
  · exact fun h => by rw [h]

/-- The first and the last address of a network. -/
def blockOf (width : ℕ) (range : ℕ × ℕ) : ℕ × ℕ :=
  (range.1, range.1 + (2 ^ (width - range.2) - 1))

theorem isPublicIpv4_iff {n : ℕ} (hn : n < 2 ^ 32) : isPublicIpv4 n = false ↔ IsSpecial4 n := by
  have hblocks : specialBlocks4 = nonPublicIpv4Ranges.map (blockOf 32) := by decide +kernel
  have hranges : ∀ range ∈ nonPublicIpv4Ranges, range.1 < 2 ^ 32 ∧ (0 < range.2 ∧ range.2 ≤ 32) ∧
      2 ^ (32 - range.2) ∣ range.1 := by decide +kernel
  rw [isPublicIpv4, Bool.not_eq_false', List.any_eq_true, IsSpecial4, hblocks]
  simp only [List.mem_map]
  constructor
  · rintro ⟨range, hmem, hin⟩
    obtain ⟨hlt, hp, haligned⟩ := hranges range hmem
    exact ⟨_, ⟨range, hmem, rfl⟩, (isIpv4InRange_iff hn hlt hp haligned).mp hin⟩
  · rintro ⟨_, ⟨range, hmem, rfl⟩, hin⟩
    obtain ⟨hlt, hp, haligned⟩ := hranges range hmem
    exact ⟨range, hmem, (isIpv4InRange_iff hn hlt hp haligned).mpr hin⟩

theorem isPublicIpv6_iff {n : ℕ} : isPublicIpv6 n = false ↔ IsSpecial (.v6, n) := by
  have hblocks : specialBlocks6 = nonPublicIpv6Ranges.map (blockOf 128) := by decide +kernel
  have hranges : ∀ range ∈ nonPublicIpv6Ranges, 2 ^ (128 - range.2) ∣ range.1 := by decide +kernel
  have hunicast : blockOf 128 (0x20000000000000000000000000000000, 3) =
      (firstOf [0x2000], lastOf [0x3fff]) := by decide +kernel
  have haligned : 2 ^ (128 - 3) ∣ 0x20000000000000000000000000000000 := by decide +kernel
  have hinside : isIpv6InRange n 0x20000000000000000000000000000000 3 = true ↔
      firstOf [0x2000] ≤ n ∧ n ≤ lastOf [0x3fff] := by
    rw [isIpv6InRange, decide_eq_true_iff, shiftRight_eq_iff haligned]
    exact Iff.of_eq (congrArg (fun block : ℕ × ℕ => block.1 ≤ n ∧ n ≤ block.2) hunicast)
  have hlisted : (nonPublicIpv6Ranges.any fun range => isIpv6InRange n range.1 range.2) = true ↔
      ∃ block ∈ specialBlocks6, block.1 ≤ n ∧ n ≤ block.2 := by
    rw [List.any_eq_true, hblocks]
    simp only [List.mem_map]
    constructor
    · rintro ⟨range, hmem, hin⟩
      exact ⟨_, ⟨range, hmem, rfl⟩,
        (shiftRight_eq_iff (hranges range hmem)).mp (of_decide_eq_true hin)⟩
    · rintro ⟨_, ⟨range, hmem, rfl⟩, hin⟩
      exact ⟨range, hmem, decide_eq_true ((shiftRight_eq_iff (hranges range hmem)).mpr hin)⟩
  have hmask : n &&& 0xffffffff = n % 2 ^ 32 := Nat.and_two_pow_sub_one_eq_mod n 32
  rw [isPublicIpv6, IsSpecial, Nat.shiftRight_eq_div_pow]
  split_ifs with hmapped hoff
  · rw [hmask]
    exact isPublicIpv4_iff (Nat.mod_lt _ (by norm_num))
  · rw [Bool.not_eq_true', ← Bool.not_eq_true, hinside] at hoff
    simp only [true_iff]
    omega
  · rw [Bool.not_eq_true, Bool.not_eq_false', hinside] at hoff
    rw [Bool.not_eq_false', hlisted]
    constructor
    · exact fun h => .inr (.inr h)
    · rintro (h | h | h)
      · omega
      · omega
      · exact h

/-! ## Main result -/

section Hosts

variable [CaseMapping]

/-- What a host in lower case stands for, where it is an address; what follows a
percent sign is a zone. -/
inductive Names (host : Text) : IpFamily × ℕ → Prop where
  | v4 {n : ℕ} (h : IsDotted host n) : Names host (.v4, n)
  | v6 {n : ℕ} (h : IsLiteral6 ((CaseMapping.toLowerCase host).takeWhile (· ≠ 37)) n) :
      Names host (.v6, n)

theorem parseIpv6Address_eq_some {host : Text} {n : ℕ} :
    parseIpv6Address host = some n ↔
      IsLiteral6 ((CaseMapping.toLowerCase host).takeWhile (· ≠ 37)) n := by
  rw [parseIpv6Address, Option.bind_eq_some_iff, isLiteral6_iff]
  exact exists_congr fun plain => and_congr_right fun _ => groupsNumber_iff

theorem parseIpv6Address_of_dotted [LawfulCaseMapping] {host : Text} {n : ℕ}
    (h : IsDotted host n) : parseIpv6Address host = none := by
  have hunits : ∀ unit ∈ host, unit < 128 ∧ asciiLower unit = unit ∧ unit ≠ 58 := by
    intro unit hmem
    rcases h.unit unit hmem with hdigit | rfl
    · simp only [isDigit, Bool.and_eq_true, decide_eq_true_eq, UInt16.le_iff_toNat_le] at hdigit
      have h57 : (57 : UInt16).toNat = 57 := rfl
      refine ⟨?_, ?_, ?_⟩
      · rw [UInt16.lt_iff_toNat_lt]
        have h128 : (128 : UInt16).toNat = 128 := rfl
        omega
      · rw [← UInt16.toNat_inj, toNat_asciiLower, if_neg (by omega)]
      · rintro rfl
        exact absurd hdigit.2 (by decide)
    · decide
  have hlower : CaseMapping.toLowerCase host = host := by
    rw [LawfulCaseMapping.ascii host fun unit hmem => (hunits unit hmem).1]
    exact (List.map_congr_left fun unit hmem => (hunits unit hmem).2.1).trans (List.map_id _)
  rw [Option.eq_none_iff_forall_ne_some]
  intro m hm
  have hcolon := (parseIpv6Address_eq_some.mp hm).colon
  rw [hlower] at hcolon
  exact (hunits 58 ((List.takeWhile_sublist _).subset hcolon)).2.2 rfl

theorem Names.eq [LawfulCaseMapping] {host : Text} {address other : IpFamily × ℕ}
    (h : Names host address) (h' : Names host other) : address = other := by
  cases h with
  | v4 h =>
      cases h' with
      | v4 h' =>
          rw [← parseIpv4Address_eq_some] at h h'
          rw [Option.some.inj (h.symm.trans h')]
      | v6 h' =>
          rw [← parseIpv6Address_eq_some, parseIpv6Address_of_dotted h] at h'
          cases h'
  | v6 h =>
      rw [← parseIpv6Address_eq_some] at h
      cases h' with
      | v4 h' =>
          rw [parseIpv6Address_of_dotted h'] at h
          cases h
      | v6 h' =>
          rw [← parseIpv6Address_eq_some] at h'
          rw [Option.some.inj (h.symm.trans h')]

theorem isPrivateHost_eq_true [LawfulCaseMapping] {hostname : Text} :
    isPrivateHost hostname = true ↔
      CaseMapping.toLowerCase (withoutBrackets hostname) = ("localhost" : Text) ∨
        ∃ address, Names (CaseMapping.toLowerCase (withoutBrackets hostname)) address ∧
          IsSpecial address := by
  unfold isPrivateHost
  generalize CaseMapping.toLowerCase (withoutBrackets hostname) = host
  by_cases hlocal : host = ("localhost" : Text)
  · simp [hlocal]
  · rw [if_neg hlocal, or_iff_right hlocal]
    cases hfour : parseIpv4Address host with
    | some n =>
        have hdotted := parseIpv4Address_eq_some.mp hfour
        simp only [Bool.not_eq_true', isPublicIpv4_iff hdotted.lt]
        constructor
        · exact fun h => ⟨_, .v4 hdotted, h⟩
        · rintro ⟨address, hnames, hspecial⟩
          rwa [hnames.eq (.v4 hdotted)] at hspecial
    | none =>
        cases hsix : parseIpv6Address host with
        | some n =>
            have hliteral := parseIpv6Address_eq_some.mp hsix
            simp only [Bool.not_eq_true', isPublicIpv6_iff]
            constructor
            · exact fun h => ⟨_, .v6 hliteral, h⟩
            · rintro ⟨address, hnames, hspecial⟩
              rwa [hnames.eq (.v6 hliteral)] at hspecial
        | none =>
            simp only [Bool.false_eq_true, false_iff, not_exists, not_and]
            intro address hnames
            cases hnames with
            | v4 h =>
                rw [← parseIpv4Address_eq_some, hfour] at h
                cases h
            | v6 h =>
                rw [← parseIpv6Address_eq_some, hsix] at h
                cases h

omit [CaseMapping] in
theorem ipv4Integer_of_dotted [IpSyntax] {quad : Text} {q : ℕ} (h : IsDotted quad q)
    (hrecognized : IpSyntax.isIP quad = 4) : ipv4Integer quad = some q := by
  obtain ⟨a, b, c, d, ⟨ha, hb, hc, hd⟩, rfl, -, rfl⟩ := h.cases
  have hoctets : ∀ part ∈ [a, b, c, d], isDecimal part = true ∧ decimalValue part < 256 := by
    simp only [List.forall_mem_cons]
    exact ⟨⟨ha.decimal, ha.octet⟩, ⟨hb.decimal, hb.octet⟩, ⟨hc.decimal, hc.octet⟩,
      ⟨hd.decimal, hd.octet⟩, by simp⟩
  rw [ipv4Integer_dotted hoctets hrecognized]
  simp [bigEndian]

omit [CaseMapping] in
theorem ipv6Parts_of_eightGroups {text : Text} {parts : List Text}
    (h : eightGroups text = some parts) : ipv6Parts text = some parts ∧ parts.length = 8 := by
  have hzero : ("0" : Text) = [48] := by decide
  rcases hsplit : splitCompression text with _ | ⟨left, _ | ⟨right, _ | ⟨third, others⟩⟩⟩
  · exact absurd h (by simp [eightGroups, hsplit])
  · simp only [eightGroups, hsplit] at h
    split_ifs at h with height
    obtain rfl := Option.some.inj h
    simp only [ipv6Parts, hsplit]
    exact ⟨rfl, height⟩
  · simp only [eightGroups, hsplit] at h
    split_ifs at h with hmany
    obtain rfl := Option.some.inj h
    simp only [ipv6Parts, hsplit, hzero]
    refine ⟨rfl, ?_⟩
    simp only [List.length_append, List.length_replicate]
    omega
  · exact absurd h (by simp [eightGroups, hsplit])

/-- The doctor of a provider reads an address of version 6 as the checker does, where
the platform takes the text and its dotted tail for addresses. -/
theorem ipv6Integer_of_literal [IpSyntax] {text : Text} {n : ℕ}
    (hdotted : ∀ quad q, IsDotted quad q → IpSyntax.isIP quad = 4)
    (hrecognized : IpSyntax.isIP text = 6) (hzone : (37 : UInt16) ∉ text)
    (h : IsLiteral6 (CaseMapping.toLowerCase text) n) : ipv6Integer text = some n := by
  obtain ⟨plain, htail, hspelled⟩ := isLiteral6_iff.mp h
  have hcolon := h.colon
  obtain ⟨parts, groups, hparts, hgroups, rfl⟩ :=
    groupsNumber_eq_some.mp (groupsNumber_iff.mpr hspelled)
  obtain ⟨hsame, height⟩ := ipv6Parts_of_eightGroups hparts
  unfold ipv6Integer
  rw [if_neg (by simp [hzone, hrecognized])]
  generalize CaseMapping.toLowerCase text = normalized at h htail hcolon
  have hsplit : splitAtLast 58 normalized = ((normalized.rdropWhile (· ≠ 58)).dropLast,
      some (normalized.rtakeWhile (· ≠ 58))) := if_pos hcolon
  have hdots : normalized.rtakeWhile (· ≠ 58) <:+ normalized := List.rtakeWhile_suffix _ _
  have hfront : (normalized.rdropWhile (· ≠ 58)).dropLast ++ [58] =
      normalized.rdropWhile (· ≠ 58) := by
    rcases endsOpen_rdropWhile normalized with hempty | ⟨base, hbase⟩
    · have hall := List.rdropWhile_eq_nil_iff.mp hempty 58 hcolon
      simp at hall
    · rw [hbase, List.dropLast_concat]
  have hwritten : (if 46 ∈ normalized.rtakeWhile (· ≠ 58) then
        (ipv4Integer (normalized.rtakeWhile (· ≠ 58))).map fun ipv4 =>
          (normalized.rdropWhile (· ≠ 58)).dropLast ++ ":" ++ hexText ((ipv4 >>> 16) &&& 0xffff) ++
            ":" ++ hexText (ipv4 &&& 0xffff)
      else some normalized) = some plain := by
    have hmark : (":" : Text) = [58] := by decide
    unfold withoutDottedTail at htail
    simp only at htail
    split_ifs at htail with hdigits
    · obtain ⟨q, hparsed, rfl⟩ := Option.map_eq_some_iff.mp htail
      have hquad := parseIpv4Address_eq_some.mp hparsed
      have hdot : (46 : UInt16) ∈ normalized.rtakeWhile (· ≠ 58) := by
        by_contra hnone
        rw [isDottedDigits, List.splitOn_eq_singleton hnone] at hdigits
        simp at hdigits
      rw [if_pos hdot, ipv4Integer_of_dotted hquad (hdotted _ _ hquad), Option.map_some, hmark,
        hfront, List.append_assoc _ [58], List.singleton_append]
    · obtain rfl := Option.some.inj htail
      rw [if_neg fun hdot => ?_]
      exact spelled_notMem hspelled (hdots.subset hdot)
  have hread : ((ipv6Parts plain).bind fun parts => if parts.length ≠ 8 then none
      else parts.foldlM (fun value part => (hexValue part).map ((value <<< 16) ||| ·)) 0) =
        some (bigEndian 65536 groups) := by
    rw [hsame, Option.bind_some, if_neg (not_not.mpr height)]
    exact foldlM_groups hgroups 0
  simp only [hsplit, Option.getD_some]
  by_cases hdot : 46 ∈ normalized.rtakeWhile (· ≠ 58)
  · rw [if_pos hdot] at hwritten ⊢
    rw [hwritten]
    exact hread
  · rw [if_neg hdot] at hwritten ⊢
    obtain rfl := Option.some.inj hwritten
    exact hread

/-- A host is judged by the address it stands for, however that is written: it is
refused when it is `localhost` or stands for an address that is not routed globally,
and in no other case. A host stands for one address at most, and the doctor of a
provider reads those of version 6 as the same numbers. -/
theorem isPrivateHost_byAddress [LawfulCaseMapping] (hostname : Text) :
    (isPrivateHost hostname = true ↔
      CaseMapping.toLowerCase (withoutBrackets hostname) = ("localhost" : Text) ∨
        ∃ address, Names (CaseMapping.toLowerCase (withoutBrackets hostname)) address ∧
          IsSpecial address) ∧
    (∀ address other, Names (CaseMapping.toLowerCase (withoutBrackets hostname)) address →
      Names (CaseMapping.toLowerCase (withoutBrackets hostname)) other → address = other) ∧
    ∀ [IpSyntax], (∀ quad q, IsDotted quad q → IpSyntax.isIP quad = 4) →
      ∀ text n, IpSyntax.isIP text = 6 → (37 : UInt16) ∉ text →
        IsLiteral6 (CaseMapping.toLowerCase text) n → ipv6Integer text = some n :=
  ⟨isPrivateHost_eq_true, fun _ _ => Names.eq, fun hdotted _ _ => ipv6Integer_of_literal hdotted⟩

end Hosts

/-- The address of a metadata service, carried by one of version 6. -/
theorem isPrivateHost_byAddress_mapped :
    @isPrivateHost asciiCaseMapping "[::FFFF:169.254.169.254]" = true := by
  let := asciiCaseMapping
  have := lawful_asciiCaseMapping
  refine (isPrivateHost_byAddress "[::FFFF:169.254.169.254]").1.mpr
    (.inr ⟨(.v6, 0xffffa9fea9fe), .v6 ?_, ?_⟩)
  · exact parseIpv6Address_eq_some.mp (by decide +kernel)
  · rw [IsSpecial, if_pos (by norm_num)]
    exact ⟨(bigEndian 256 [169, 254, 0, 0], bigEndian 256 [169, 254, 255, 255]), by decide +kernel,
      by decide +kernel⟩

end ListmonkOps.Network
