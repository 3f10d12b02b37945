/-
Bytes in groups of six bits.

Three bytes make four sextets. A last group of one or two bytes makes two or
three sextets, whose unused bits are zero when they are written and ignored when
they are read; that is the only way in which reading forgets something.
-/

import Mathlib.Data.List.Basic

namespace ListmonkOps.Math.Base64

/-! ## Writing and reading -/

def sextets : List UInt8 → List ℕ
  | [] => []
  | [a] => [a.toNat / 4, a.toNat % 4 * 16]
  | [a, b] => [a.toNat / 4, a.toNat % 4 * 16 + b.toNat / 16, b.toNat % 16 * 4]
  | a :: b :: c :: rest =>
      a.toNat / 4 :: (a.toNat % 4 * 16 + b.toNat / 16) :: (b.toNat % 16 * 4 + c.toNat / 64) ::
        c.toNat % 64 :: sextets rest

/-- The bytes of a sequence of sextets; bits that fill no byte are dropped. -/
def octets : List ℕ → List UInt8
  | [] => []
  | [_] => []
  | [a, b] => [UInt8.ofNat (a * 4 + b / 16)]
  | [a, b, c] => [UInt8.ofNat (a * 4 + b / 16), UInt8.ofNat (b % 16 * 16 + c / 4)]
  | a :: b :: c :: d :: rest =>
      UInt8.ofNat (a * 4 + b / 16) :: UInt8.ofNat (b % 16 * 16 + c / 4) ::
        UInt8.ofNat (c % 4 * 64 + d) :: octets rest

/-- The bits of the last sextet that fill no byte. -/
def unusedBits : List ℕ → ℕ
  | [] => 0
  | [_] => 0
  | [_, b] => b % 16
  | [_, _, c] => c % 4
  | _ :: _ :: _ :: _ :: rest => unusedBits rest

theorem toNat_ofNat_of_lt {n : ℕ} (h : n < 256) : (UInt8.ofNat n).toNat = n := by
  simp only [UInt8.toNat_ofNat']
  omega

theorem ofNat_eq_of_toNat_eq {n : ℕ} {byte : UInt8} (h : n = byte.toNat) :
    UInt8.ofNat n = byte := by
  rw [h, UInt8.ofNat_toNat]

theorem octets_sextets (bytes : List UInt8) : octets (sextets bytes) = bytes := by
  induction bytes using sextets.induct with
  | case1 => rfl
  | case2 a =>
      have ha := a.toNat_lt
      simp only [sextets, octets, List.cons.injEq, and_true]
      exact ofNat_eq_of_toNat_eq (by omega)
  | case3 a b =>
      have ha := a.toNat_lt
      have hb := b.toNat_lt
      simp only [sextets, octets, List.cons.injEq, and_true]
      exact ⟨ofNat_eq_of_toNat_eq (by omega), ofNat_eq_of_toNat_eq (by omega)⟩
  | case4 a b c rest ih =>
      have ha := a.toNat_lt
      have hb := b.toNat_lt
      have hc := c.toNat_lt
      simp only [sextets, octets, List.cons.injEq, ih, and_true]
      exact ⟨ofNat_eq_of_toNat_eq (by omega), ofNat_eq_of_toNat_eq (by omega),
        ofNat_eq_of_toNat_eq (by omega)⟩

theorem sextets_octets {values : List ℕ} (hsmall : ∀ value ∈ values, value < 64)
    (hlength : values.length % 4 ≠ 1) (hunused : unusedBits values = 0) :
    sextets (octets values) = values := by
  induction values using octets.induct with
  | case1 => rfl
  | case2 a => simp at hlength
  | case3 a b =>
      simp only [List.mem_cons, List.not_mem_nil, or_false, forall_eq_or_imp, forall_eq]
        at hsmall
      simp only [unusedBits] at hunused
      simp only [octets, sextets, toNat_ofNat_of_lt (show a * 4 + b / 16 < 256 by omega),
        List.cons.injEq, and_true]
      omega
  | case4 a b c =>
      simp only [List.mem_cons, List.not_mem_nil, or_false, forall_eq_or_imp, forall_eq]
        at hsmall
      simp only [unusedBits] at hunused
      simp only [octets, sextets, toNat_ofNat_of_lt (show a * 4 + b / 16 < 256 by omega),
        toNat_ofNat_of_lt (show b % 16 * 16 + c / 4 < 256 by omega), List.cons.injEq, and_true]
      omega
  | case5 a b c d rest ih =>
      simp only [List.mem_cons, forall_eq_or_imp] at hsmall
      obtain ⟨ha, hb, hc, hd, hrest⟩ := hsmall
      simp only [unusedBits] at hunused
      simp only [List.length_cons] at hlength
      simp only [octets, sextets, toNat_ofNat_of_lt (show a * 4 + b / 16 < 256 by omega),
        toNat_ofNat_of_lt (show b % 16 * 16 + c / 4 < 256 by omega),
        toNat_ofNat_of_lt (show c % 4 * 64 + d < 256 by omega),
        ih hrest (by omega) hunused, List.cons.injEq, and_true]
      omega

/-! ## Lengths -/

theorem length_sextets (bytes : List UInt8) :
    (sextets bytes).length = (bytes.length * 4 + 2) / 3 := by
  induction bytes using sextets.induct with
  | case1 => rfl
  | case2 a => simp [sextets]
  | case3 a b => simp [sextets]
  | case4 a b c rest ih =>
      simp only [sextets, List.length_cons, ih]
      omega

/-! ## What is written -/

theorem sextets_lt {bytes : List UInt8} : ∀ value ∈ sextets bytes, value < 64 := by
  induction bytes using sextets.induct with
  | case1 => simp [sextets]
  | case2 a =>
      have ha := a.toNat_lt
      simp only [sextets, List.mem_cons, List.not_mem_nil, or_false, forall_eq_or_imp, forall_eq]
      omega
  | case3 a b =>
      have ha := a.toNat_lt
      have hb := b.toNat_lt
      simp only [sextets, List.mem_cons, List.not_mem_nil, or_false, forall_eq_or_imp, forall_eq]
      omega
  | case4 a b c rest ih =>
      have ha := a.toNat_lt
      have hb := b.toNat_lt
      have hc := c.toNat_lt
      simp only [sextets, List.mem_cons, forall_eq_or_imp]
      exact ⟨by omega, by omega, by omega, by omega, ih⟩

end ListmonkOps.Math.Base64
