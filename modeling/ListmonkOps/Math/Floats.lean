/-
Double-precision numbers.

What is used of them: a sum does not depend on the order of its two terms, nor a distance
on the order of its two ends, and two numbers that can be compared are equal or one of them is
the smaller one. Sums of three are not that regular, unless the first of them is zero.
-/

import Mathlib

namespace ListmonkOps.Math.Floats

open Float.Model Float.Model.UnpackedFloat

/-! ## Packing -/

theorem pack_unpack (v : Float.Model) : Float.Model.pack v.unpack = v := by
  obtain ⟨bits, valid⟩ := v
  simp only [Float.Model.pack, Float.Model.unpack, pack_unpack_of_valid valid,
    UInt64.ofBitVec_toBitVec]

/-! ## Sums -/

theorem unpacked_add_comm (spec : Format) (x y : UnpackedFloat) :
    UnpackedFloat.add spec x y = UnpackedFloat.add spec y x := by
  cases x with
  | notANumber => cases y <;> rfl
  | infinity sign =>
      cases y with
      | infinity other => cases sign <;> cases other <;> rfl
      | _ => rfl
  | zero sign =>
      cases y with
      | zero other => cases sign <;> cases other <;> rfl
      | _ => rfl
  | finite sign mantissa exponent hpos =>
      cases y with
      | finite other mantissa' exponent' hpos' =>
          simp only [UnpackedFloat.add]
          rw [Int.add_comm, Int.min_comm]
      | _ => rfl

theorem add_comm (a b : Float) : a + b = b + a :=
  congrArg (fun x => Float.ofModel (Float.Model.pack x)) (unpacked_add_comm _ _ _)

def zero (sign : Sign) : Float := .ofModel (.pack (.zero sign))

theorem eq_zero {a : Float} {sign : Sign} (h : a.toModel.unpack = .zero sign) : a = zero sign := by
  rw [zero, ← h, pack_unpack]

/-- A zero adds nothing, but to the negative one. -/
theorem zero_add {a : Float} (sign : Sign) (h : a ≠ zero .negative) : zero sign + a = a := by
  have hadd : UnpackedFloat.add .binary64 (.zero sign) a.toModel.unpack = a.toModel.unpack := by
    cases hunpacked : a.toModel.unpack with
    | zero other =>
        cases other with
        | negative => exact absurd (eq_zero hunpacked) h
        | positive => cases sign <;> rfl
    | _ => rfl
  have hzero : (zero sign).toModel.unpack = .zero sign := by cases sign <;> rfl
  change Float.ofModel (Float.Model.pack (UnpackedFloat.add _ (zero sign).toModel.unpack _)) = a
  rw [hzero, hadd, pack_unpack]

theorem lt_iff {a b : Float} :
    a < b ↔ a.toModel.unpack.compare b.toModel.unpack = some .lt := by
  change decide ((_ == some Ordering.lt) = true) = true ↔ _
  rw [decide_eq_true_eq, beq_iff_eq]

theorem compare_swap (x y : UnpackedFloat) : y.compare x = (x.compare y).map Ordering.swap := by
  cases x with
  | notANumber => cases y <;> rfl
  | infinity sign =>
      cases y with
      | notANumber => rfl
      | infinity other => cases sign <;> cases other <;> rfl
      | _ => cases sign <;> rfl
  | zero sign =>
      cases y with
      | infinity other => cases other <;> rfl
      | finite other => cases other <;> rfl
      | _ => rfl
  | finite sign mantissa exponent hpos =>
      cases y with
      | notANumber => rfl
      | infinity other => cases other <;> rfl
      | zero other => cases sign <;> rfl
      | finite other mantissa' exponent' hpos' =>
          cases sign <;> cases other <;>
            simp [UnpackedFloat.compare, Ordering.swap_then, Nat.compare_swap, Int.compare_swap]

theorem lt_asymm {a b : Float} (h : a < b) : ¬b < a := by
  rw [lt_iff] at h ⊢
  rw [compare_swap, h]
  decide

end ListmonkOps.Math.Floats
