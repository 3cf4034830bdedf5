import Mathlib.Algebra.Order.Monoid.WithTop
import StyleSheet.Proofs.Numeric.Single

/-!
# The values of numbers

A finite number is a rational number, its value.  All numbers have their place among the
rationals with the two infinities (`Single.extended`), and they are compared there.

A product and a difference are rounded to the number that is nearest to their exact value,
with ties to even (`Single.IsRounded`).
-/

namespace StyleSheet

open Numeric

namespace Numeric

/-- A rational number among the rationals and the two infinities. -/
def toExtended (q : ℚ) : WithBot (WithTop ℚ) := ((q : WithTop ℚ) : WithBot (WithTop ℚ))

theorem toExtended_le_iff {p q : ℚ} : toExtended p ≤ toExtended q ↔ p ≤ q :=
  WithBot.coe_le_coe.trans WithTop.coe_le_coe

theorem toExtended_lt_iff {p q : ℚ} : toExtended p < toExtended q ↔ p < q :=
  WithBot.coe_lt_coe.trans WithTop.coe_lt_coe

end Numeric

namespace Single

variable {x y : Single}

/-- The value of a finite number.  The bits of infinity are taken for the next power of two. -/
def value (x : Single) : ℚ :=
  if x.negative then -binary32.value x.magnitude else binary32.value x.magnitude

/-- The place of a number among the rationals and the infinities. -/
def extended (x : Single) : WithBot (WithTop ℚ) :=
  if x.isFinite then toExtended x.value
  else if x.negative then ⊥ else ((⊤ : WithTop ℚ) : WithBot (WithTop ℚ))

theorem abs_value (x : Single) : |x.value| = binary32.value x.magnitude := by
  have hnonneg : 0 ≤ binary32.value x.magnitude := Ratio.value_nonneg _
  rw [value]
  split
  · rw [abs_neg, abs_of_nonneg hnonneg]
  · rw [abs_of_nonneg hnonneg]

theorem value_of_positive (h : x.negative = false) : x.value = binary32.value x.magnitude := by
  rw [value, h, if_neg Bool.false_ne_true]

theorem value_nonpos (h : x.negative = true) : x.value ≤ 0 := by
  rw [value, if_pos h]
  exact neg_nonpos.mpr (Ratio.value_nonneg _)

theorem extended_of_isFinite (h : x.isFinite = true) : x.extended = toExtended x.value :=
  if_pos h

/-- The value of infinity is beyond those of the finite numbers. -/
theorem abs_value_le (h : x.isNaN = false) : |x.value| ≤ binary32.value binary32.infinity := by
  rw [abs_value]
  exact binary32.strictMono_value.monotone (not_lt.mp (of_decide_eq_false h))

theorem value_of_infinite (hnan : x.isNaN = false) (h : x.isFinite = false) :
    x.value = if x.negative then -binary32.value binary32.infinity
      else binary32.value binary32.infinity := by
  rw [value, magnitude_eq_infinity hnan h]

/-- Values are in the order of the numbers. -/
theorem value_le_of_extended_le (hx : x.isNaN = false) (hy : y.isNaN = false)
    (h : x.extended ≤ y.extended) : x.value ≤ y.value := by
  obtain ⟨hxlow, hxhigh⟩ := abs_le.mp (abs_value_le hx)
  obtain ⟨hylow, hyhigh⟩ := abs_le.mp (abs_value_le hy)
  cases hxf : x.isFinite with
  | true =>
    cases hyf : y.isFinite with
    | true =>
      rw [extended_of_isFinite hxf, extended_of_isFinite hyf] at h
      exact toExtended_le_iff.mp h
    | false =>
      cases hys : y.negative with
      | true => simp [extended, toExtended, hxf, hyf, hys] at h
      | false => simpa [value_of_infinite hy hyf, hys] using hxhigh
  | false =>
    cases hxs : x.negative with
    | true => simpa [value_of_infinite hx hxf, hxs] using hylow
    | false =>
      cases hyf : y.isFinite with
      | true => simp [extended, toExtended, hxf, hyf, hxs] at h
      | false =>
        cases hys : y.negative with
        | true => simp [extended, hxf, hyf, hxs, hys] at h
        | false => simp [value_of_infinite hx hxf, value_of_infinite hy hyf, hxs, hys]

/-! ## Rounded results -/

/-- The number is the nearest one, and zero is positive. -/
structure IsRounded (x : Single) (q : ℚ) : Prop where
  negative : x.negative = true ↔ q < 0
  magnitude : binary32.RoundsTo |q| x.magnitude

theorem toNat_ofMagnitude {negative : Bool} {m : ℕ} (hm : m ≤ binary32.infinity) :
    (ofMagnitude negative m).bits.toNat = if negative then signBit + m else m := by
  have hinfinity : binary32.infinity = 0x7F800000 := rfl
  have hsign : signBit = 0x80000000 := rfl
  rw [ofMagnitude]
  refine UInt32.toNat_ofNat_of_lt' ?_
  have hsize : UInt32.size = 0x100000000 := rfl
  split <;> omega

theorem negative_ofMagnitude {negative : Bool} {m : ℕ} (hm : m ≤ binary32.infinity) :
    (ofMagnitude negative m).negative = negative := by
  have hinfinity : binary32.infinity = 0x7F800000 := rfl
  have hsign : signBit = 0x80000000 := rfl
  rw [Single.negative, toNat_ofMagnitude hm]
  cases negative with
  | true => exact decide_eq_true (Nat.le_add_right _ _)
  | false => exact decide_eq_false (by simp; omega)

theorem magnitude_ofMagnitude {negative : Bool} {m : ℕ} (hm : m ≤ binary32.infinity) :
    (ofMagnitude negative m).magnitude = m := by
  have hinfinity : binary32.infinity = 0x7F800000 := rfl
  have hsign : signBit = 0x80000000 := rfl
  rw [magnitude, toNat_ofMagnitude hm, hsign]
  split <;> omega

/-- Every number has a nearest one. -/
theorem exists_isRounded {q : ℚ} {m : ℕ} (h : binary32.RoundsTo |q| m) :
    ∃ x : Single, x.IsRounded q ∧ x.magnitude = m := by
  have hm : m ≤ binary32.infinity := h.mem
  refine ⟨ofMagnitude (decide (q < 0)) m, ⟨?_, ?_⟩, magnitude_ofMagnitude hm⟩
  · rw [negative_ofMagnitude hm, decide_eq_true_iff]
  · rwa [magnitude_ofMagnitude hm]

theorem den_ratio_pos (x : Single) : 0 < x.ratio.den := Ratio.den_scaleTwo_pos _ _

/-- The exact product that is rounded. -/
theorem value_product (x : Single) (factor : ℕ) :
    (Ratio.mk (x.ratio.num * factor) x.ratio.den).value =
      factor * binary32.value x.magnitude := by
  show ((x.ratio.num * factor : ℕ) : ℚ) / x.ratio.den = factor * (x.ratio.num / x.ratio.den)
  push_cast
  ring

/-- A product is rounded once. -/
theorem roundsTo_scale (x : Single) (factor : ℕ) :
    binary32.RoundsTo (factor * binary32.value x.magnitude) (x.scale factor) := by
  rw [← value_product]
  exact Format.roundsTo_round two_le_precision x.den_ratio_pos

/-- A difference is rounded once. -/
theorem roundsTo_distanceToOne (x : Single) :
    binary32.RoundsTo |x.value - 1| x.distanceToOne := by
  have hden : (0 : ℚ) < x.ratio.den := by exact_mod_cast x.den_ratio_pos
  obtain ⟨num, hnum⟩ :
      ∃ num : ℤ, num = if x.negative then -(x.ratio.num : ℤ) else x.ratio.num := ⟨_, rfl⟩
  have hvalue : x.value = num / x.ratio.den := by
    rw [hnum, value]
    split
    · rw [Int.cast_neg, neg_div]
      rfl
    · rfl
  have hround := Format.roundsTo_round (r := ⟨(num - x.ratio.den).natAbs, x.ratio.den⟩)
    two_le_precision x.den_ratio_pos
  have hdistance : (Ratio.mk (num - x.ratio.den).natAbs x.ratio.den).value = |x.value - 1| := by
    show (((num - x.ratio.den).natAbs : ℕ) : ℚ) / x.ratio.den = _
    rw [Nat.cast_natAbs, Int.cast_abs, Int.cast_sub, Int.cast_natCast, hvalue,
      div_sub_one hden.ne', abs_div, abs_of_pos hden]
  rw [hdistance] at hround
  rw [distanceToOne, ← hnum]
  exact hround

end Single
end StyleSheet
