import Mathlib.Algebra.Order.Field.Basic
import Mathlib.Algebra.Order.Field.Rat
import Mathlib.Algebra.Order.Ring.Abs
import Mathlib.Order.Interval.Set.OrdConnected
import Mathlib.Tactic.FieldSimp
import Mathlib.Tactic.Linarith
import Mathlib.Tactic.Ring
import StyleSheet.Numeric.Rounding

/-!
# Nearest points of a scale

A scale numbers some points in ascending order.  To round a number is to take the nearest
point; of two that are equally near, the one with the even number.  Whole numbers are such a
scale, and so are the magnitudes of a binary format, numbered by their bits.

A number has one nearest point (`IsNearest.unique`), a larger one has no smaller point
(`IsNearest.mono`), and a point is nearest to itself (`isNearest_self`).  Whether a point is
nearest can be told from its two neighbours alone (`IsNearest.of_midpoints`).
-/

namespace StyleSheet
namespace Numeric

/-- The point number `n` of a scale is, among those numbered in `S`, the nearest to `q`; an
equally near one is left to the even number. -/
structure IsNearest (v : ℕ → ℚ) (S : Set ℕ) (q : ℚ) (n : ℕ) : Prop where
  mem : n ∈ S
  closest : ∀ m ∈ S, |q - v n| ≤ |q - v m|
  even : ∀ m ∈ S, m ≠ n → |q - v m| = |q - v n| → n % 2 = 0

section Distances

variable {a b q : ℚ}

/-- The upper one of two points is as near if the number is not below the middle. -/
theorem abs_sub_upper_le_iff (h : a < b) : |q - b| ≤ |q - a| ↔ a + b ≤ 2 * q := by
  have hsquares : (q - a) ^ 2 - (q - b) ^ 2 = (b - a) * (2 * q - (a + b)) := by ring
  rw [← sq_le_sq, ← sub_nonneg, hsquares, mul_nonneg_iff_of_pos_left (sub_pos.mpr h), sub_nonneg]

/-- The lower one of two points is as near if the number is not above the middle. -/
theorem abs_sub_lower_le_iff (h : a < b) : |q - a| ≤ |q - b| ↔ 2 * q ≤ a + b := by
  have hsquares : (q - b) ^ 2 - (q - a) ^ 2 = (b - a) * (a + b - 2 * q) := by ring
  rw [← sq_le_sq, ← sub_nonneg, hsquares, mul_nonneg_iff_of_pos_left (sub_pos.mpr h), sub_nonneg]

end Distances

variable {v : ℕ → ℚ} {S : Set ℕ} {q r : ℚ} {n m : ℕ}

theorem isNearest_self (hv : StrictMono v) (hn : n ∈ S) : IsNearest v S (v n) n where
  mem := hn
  closest m _ := by
    rw [sub_self, abs_zero]
    exact abs_nonneg _
  even m _ hne hdist := by
    rw [sub_self, abs_zero, abs_eq_zero, sub_eq_zero] at hdist
    exact absurd (hv.injective hdist).symm hne

namespace IsNearest

/-- A point is nearest if the number is between the middles to its neighbours; a middle counts
for the even number. -/
theorem of_midpoints (hv : StrictMono v) (hS : S.OrdConnected) (hn : n ∈ S)
    (hlower : ∀ p ∈ S, p + 1 = n → v p + v n ≤ 2 * q ∧ (v p + v n = 2 * q → n % 2 = 0))
    (hupper : n + 1 ∈ S → 2 * q ≤ v n + v (n + 1) ∧ (2 * q = v n + v (n + 1) → n % 2 = 0)) :
    IsNearest v S q n := by
  -- a point further away has a neighbour of `n` on the way to it
  have hbelow : ∀ m ∈ S, m < n → v m + v n ≤ 2 * q ∧ (v m + v n = 2 * q → n % 2 = 0) := by
    intro m hm hlt
    obtain ⟨p, rfl⟩ : ∃ p, n = p + 1 := ⟨n - 1, by omega⟩
    obtain ⟨hle, heven⟩ := hlower p (hS.out hm hn ⟨by omega, by omega⟩) rfl
    have hp : v m ≤ v p := hv.monotone (by omega)
    exact ⟨by linarith, fun heq => heven (by linarith)⟩
  have habove : ∀ m ∈ S, n < m → 2 * q ≤ v n + v m ∧ (2 * q = v n + v m → n % 2 = 0) := by
    intro m hm hlt
    obtain ⟨hle, heven⟩ := hupper (hS.out hn hm ⟨by omega, by omega⟩)
    have hp : v (n + 1) ≤ v m := hv.monotone hlt
    exact ⟨by linarith, fun heq => heven (by linarith)⟩
  refine ⟨hn, fun m hm => ?_, fun m hm hne hdist => ?_⟩
  · rcases lt_trichotomy m n with hlt | rfl | hlt
    · exact (abs_sub_upper_le_iff (hv hlt)).mpr (hbelow m hm hlt).1
    · exact le_refl _
    · exact (abs_sub_lower_le_iff (hv hlt)).mpr (habove m hm hlt).1
  · rcases lt_or_gt_of_ne hne with hlt | hlt
    · have hmiddle := (abs_sub_lower_le_iff (hv hlt)).mp hdist.le
      obtain ⟨hle, heven⟩ := hbelow m hm hlt
      exact heven (le_antisymm hle hmiddle)
    · have hmiddle := (abs_sub_upper_le_iff (hv hlt)).mp hdist.le
      obtain ⟨hle, heven⟩ := habove m hm hlt
      exact heven (le_antisymm hle hmiddle)

/-- The number is not below the middle to a point that is further down. -/
theorem lower (hv : StrictMono v) (h : IsNearest v S q n) (hm : m ∈ S) (hlt : m < n) :
    v m + v n ≤ 2 * q ∧ (v m + v n = 2 * q → n % 2 = 0) := by
  have hle := (abs_sub_upper_le_iff (hv hlt)).mp (h.closest m hm)
  refine ⟨hle, fun heq => h.even m hm hlt.ne (le_antisymm ?_ (h.closest m hm))⟩
  exact (abs_sub_lower_le_iff (hv hlt)).mpr heq.ge

/-- The number is not above the middle to a point that is further up. -/
theorem upper (hv : StrictMono v) (h : IsNearest v S q n) (hm : m ∈ S) (hlt : n < m) :
    2 * q ≤ v n + v m ∧ (2 * q = v n + v m → n % 2 = 0) := by
  have hle := (abs_sub_lower_le_iff (hv hlt)).mp (h.closest m hm)
  refine ⟨hle, fun heq => h.even m hm hlt.ne' (le_antisymm ?_ (h.closest m hm))⟩
  exact (abs_sub_upper_le_iff (hv hlt)).mpr heq.ge

/-- A larger number has no smaller point. -/
theorem mono (hv : StrictMono v) (hS : S.OrdConnected) (hn : IsNearest v S q n)
    (hm : IsNearest v S r m) (hqr : q ≤ r) : n ≤ m := by
  by_contra hlt
  push Not at hlt
  obtain ⟨hq, heven⟩ := hn.lower hv hm.mem hlt
  obtain ⟨hr, heven'⟩ := hm.upper hv hn.mem hlt
  -- both numbers are the middle, so both points are even and there is a point between them
  have hbetween : m + 1 < n := by
    have := heven (by linarith)
    have := heven' (by linarith)
    omega
  have hcloser := (hn.lower hv (hS.out hm.mem hn.mem ⟨by omega, by omega⟩) hbetween).1
  have hstep : v m < v (m + 1) := hv (Nat.lt_succ_self m)
  linarith

theorem unique (hv : StrictMono v) (hS : S.OrdConnected) (hn : IsNearest v S q n)
    (hm : IsNearest v S q m) : n = m :=
  le_antisymm (hn.mono hv hS hm le_rfl) (hm.mono hv hS hn le_rfl)

/-- What is between two numbers with the same nearest point has it too. -/
theorem between (hv : StrictMono v) (hS : S.OrdConnected) {p : ℚ} (hp : IsNearest v S p n)
    (hr : IsNearest v S r n) (hpq : p ≤ q) (hqr : q ≤ r) : IsNearest v S q n := by
  refine of_midpoints hv hS hp.mem (fun m hm hlt => ?_) fun hm => ?_
  · obtain ⟨hle, heven⟩ := hp.lower hv hm (by omega)
    exact ⟨by linarith, fun heq => heven (by linarith)⟩
  · obtain ⟨hle, heven⟩ := hr.upper hv hm (Nat.lt_succ_self n)
    exact ⟨by linarith, fun heq => heven (by linarith)⟩

/-- On a scale that ends, what is beyond the end is rounded to the end. -/
theorem min_top (hv : StrictMono v) (h : IsNearest v Set.univ q n) (top : ℕ) :
    IsNearest v (Set.Iic top) q (min n top) := by
  rcases le_or_gt n top with hle | hlt
  · rw [min_eq_left hle]
    exact ⟨hle, fun m _ => h.closest m trivial, fun m _ => h.even m trivial⟩
  · rw [min_eq_right hlt.le]
    have hbeyond := (h.lower hv (Set.mem_univ top) hlt).1
    have htop := hv hlt
    refine of_midpoints hv Set.ordConnected_Iic Set.self_mem_Iic (fun p _ hp => ?_) fun hmem => ?_
    · have hstep : v p < v top := hv (by omega)
      exact ⟨by linarith, fun heq => by linarith⟩
    · exact absurd hmem (by simp)

end IsNearest

/-! ## Whole numbers -/

theorem strictMono_natCast : StrictMono fun n : ℕ => (n : ℚ) := Nat.strictMono_cast

/-- A tie goes to the even number. -/
theorem roundHalfEven_mod_two (num : ℕ) {den : ℕ} (h : 0 < den)
    (htie : 2 * (den * roundHalfEven num den) = 2 * num + den ∨
      2 * num = 2 * (den * roundHalfEven num den) + den) :
    roundHalfEven num den % 2 = 0 := by
  have hd := Nat.div_add_mod num den
  have hm := Nat.mod_lt num h
  revert htie
  unfold roundHalfEven
  split
  · omega
  · split
    · rw [Nat.mul_add]; omega
    · split
      · omega
      · rw [Nat.mul_add]; omega

theorem isNearest_roundHalfEven (num : ℕ) {den : ℕ} (h : 0 < den) :
    IsNearest (fun n : ℕ => (n : ℚ)) Set.univ ((num : ℚ) / den) (roundHalfEven num den) := by
  have hden : (0 : ℚ) < den := by exact_mod_cast h
  have hquotient : den * ((num : ℚ) / den) = num := mul_div_cancel₀ _ hden.ne'
  have hlow : (2 : ℚ) * (den * roundHalfEven num den) ≤ 2 * num + den := by
    exact_mod_cast two_mul_le_of_roundHalfEven num h
  have hhigh : (2 : ℚ) * num ≤ 2 * (den * roundHalfEven num den) + den := by
    exact_mod_cast le_two_mul_of_roundHalfEven num h
  have heven := roundHalfEven_mod_two num h
  refine .of_midpoints strictMono_natCast Set.ordConnected_univ trivial (fun p _ hp => ?_)
    fun _ => ?_
  · have hcast : (p : ℚ) = roundHalfEven num den - 1 := by
      rw [← hp, Nat.cast_add_one, add_sub_cancel_right]
    refine ⟨le_of_mul_le_mul_left (by rw [hcast]; linarith) hden, fun htie => ?_⟩
    refine heven (.inl ?_)
    have hscaled := congrArg (fun x : ℚ => den * x) htie
    rw [hcast] at hscaled
    have hsum : (2 : ℚ) * (den * roundHalfEven num den) = 2 * num + den := by linarith
    exact_mod_cast hsum
  · rw [Nat.cast_add_one]
    refine ⟨le_of_mul_le_mul_left (by linarith) hden, fun htie => ?_⟩
    refine heven (.inr ?_)
    have hscaled := congrArg (fun x : ℚ => den * x) htie
    have hsum : (2 : ℚ) * num = 2 * (den * roundHalfEven num den) + den := by linarith
    exact_mod_cast hsum

/-- A nonnegative number is at most one half away from its nearest whole number. -/
theorem IsNearest.abs_sub_le_half (hq : 0 ≤ q)
    (h : IsNearest (fun n : ℕ => (n : ℚ)) Set.univ q n) : |q - n| ≤ 1 / 2 := by
  have hupper := (h.upper strictMono_natCast (Set.mem_univ (n + 1)) (Nat.lt_succ_self n)).1
  rw [Nat.cast_add_one] at hupper
  refine abs_le.mpr ⟨?_, by linarith⟩
  cases n with
  | zero => rw [Nat.cast_zero]; linarith
  | succ p =>
    have hlower := (h.lower strictMono_natCast (Set.mem_univ p) (Nat.lt_succ_self p)).1
    rw [Nat.cast_add_one] at hlower ⊢
    linarith

end Numeric
end StyleSheet
