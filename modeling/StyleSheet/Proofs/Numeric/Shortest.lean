import Mathlib.Algebra.Order.Floor.Semifield
import Mathlib.Data.Rat.Floor
import StyleSheet.Numeric.Shortest
import StyleSheet.Proofs.Numeric.Binary

/-!
# The shortest decimal is the shortest

A decimal reads back as some bits if it is rounded to them.  Since rounding is monotone, what
is between two decimals that read back does so too; so on a grid of decimals it is enough to
try the two neighbours of the magnitude (`Format.not_roundsTo_of_onGrid`).  The search stops at the
first grid with a hit, and at the latest on one where the magnitude itself is a point.

A decimal with fewer digits that read back would be on a coarser grid, or it would be below the
power of ten at which the digits of the magnitude begin, and then that power would read back.
Either way there would have been a hit before (`Format.IsFirstHit.isShortest_normalize`).
-/

namespace StyleSheet
namespace Numeric

variable {f : Format} {r : Ratio} {bits : ℕ} {e : ℤ}

/-! ## Decimals as numbers -/

namespace Decimal

variable {d : Decimal}

/-- The number that a decimal stands for. -/
def value (d : Decimal) : ℚ := d.digits * 10 ^ d.exponent

theorem value_ratio (d : Decimal) : d.ratio.value = d.value := Ratio.value_scaleTen _ _

theorem den_ratio_pos (d : Decimal) : 0 < d.ratio.den := Ratio.den_scaleTen_pos _ _

/-- Factors of ten move from the digits to the exponent. -/
theorem exists_dropZeros (n : ℕ) (d : Decimal) :
    ∃ j : ℕ, d.digits = (dropZeros n d).digits * 10 ^ j ∧
      (dropZeros n d).exponent = d.exponent + j := by
  induction n generalizing d with
  | zero => exact ⟨0, by simp [dropZeros], by simp [dropZeros]⟩
  | succ n ih =>
    rw [dropZeros]
    split
    · next hzero =>
      obtain ⟨j, hdigits, hexponent⟩ := ih ⟨d.digits / 10, d.exponent + 1⟩
      refine ⟨j + 1, ?_, by rw [hexponent]; push_cast; ring⟩
      rw [pow_succ, ← mul_assoc, ← hdigits]
      exact (Nat.div_mul_cancel (Nat.dvd_of_mod_eq_zero hzero)).symm
    · exact ⟨0, by simp, by simp⟩

/-- As many steps as the digits have bits divide out all factors of ten. -/
theorem dropZeros_mod_ten {n : ℕ} (hpos : 0 < d.digits) (hn : d.digits < 2 ^ (n + 1)) :
    (dropZeros n d).digits % 10 ≠ 0 := by
  induction n generalizing d with
  | zero =>
    rw [dropZeros]
    omega
  | succ n ih =>
    rw [dropZeros]
    split
    · next hzero =>
      have hdigits : d.digits / 10 < 2 ^ (n + 1) := by
        rw [pow_succ] at hn
        omega
      exact ih (by show 0 < d.digits / 10; omega) hdigits
    · next hne => exact hne

theorem normalize_mod_ten (h : 0 < d.digits) : d.normalize.digits % 10 ≠ 0 :=
  dropZeros_mod_ten h Nat.lt_log2_self

theorem value_normalize (d : Decimal) : d.normalize.value = d.value := by
  obtain ⟨j, hdigits, hexponent⟩ := exists_dropZeros d.digits.log2 d
  have hcast : (d.digits : ℚ) = d.normalize.digits * 10 ^ j := by
    exact_mod_cast hdigits
  have hnormal : d.normalize.exponent = d.exponent + j := hexponent
  rw [value, value, hcast, hnormal, zpow_add₀ (by norm_num), zpow_natCast]
  ring

theorem digits_normalize_le (d : Decimal) : d.normalize.digits ≤ d.digits := by
  obtain ⟨j, hdigits, -⟩ := exists_dropZeros d.digits.log2 d
  calc d.normalize.digits ≤ d.normalize.digits * 10 ^ j :=
        Nat.le_mul_of_pos_right _ (Nat.pow_pos (by decide))
    _ = d.digits := hdigits.symm

end Decimal

/-! ## The decimal point -/

theorem digitCount_le_iff {n k : ℕ} (hk : 0 < k) : digitCount n ≤ k ↔ n < 10 ^ k :=
  Nat.length_toDigits_le_iff (by decide) hk

theorem digitCount_pos (n : ℕ) : 0 < digitCount n :=
  List.length_pos_iff.mpr Nat.toDigits_ne_nil

theorem lt_ten_pow_digitCount (n : ℕ) : n < 10 ^ digitCount n :=
  (digitCount_le_iff (digitCount_pos n)).mp le_rfl

theorem ten_pow_digitCount_le {n c : ℕ} (hn : 0 < n) (hc : digitCount n = c + 1) :
    10 ^ c ≤ n := by
  rcases Nat.eq_zero_or_pos c with rfl | hpos
  · exact hn
  · by_contra hlt
    have := (digitCount_le_iff hpos).mpr (not_le.mp hlt)
    omega

namespace Ratio

/-- A quotient in units of a power of ten. -/
theorem value_div_ten_zpow (r : Ratio) (e : ℤ) :
    r.value / 10 ^ e =
      ((r.num * tenPow (-e).toNat : ℕ) : ℚ) / ((r.den * tenPow e.toNat : ℕ) : ℚ) := by
  rw [← pow_toNat_div, value, Nat.cast_mul, Nat.cast_mul, cast_tenPow, cast_tenPow,
    div_div_div_eq]

/-- The digits of a positive quotient begin right after the decimal point. -/
theorem decimalPoint_spec (hnum : 0 < r.num) (hden : 0 < r.den) :
    (10 : ℚ) ^ (r.decimalPoint - 1) ≤ r.value ∧ r.value < 10 ^ r.decimalPoint := by
  have hpos : (0 : ℚ) < r.den := by exact_mod_cast hden
  rw [value, le_div_iff₀ hpos, div_lt_iff₀ hpos, decimalPoint]
  split
  · next hle =>
    obtain ⟨c, hc⟩ := Nat.exists_eq_add_one.mpr (digitCount_pos (r.num / r.den))
    have hlow := ten_pow_digitCount_le (Nat.div_pos hle hden) hc
    have hhigh := lt_ten_pow_digitCount (r.num / r.den)
    have hnumLow : 10 ^ c * r.den ≤ r.num := (Nat.le_div_iff_mul_le hden).mp hlow
    have hnumHigh : r.num < 10 ^ (c + 1) * r.den := by
      rw [hc] at hhigh
      exact (Nat.div_lt_iff_lt_mul hden).mp hhigh
    rw [hc, Nat.cast_succ, add_sub_cancel_right, ← Nat.cast_succ,
      zpow_natCast, zpow_natCast]
    exact_mod_cast And.intro hnumLow hnumHigh
  · next hlt =>
    obtain ⟨c, hc⟩ := Nat.exists_eq_add_one.mpr (digitCount_pos ((r.den - 1) / r.num))
    have hlow := ten_pow_digitCount_le (Nat.div_pos (by omega) hnum) hc
    have hhigh := lt_ten_pow_digitCount ((r.den - 1) / r.num)
    have hdenLow : 10 ^ c * r.num < r.den := by
      have := (Nat.le_div_iff_mul_le hnum).mp hlow
      omega
    have hdenHigh : r.den ≤ 10 ^ (c + 1) * r.num := by
      rw [hc] at hhigh
      have := (Nat.div_lt_iff_lt_mul hnum).mp hhigh
      omega
    have hcast : (10 : ℚ) ^ c * r.num < r.den ∧ (r.den : ℚ) ≤ 10 ^ (c + 1) * r.num := by
      exact_mod_cast And.intro hdenLow hdenHigh
    have hlead : (1 : ℤ) - ((c + 1 : ℕ) : ℤ) = -(c : ℤ) := by omega
    have htail : -(c : ℤ) - 1 = -((c + 1 : ℕ) : ℤ) := by omega
    rw [hc, hlead, htail, zpow_neg, zpow_neg, zpow_natCast, zpow_natCast,
      inv_mul_le_iff₀ (by positivity), lt_inv_mul_iff₀ (by positivity)]
    exact hcast.symm

/-- The lower neighbour on a grid, in steps of it. -/
theorem grid_floor (r : Ratio) (e : ℤ) :
    r.num * tenPow (-e).toNat / (r.den * tenPow e.toNat) = ⌊r.value / 10 ^ e⌋₊ := by
  rw [value_div_ten_zpow, Nat.floor_div_eq_div]

theorem floor_mul_le (r : Ratio) (e : ℤ) : (⌊r.value / 10 ^ e⌋₊ : ℚ) * 10 ^ e ≤ r.value := by
  have hstep : (0 : ℚ) < 10 ^ e := by positivity
  exact (le_div_iff₀ hstep).mp (Nat.floor_le (div_nonneg r.value_nonneg hstep.le))

theorem lt_floor_add_one_mul (r : Ratio) (e : ℤ) :
    r.value < ((⌊r.value / 10 ^ e⌋₊ + 1 : ℕ) : ℚ) * 10 ^ e := by
  have hstep : (0 : ℚ) < 10 ^ e := by positivity
  rw [Nat.cast_add_one]
  exact (div_lt_iff₀ hstep).mp (Nat.lt_floor_add_one _)

end Ratio

/-! ## Grids of decimals -/

namespace Format

theorem readsBack_iff (hf : 2 ≤ f.precision) {d : Decimal} :
    f.readsBack bits d = true ↔ f.RoundsTo d.value bits := by
  rw [readsBack, beq_iff_eq, round_eq_iff hf d.den_ratio_pos, Decimal.value_ratio]

variable {tie : Tie} {d : Decimal}

/-- A hit on a grid is one of the two neighbours, and reads back. -/
theorem of_onGrid_eq_some (hf : 2 ≤ f.precision) (h : f.onGrid tie bits r e = some d) :
    f.RoundsTo d.value bits ∧ d.exponent = e ∧ d.digits ≤ ⌊r.value / 10 ^ e⌋₊ + 1 := by
  rw [onGrid, Ratio.grid_floor] at h
  rw [← readsBack_iff hf]
  grind

/-- On a grid without a hit nothing reads back. -/
theorem not_roundsTo_of_onGrid (hf : 2 ≤ f.precision) (hr : f.RoundsTo r.value bits)
    (h : f.onGrid tie bits r e = none) (n : ℕ) : ¬ f.RoundsTo (n * 10 ^ e) bits := by
  have hfloor : f.readsBack bits ⟨⌊r.value / 10 ^ e⌋₊, e⟩ = true ↔ _ := readsBack_iff hf
  have hnext : f.readsBack bits ⟨⌊r.value / 10 ^ e⌋₊ + 1, e⟩ = true ↔ _ := readsBack_iff hf
  rw [onGrid, Ratio.grid_floor] at h
  intro hn
  rcases Nat.lt_or_ge ⌊r.value / 10 ^ e⌋₊ n with hlt | hge
  · have habove : f.RoundsTo (((⌊r.value / 10 ^ e⌋₊ + 1 : ℕ) : ℚ) * 10 ^ e) bits := by
      refine hr.between hn (r.lt_floor_add_one_mul e).le ?_
      gcongr
      exact hlt
    have := hnext.mpr habove
    grind
  · have hbelow : f.RoundsTo (⌊r.value / 10 ^ e⌋₊ * 10 ^ e) bits := by
      refine hn.between hr ?_ (r.floor_mul_le e)
      gcongr
    have := hfloor.mpr hbelow
    grind

/-- A decimal of the first grid with a hit, from the one of step `10 ^ e` downwards. -/
structure IsFirstHit (f : Format) (bits : ℕ) (r : Ratio) (e : ℤ) (d : Decimal) : Prop where
  le : d.exponent ≤ e
  digits_le : d.digits ≤ ⌊r.value / 10 ^ d.exponent⌋₊ + 1
  coarser : ∀ (n : ℕ) (e' : ℤ), d.exponent < e' → e' ≤ e → ¬ f.RoundsTo (n * 10 ^ e') bits
  reads : f.RoundsTo d.value bits

/-- The search finds the first hit if the magnitude is on the last grid it can reach. -/
theorem isFirstHit_searchGrids (hf : 2 ≤ f.precision) (hr : f.RoundsTo r.value bits)
    (fuel : ℕ) (hexact : ∃ n : ℕ, r.value = n * 10 ^ (e - fuel)) :
    f.IsFirstHit bits r e (f.searchGrids tie bits r fuel e) := by
  induction fuel generalizing e with
  | zero =>
    obtain ⟨n, hn⟩ := hexact
    have hstep : (10 : ℚ) ^ e ≠ 0 := by positivity
    rw [Nat.cast_zero, sub_zero] at hn
    have hfloor : ⌊r.value / 10 ^ e⌋₊ = n := by
      rw [hn, mul_div_cancel_right₀ _ hstep, Nat.floor_natCast]
    rw [searchGrids, Ratio.grid_floor]
    refine ⟨le_rfl, Nat.le_succ _, fun _ _ hlt hle => absurd hle (not_le.mpr hlt), ?_⟩
    rw [Decimal.value, hfloor, ← hn]
    exact hr
  | succ fuel ih =>
    rw [searchGrids]
    split
    · next d h =>
      obtain ⟨hreads, rfl, hdigits⟩ := of_onGrid_eq_some hf h
      exact ⟨le_rfl, hdigits, fun _ _ hlt hle => absurd hle (not_le.mpr hlt), hreads⟩
    · next h =>
      have hfirst := ih (e := e - 1) (by
        obtain ⟨n, hn⟩ := hexact
        exact ⟨n, by rw [hn]; congr 2; push_cast; ring⟩)
      refine ⟨by linarith [hfirst.le], hfirst.digits_le, fun n e' hlt hle => ?_, hfirst.reads⟩
      rcases lt_or_eq_of_le hle with hbelow | rfl
      · exact hfirst.coarser n e' hlt (by omega)
      · exact not_roundsTo_of_onGrid hf hr h n

/-! ## The shortest decimal -/

/-- A magnitude is a whole number of steps on every grid that is not coarser than its last
binary place. -/
theorem exists_value_eq_mul (f : Format) (bits : ℕ) {e : ℤ} (he : e ≤ min (f.decode bits).2 0) :
    ∃ n : ℕ, f.value bits = n * 10 ^ e := by
  obtain ⟨j, hj⟩ : ∃ j : ℕ, e = -j := ⟨e.natAbs, by omega⟩
  obtain ⟨i, hi⟩ : ∃ i : ℕ, (f.decode bits).2 = i - j := ⟨((f.decode bits).2 + j).toNat, by omega⟩
  refine ⟨(f.decode bits).1 * 2 ^ i * 5 ^ j, ?_⟩
  have hten : (10 : ℚ) ^ j = 5 ^ j * 2 ^ j := by
    rw [← mul_pow]
    norm_num
  rw [value_eq_decode, hi, hj, zpow_sub₀ two_ne_zero, zpow_neg, zpow_natCast, zpow_natCast,
    zpow_natCast, hten]
  push_cast
  field_simp

/-- The shortest decimal for a positive magnitude reads back, it ends in no zero, and none with
fewer digits reads back. -/
structure IsShortest (f : Format) (bits : ℕ) (d : Decimal) : Prop where
  reads : f.RoundsTo d.value bits
  digits_mod_ten : d.digits % 10 ≠ 0
  fewest : ∀ c : Decimal, f.RoundsTo c.value bits → ∀ k, c.digits < 10 ^ k → d.digits < 10 ^ k

/-- Zero is rounded to no positive magnitude. -/
theorem not_roundsTo_zero (hpos : 0 < bits) : ¬ f.RoundsTo 0 bits := by
  intro h
  have hzero := f.roundsTo_value (Nat.zero_le _)
  rw [value_zero] at hzero
  exact hpos.ne (hzero.unique h)

theorem digits_pos_of_roundsTo (hpos : 0 < bits) (h : f.RoundsTo d.value bits) :
    0 < d.digits := by
  refine Nat.pos_of_ne_zero fun hzero => not_roundsTo_zero (f := f) hpos ?_
  rwa [Decimal.value, hzero, Nat.cast_zero, zero_mul] at h

/-- A decimal of few digits that reads back puts one on a coarse grid that does: itself, or if
it is below the leading digit of the magnitude, the power of ten there. -/
theorem exists_roundsTo_of_digits_lt {c : Decimal} {i : ℕ} (hr : f.RoundsTo r.value bits)
    (hlow : 10 ^ e ≤ r.value) (hc : f.RoundsTo c.value bits) (hdigits : c.digits < 10 ^ (i + 1)) :
    ∃ n : ℕ, f.RoundsTo (n * 10 ^ (e - i)) bits := by
  rcases le_or_gt (e - i) c.exponent with hcoarse | hfine
  · obtain ⟨j, hj⟩ : ∃ j : ℕ, c.exponent = e - i + j := ⟨(c.exponent - (e - i)).toNat, by omega⟩
    have hvalue : c.value = ((c.digits * 10 ^ j : ℕ) : ℚ) * 10 ^ (e - i) := by
      rw [Decimal.value, hj, zpow_add₀ (by norm_num), zpow_natCast]
      push_cast
      ring
    exact ⟨_, hvalue ▸ hc⟩
  · have hleading : ∀ n : ℕ, (10 : ℚ) ^ n * 10 ^ (e - n) = 10 ^ e := fun n => by
      rw [← zpow_natCast, ← zpow_add₀ (by norm_num), add_sub_cancel]
    refine ⟨10 ^ i, ?_⟩
    rw [Nat.cast_pow, Nat.cast_ofNat, hleading]
    refine hc.between hr ?_ hlow
    calc c.value ≤ 10 ^ (i + 1) * 10 ^ (e - (i + 1 : ℕ)) := by
          rw [Decimal.value]
          gcongr
          · exact_mod_cast hdigits.le
          · norm_num
          · push_cast
            omega
      _ = 10 ^ e := hleading (i + 1)

namespace IsFirstHit

/-- The digits of a hit are at most a power of ten, the one that ends the magnitude. -/
theorem digits_le_pow (h : f.IsFirstHit bits r e d) {s : ℕ}
    (hr : r.value < 10 ^ (d.exponent + s)) : d.digits ≤ 10 ^ s := by
  have hstep : (0 : ℚ) < 10 ^ d.exponent := by positivity
  refine h.digits_le.trans ((Nat.floor_lt (div_nonneg r.value_nonneg hstep.le)).mpr ?_)
  rw [div_lt_iff₀ hstep, Nat.cast_pow, ← zpow_natCast, mul_comm, Nat.cast_ofNat,
    ← zpow_add₀ (by norm_num)]
  exact hr

/-- The first hit is a shortest decimal if the search starts at the leading digit of the
magnitude. -/
theorem isShortest_normalize (h : f.IsFirstHit bits r e d) (hpos : 0 < bits)
    (hr : f.RoundsTo r.value bits) (hlow : 10 ^ e ≤ r.value) (hhigh : r.value < 10 ^ (e + 1)) :
    f.IsShortest bits d.normalize := by
  have hmod := Decimal.normalize_mod_ten (digits_pos_of_roundsTo hpos h.reads)
  refine ⟨by rw [Decimal.value_normalize]; exact h.reads, hmod, fun c hc k hk => ?_⟩
  have hle := h.le
  obtain ⟨s, hs⟩ : ∃ s : ℕ, e + 1 = d.exponent + (s + 1 : ℕ) :=
    ⟨(e - d.exponent).toNat, by omega⟩
  -- the digits of the hit fit into `s + 1` places, also where they were rounded up
  have hfit : d.normalize.digits < 10 ^ (s + 1) := by
    refine lt_of_le_of_ne (d.digits_normalize_le.trans (h.digits_le_pow (hs ▸ hhigh))) ?_
    intro heq
    rw [heq, pow_succ, Nat.mul_mod_left] at hmod
    exact hmod rfl
  by_contra hlong
  have hks : k < s + 1 :=
    (Nat.pow_lt_pow_iff_right (by decide)).mp ((not_lt.mp hlong).trans_lt hfit)
  obtain ⟨i, rfl⟩ : ∃ i, k = i + 1 := by
    refine Nat.exists_eq_succ_of_ne_zero fun hzero => ?_
    have hdigits := digits_pos_of_roundsTo hpos hc
    rw [hzero, pow_zero] at hk
    omega
  -- the grid of step `10 ^ (e - i)` was tried before that of the hit
  obtain ⟨n, hn⟩ := exists_roundsTo_of_digits_lt hr hlow hc hk
  exact h.coarser n (e - i) (by omega) (by omega) hn

end IsFirstHit

theorem isShortest_shortest (hf : 2 ≤ f.precision) (tie : Tie) (hpos : 0 < bits)
    (hbits : bits ≤ f.infinity) : f.IsShortest bits (f.shortest tie bits) := by
  have hnum : 0 < (f.magnitude bits).num := by
    refine Nat.pos_of_ne_zero fun hzero => ?_
    have hvalue := f.strictMono_value hpos
    rw [value_zero, value, Ratio.value, hzero, Nat.cast_zero, zero_div] at hvalue
    exact hvalue.false
  have hden : 0 < (f.magnitude bits).den := Ratio.den_scaleTwo_pos _ _
  obtain ⟨hlow, hhigh⟩ := Ratio.decimalPoint_spec hnum hden
  have hr : f.RoundsTo (f.magnitude bits).value bits := f.roundsTo_value hbits
  refine (isFirstHit_searchGrids hf hr _ ?_).isShortest_normalize hpos hr hlow ?_
  · exact f.exists_value_eq_mul bits (by omega)
  · rwa [sub_add_cancel]

end Format
end Numeric
end StyleSheet
