import Mathlib.Algebra.Order.Field.Power
import StyleSheet.Numeric.Binary
import StyleSheet.Proofs.Numeric.Nearest

/-!
# Rounding to a binary format

The magnitudes of a binary format are numbered by their bits, and they ascend with them
(`Format.strictMono_value`).  In a binade they are the multiples of one power of two: with `k`
for the exponent above the quantum, the bits `k * hidden + s` are those of `s * 2 ^ (quantum + k)`
(`Format.value_place`).  That includes the first magnitude of the next binade, so a significand
that was rounded up to it needs no care.

The bits past the largest finite magnitude are those of infinity, and they are taken for the
power of two that would come next.  So a number is rounded to infinity if that power is the
nearest magnitude, and rounding is to the nearest magnitude without exception
(`Format.roundsTo_round`).
-/

namespace StyleSheet
namespace Numeric

theorem cast_twoPow (n : ℕ) : (twoPow n : ℚ) = 2 ^ n := by
  rw [twoPow, Nat.pow_eq, Nat.cast_pow, Nat.cast_ofNat]

theorem cast_tenPow (n : ℕ) : (tenPow n : ℚ) = 10 ^ n := by
  rw [tenPow, Nat.pow_eq, Nat.cast_pow, Nat.cast_ofNat]

/-- An integral power from two natural ones. -/
theorem pow_toNat_div (b : ℚ) (e : ℤ) : b ^ e.toNat / b ^ (-e).toNat = b ^ e := by
  obtain ⟨n, rfl | rfl⟩ := e.eq_nat_or_neg
  · simp
  · simp

/-! ## Quotients as numbers -/

namespace Ratio

/-- The number that a quotient stands for. -/
def value (r : Ratio) : ℚ := r.num / r.den

theorem value_nonneg (r : Ratio) : 0 ≤ r.value :=
  div_nonneg (Nat.cast_nonneg _) (Nat.cast_nonneg _)

theorem value_scaleTwo (n : ℕ) (e : ℤ) : (scaleTwo n e).value = n * 2 ^ e := by
  rw [value, scaleTwo, Nat.cast_mul, cast_twoPow, cast_twoPow, mul_div_assoc,
    pow_toNat_div]

theorem value_scaleTen (n : ℕ) (e : ℤ) : (scaleTen n e).value = n * 10 ^ e := by
  rw [value, scaleTen, Nat.cast_mul, cast_tenPow, cast_tenPow, mul_div_assoc,
    pow_toNat_div]

/-- A quotient in units of a power of two. -/
theorem value_div_two_zpow (r : Ratio) (e : ℤ) :
    r.value / 2 ^ e =
      ((r.num * twoPow (-e).toNat : ℕ) : ℚ) / ((r.den * twoPow e.toNat : ℕ) : ℚ) := by
  rw [← pow_toNat_div, value, Nat.cast_mul, Nat.cast_mul, cast_twoPow, cast_twoPow,
    div_div_div_eq]

theorem lt_two_zpow_iff {r : Ratio} (h : 0 < r.den) (e : ℤ) :
    r.value < 2 ^ e ↔ r.num * twoPow (-e).toNat < r.den * twoPow e.toNat := by
  have hden : (0 : ℚ) < ((r.den * twoPow e.toNat : ℕ) : ℚ) := by
    exact_mod_cast Nat.mul_pos h (twoPow_pos _)
  have hscale := value_div_two_zpow r e
  rw [← div_lt_one (zpow_pos two_pos e), hscale, div_lt_one hden, Nat.cast_lt]

/-- The leading bits of numerator and denominator leave two exponents for a quotient. -/
theorem between_two_zpow {r : Ratio} (hnum : 0 < r.num) (hden : 0 < r.den) {e : ℤ}
    (he : e = r.num.log2 - r.den.log2) : (2 : ℚ) ^ (e - 1) ≤ r.value ∧ r.value < 2 ^ (e + 1) := by
  have hnumPow : (2 : ℚ) ^ r.num.log2 ≤ r.num ∧ (r.num : ℚ) < 2 ^ (r.num.log2 + 1) := by
    exact_mod_cast And.intro (Nat.log2_self_le hnum.ne') Nat.lt_log2_self
  have hdenPow : (2 : ℚ) ^ r.den.log2 ≤ r.den ∧ (r.den : ℚ) < 2 ^ (r.den.log2 + 1) := by
    exact_mod_cast And.intro (Nat.log2_self_le hden.ne') Nat.lt_log2_self
  have hpos : (0 : ℚ) < r.den := by exact_mod_cast hden
  constructor
  · rw [value, le_div_iff₀ hpos]
    calc (2 : ℚ) ^ (e - 1) * r.den ≤ 2 ^ (e - 1) * 2 ^ (r.den.log2 + 1) := by
          gcongr
          exact hdenPow.2.le
      _ = 2 ^ r.num.log2 := by
          rw [← zpow_natCast, ← zpow_add₀ two_ne_zero, ← zpow_natCast, he]
          congr 1
          push_cast
          ring
      _ ≤ r.num := hnumPow.1
  · rw [value, div_lt_iff₀ hpos]
    calc (r.num : ℚ) < 2 ^ (r.num.log2 + 1) := hnumPow.2
      _ = 2 ^ (e + 1) * 2 ^ r.den.log2 := by
          rw [← zpow_natCast, ← zpow_natCast, ← zpow_add₀ two_ne_zero, he]
          congr 1
          push_cast
          ring
      _ ≤ 2 ^ (e + 1) * r.den := by
          gcongr
          exact hdenPow.1

/-- The leading bit of a positive quotient. -/
theorem floorLogTwo_spec {r : Ratio} (hnum : 0 < r.num) (hden : 0 < r.den) :
    (2 : ℚ) ^ r.floorLogTwo ≤ r.value ∧ r.value < 2 ^ (r.floorLogTwo + 1) := by
  obtain ⟨hlow, hhigh⟩ := between_two_zpow hnum hden rfl
  simp only [floorLogTwo, ← lt_two_zpow_iff hden]
  split
  · next hlt => exact ⟨hlow, by rwa [sub_add_cancel]⟩
  · next hge => exact ⟨not_lt.mp hge, hhigh⟩

end Ratio

/-! ## Magnitudes -/

namespace Format

variable {f : Format} {r : Ratio}

/-- The magnitude with the given bits, as a number. -/
def value (f : Format) (bits : ℕ) : ℚ := (f.magnitude bits).value

/-- The least significand of a normal magnitude. -/
def hidden (f : Format) : ℕ := twoPow (f.precision - 1)

theorem hidden_pos (f : Format) : 0 < f.hidden := twoPow_pos _

theorem value_eq_decode (f : Format) (bits : ℕ) :
    f.value bits = (f.decode bits).1 * 2 ^ (f.decode bits).2 :=
  Ratio.value_scaleTwo _ _

theorem decode_of_lt {bits : ℕ} (h : bits < f.hidden) : f.decode bits = (bits, f.quantum) :=
  if_pos h

theorem value_zero (f : Format) : f.value 0 = 0 := by
  rw [value_eq_decode, decode_of_lt f.hidden_pos, Nat.cast_zero, zero_mul]

/-- The bits of a normal magnitude. -/
theorem decode_normal {k t : ℕ} (ht : t < f.hidden) :
    f.decode ((k + 1) * f.hidden + t) = (f.hidden + t, f.quantum + k) := by
  have hdiv : ((k + 1) * f.hidden + t) / f.hidden = k + 1 := by
    rw [Nat.mul_comm, Nat.mul_add_div f.hidden_pos, Nat.div_eq_of_lt ht, Nat.add_zero]
  have hmod : ((k + 1) * f.hidden + t) % f.hidden = t := by
    rw [Nat.mul_comm, Nat.mul_add_mod, Nat.mod_eq_of_lt ht]
  have hge : ¬ (k + 1) * f.hidden + t < f.hidden := by
    rw [Nat.add_mul]
    omega
  rw [decode, ← hidden, if_neg hge, hdiv, hmod, Nat.add_comm]
  congr 1
  omega

/-- The magnitude with `s` units in the last place, in the binade with the exponent `k` above
the quantum. -/
theorem value_place {k s : ℕ} (hs : s ≤ 2 * f.hidden) (hk : k = 0 ∨ f.hidden ≤ s) :
    f.value (k * f.hidden + s) = s * 2 ^ (f.quantum + k) := by
  rw [value_eq_decode]
  rcases lt_or_ge s f.hidden with hlt | hge
  · obtain rfl := hk.resolve_right (not_le.mpr hlt)
    rw [Nat.zero_mul, Nat.zero_add, decode_of_lt hlt, Nat.cast_zero, add_zero]
  · obtain ⟨t, rfl⟩ := Nat.exists_eq_add_of_le hge
    rcases lt_or_eq_of_le (show t ≤ f.hidden by omega) with hlt | rfl
    · have hbits : k * f.hidden + (f.hidden + t) = (k + 1) * f.hidden + t := by ring
      rw [hbits, decode_normal hlt]
    · -- the first magnitude of the next binade
      have hbits : k * f.hidden + (f.hidden + f.hidden) = (k + 1 + 1) * f.hidden + 0 := by ring
      rw [hbits, decode_normal f.hidden_pos]
      push_cast
      rw [← add_assoc, zpow_add_one₀ two_ne_zero]
      ring

/-- Every magnitude is some number of units in the last place of a binade. -/
theorem exists_place (f : Format) (bits : ℕ) :
    ∃ k s, bits = k * f.hidden + s ∧ s < 2 * f.hidden ∧ (k = 0 ∨ f.hidden ≤ s) := by
  have hpos := f.hidden_pos
  rcases lt_or_ge bits f.hidden with hlt | hge
  · exact ⟨0, bits, by simp, by omega, .inl rfl⟩
  · obtain ⟨k, hk⟩ := Nat.exists_eq_succ_of_ne_zero (Nat.div_pos hge hpos).ne'
    have hbits := Nat.div_add_mod bits f.hidden
    have hmod := Nat.mod_lt bits hpos
    rw [hk, Nat.succ_eq_add_one] at hbits
    exact ⟨k, f.hidden + bits % f.hidden, by linarith, by omega, .inr (by omega)⟩

theorem strictMono_value (f : Format) : StrictMono f.value := by
  refine strictMono_nat_of_lt_succ fun bits => ?_
  obtain ⟨k, s, rfl, hs, hk⟩ := f.exists_place bits
  rw [add_assoc, value_place hs.le hk, value_place hs (hk.imp_right Nat.le_succ_of_le)]
  gcongr
  exact Nat.lt_succ_self s

/-! ## Rounding -/

theorem cast_hidden (f : Format) : (f.hidden : ℚ) = 2 ^ (f.precision - 1) := cast_twoPow _

/-- The exponent of the last place and the significand that a quotient is rounded to.  The
quotient is in the binade of that place, or below all of them. -/
theorem exists_round (hf : 2 ≤ f.precision) (hnum : 0 < r.num) (hden : 0 < r.den) :
    ∃ k s : ℕ, f.round r = min (k * f.hidden + s) f.infinity ∧
      IsNearest (fun n : ℕ => (n : ℚ)) Set.univ (r.value / 2 ^ (f.quantum + k)) s ∧
      (k = 0 ∨ f.hidden ≤ r.value / 2 ^ (f.quantum + k)) ∧
      r.value / 2 ^ (f.quantum + k) < 2 * f.hidden := by
  obtain ⟨hlow, hhigh⟩ := Ratio.floorLogTwo_spec hnum hden
  obtain ⟨place, hplace⟩ :
      ∃ place, place = max (r.floorLogTwo + 1 - f.precision) f.quantum := ⟨_, rfl⟩
  have hk : f.quantum + (place - f.quantum).toNat = place := by omega
  have hunit : (0 : ℚ) < 2 ^ place := zpow_pos two_pos place
  refine ⟨(place - f.quantum).toNat,
    roundHalfEven (r.num * twoPow (-place).toNat) (r.den * twoPow place.toNat), ?_, ?_, ?_, ?_⟩
  · rw [round, if_neg hnum.ne', hidden, hplace]
  · rw [hk, Ratio.value_div_two_zpow]
    exact isNearest_roundHalfEven _ (Nat.mul_pos hden (twoPow_pos _))
  · rw [hk]
    rcases lt_or_ge f.quantum place with hlt | hge
    · refine .inr ((le_div_iff₀ hunit).mpr (le_trans (le_of_eq ?_) hlow))
      rw [cast_hidden, ← zpow_natCast, ← zpow_add₀ two_ne_zero]
      congr 1
      omega
    · exact .inl (by omega)
  · rw [hk, div_lt_iff₀ hunit]
    refine lt_of_lt_of_le hhigh ?_
    rw [cast_hidden, ← pow_succ', ← zpow_natCast, ← zpow_add₀ two_ne_zero]
    exact zpow_le_zpow_right₀ one_le_two (by omega)

/-- The bits have the parity of the significand. -/
theorem place_mod_two (hf : 2 ≤ f.precision) (k s : ℕ) : (k * f.hidden + s) % 2 = s % 2 := by
  obtain ⟨p, hp⟩ := Nat.exists_eq_add_of_le hf
  have heven : f.hidden = twoPow p * 2 := by
    rw [hidden, ← twoPow_succ]
    congr 1
    omega
  rw [heven, ← mul_assoc, Nat.mul_add_mod']

/-- The significand of what is in a binade, or below all of them. -/
theorem significand_bounds {x : ℚ} {k s : ℕ}
    (hnearest : IsNearest (fun n : ℕ => (n : ℚ)) Set.univ x s)
    (hlow : k = 0 ∨ f.hidden ≤ x) (hhigh : x < 2 * f.hidden) :
    s ≤ 2 * f.hidden ∧ (k = 0 ∨ f.hidden ≤ s) := by
  have hself : ∀ n : ℕ, IsNearest (fun n : ℕ => (n : ℚ)) Set.univ (n : ℚ) n := fun n =>
    isNearest_self strictMono_natCast trivial
  refine ⟨?_, hlow.imp_right fun hle => ?_⟩
  · exact hnearest.mono strictMono_natCast Set.ordConnected_univ (hself _)
      (by push_cast; exact hhigh.le)
  · exact (hself f.hidden).mono strictMono_natCast Set.ordConnected_univ hnearest hle

section Place

variable {x : ℚ} {k s : ℕ}

/-- Seen from its nearest multiple of the last place, a number is not below the middle to the
magnitude below. -/
theorem middle_le_of_place (hf : 2 ≤ f.precision)
    (hnearest : IsNearest (fun n : ℕ => (n : ℚ)) Set.univ x s) (hlow : k = 0 ∨ f.hidden ≤ x)
    (hhigh : x < 2 * f.hidden) {p : ℕ} (hp : p + 1 = k * f.hidden + s) :
    f.value p + f.value (k * f.hidden + s) ≤ 2 * (x * 2 ^ (f.quantum + k)) ∧
      (f.value p + f.value (k * f.hidden + s) = 2 * (x * 2 ^ (f.quantum + k)) →
        (k * f.hidden + s) % 2 = 0) := by
  have hpos := f.hidden_pos
  have hunit : (0 : ℚ) < 2 ^ (f.quantum + k) := zpow_pos two_pos _
  obtain ⟨hs, hk⟩ := significand_bounds hnearest hlow hhigh
  obtain ⟨t, rfl⟩ : ∃ t, s = t + 1 := by
    refine Nat.exists_eq_succ_of_ne_zero fun hzero => ?_
    rw [hzero, hk.resolve_right (by omega)] at hp
    omega
  obtain rfl : p = k * f.hidden + t := by omega
  rw [value_place hs hk, place_mod_two hf]
  by_cases hbinade : k = 0 ∨ f.hidden ≤ t
  · obtain ⟨hle, heven⟩ := hnearest.lower strictMono_natCast (Set.mem_univ t)
      (Nat.lt_succ_self t)
    rw [value_place (by omega) hbinade, ← add_mul, ← mul_assoc]
    exact ⟨mul_le_mul_of_nonneg_right hle hunit.le,
      fun htie => heven (mul_right_cancel₀ hunit.ne' htie)⟩
  · -- the neighbour below is in the binade below, where the last place is finer
    rw [not_or, not_le] at hbinade
    obtain ⟨j, rfl⟩ := Nat.exists_eq_succ_of_ne_zero hbinade.1
    have hle := hlow.resolve_left hbinade.1
    have hbits : (j + 1) * f.hidden + t = j * f.hidden + (f.hidden + t) := by ring
    have hsum : (t : ℚ) + 1 = f.hidden := by
      exact_mod_cast (show t + 1 = f.hidden by omega)
    have hfine : (0 : ℚ) < 2 ^ (f.quantum + j) := zpow_pos two_pos _
    have hscaled := mul_le_mul_of_nonneg_right hle hfine.le
    rw [Nat.succ_eq_add_one, hbits, value_place (by omega) (.inr (by omega))]
    push_cast
    rw [← add_assoc, zpow_add_one₀ two_ne_zero, hsum]
    have hlast : (f.hidden + t : ℚ) = 2 * f.hidden - 1 := by linarith
    rw [hlast]
    exact ⟨by linarith, fun htie => by linarith⟩

/-- And it is not above the middle to the magnitude above. -/
theorem le_middle_of_place (hf : 2 ≤ f.precision)
    (hnearest : IsNearest (fun n : ℕ => (n : ℚ)) Set.univ x s) (hlow : k = 0 ∨ f.hidden ≤ x)
    (hhigh : x < 2 * f.hidden) :
    2 * (x * 2 ^ (f.quantum + k)) ≤
        f.value (k * f.hidden + s) + f.value (k * f.hidden + s + 1) ∧
      (2 * (x * 2 ^ (f.quantum + k)) =
          f.value (k * f.hidden + s) + f.value (k * f.hidden + s + 1) →
        (k * f.hidden + s) % 2 = 0) := by
  have hunit : (0 : ℚ) < 2 ^ (f.quantum + k) := zpow_pos two_pos _
  obtain ⟨hs, hk⟩ := significand_bounds hnearest hlow hhigh
  rw [value_place hs hk, place_mod_two hf]
  rcases lt_or_eq_of_le hs with hlt | rfl
  · obtain ⟨hle, heven⟩ := hnearest.upper strictMono_natCast (Set.mem_univ (s + 1))
      (Nat.lt_succ_self s)
    rw [add_assoc, value_place hlt (hk.imp_right Nat.le_succ_of_le), ← add_mul, ← mul_assoc]
    exact ⟨mul_le_mul_of_nonneg_right hle hunit.le,
      fun htie => heven (mul_right_cancel₀ hunit.ne' htie)⟩
  · -- the number was rounded up to the next binade, and is below all magnitudes there
    have hstep := f.strictMono_value (Nat.lt_succ_self (k * f.hidden + 2 * f.hidden))
    have hbelow := mul_lt_mul_of_pos_right hhigh hunit
    rw [value_place hs hk] at hstep
    push_cast at hstep ⊢
    exact ⟨by linarith, fun htie => by linarith⟩

/-- The nearest multiple of the last place is the nearest magnitude. -/
theorem isNearest_place (hf : 2 ≤ f.precision)
    (hnearest : IsNearest (fun n : ℕ => (n : ℚ)) Set.univ x s) (hlow : k = 0 ∨ f.hidden ≤ x)
    (hhigh : x < 2 * f.hidden) :
    IsNearest f.value Set.univ (x * 2 ^ (f.quantum + k)) (k * f.hidden + s) :=
  .of_midpoints f.strictMono_value Set.ordConnected_univ trivial
    (fun _ _ hp => middle_le_of_place hf hnearest hlow hhigh hp)
    fun _ => le_middle_of_place hf hnearest hlow hhigh

end Place

/-- The bits are those of the magnitude that is nearest to the number. -/
def RoundsTo (f : Format) (q : ℚ) (bits : ℕ) : Prop :=
  IsNearest f.value (Set.Iic f.infinity) q bits

namespace RoundsTo

variable {p q s : ℚ} {m n : ℕ}

theorem mono (hn : f.RoundsTo q n) (hm : f.RoundsTo s m) (h : q ≤ s) : n ≤ m :=
  IsNearest.mono f.strictMono_value Set.ordConnected_Iic hn hm h

theorem unique (hn : f.RoundsTo q n) (hm : f.RoundsTo q m) : n = m :=
  IsNearest.unique f.strictMono_value Set.ordConnected_Iic hn hm

theorem between (hp : f.RoundsTo p n) (hs : f.RoundsTo s n) (hpq : p ≤ q) (hqs : q ≤ s) :
    f.RoundsTo q n :=
  IsNearest.between f.strictMono_value Set.ordConnected_Iic hp hs hpq hqs

end RoundsTo

/-- A magnitude is rounded to itself. -/
theorem roundsTo_value {n : ℕ} (hn : n ≤ f.infinity) : f.RoundsTo (f.value n) n :=
  isNearest_self f.strictMono_value hn

/-- Rounding gives the bits of the nearest magnitude. -/
theorem roundsTo_round (hf : 2 ≤ f.precision) (hden : 0 < r.den) :
    f.RoundsTo r.value (f.round r) := by
  rcases Nat.eq_zero_or_pos r.num with hzero | hnum
  · have hvalue : r.value = f.value 0 := by
      rw [value_zero, Ratio.value, hzero, Nat.cast_zero, zero_div]
    have hround : f.round r = 0 := if_pos hzero
    rw [hvalue, hround]
    exact roundsTo_value (Nat.zero_le _)
  · obtain ⟨k, s, hround, hnearest, hlow, hhigh⟩ := exists_round hf hnum hden
    have hplace := isNearest_place hf hnearest hlow hhigh
    rw [div_mul_cancel₀ _ (zpow_pos two_pos _).ne'] at hplace
    rw [hround]
    exact hplace.min_top f.strictMono_value _

/-- Rounding gives some bits if they are those of the nearest magnitude. -/
theorem round_eq_iff (hf : 2 ≤ f.precision) (hden : 0 < r.den) {bits : ℕ} :
    f.round r = bits ↔ f.RoundsTo r.value bits :=
  ⟨fun h => h ▸ roundsTo_round hf hden, (roundsTo_round hf hden).unique⟩

/-- Below the end of a binade, the last place is that of the binade or a finer one. -/
theorem place_le_of_lt {q : ℚ} {j k : ℕ} (hlow : j = 0 ∨ f.hidden ≤ q / 2 ^ (f.quantum + j))
    (hbinade : q < 2 * f.hidden * 2 ^ (f.quantum + k)) : j ≤ k := by
  by_contra hlt
  have hcast : (0 : ℚ) < f.hidden := by exact_mod_cast f.hidden_pos
  have hfine := (le_div_iff₀ (zpow_pos two_pos _)).mp (hlow.resolve_left (by omega))
  have hcoarse : (2 : ℚ) * 2 ^ (f.quantum + k) ≤ 2 ^ (f.quantum + j) := by
    rw [mul_comm, ← zpow_add_one₀ two_ne_zero]
    exact zpow_le_zpow_right₀ one_le_two (by omega)
  have hscaled := mul_le_mul_of_nonneg_left hcoarse hcast.le
  linarith

/-- Up to the end of a binade, rounding errs by half a unit in its last place. -/
theorem abs_sub_round_le (hf : 2 ≤ f.precision) (hden : 0 < r.den) {k : ℕ}
    (hbinade : r.value < 2 * f.hidden * 2 ^ (f.quantum + k))
    (hfinite : k * f.hidden + 2 * f.hidden ≤ f.infinity) :
    |r.value - f.value (f.round r)| ≤ 2 ^ (f.quantum + k) / 2 := by
  rcases Nat.eq_zero_or_pos r.num with hzero | hnum
  · have hvalue : f.value 0 = r.value := by
      rw [value_zero, Ratio.value, hzero, Nat.cast_zero, zero_div]
    rw [round, if_pos hzero, hvalue, sub_self, abs_zero]
    positivity
  · obtain ⟨j, s, hround, hnearest, hlow, hhigh⟩ := exists_round hf hnum hden
    obtain ⟨hs, hj⟩ := significand_bounds hnearest hlow hhigh
    have hunit : (0 : ℚ) < 2 ^ (f.quantum + j) := zpow_pos two_pos _
    have hle := place_le_of_lt hlow hbinade
    have hbits : j * f.hidden + s ≤ f.infinity := by
      have := Nat.mul_le_mul_right f.hidden hle
      omega
    rw [hround, min_eq_left hbits, value_place hs hj]
    calc |r.value - s * 2 ^ (f.quantum + j)|
        = |r.value / 2 ^ (f.quantum + j) - s| * 2 ^ (f.quantum + j) := by
          rw [← abs_of_pos hunit, ← abs_mul, abs_of_pos hunit, sub_mul,
            div_mul_cancel₀ _ hunit.ne']
      _ ≤ 1 / 2 * 2 ^ (f.quantum + j) := by
          gcongr
          exact hnearest.abs_sub_le_half (div_nonneg r.value_nonneg hunit.le)
      _ ≤ 2 ^ (f.quantum + k) / 2 := by
          have := zpow_le_zpow_right₀ (one_le_two : (1 : ℚ) ≤ 2)
            (show f.quantum + j ≤ f.quantum + k by omega)
          linarith

end Format
end Numeric
end StyleSheet
