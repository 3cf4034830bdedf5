import StyleSheet.Proofs.Numeric.Notation

/-!
# The numeral of a number

A numeral is read as the number that is nearest to it, with the sign of the numeral
(`Numeral.ReadsAs`); a numeral below half the least magnitude is read as one of the two zeros.
A finite number is written as a numeral that is read as that number and as no other, and no
numeral with fewer significant digits would do (`Single.exists_numeral`).

What is not finite is written in letters, so that the text tells all numbers apart, and from
what is not a number (`Single.numeral_eq_iff`).
-/

namespace StyleSheet

open Numeric

theorem two_le_precision : 2 ≤ binary32.precision := by decide

namespace Single

variable {x y : Single}

/-- The bits are the sign and the magnitude. -/
theorem toNat_bits (x : Single) :
    x.bits.toNat = (if x.negative then signBit else 0) + x.magnitude := by
  have hlt := x.bits.toNat_lt
  have hsign : signBit = 2147483648 := rfl
  have hnegative : x.negative = true ↔ signBit ≤ x.bits.toNat := decide_eq_true_iff
  rw [magnitude, if_congr hnegative rfl rfl, hsign]
  split
  · omega
  · omega

theorem ext_sign (hsign : x.negative = y.negative) (hmagnitude : x.magnitude = y.magnitude) :
    x = y := by
  have hbits : x.bits.toNat = y.bits.toNat := by
    rw [toNat_bits, toNat_bits, hsign, hmagnitude]
  cases x
  cases y
  exact congrArg Single.mk (UInt32.toNat_inj.mp hbits)

theorem magnitude_lt (h : x.isFinite = true) : x.magnitude < binary32.infinity :=
  of_decide_eq_true h

/-- A number is finite or infinite, unless it is none. -/
theorem magnitude_eq_infinity (hnan : x.isNaN = false) (h : x.isFinite = false) :
    x.magnitude = binary32.infinity := by
  have hle : ¬ binary32.infinity < x.magnitude := of_decide_eq_false hnan
  have hge : ¬ x.magnitude < binary32.infinity := of_decide_eq_false h
  omega

theorem isNaN_of_isFinite (h : x.isFinite = true) : x.isNaN = false :=
  decide_eq_false (magnitude_lt h).asymm

end Single

namespace Numeric

/-- The number that a numeral is read as: the nearest magnitude, and the sign as written. -/
structure Numeral.ReadsAs (n : Numeral) (x : Single) : Prop where
  negative : n.negative = x.negative
  magnitude : binary32.RoundsTo n.magnitude x.magnitude

theorem Numeral.ReadsAs.unique {n : Numeral} {x y : Single} (hx : n.ReadsAs x)
    (hy : n.ReadsAs y) : x = y :=
  Single.ext_sign (hx.negative.symm.trans hy.negative) (hx.magnitude.unique hy.magnitude)

/-- A numeral that stands for one number only, and there is no shorter one for it. -/
structure Numeral.IsShortest (n : Numeral) (x : Single) : Prop where
  readsAs_iff : ∀ y, n.ReadsAs y ↔ y = x
  fewest : ∀ m : Numeral, m.ReadsAs x → n.significantDigits ≤ m.significantDigits

/-- Zero, with either sign. -/
def zeroNumeral (negative : Bool) : Numeral where
  negative := negative
  whole := ['0']
  fraction := []
  isDigit_whole := List.forall_mem_singleton.mpr rfl
  isDigit_fraction _ h := absurd h List.not_mem_nil
  whole_ne_nil := by decide
  no_leading_zero _ := rfl
  no_trailing_zero := by decide

end Numeric

namespace Single

variable {x y : Single}

/-- A finite number is written as the shortest numeral that is read as the same number. -/
theorem exists_numeral (h : x.isFinite = true) :
    ∃ n : Numeral, x.numeral = n.text ∧ n.IsShortest x := by
  have hlt := magnitude_lt h
  have hunique : ∀ n : Numeral, n.ReadsAs x → ∀ y, n.ReadsAs y ↔ y = x := fun n hn y =>
    ⟨fun hy => hy.unique hn, fun heq => heq ▸ hn⟩
  rw [numeral, isNaN_of_isFinite h, h]
  rcases Nat.eq_zero_or_pos x.magnitude with hzero | hpos
  · refine ⟨zeroNumeral x.negative, ?_, hunique _ ⟨rfl, ?_⟩, fun m _ => ?_⟩
    · show _ = (if x.negative then ['-'] else []) ++ pointed ['0'] []
      simp [hzero, pointed]
    · have hvalue : (zeroNumeral x.negative).magnitude = binary32.value 0 := by
        rw [Format.value_zero]
        simp [Numeral.magnitude, Numeral.digits, zeroNumeral, Nat.ofDigitChars_cons]
      rw [hzero, hvalue]
      exact Format.roundsTo_value (Nat.zero_le _)
    · exact Nat.zero_le _
  · obtain ⟨hreads, hmod, hfewest⟩ :=
      Format.isShortest_shortest two_le_precision .upper hpos hlt.le
    refine ⟨Decimal.numeral x.negative _ hmod, ?_, hunique _ ⟨rfl, ?_⟩, fun m hm => ?_⟩
    · rw [Decimal.text_numeral]
      simp [hpos.ne']
    · rw [Decimal.magnitude_numeral]
      exact hreads
    · obtain ⟨c, hvalue, hdigits⟩ := m.exists_decimal
      have hlong := hfewest c (hvalue ▸ hm.magnitude) _ hdigits
      rw [Decimal.significantDigits_numeral, digitCount_le_iff ?_]
      · exact hlong
      · refine Nat.pos_of_ne_zero fun hnone => ?_
        rw [hnone, pow_zero, Nat.lt_one_iff] at hlong
        exact hmod (by rw [hlong])

/-! ## Different numbers have different texts -/

theorem numeral_of_isNaN (h : x.isNaN = true) : x.numeral = ['N', 'a', 'N'] := if_pos h

theorem numeral_of_infinite (hnan : x.isNaN = false) (h : x.isFinite = false) :
    x.numeral = (if x.negative then ['-'] else []) ++ ['i', 'n', 'f'] := by
  rw [numeral, hnan, h]
  rfl

/-- There are no letters in the text of a finite number. -/
theorem not_mem_numeral (h : x.isFinite = true) {c : Char} (hdigit : c.isDigit = false)
    (hmark : c ∉ ['-', '.']) : c ∉ x.numeral := by
  obtain ⟨n, htext, -⟩ := exists_numeral h
  rw [List.mem_cons, List.mem_singleton, not_or] at hmark
  have hwhole : c ∉ n.whole := fun hc => by simp [n.isDigit_whole c hc] at hdigit
  have hfraction : c ∉ n.fraction := fun hc => by simp [n.isDigit_fraction c hc] at hdigit
  rw [htext, Numeral.text, pointed]
  split <;> split <;> simp [hwhole, hfraction, hmark]

/-- The letter that tells what is not a number. -/
theorem mem_numeral_iff_isNaN (x : Single) : 'N' ∈ x.numeral ↔ x.isNaN = true := by
  cases hnan : x.isNaN with
  | true => simp [numeral_of_isNaN hnan]
  | false =>
    cases hfinite : x.isFinite with
    | true => simpa using not_mem_numeral hfinite (c := 'N') rfl (by decide)
    | false =>
      rw [numeral_of_infinite hnan hfinite]
      split <;> simp

/-- The letter that tells infinity. -/
theorem mem_numeral_iff_infinite (x : Single) :
    'i' ∈ x.numeral ↔ x.isNaN = false ∧ x.isFinite = false := by
  cases hnan : x.isNaN with
  | true => simp [numeral_of_isNaN hnan]
  | false =>
    cases hfinite : x.isFinite with
    | true => simpa using not_mem_numeral hfinite (c := 'i') rfl (by decide)
    | false => simp [numeral_of_infinite hnan hfinite]

/-- A finite number is told from its numeral, because that is read as no other number. -/
theorem eq_of_numeral_eq_of_isFinite (hx : x.isFinite = true) (hy : y.isFinite = true)
    (h : x.numeral = y.numeral) : x = y := by
  obtain ⟨n, hn, hnx⟩ := exists_numeral hx
  obtain ⟨m, hm, hmy⟩ := exists_numeral hy
  obtain rfl : n = m := Numeral.text_injective (by rw [← hn, ← hm, h])
  exact (hmy.readsAs_iff x).mp ((hnx.readsAs_iff x).mpr rfl)

/-- The infinities differ in their signs. -/
theorem eq_of_numeral_eq_of_infinite (hx : x.isNaN = false) (hxf : x.isFinite = false)
    (hy : y.isNaN = false) (hyf : y.isFinite = false) (h : x.numeral = y.numeral) : x = y := by
  rw [numeral_of_infinite hx hxf, numeral_of_infinite hy hyf] at h
  have hsign := List.append_cancel_right h
  refine ext_sign ?_ ?_
  · cases hxs : x.negative <;> cases hys : y.negative <;> simp [hxs, hys] at hsign ⊢
  · rw [magnitude_eq_infinity hx hxf, magnitude_eq_infinity hy hyf]

theorem numeral_eq_iff : x.numeral = y.numeral ↔ x = y ∨ (x.isNaN = true ∧ y.isNaN = true) := by
  refine ⟨fun h => ?_, ?_⟩
  · have hnan : x.isNaN = y.isNaN := by
      rw [Bool.eq_iff_iff, ← mem_numeral_iff_isNaN, h, mem_numeral_iff_isNaN]
    have hinfinite := (mem_numeral_iff_infinite x).symm.trans (h ▸ mem_numeral_iff_infinite y)
    cases hx : x.isNaN with
    | true => exact .inr ⟨rfl, hnan ▸ hx⟩
    | false =>
      have hy : y.isNaN = false := hnan ▸ hx
      rw [hx, hy] at hinfinite
      refine .inl ?_
      cases hxf : x.isFinite with
      | true =>
        have hyf : y.isFinite = true := by simpa [hxf] using hinfinite
        exact eq_of_numeral_eq_of_isFinite hxf hyf h
      | false =>
        have hyf : y.isFinite = false := by simpa [hxf] using hinfinite
        exact eq_of_numeral_eq_of_infinite hx hxf hy hyf h
  · rintro (rfl | ⟨hx, hy⟩)
    · rfl
    · rw [numeral_of_isNaN hx, numeral_of_isNaN hy]

end Single
end StyleSheet
