import StyleSheet.Numeric.Single

/-!
# The characters of a numeral

Whatever number is written, its numeral consists of digits, a sign, a point, and the
letters of `NaN` and `inf`.
-/

namespace StyleSheet

open Numeric

/-- A character that a numeral can hold. -/
def isNumeralChar (c : Char) : Bool := c.isDigit || ['-', '.', 'N', 'a', 'i', 'n', 'f'].contains c

theorem isNumeralChar_of_isDigit {c : Char} (h : c.isDigit = true) : isNumeralChar c = true := by
  rw [isNumeralChar, h, Bool.true_or]

namespace Numeric

variable {c : Char} {n : Nat}

theorem isDigit_of_mem_digitText (h : c ∈ digitText n) : c.isDigit = true :=
  Nat.isDigit_of_mem_toDigits (by decide) (by decide) h

theorem digitText_ne_nil (n : Nat) : digitText n ≠ [] := Nat.toDigits_ne_nil

namespace Decimal

theorem isNumeralChar_of_mem_positional {d : Decimal} (h : c ∈ d.positional) :
    isNumeralChar c = true := by
  have hdigit : ∀ c ∈ digitText d.digits, isNumeralChar c = true := fun c hc =>
    isNumeralChar_of_isDigit (isDigit_of_mem_digitText hc)
  have hzero : ∀ n, ∀ c ∈ List.replicate n '0', isNumeralChar c = true := by
    intro n c hc
    rw [List.eq_of_mem_replicate hc]
    decide
  simp only [positional] at h
  split at h
  · rcases List.mem_append.mp h with hc | hc
    · exact hdigit c hc
    · exact hzero _ c hc
  · split at h
    · rcases List.mem_append.mp h with hc | hc
      · exact hdigit c (List.mem_of_mem_take hc)
      · rcases List.mem_cons.mp hc with rfl | hc
        · decide
        · exact hdigit c (List.mem_of_mem_drop hc)
    · rcases List.mem_cons.mp h with rfl | hc
      · decide
      · rcases List.mem_cons.mp hc with rfl | hc
        · decide
        · rcases List.mem_append.mp hc with hc | hc
          · exact hzero _ c hc
          · exact hdigit c hc

theorem positional_ne_nil (d : Decimal) : d.positional ≠ [] := by
  have hdigits := digitText_ne_nil d.digits
  simp only [positional]
  split
  · exact fun h => hdigits (List.append_eq_nil_iff.mp h).1
  · split
    · simp
    · simp

end Decimal
end Numeric

namespace Single

variable {c : Char}

/-- The sign of a numeral is one hyphen. -/
theorem isNumeralChar_of_mem_sign {x : Single}
    (h : c ∈ (if x.negative then ['-'] else [])) : isNumeralChar c = true := by
  split at h
  · rw [List.mem_singleton.mp h]
    decide
  · cases h

theorem isNumeralChar_of_mem_numeral {x : Single} (h : c ∈ x.numeral) :
    isNumeralChar c = true := by
  simp only [numeral] at h
  split at h
  · exact List.all_eq_true.mp (rfl : ['N', 'a', 'N'].all isNumeralChar = true) c h
  · split at h
    · split at h
      · rcases List.mem_append.mp h with hc | hc
        · exact isNumeralChar_of_mem_sign hc
        · exact List.all_eq_true.mp (rfl : ['0'].all isNumeralChar = true) c hc
      · rcases List.mem_append.mp h with hc | hc
        · exact isNumeralChar_of_mem_sign hc
        · exact Decimal.isNumeralChar_of_mem_positional hc
    · rcases List.mem_append.mp h with hc | hc
      · exact isNumeralChar_of_mem_sign hc
      · exact List.all_eq_true.mp (rfl : ['i', 'n', 'f'].all isNumeralChar = true) c hc

theorem numeral_ne_nil (x : Single) : x.numeral ≠ [] := by
  simp only [numeral]
  split
  · simp
  · split
    · split
      · simp
      · exact fun h => Decimal.positional_ne_nil _ (List.append_eq_nil_iff.mp h).2
    · simp

end Single
end StyleSheet
