/-!
# Rounding a quotient to the nearest integer

Every rounding in this library, of a product to a machine number as well as of a
color channel to a whole number, is the rounding of an exact quotient of natural
numbers.  A quotient that lies halfway between two integers goes to the even one.

`two_mul_le_of_roundHalfEven` and `le_two_mul_of_roundHalfEven` say that the result is within
half a unit of the quotient.
-/

namespace StyleSheet
namespace Numeric

/-- The integer nearest to `num / den`; of two nearest ones the even one. -/
def roundHalfEven (num den : Nat) : Nat :=
  if 2 * (num % den) < den then num / den
  else if den < 2 * (num % den) then num / den + 1
  else if num / den % 2 = 0 then num / den
  else num / den + 1

/-- The rounded quotient exceeds the quotient by at most one half. -/
theorem two_mul_le_of_roundHalfEven (num : Nat) {den : Nat} (h : 0 < den) :
    2 * (den * roundHalfEven num den) ≤ 2 * num + den := by
  have hd := Nat.div_add_mod num den
  have hm := Nat.mod_lt num h
  unfold roundHalfEven
  split
  · omega
  · split
    · rw [Nat.mul_add]; omega
    · split
      · omega
      · rw [Nat.mul_add]; omega

/-- The quotient exceeds the rounded quotient by at most one half. -/
theorem le_two_mul_of_roundHalfEven (num : Nat) {den : Nat} (h : 0 < den) :
    2 * num ≤ 2 * (den * roundHalfEven num den) + den := by
  have hd := Nat.div_add_mod num den
  have hm := Nat.mod_lt num h
  unfold roundHalfEven
  split
  · omega
  · split
    · rw [Nat.mul_add]; omega
    · split
      · omega
      · rw [Nat.mul_add]; omega

end Numeric
end StyleSheet
