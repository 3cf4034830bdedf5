/-!
# Powers of two and ten

The two bases of this library: binary formats scale by powers of two, numerals by powers
of ten.
-/

namespace StyleSheet
namespace Numeric

/-- The power of two with the given exponent. -/
def twoPow (n : Nat) : Nat := Nat.pow 2 n

/-- The power of ten with the given exponent. -/
def tenPow (n : Nat) : Nat := Nat.pow 10 n

theorem twoPow_pos (n : Nat) : 0 < twoPow n := Nat.pow_pos (by decide)

theorem tenPow_pos (n : Nat) : 0 < tenPow n := Nat.pow_pos (by decide)

theorem twoPow_succ (n : Nat) : twoPow (n + 1) = twoPow n * 2 := rfl

end Numeric
end StyleSheet
