import StyleSheet.Numeric.Power
import StyleSheet.Numeric.Rounding

/-!
# Binary floating-point formats

A finite magnitude of a binary format is `significand * 2 ^ exponent`, with a bounded
significand and an exponent not below the format's quantum.  Its bits, without the
sign, are a natural number, and they are ordered as the magnitudes are.  That is what
makes rounding short: once the exponent `q` of the last place is known, the bits are

`(q - quantum) * 2 ^ (precision - 1) + significand`,

for a normal magnitude (the hidden bit of the significand adds one to the exponent
field), for a subnormal one (there `q = quantum`), and when rounding carries the
significand up to the next power of two.  A result past the largest finite magnitude
is infinity, and since infinity's bits follow the largest finite ones, this is a
minimum.

Magnitudes are exact quotients `num / den` of natural numbers, so that no step here
rounds but the last one.
-/

namespace StyleSheet
namespace Numeric

/-- A binary floating-point format. -/
structure Format where
  /-- Number of significant bits, the hidden one included. -/
  precision : Nat
  /-- Exponent of the smallest positive magnitude. -/
  quantum : Int
  /-- Bits of the infinite magnitude. -/
  infinity : Nat

/-- The 32-bit format. -/
def binary32 : Format := ⟨24, -149, 0x7F800000⟩

/-- The 64-bit format. -/
def binary64 : Format := ⟨53, -1074, 0x7FF0000000000000⟩

/-- A nonnegative rational number, as a quotient of natural numbers. -/
structure Ratio where
  num : Nat
  den : Nat

namespace Ratio

/-- The number `n * 2 ^ e`. -/
def scaleTwo (n : Nat) (e : Int) : Ratio := ⟨n * twoPow e.toNat, twoPow (-e).toNat⟩

/-- The number `n * 10 ^ e`. -/
def scaleTen (n : Nat) (e : Int) : Ratio := ⟨n * tenPow e.toNat, tenPow (-e).toNat⟩

theorem den_scaleTwo_pos (n : Nat) (e : Int) : 0 < (scaleTwo n e).den :=
  twoPow_pos _

theorem den_scaleTen_pos (n : Nat) (e : Int) : 0 < (scaleTen n e).den :=
  tenPow_pos _

/-- The exponent `e` with `2 ^ e ≤ r < 2 ^ (e + 1)`, for a positive `r`. -/
def floorLogTwo (r : Ratio) : Int :=
  let estimate : Int := (Nat.log2 r.num : Int) - Nat.log2 r.den
  if r.num * twoPow (-estimate).toNat < r.den * twoPow estimate.toNat then estimate - 1
  else estimate

end Ratio

namespace Format

/-- Significand and exponent of a finite magnitude with the given bits. -/
def decode (f : Format) (bits : Nat) : Nat × Int :=
  let hidden := twoPow (f.precision - 1)
  if bits < hidden then (bits, f.quantum)
  else (bits % hidden + hidden, f.quantum + ((bits / hidden : Nat) : Int) - 1)

/-- The magnitude with the given bits. -/
def magnitude (f : Format) (bits : Nat) : Ratio :=
  Ratio.scaleTwo (f.decode bits).1 (f.decode bits).2

/-- Bits of the magnitude nearest to `r`; a tie goes to the even significand. -/
def round (f : Format) (r : Ratio) : Nat :=
  if r.num = 0 then 0
  else
    let place := max (r.floorLogTwo + 1 - f.precision) f.quantum
    let significand :=
      roundHalfEven (r.num * twoPow (-place).toNat) (r.den * twoPow place.toNat)
    min ((place - f.quantum).toNat * twoPow (f.precision - 1) + significand) f.infinity

@[simp] theorem round_zero (f : Format) (den : Nat) : f.round ⟨0, den⟩ = 0 := rfl

end Format
end Numeric
end StyleSheet
