import StyleSheet.Numeric.Binary

/-!
# The shortest decimal that reads back

A finite magnitude is written with as few significant digits as tell it apart from
its neighbours: the shortest decimal that rounds to the same bits, and the nearest of
those.  On the grid of all decimals with `n` significant digits only the two
neighbours of the magnitude need to be tried, because if any point of a grid rounds to
the magnitude, then one of its two neighbours does.  The grids are tried from the
coarsest on.

A magnitude can lie exactly halfway between its two neighbours on a grid; which of them
is written then is for the notation to say (`Tie`).

The search needs no bound on the number of digits.  A magnitude is a whole multiple of
some power of ten, so on the grid of that power it stands for itself; the search ends
there at the latest.
-/

namespace StyleSheet
namespace Numeric

/-- The decimal `digits * 10 ^ exponent`. -/
structure Decimal where
  digits : Nat
  exponent : Int
  deriving DecidableEq

namespace Decimal

/-- The exact value of a decimal. -/
def ratio (d : Decimal) : Ratio := Ratio.scaleTen d.digits d.exponent

/-- Divides out factors of ten, at most as many as the first argument says. -/
def dropZeros : Nat → Decimal → Decimal
  | 0, d => d
  | n + 1, d =>
    if d.digits % 10 = 0 then dropZeros n ⟨d.digits / 10, d.exponent + 1⟩ else d

/-- The same number with no factor of ten left in its digits. -/
def normalize (d : Decimal) : Decimal := dropZeros d.digits.log2 d

end Decimal

/-- Number of decimal digits of a natural number; zero has one. -/
def digitCount (n : Nat) : Nat := (Nat.toDigits 10 n).length

/-- The exponent `k` with `10 ^ (k - 1) ≤ r < 10 ^ k`, for a positive `r`. -/
def Ratio.decimalPoint (r : Ratio) : Int :=
  if r.den ≤ r.num then digitCount (r.num / r.den)
  else 1 - (digitCount ((r.den - 1) / r.num) : Int)

/-- Which of two decimals is written that are equally near. -/
inductive Tie where
  | upper
  | even
  deriving DecidableEq

/-- Whether the lower one of two equally near decimals is written, by its digits. -/
def Tie.takesLower : Tie → Nat → Bool
  | upper, _ => false
  | even, digits => digits % 2 == 0

namespace Format

/-- Whether a decimal rounds to the magnitude with the given bits. -/
def readsBack (f : Format) (bits : Nat) (d : Decimal) : Bool :=
  f.round d.ratio == bits

/-- The neighbour of the magnitude `r` on the grid of step `10 ^ exponent` that reads
back as the given bits; of two the nearer one. -/
def onGrid (f : Format) (tie : Tie) (bits : Nat) (r : Ratio) (exponent : Int) :
    Option Decimal :=
  let num := r.num * tenPow (-exponent).toNat
  let den := r.den * tenPow exponent.toNat
  let below : Decimal := ⟨num / den, exponent⟩
  let above : Decimal := ⟨num / den + 1, exponent⟩
  match f.readsBack bits below, f.readsBack bits above with
  | true, true =>
    if 2 * (num % den) < den then some below
    else if 2 * (num % den) = den ∧ tie.takesLower below.digits then some below
    else some above
  | true, false => some below
  | false, true => some above
  | false, false => none

/-- The first grid with a hit, from step `10 ^ exponent` downwards; after `fuel` grids
the magnitude itself, cut to the grid reached. -/
def searchGrids (f : Format) (tie : Tie) (bits : Nat) (r : Ratio) : Nat → Int → Decimal
  | 0, exponent =>
    ⟨r.num * tenPow (-exponent).toNat / (r.den * tenPow exponent.toNat), exponent⟩
  | fuel + 1, exponent =>
    match f.onGrid tie bits r exponent with
    | some d => d
    | none => searchGrids f tie bits r fuel (exponent - 1)

/-- The shortest decimal for the finite magnitude with the given bits. -/
def shortest (f : Format) (tie : Tie) (bits : Nat) : Decimal :=
  let r := f.magnitude bits
  let first := r.decimalPoint - 1
  let exact := min (f.decode bits).2 0
  (f.searchGrids tie bits r (first - exact).toNat first).normalize

end Format
end Numeric
end StyleSheet
