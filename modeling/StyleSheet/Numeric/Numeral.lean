import StyleSheet.Numeric.Shortest

/-!
# Written numerals

Style sheets have no exponents: a decimal is written positionally however long that
gets (`positional`).  Messages about a JSON document quote its numbers the way JSON
writes them, with an exponent once the number gets long (`scientific`).
-/

namespace StyleSheet
namespace Numeric

/-- The decimal digits of a natural number. -/
def digitText (n : Nat) : List Char := Nat.toDigits 10 n

namespace Decimal

/-- Digits with a decimal point where the exponent puts it, and no point in a whole
number. -/
def positional (d : Decimal) : List Char :=
  let digits := digitText d.digits
  let places := (-d.exponent).toNat
  if places = 0 then digits ++ List.replicate d.exponent.toNat '0'
  else if places < digits.length then
    digits.take (digits.length - places) ++ '.' :: digits.drop (digits.length - places)
  else '0' :: '.' :: (List.replicate (places - digits.length) '0' ++ digits)

/-- A whole number keeps a fraction of one zero. -/
def withFraction (d : Decimal) : List Char :=
  if d.exponent < 0 then d.positional else d.positional ++ ['.', '0']

/-- Positional from `0.00001` up to sixteen places before the point; otherwise one
digit, the fraction if there is one, and a signed exponent. -/
def scientific (d : Decimal) : List Char :=
  let digits := digitText d.digits
  let leading := d.exponent + digits.length - 1
  if -5 ≤ leading ∧ leading ≤ 15 then d.withFraction
  else
    let fraction := if digits.length = 1 then [] else '.' :: digits.drop 1
    let sign := if leading < 0 then '-' else '+'
    digits.take 1 ++ fraction ++ 'e' :: sign :: digitText leading.natAbs

end Decimal
end Numeric
end StyleSheet
