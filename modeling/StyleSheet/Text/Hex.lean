/-!
# Hexadecimal digits

Reading takes capital and small digits, writing uses small ones.
-/

namespace StyleSheet
namespace Text

/-- The value of a hexadecimal digit. -/
def hexValue? (c : Char) : Option Nat :=
  if '0' ≤ c ∧ c ≤ '9' then some (c.toNat - '0'.toNat)
  else if 'a' ≤ c ∧ c ≤ 'f' then some (c.toNat - 'a'.toNat + 10)
  else if 'A' ≤ c ∧ c ≤ 'F' then some (c.toNat - 'A'.toNat + 10)
  else none

def isHexDigit (c : Char) : Bool := (hexValue? c).isSome

/-- The number that hexadecimal digits stand for. -/
def hexNumber (digits : List Char) : Nat :=
  digits.foldl (fun n c => 16 * n + (hexValue? c).getD 0) 0

/-- The hexadecimal digits of a number. -/
def hexText (n : Nat) : List Char := Nat.toDigits 16 n

/-- What stands for a character that cannot be. -/
def replacement : Char := '\ufffd'

/-- The character with a number, or the replacement if there is none. -/
def charOfNat (n : Nat) : Char := if n.isValidChar then Char.ofNat n else replacement

end Text
end StyleSheet
