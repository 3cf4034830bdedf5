import StyleSheet.Numeric.Numeral

/-!
# 32-bit floating-point numbers

A `Single` is its 32 bits: one for the sign and 31 for the magnitude, which
`Numeric.binary32` reads.  Keeping the bits rather than a value keeps every number a
style can hold, `NaN` and the negative zero included, and leaves all arithmetic to
exact quotients that are rounded once.

Equality of numbers is `Single.equal`, not `=`: `NaN` equals nothing and the two zeros
are equal.
-/

namespace StyleSheet

open Numeric

/-- A 32-bit floating-point number, as its bits. -/
structure Single where
  bits : UInt32
  deriving DecidableEq

namespace Single

/-- The sign bit. -/
def signBit : Nat := 0x80000000

/-- Number with the given sign and bits of the magnitude. -/
def ofMagnitude (negative : Bool) (magnitude : Nat) : Single :=
  ⟨UInt32.ofNat (if negative then signBit + magnitude else magnitude)⟩

/-- Whether the sign bit is set. -/
def negative (x : Single) : Bool := signBit ≤ x.bits.toNat

/-- Bits without the sign. -/
def magnitude (x : Single) : Nat := x.bits.toNat % signBit

/-- Whether the bits stand for no number. -/
def isNaN (x : Single) : Bool := binary32.infinity < x.magnitude

/-- Whether the bits stand for a number that is not infinite. -/
def isFinite (x : Single) : Bool := x.magnitude < binary32.infinity

/-- The absolute value of a finite number, exactly. -/
def ratio (x : Single) : Ratio := binary32.magnitude x.magnitude

/-- The nearest number to an integer; zero is positive. -/
def ofInt (i : Int) : Single := ofMagnitude (i < 0) (binary32.round ⟨i.natAbs, 1⟩)

def zero : Single := ofInt 0

def one : Single := ofInt 1

/-- The nearest number to `n / 255`. -/
def ofByte (n : UInt8) : Single := ofMagnitude false (binary32.round ⟨n.toNat, 255⟩)

/-- Equality as numbers. -/
def equal (x y : Single) : Bool :=
  !x.isNaN && !y.isNaN && (x == y || (x.magnitude == 0 && y.magnitude == 0))

/-- Bits of the magnitude of the rounded product of a finite number and a factor. -/
def scale (x : Single) (factor : Nat) : Nat :=
  binary32.round ⟨x.ratio.num * factor, x.ratio.den⟩

/-- Bits of the magnitude of the rounded difference of a finite number and one. -/
def distanceToOne (x : Single) : Nat :=
  let num : Int := if x.negative then -(x.ratio.num : Int) else x.ratio.num
  binary32.round ⟨(num - x.ratio.den).natAbs, x.ratio.den⟩

/-- The number as it is written in a style sheet: the shortest numeral that reads
back, without an exponent; of two equally near ones the upper one. -/
def numeral (x : Single) : List Char :=
  if x.isNaN then ['N', 'a', 'N']
  else
    let sign := if x.negative then ['-'] else []
    if x.isFinite then
      if x.magnitude = 0 then sign ++ ['0']
      else sign ++ (binary32.shortest .upper x.magnitude).positional
    else sign ++ ['i', 'n', 'f']

/-- The numeral as a string. -/
def text (x : Single) : String := String.ofList x.numeral

@[simp] theorem toList_text (x : Single) : x.text.toList = x.numeral := by
  simp [text]

end Single
end StyleSheet
