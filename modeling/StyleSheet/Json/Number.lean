import StyleSheet.Json.Error

/-!
# JSON numbers

A manifest holds no numbers, so a number is read only to be refused; but it is refused
by its value, and a malformed number or one out of range is reported first.

Whole numbers that fit 64 bits, with a sign or without, are exact.  Any other number
becomes a 64-bit floating-point number in two roundings: the leading digits, as many as
fit 64 bits unsigned, make a significand, and the significand is multiplied or divided
by a power of ten.  The digits after those count only for the exponent.
-/

namespace StyleSheet
namespace Json

open Numeric

/-- The largest significand. -/
def maxSignificand : Nat := 0xFFFFFFFFFFFFFFFF

/-- The largest exponent that is read exactly. -/
def maxExponent : Nat := 0x7FFFFFFF

/-- The largest power of ten that is a finite number. -/
def maxPower : Nat := 308

def digitValue (c : Char) : Nat := c.toNat - '0'.toNat

/-- Adds digits to a significand until the next one does not fit; the result has the
number of the digits that were added. -/
def addDigits (significand : Nat) : List Char → Nat × Nat
  | [] => (significand, 0)
  | c :: cs =>
    let more := significand * 10 + digitValue c
    if maxSignificand < more then (significand, 0)
    else
      let r := addDigits more cs
      (r.1, r.2 + 1)

/-- Rounded product of finite magnitudes. -/
def mulFloat (a b : Nat) : Nat :=
  let x := binary64.magnitude a
  let y := binary64.magnitude b
  binary64.round ⟨x.num * y.num, x.den * y.den⟩

/-- Rounded quotient of finite magnitudes. -/
def divFloat (a b : Nat) : Nat :=
  let x := binary64.magnitude a
  let y := binary64.magnitude b
  binary64.round ⟨x.num * y.den, x.den * y.num⟩

/-- The number nearest to a power of ten. -/
def powerOfTen (n : Nat) : Nat := binary64.round ⟨tenPow n, 1⟩

/-- The magnitude of a significand and an exponent; `none` is out of range.  A negative
exponent beyond the powers of ten is taken in steps, of which three make zero of any
significand. -/
def scaleFloat : Nat → Nat → Int → Option Nat
  | steps, magnitude, exponent =>
    if exponent.natAbs ≤ maxPower then
      if 0 ≤ exponent then
        let r := mulFloat magnitude (powerOfTen exponent.natAbs)
        if r = binary64.infinity then none else some r
      else some (divFloat magnitude (powerOfTen exponent.natAbs))
    else if magnitude = 0 then some 0
    else if 0 ≤ exponent then none
    else
      match steps with
      | 0 => some 0
      | steps + 1 =>
        scaleFloat steps (divFloat magnitude (powerOfTen maxPower)) (exponent + maxPower)

/-- A number of a sign, a significand and an exponent, read up to the text `rest`. -/
def makeFloat (negative : Bool) (significand : Nat) (exponent : Int) (rest : List Char) :
    Except Fault (Found × List Char) :=
  match scaleFloat 3 (binary64.round ⟨significand, 1⟩) exponent with
  | some magnitude => .ok (.float negative magnitude, rest)
  | none => .error (.here .numberOutOfRange rest)

/-- The digits of an exponent after its first one, or the text after the digit that makes
it too large. -/
def exponentDigits (value : Nat) : List Char → Except (List Char) (Nat × List Char)
  | [] => .ok (value, [])
  | c :: cs =>
    if c.isDigit then
      let more := 10 * value + digitValue c
      if maxExponent < more then .error cs else exponentDigits more cs
    else .ok (value, c :: cs)

/-- A number from the text after its `e`. -/
def readExponent (negative : Bool) (significand : Nat) (exponent : Int) (s : List Char) :
    Except Fault (Found × List Char) :=
  let down := s.head? == some '-'
  let digits := if down || s.head? == some '+' then s.drop 1 else s
  match digits with
  | [] => .error (.here .endInValue [])
  | c :: cs =>
    if c.isDigit then
      match exponentDigits (digitValue c) cs with
      | .ok (value, rest) =>
        makeFloat negative significand (if down then exponent - value else exponent + value) rest
      | .error rest =>
        if significand ≠ 0 ∧ !down then .error (.here .numberOutOfRange rest)
        else .ok (.float negative 0, rest.dropWhile Char.isDigit)
    else .error ⟨.invalidNumber, digits, 1⟩

/-- Whether an exponent starts here. -/
def startsExponent (s : List Char) : Bool := s.head? == some 'e' || s.head? == some 'E'

/-- A number from the text after its point. -/
def readFraction (negative : Bool) (significand : Nat) (exponent : Int) (s : List Char) :
    Except Fault (Found × List Char) :=
  let digits := s.takeWhile Char.isDigit
  let rest := s.dropWhile Char.isDigit
  if digits = [] then
    .error (if s = [] then .here .endInValue [] else .next .invalidNumber s)
  else
    let r := addDigits significand digits
    let scale := exponent - r.2
    if startsExponent rest then readExponent negative r.1 scale (rest.drop 1)
    else makeFloat negative r.1 scale rest

/-- The whole number of a sign and a significand, if it fits 64 bits; zero keeps a
negative sign. -/
def wholeNumber (negative : Bool) (significand : Nat) : Found :=
  if !negative then .integer significand
  else if 0 < significand ∧ significand ≤ 0x8000000000000000 then
    .integer (-(significand : Int))
  else .float true (binary64.round ⟨significand, 1⟩)

/-- A number after its sign. -/
def readNumber (negative : Bool) (s : List Char) : Except Fault (Found × List Char) :=
  match s with
  | [] => .error (.here .endInValue [])
  | c :: cs =>
    if !c.isDigit then .error ⟨.invalidNumber, s, 1⟩
    else if c = '0' ∧ (cs.head?.any Char.isDigit) then .error (.next .invalidNumber cs)
    else
      let digits := s.takeWhile Char.isDigit
      let rest := s.dropWhile Char.isDigit
      let r := addDigits 0 digits
      let exponent : Int := ((digits.length - r.2 : Nat) : Int)
      if rest.head? = some '.' then readFraction negative r.1 exponent (rest.drop 1)
      else if startsExponent rest then readExponent negative r.1 exponent (rest.drop 1)
      else if exponent = 0 then .ok (wholeNumber negative r.1, rest)
      else makeFloat negative r.1 exponent rest

end Json
end StyleSheet
