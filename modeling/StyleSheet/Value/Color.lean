import StyleSheet.Numeric.Single

/-!
# Colors

A color has four channels, nominally between zero and one.  In a style sheet red,
green and blue are whole numbers up to 255, rounded half to even after the product
with 255 has been rounded to a 32-bit number; what lies outside is clamped, and `NaN`
counts as zero.  The alpha channel is written as a number, and left out when it is so
close to one that the color counts as opaque.
-/

namespace StyleSheet

open Numeric

/-- A color by its red, green, blue and alpha channels. -/
structure Color where
  red : Single
  green : Single
  blue : Single
  alpha : Single
  deriving DecidableEq

namespace Color

/-- An opaque color. -/
def rgb (red green blue : Single) : Color := ⟨red, green, blue, .one⟩

/-- The opaque color with the given channels out of 255. -/
def rgb8 (red green blue : UInt8) : Color := rgb (.ofByte red) (.ofByte green) (.ofByte blue)

def black : Color := rgb .zero .zero .zero

def white : Color := rgb .one .one .one

def pureRed : Color := rgb .one .zero .zero

def pureGreen : Color := rgb .zero .one .zero

def pureBlue : Color := rgb .zero .zero .one

/-- No color at all, which is also the default color. -/
def clear : Color := ⟨.zero, .zero, .zero, .zero⟩

/-- Equality of all channels as numbers. -/
def equal (a b : Color) : Bool :=
  a.red.equal b.red && a.green.equal b.green && a.blue.equal b.blue && a.alpha.equal b.alpha

/-- A channel out of 255. -/
def channel (x : Single) : Nat :=
  if x.isNaN || x.negative then 0
  else
    let product := binary32.magnitude (x.scale 255)
    min (roundHalfEven product.num product.den) 255

/-- Bits of the distance from one at which an alpha channel begins to show. -/
def opaqueMargin : Nat := binary32.round ⟨1, 100000⟩

/-- Whether the alpha channel is left out. -/
def isOpaque (c : Color) : Bool :=
  c.alpha.isFinite && c.alpha.distanceToOne < opaqueMargin

/-- The three channels out of 255. -/
def channelText (c : Color) : String :=
  Nat.repr (channel c.red) ++ ", " ++ Nat.repr (channel c.green) ++ ", " ++
    Nat.repr (channel c.blue)

/-- The color as it is written in a style sheet. -/
def text (c : Color) : String :=
  if c.isOpaque then "rgb(" ++ c.channelText ++ ")"
  else "rgba(" ++ c.channelText ++ ", " ++ c.alpha.text ++ ")"

theorem channel_le (x : Single) : channel x ≤ 255 := by
  unfold channel
  split
  · exact Nat.zero_le _
  · exact Nat.min_le_right _ _

end Color
end StyleSheet
