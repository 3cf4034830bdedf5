import StyleSheet.Numeric.Single

/-!
# Lengths

A length is a number with a unit, or one of the keywords `auto` and `none`.  A keyword
keeps a number too, which its text ignores but equality does not.
-/

namespace StyleSheet

/-- What a length is measured in. -/
inductive LengthUnit where
  | pixel
  | percent
  | auto
  | none
  deriving DecidableEq

/-- A length. -/
structure Length where
  value : Single
  unit : LengthUnit
  deriving DecidableEq

namespace Length

def px (value : Single) : Length := ⟨value, .pixel⟩

def percent (value : Single) : Length := ⟨value, .percent⟩

def auto : Length := ⟨.zero, .auto⟩

def none : Length := ⟨.zero, .none⟩

/-- The length zero, which is also the default length. -/
def zero : Length := ⟨.zero, .pixel⟩

/-- A whole number of pixels. -/
def ofInt (i : Int) : Length := px (.ofInt i)

/-- Equal units and equal numbers. -/
def equal (a b : Length) : Bool := a.value.equal b.value && a.unit == b.unit

/-- The length as it is written in a style sheet. -/
def text (l : Length) : String :=
  match l.unit with
  | .auto => "auto"
  | .none => "none"
  | .percent => l.value.text ++ "%"
  | .pixel => l.value.text ++ "px"

@[simp] theorem text_px (x : Single) : (px x).text = x.text ++ "px" := rfl

@[simp] theorem text_percent (x : Single) : (percent x).text = x.text ++ "%" := rfl

@[simp] theorem text_auto (x : Single) : (Length.mk x .auto).text = "auto" := rfl

@[simp] theorem text_none (x : Single) : (Length.mk x .none).text = "none" := rfl

end Length
end StyleSheet
