import StyleSheet.Property
import StyleSheet.Setting.Target
import StyleSheet.Value.Color
import StyleSheet.Value.Keyword
import StyleSheet.Value.Length

/-!
# Typed settings

A setting is one typed call of a theme author: which property, and values of the right
type.  `Setting.property` lowers it to a declaration.  One setting is one declaration,
and a setting knows nothing of the others, so a list of settings is lowered by
`List.map`: nothing is merged, and of two settings of one property both are written,
the later one winning in the engine.

Settings whose value is text (`TextProperty`, `custom`) take it unchecked.  They are
for what the typed ones do not cover.
-/

namespace StyleSheet

/-- A font asset, by its name among the font resources. -/
structure Font where
  name : String
  deriving DecidableEq

/-- The font as it is written in a style sheet. -/
def Font.text (f : Font) : String := "resource('Fonts/" ++ f.name ++ "')"

/-- One typed setting of a property. -/
inductive Setting where
  | length (target : LengthProperty) (value : Length)
  | number (target : NumberProperty) (value : Single)
  | pixels (target : PixelProperty) (value : Single)
  /-- Vertical before horizontal; of radii, the diagonal from the top left before the
  other one. -/
  | pixelPair (target : PixelPairProperty) (first second : Single)
  /-- Clockwise, from the top or from the top left. -/
  | pixelQuad (target : PixelQuadProperty) (first second third fourth : Single)
  | color (target : ColorProperty) (value : Color)
  | text (target : TextProperty) (value : String)
  | flexDirection (value : FlexDirection)
  | flexWrap (value : Wrap)
  | alignItems (value : Align)
  | alignSelf (value : Align)
  | alignContent (value : Align)
  | justifyContent (value : Justify)
  | position (value : Positioning)
  | display (value : Display)
  | visibility (value : Visibility)
  | overflow (value : Overflow)
  | textOverflow (value : TextOverflow)
  | whiteSpace (value : WhiteSpace)
  | fontStyleAndWeight (value : FontStyle)
  | textAlign (value : TextAnchor)
  | backgroundPosition (horizontal vertical : BackgroundPosition)
  | backgroundRepeat (horizontal vertical : Repeat)
  | backgroundSize (width height : Length)
  /-- A rotation in degrees. -/
  | rotate (degrees : Single)
  /-- A font, or `none` to clear it. -/
  | font (value : Option Font)
  /-- Any property, with name and value taken as they are. -/
  | custom (name value : String)
  deriving DecidableEq

namespace Setting

/-- A number of pixels as it is written in a style sheet. -/
def pixelText (x : Single) : String := x.text ++ "px"

/-- The name under which the setting is called. -/
def call : Setting → String
  | .length target _ => target.call
  | .number target _ => target.call
  | .pixels target _ => target.call
  | .pixelPair target _ _ => target.call
  | .pixelQuad target _ _ _ _ => target.call
  | .color target _ => target.call
  | .text target _ => target.call
  | .flexDirection _ => "flex_direction"
  | .flexWrap _ => "flex_wrap"
  | .alignItems _ => "align_items"
  | .alignSelf _ => "align_self"
  | .alignContent _ => "align_content"
  | .justifyContent _ => "justify_content"
  | .position _ => "position"
  | .display _ => "display"
  | .visibility _ => "visibility"
  | .overflow _ => "overflow"
  | .textOverflow _ => "text_overflow"
  | .whiteSpace _ => "white_space"
  | .fontStyleAndWeight _ => "font_style_and_weight"
  | .textAlign _ => "text_align"
  | .backgroundPosition _ _ => "background_position"
  | .backgroundRepeat _ _ => "background_repeat"
  | .backgroundSize _ _ => "background_size"
  | .rotate _ => "rotate"
  | .font _ => "font"
  | .custom _ _ => "prop"

/-- The name of the declaration. -/
def name : Setting → String
  | .length target _ => target.name
  | .number target _ => target.name
  | .pixels target _ => target.name
  | .pixelPair target _ _ => target.name
  | .pixelQuad target _ _ _ _ => target.name
  | .color target _ => target.name
  | .text target _ => target.name
  | .flexDirection _ => "flex-direction"
  | .flexWrap _ => "flex-wrap"
  | .alignItems _ => "align-items"
  | .alignSelf _ => "align-self"
  | .alignContent _ => "align-content"
  | .justifyContent _ => "justify-content"
  | .position _ => "position"
  | .display _ => "display"
  | .visibility _ => "visibility"
  | .overflow _ => "overflow"
  | .textOverflow _ => "text-overflow"
  | .whiteSpace _ => "white-space"
  | .fontStyleAndWeight _ => "-unity-font-style"
  | .textAlign _ => "-unity-text-align"
  | .backgroundPosition _ _ => "background-position"
  | .backgroundRepeat _ _ => "background-repeat"
  | .backgroundSize _ _ => "background-size"
  | .rotate _ => "rotate"
  | .font _ => "-unity-font-definition"
  | .custom name _ => name

/-- The written value of the declaration. -/
def value : Setting → String
  | .length _ v => v.text
  | .number _ x => x.text
  | .pixels _ x => pixelText x
  | .pixelPair _ x y => pixelText x ++ " " ++ pixelText y
  | .pixelQuad _ x y z w =>
    pixelText x ++ " " ++ pixelText y ++ " " ++ pixelText z ++ " " ++ pixelText w
  | .color _ c => c.text
  | .text _ t => t
  | .flexDirection k => Keyword.text k
  | .flexWrap k => Keyword.text k
  | .alignItems k => Keyword.text k
  | .alignSelf k => Keyword.text k
  | .alignContent k => Keyword.text k
  | .justifyContent k => Keyword.text k
  | .position k => Keyword.text k
  | .display k => Keyword.text k
  | .visibility k => Keyword.text k
  | .overflow k => Keyword.text k
  | .textOverflow k => Keyword.text k
  | .whiteSpace k => Keyword.text k
  | .fontStyleAndWeight k => Keyword.text k
  | .textAlign k => Keyword.text k
  | .backgroundPosition h v => Keyword.text h ++ " " ++ Keyword.text v
  | .backgroundRepeat h v => Keyword.text h ++ " " ++ Keyword.text v
  | .backgroundSize w h => w.text ++ " " ++ h.text
  | .rotate x => x.text ++ "deg"
  | .font (some f) => f.text
  | .font none => "none"
  | .custom _ v => v

/-- The declaration that a setting stands for. -/
def property (s : Setting) : Property := ⟨s.name, s.value⟩

@[simp] theorem name_property (s : Setting) : s.property.name = s.name := rfl

@[simp] theorem value_property (s : Setting) : s.property.value = s.value := rfl

end Setting
end StyleSheet
