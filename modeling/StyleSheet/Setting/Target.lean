/-!
# Settable properties

The typed settings come in shapes: a length, a bare number, a number of pixels, two or
four numbers of pixels, a color, or text that is taken as it is.  For each shape this
module lists the properties that take it, with the name of the call that sets the
property and the name of the property itself.  The two differ where a property has
several calls, one for each number of values, and where the property belongs to the
engine.
-/

namespace StyleSheet

/-- Properties whose value is one length. -/
inductive LengthProperty where
  | width
  | height
  | minWidth
  | minHeight
  | maxWidth
  | maxHeight
  | flexBasis
  | paddingTop
  | paddingRight
  | paddingBottom
  | paddingLeft
  | marginTop
  | marginRight
  | marginBottom
  | marginLeft
  | top
  | right
  | bottom
  | left
  deriving DecidableEq

namespace LengthProperty

/-- All properties of this kind. -/
def all : List LengthProperty :=
  [.width, .height, .minWidth, .minHeight, .maxWidth, .maxHeight, .flexBasis, .paddingTop,
    .paddingRight, .paddingBottom, .paddingLeft, .marginTop, .marginRight, .marginBottom,
    .marginLeft, .top, .right, .bottom, .left]

/-- The name under which the setting is called. -/
def call : LengthProperty → String
  | .width => "width"
  | .height => "height"
  | .minWidth => "min_width"
  | .minHeight => "min_height"
  | .maxWidth => "max_width"
  | .maxHeight => "max_height"
  | .flexBasis => "flex_basis"
  | .paddingTop => "padding_top"
  | .paddingRight => "padding_right"
  | .paddingBottom => "padding_bottom"
  | .paddingLeft => "padding_left"
  | .marginTop => "margin_top"
  | .marginRight => "margin_right"
  | .marginBottom => "margin_bottom"
  | .marginLeft => "margin_left"
  | .top => "top"
  | .right => "right"
  | .bottom => "bottom"
  | .left => "left"

/-- The name of the property in a style sheet. -/
def name : LengthProperty → String
  | .width => "width"
  | .height => "height"
  | .minWidth => "min-width"
  | .minHeight => "min-height"
  | .maxWidth => "max-width"
  | .maxHeight => "max-height"
  | .flexBasis => "flex-basis"
  | .paddingTop => "padding-top"
  | .paddingRight => "padding-right"
  | .paddingBottom => "padding-bottom"
  | .paddingLeft => "padding-left"
  | .marginTop => "margin-top"
  | .marginRight => "margin-right"
  | .marginBottom => "margin-bottom"
  | .marginLeft => "margin-left"
  | .top => "top"
  | .right => "right"
  | .bottom => "bottom"
  | .left => "left"

end LengthProperty

/-- Properties whose value is a bare number. -/
inductive NumberProperty where
  | flexGrow
  | flexShrink
  | opacity
  deriving DecidableEq

namespace NumberProperty

/-- All properties of this kind. -/
def all : List NumberProperty :=
  [.flexGrow, .flexShrink, .opacity]

/-- The name under which the setting is called. -/
def call : NumberProperty → String
  | .flexGrow => "flex_grow"
  | .flexShrink => "flex_shrink"
  | .opacity => "opacity"

/-- The name of the property in a style sheet. -/
def name : NumberProperty → String
  | .flexGrow => "flex-grow"
  | .flexShrink => "flex-shrink"
  | .opacity => "opacity"

end NumberProperty

/-- Properties whose value is a number of pixels. -/
inductive PixelProperty where
  | padding
  | margin
  | borderWidth
  | borderTopWidth
  | borderRightWidth
  | borderBottomWidth
  | borderLeftWidth
  | borderRadius
  | borderTopLeftRadius
  | borderTopRightRadius
  | borderBottomRightRadius
  | borderBottomLeftRadius
  | fontSize
  | letterSpacing
  deriving DecidableEq

namespace PixelProperty

/-- All properties of this kind. -/
def all : List PixelProperty :=
  [.padding, .margin, .borderWidth, .borderTopWidth, .borderRightWidth,
    .borderBottomWidth, .borderLeftWidth, .borderRadius, .borderTopLeftRadius,
    .borderTopRightRadius, .borderBottomRightRadius, .borderBottomLeftRadius, .fontSize,
    .letterSpacing]

/-- The name under which the setting is called. -/
def call : PixelProperty → String
  | .padding => "padding"
  | .margin => "margin"
  | .borderWidth => "border_width"
  | .borderTopWidth => "border_top_width"
  | .borderRightWidth => "border_right_width"
  | .borderBottomWidth => "border_bottom_width"
  | .borderLeftWidth => "border_left_width"
  | .borderRadius => "border_radius"
  | .borderTopLeftRadius => "border_top_left_radius"
  | .borderTopRightRadius => "border_top_right_radius"
  | .borderBottomRightRadius => "border_bottom_right_radius"
  | .borderBottomLeftRadius => "border_bottom_left_radius"
  | .fontSize => "font_size"
  | .letterSpacing => "letter_spacing"

/-- The name of the property in a style sheet. -/
def name : PixelProperty → String
  | .padding => "padding"
  | .margin => "margin"
  | .borderWidth => "border-width"
  | .borderTopWidth => "border-top-width"
  | .borderRightWidth => "border-right-width"
  | .borderBottomWidth => "border-bottom-width"
  | .borderLeftWidth => "border-left-width"
  | .borderRadius => "border-radius"
  | .borderTopLeftRadius => "border-top-left-radius"
  | .borderTopRightRadius => "border-top-right-radius"
  | .borderBottomRightRadius => "border-bottom-right-radius"
  | .borderBottomLeftRadius => "border-bottom-left-radius"
  | .fontSize => "font-size"
  | .letterSpacing => "letter-spacing"

end PixelProperty

/-- Properties whose value is two numbers of pixels. -/
inductive PixelPairProperty where
  | padding
  | margin
  | borderRadius
  | backgroundSize
  deriving DecidableEq

namespace PixelPairProperty

/-- All properties of this kind. -/
def all : List PixelPairProperty :=
  [.padding, .margin, .borderRadius, .backgroundSize]

/-- The name under which the setting is called. -/
def call : PixelPairProperty → String
  | .padding => "padding2"
  | .margin => "margin2"
  | .borderRadius => "border_radius2"
  | .backgroundSize => "background_size_px"

/-- The name of the property in a style sheet. -/
def name : PixelPairProperty → String
  | .padding => "padding"
  | .margin => "margin"
  | .borderRadius => "border-radius"
  | .backgroundSize => "background-size"

end PixelPairProperty

/-- Properties whose value is four numbers of pixels. -/
inductive PixelQuadProperty where
  | padding
  | margin
  | borderRadius
  deriving DecidableEq

namespace PixelQuadProperty

/-- All properties of this kind. -/
def all : List PixelQuadProperty :=
  [.padding, .margin, .borderRadius]

/-- The name under which the setting is called. -/
def call : PixelQuadProperty → String
  | .padding => "padding4"
  | .margin => "margin4"
  | .borderRadius => "border_radius4"

/-- The name of the property in a style sheet. -/
def name : PixelQuadProperty → String
  | .padding => "padding"
  | .margin => "margin"
  | .borderRadius => "border-radius"

end PixelQuadProperty

/-- Properties whose value is a color. -/
inductive ColorProperty where
  | backgroundColor
  | color
  | borderColor
  | borderTopColor
  | borderRightColor
  | borderBottomColor
  | borderLeftColor
  | backgroundImageTint
  deriving DecidableEq

namespace ColorProperty

/-- All properties of this kind. -/
def all : List ColorProperty :=
  [.backgroundColor, .color, .borderColor, .borderTopColor, .borderRightColor,
    .borderBottomColor, .borderLeftColor, .backgroundImageTint]

/-- The name under which the setting is called. -/
def call : ColorProperty → String
  | .backgroundColor => "background_color"
  | .color => "color"
  | .borderColor => "border_color"
  | .borderTopColor => "border_top_color"
  | .borderRightColor => "border_right_color"
  | .borderBottomColor => "border_bottom_color"
  | .borderLeftColor => "border_left_color"
  | .backgroundImageTint => "background_image_tint_color"

/-- The name of the property in a style sheet. -/
def name : ColorProperty → String
  | .backgroundColor => "background-color"
  | .color => "color"
  | .borderColor => "border-color"
  | .borderTopColor => "border-top-color"
  | .borderRightColor => "border-right-color"
  | .borderBottomColor => "border-bottom-color"
  | .borderLeftColor => "border-left-color"
  | .backgroundImageTint => "-unity-background-image-tint-color"

end ColorProperty

/-- Properties whose value is text taken as it is. -/
inductive TextProperty where
  | fontDefinition
  | backgroundImage
  | backgroundImageTint
  | backgroundScaleMode
  deriving DecidableEq

namespace TextProperty

/-- All properties of this kind. -/
def all : List TextProperty :=
  [.fontDefinition, .backgroundImage, .backgroundImageTint, .backgroundScaleMode]

/-- The name under which the setting is called. -/
def call : TextProperty → String
  | .fontDefinition => "font_definition"
  | .backgroundImage => "background_image"
  | .backgroundImageTint => "background_image_tint_hex"
  | .backgroundScaleMode => "background_scale_mode"

/-- The name of the property in a style sheet. -/
def name : TextProperty → String
  | .fontDefinition => "-unity-font-definition"
  | .backgroundImage => "background-image"
  | .backgroundImageTint => "-unity-background-image-tint-color"
  | .backgroundScaleMode => "-unity-background-scale-mode"

end TextProperty

end StyleSheet
