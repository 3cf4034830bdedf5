/-!
# Keywords

Many properties take one of a few words.  Each such group is an enumeration with the
word of every member, and with a member that stands in for words that name none: a
stray word in a theme falls back to the group's usual value and does not stop the
generation of a sheet.

Words are compared as they are, capital letters included.
-/

namespace StyleSheet

/-- A group of keywords. -/
class Keyword (α : Type) where
  /-- The members of the group. -/
  all : List α
  /-- The word of a member. -/
  text : α → String
  /-- The member that stands in for an unknown word. -/
  fallback : α

namespace Keyword

variable {α : Type} [Keyword α]

/-- The member with the given word. -/
def ofText? (word : String) : Option α := (all : List α).find? fun k => text k == word

/-- The member with the given word, or the fallback of the group. -/
def ofText (word : String) : α := (ofText? word).getD fallback

end Keyword

/-- Main axis of a flexible container. -/
inductive FlexDirection where
  | row
  | rowReverse
  | column
  | columnReverse
  deriving DecidableEq

instance : Keyword FlexDirection where
  all := [.row, .rowReverse, .column, .columnReverse]
  text
    | .row => "row"
    | .rowReverse => "row-reverse"
    | .column => "column"
    | .columnReverse => "column-reverse"
  fallback := .row

/-- Breaking of a flexible line. -/
inductive Wrap where
  | noWrap
  | wrap
  | wrapReverse
  deriving DecidableEq

instance : Keyword Wrap where
  all := [.noWrap, .wrap, .wrapReverse]
  text
    | .noWrap => "nowrap"
    | .wrap => "wrap"
    | .wrapReverse => "wrap-reverse"
  fallback := .noWrap

/-- Alignment across the main axis. -/
inductive Align where
  | auto
  | flexStart
  | center
  | flexEnd
  | stretch
  deriving DecidableEq

instance : Keyword Align where
  all := [.auto, .flexStart, .center, .flexEnd, .stretch]
  text
    | .auto => "auto"
    | .flexStart => "flex-start"
    | .center => "center"
    | .flexEnd => "flex-end"
    | .stretch => "stretch"
  fallback := .auto

/-- Distribution along the main axis. -/
inductive Justify where
  | flexStart
  | center
  | flexEnd
  | spaceBetween
  | spaceAround
  deriving DecidableEq

instance : Keyword Justify where
  all := [.flexStart, .center, .flexEnd, .spaceBetween, .spaceAround]
  text
    | .flexStart => "flex-start"
    | .center => "center"
    | .flexEnd => "flex-end"
    | .spaceBetween => "space-between"
    | .spaceAround => "space-around"
  fallback := .flexStart

/-- Positioning scheme of an element. -/
inductive Positioning where
  | relative
  | absolute
  deriving DecidableEq

instance : Keyword Positioning where
  all := [.relative, .absolute]
  text
    | .relative => "relative"
    | .absolute => "absolute"
  fallback := .relative

/-- Whether an element takes part in the layout. -/
inductive Display where
  | flex
  | none
  deriving DecidableEq

instance : Keyword Display where
  all := [.flex, .none]
  text
    | .flex => "flex"
    | .none => "none"
  fallback := .flex

/-- Whether an element is drawn. -/
inductive Visibility where
  | visible
  | hidden
  deriving DecidableEq

instance : Keyword Visibility where
  all := [.visible, .hidden]
  text
    | .visible => "visible"
    | .hidden => "hidden"
  fallback := .visible

/-- Whether content is clipped at the border. -/
inductive Overflow where
  | visible
  | hidden
  deriving DecidableEq

instance : Keyword Overflow where
  all := [.visible, .hidden]
  text
    | .visible => "visible"
    | .hidden => "hidden"
  fallback := .visible

/-- How clipped text ends. -/
inductive TextOverflow where
  | clip
  | ellipsis
  deriving DecidableEq

instance : Keyword TextOverflow where
  all := [.clip, .ellipsis]
  text
    | .clip => "clip"
    | .ellipsis => "ellipsis"
  fallback := .clip

/-- Whether text is broken into lines. -/
inductive WhiteSpace where
  | normal
  | noWrap
  deriving DecidableEq

instance : Keyword WhiteSpace where
  all := [.normal, .noWrap]
  text
    | .normal => "normal"
    | .noWrap => "nowrap"
  fallback := .normal

/-- Slant and weight of a font. -/
inductive FontStyle where
  | normal
  | bold
  | italic
  | boldAndItalic
  deriving DecidableEq

instance : Keyword FontStyle where
  all := [.normal, .bold, .italic, .boldAndItalic]
  text
    | .normal => "normal"
    | .bold => "bold"
    | .italic => "italic"
    | .boldAndItalic => "bold-and-italic"
  fallback := .normal

/-- Where text stands in its box. -/
inductive TextAnchor where
  | upperLeft
  | upperCenter
  | upperRight
  | middleLeft
  | middleCenter
  | middleRight
  | lowerLeft
  | lowerCenter
  | lowerRight
  deriving DecidableEq

instance : Keyword TextAnchor where
  all := [.upperLeft, .upperCenter, .upperRight, .middleLeft, .middleCenter, .middleRight,
    .lowerLeft, .lowerCenter, .lowerRight]
  text
    | .upperLeft => "upper-left"
    | .upperCenter => "upper-center"
    | .upperRight => "upper-right"
    | .middleLeft => "middle-left"
    | .middleCenter => "middle-center"
    | .middleRight => "middle-right"
    | .lowerLeft => "lower-left"
    | .lowerCenter => "lower-center"
    | .lowerRight => "lower-right"
  fallback := .middleLeft

/-- Place of a background image along one axis. -/
inductive BackgroundPosition where
  | left
  | center
  | right
  | top
  | bottom
  deriving DecidableEq

instance : Keyword BackgroundPosition where
  all := [.left, .center, .right, .top, .bottom]
  text
    | .left => "left"
    | .center => "center"
    | .right => "right"
    | .top => "top"
    | .bottom => "bottom"
  fallback := .center

/-- Repetition of a background image along one axis. -/
inductive Repeat where
  | noRepeat
  | repeated
  | round
  | space
  deriving DecidableEq

instance : Keyword Repeat where
  all := [.noRepeat, .repeated, .round, .space]
  text
    | .noRepeat => "no-repeat"
    | .repeated => "repeat"
    | .round => "round"
    | .space => "space"
  fallback := .noRepeat

end StyleSheet
