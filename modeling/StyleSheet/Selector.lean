import StyleSheet.Builder

/-!
# Selectors

A selector is text: combining selectors combines their texts, and no selector keeps a
link to the ones it was made of.  Beside its text a selector knows whether it is a bare
class, since an element's class list names classes without the dot.  Any combination of
selectors is no longer a bare class.

There is no combinator for the parent of an element.  `inverseChild` exists so that an
author who looks for one is told what to write instead.
-/

namespace StyleSheet

/-- A selector: its text, and the name of the class if it is a bare one. -/
structure Selector where
  text : String
  className : Option String
  deriving DecidableEq

/-- A state of an element that a selector can ask for. -/
inductive PseudoClass where
  | hover
  | active
  | focus
  | checked
  | disabled
  | enabled
  | root
  deriving DecidableEq

/-- The word of a pseudo-class. -/
def PseudoClass.keyword : PseudoClass → String
  | .hover => "hover"
  | .active => "active"
  | .focus => "focus"
  | .checked => "checked"
  | .disabled => "disabled"
  | .enabled => "enabled"
  | .root => "root"

/-- All pseudo-classes. -/
def PseudoClass.all : List PseudoClass :=
  [.hover, .active, .focus, .checked, .disabled, .enabled, .root]

/-- A combinator that style sheets do not have. -/
inductive UnsupportedCombinator where
  | inverseChild
  deriving DecidableEq

/-- What an author is told who asks for it. -/
def UnsupportedCombinator.message : UnsupportedCombinator → String
  | .inverseChild =>
    "unsupported combinator `<`: use `child` (or `>>`) for the child combinator"

namespace Selector

/-- A selector with the given text, taken as it is. -/
def raw (text : String) : Selector := ⟨text, none⟩

/-- Elements of a class. -/
def ofClass (name : String) : Selector := ⟨"." ++ name, some name⟩

/-- The element with an id. -/
def ofId (name : String) : Selector := raw ("#" ++ name)

/-- Elements of a type. -/
def ofType (name : String) : Selector := raw name

/-- All elements. -/
def all : Selector := raw "*"

/-- The characters before the first separator `::`, if there is one. -/
def pathSegment : List Char → List Char
  | ':' :: ':' :: _ => []
  | c :: cs => c :: pathSegment cs
  | [] => []

/-- The name of a type without its path and its arguments: of the characters before the
first `<` those after the last `::`. -/
def baseName (path : List Char) : List Char :=
  (pathSegment (path.takeWhile (· ≠ '<')).reverse).reverse

/-- Elements of the type with the given full name. -/
def ofTypePath (path : String) : Selector := raw (String.ofList (baseName path.toList))

/-- What an element's class list calls the selector. -/
def classListName (s : Selector) : String := s.className.getD s.text

/-- Elements that are also in the given state. -/
def pseudo (s : Selector) (p : PseudoClass) : Selector := raw (s.text ++ ":" ++ p.keyword)

/-- Elements `t` directly inside an `s`. -/
def child (s t : Selector) : Selector := raw (s.text ++ " > " ++ t.text)

/-- Elements `t` directly after an `s`. -/
def adjacent (s t : Selector) : Selector := raw (s.text ++ " + " ++ t.text)

/-- Elements `t` anywhere inside an `s`. -/
def descendant (s t : Selector) : Selector := raw (s.text ++ " " ++ t.text)

/-- Elements that are both `s` and `t`. -/
def and (s t : Selector) : Selector := raw (s.text ++ t.text)

/-- The combinator that style sheets do not have. -/
def inverseChild (_s _t : Selector) : Except UnsupportedCombinator Selector :=
  .error .inverseChild

instance : HShiftRight Selector Selector Selector := ⟨child⟩

instance : HAdd Selector Selector Selector := ⟨adjacent⟩

@[simp] theorem className_raw (t : String) : (raw t).className = none := rfl

@[simp] theorem text_raw (t : String) : (raw t).text = t := rfl

theorem shiftRight_eq_child (s t : Selector) : s >>> t = s.child t := rfl

theorem add_eq_adjacent (s t : Selector) : s + t = s.adjacent t := rfl

end Selector
end StyleSheet
