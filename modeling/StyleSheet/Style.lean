import StyleSheet.Selector

/-!
# Styles and sheets

A style is one rule: a selector and its declarations.  The text of a sheet is the
blocks of its styles in order, a blank line between two of them and a line end after
the last.  Nothing is merged, reordered or left out, so equal styles always give equal
text, and generating a sheet again changes nothing.
-/

namespace StyleSheet

/-- One rule: a selector and its declarations. -/
structure Style where
  selector : Selector
  properties : List Property
  deriving DecidableEq

namespace Selector

/-- The style that a configuration of an empty builder gives. -/
def style (s : Selector) (configure : Builder → Builder) : Style :=
  ⟨s, (configure .empty).properties⟩

/-- The style that a configuration gives, unless the configuration fails. -/
def tryStyle {ε : Type} (s : Selector) (configure : Builder → Except ε Builder) :
    Except ε Style :=
  match configure .empty with
  | .ok b => .ok ⟨s, b.properties⟩
  | .error e => .error e

end Selector

namespace Style

/-- The style of a list of settings. -/
def ofSettings (s : Selector) (settings : List Setting) : Style := s.style (·.setAll settings)

@[simp] theorem selector_ofSettings (s : Selector) (settings : List Setting) :
    (ofSettings s settings).selector = s := rfl

@[simp] theorem properties_ofSettings (s : Selector) (settings : List Setting) :
    (ofSettings s settings).properties = settings.map Setting.property := by
  simp [ofSettings, Selector.style]

def isEmpty (s : Style) : Bool := s.properties.isEmpty

/-- The lines of the declarations, each with its line end. -/
def linesText : List Property → String
  | [] => ""
  | p :: rest => "    " ++ p.text ++ "\n" ++ linesText rest

/-- The block of a style, without a line end. -/
def text (s : Style) : String := s.selector.text ++ " \x7b\n" ++ linesText s.properties ++ "\x7d"

/-- The text of a sheet. -/
def generate : List Style → String
  | [] => ""
  | [s] => s.text ++ "\n"
  | s :: rest => s.text ++ "\n\n" ++ generate rest

/-- The text of a sheet after other text. -/
def appendTo (styles : List Style) (buffer : String) : String := buffer ++ generate styles

@[simp] theorem generate_nil : generate [] = "" := rfl

@[simp] theorem generate_singleton (s : Style) : generate [s] = s.text ++ "\n" := rfl

theorem generate_cons_cons (s t : Style) (rest : List Style) :
    generate (s :: t :: rest) = s.text ++ "\n\n" ++ generate (t :: rest) := rfl

end Style
end StyleSheet
