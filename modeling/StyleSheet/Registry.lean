import StyleSheet.Grouping
import StyleSheet.Log
import StyleSheet.Path
import StyleSheet.Style

/-!
# The registry of sheets

Styles are declared for the file they are to be written to.  The registry gathers them
into sheets, one for each path: the first declaration for a path gives the sheet its
place and the path its spelling, later ones add to it.  A declaration without styles
still makes a sheet, whose text is empty.
-/

namespace StyleSheet

/-- The styles for one output file. -/
abbrev Sheet := Batch Path Style

namespace Sheet

/-- The path of the output file, relative to the output root. -/
def path (s : Sheet) : Path := s.key

def styles (s : Sheet) : List Style := s.members

end Sheet

/-- The text of a sheet, and the path of its file. -/
structure GeneratedSheet where
  path : Path
  text : String
  deriving DecidableEq

/-- Renders a sheet. -/
def Sheet.generate (s : Sheet) : GeneratedSheet := ⟨s.path, Style.generate s.styles⟩

/-- The record of a rendered sheet. -/
def GeneratedSheet.record (s : GeneratedSheet) : LogRecord where
  level := .debug
  source := .registry
  message := "generated " ++ s.path.text ++ " (" ++ Nat.repr s.text.utf8ByteSize ++ " bytes)"

/-- Sheets in the order in which they were first declared. -/
structure Registry where
  sheets : List Sheet
  deriving DecidableEq

namespace Registry

/-- A registry without sheets. -/
def empty : Registry := ⟨[]⟩

/-- Adds styles to the sheet of a path. -/
def declare (r : Registry) (path : Path) (styles : List Style) : Registry :=
  ⟨Batch.insert Path.same path styles r.sheets⟩

/-- Adds styles whose making can fail; then nothing is added. -/
def tryDeclare {ε : Type} (r : Registry) (path : Path) (styles : Except ε (List Style)) :
    Except ε Registry :=
  match styles with
  | .ok made => .ok (r.declare path made)
  | .error e => .error e

def isEmpty (r : Registry) : Bool := r.sheets.isEmpty

/-- Renders every sheet, in order. -/
def generateAll (r : Registry) : List GeneratedSheet := r.sheets.map Sheet.generate

/-- The records of rendering every sheet. -/
def generateLog (r : Registry) : List LogRecord := r.generateAll.map GeneratedSheet.record

@[simp] theorem generateAll_empty : empty.generateAll = [] := rfl

end Registry
end StyleSheet
