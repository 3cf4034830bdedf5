import StyleSheet.Failure
import StyleSheet.FileSystem.Operations
import StyleSheet.Reader.Rules
import StyleSheet.Registry
import StyleSheet.RuleDiff

/-!
# Checking sheets

A sheet is up to date if its file holds its text, byte for byte.  Otherwise the rules of
the two are compared, so that what is reported names the selectors that differ; there
are none if only the formatting does.  Nothing is written.
-/

namespace StyleSheet

/-- Why a file is not what it should be. -/
inductive Staleness where
  | missing
  /-- The file holds another text, which differs in these rules. -/
  | changed (diffs : List RuleDiff)
  deriving DecidableEq

/-- A sheet whose file is not up to date. -/
structure StaleSheet where
  path : Path
  staleness : Staleness
  deriving DecidableEq

/-- The record of a file that is not up to date. -/
def staleRecord (target : Path) : LogRecord :=
  ⟨.warn, .writer, target.text ++ " is out of date"⟩

/-- How a text differs from what a file holds, if it does. -/
def staleness? (text : String) (existing : Option ByteArray) : Option Staleness :=
  match existing with
  | none => some .missing
  | some content =>
    if sameContent content text.toUTF8 then none
    else some (.changed (Rule.diff (readSheet text) (readSheet (Text.lossy content))))

/-- Checks sheets in order, up to the first failure. -/
def checkSheets (root : Path) (files : FileSystem) :
    List GeneratedSheet → List LogRecord × Except Failure (List StaleSheet)
  | [] => ([], .ok [])
  | sheet :: rest =>
    match Path.resolve root sheet.path with
    | .error e => ([], .error (.outputPath e))
    | .ok target =>
      match files.readIfPresent target with
      | .error e => ([], .error (.file e))
      | .ok existing =>
        let others := checkSheets root files rest
        match staleness? sheet.text existing with
        | none => others
        | some staleness =>
          (staleRecord target :: others.1, others.2.map (⟨sheet.path, staleness⟩ :: ·))

end StyleSheet
