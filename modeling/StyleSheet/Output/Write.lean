import StyleSheet.Failure
import StyleSheet.FileSystem.Operations
import StyleSheet.Registry

/-!
# Writing sheets

Every sheet is written under the output root, in order, and a file that holds the text
of its sheet already is left alone, so that generating again touches nothing.

The first failure ends the run.  What was written before it stays, and so do the
directories that were made on the way to the sheet that failed; that is why a run
(`Run`) has a file system and a log beside its result, and not inside it.
-/

namespace StyleSheet

/-- What a run leaves: the files, the records, and its result. -/
structure Run (α : Type) where
  files : FileSystem
  log : List LogRecord
  result : Except Failure α

/-- Which files were written and which were left alone. -/
structure WriteReport where
  written : List Path
  unchanged : List Path
  deriving DecidableEq

namespace WriteReport

/-- A report of nothing. -/
def empty : WriteReport := ⟨[], []⟩

/-- The report with one more sheet before the others. -/
def cons (path : Path) (wasWritten : Bool) (r : WriteReport) : WriteReport :=
  if wasWritten then ⟨path :: r.written, r.unchanged⟩ else ⟨r.written, path :: r.unchanged⟩

/-- Whether any file changed. -/
def changed (r : WriteReport) : Bool := !r.written.isEmpty

end WriteReport

/-- The record of a file that was written. -/
def wroteRecord (target : Path) : LogRecord := ⟨.info, .writer, "wrote " ++ target.text⟩

/-- Writes bytes to a file, and the directories that lead to it. -/
def writeTarget (target : Path) (content : ByteArray) (files : FileSystem) : Run Unit :=
  match files.makeParents target with
  | (made, .error e) => ⟨made, [], .error (.file e)⟩
  | (made, .ok ()) =>
    match made.write target content with
    | .error e => ⟨made, [], .error (.file e)⟩
    | .ok written => ⟨written, [wroteRecord target], .ok ()⟩

/-- Writes one sheet, unless its file holds its text; the result says whether it was
written. -/
def writeSheet (root : Path) (sheet : GeneratedSheet) (files : FileSystem) : Run Bool :=
  match Path.resolve root sheet.path with
  | .error e => ⟨files, [], .error (.outputPath e)⟩
  | .ok target =>
    match files.readIfPresent target with
    | .error e => ⟨files, [], .error (.file e)⟩
    | .ok existing =>
      if existing.any (sameContent · sheet.text.toUTF8) then ⟨files, [], .ok false⟩
      else
        let run := writeTarget target sheet.text.toUTF8 files
        match run.result with
        | .error e => ⟨run.files, run.log, .error e⟩
        | .ok () => ⟨run.files, run.log, .ok true⟩

/-- Writes sheets in order. -/
def writeSheets (root : Path) : List GeneratedSheet → FileSystem → Run WriteReport
  | [], files => ⟨files, [], .ok .empty⟩
  | sheet :: rest, files =>
    let one := writeSheet root sheet files
    match one.result with
    | .error e => ⟨one.files, one.log, .error e⟩
    | .ok wasWritten =>
      let others := writeSheets root rest one.files
      match others.result with
      | .error e => ⟨others.files, one.log ++ others.log, .error e⟩
      | .ok report =>
        ⟨others.files, one.log ++ others.log, .ok (report.cons sheet.path wasWritten)⟩

end StyleSheet
