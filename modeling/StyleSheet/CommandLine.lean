import StyleSheet.CommandLine.Arguments
import StyleSheet.Json.Printer
import StyleSheet.Manifest.Load
import StyleSheet.Output.Check
import StyleSheet.Output.Write
import StyleSheet.Text.Plain

/-!
# The program

A run of the program takes its arguments and a file system to what it prints, its exit
code, and the file system it leaves.  Three things can be asked: to generate the sheets
of a manifest, to check that they are up to date, and to print the rules of one sheet.

The exit code is zero if all is well, one if a sheet is not up to date or a failure ended
the run, and two if the command line is not understood.

Log records go where errors go, and `-q` does not silence them; how many levels are shown
is set by `-v`.  Paths come from a manifest and can hold anything, so records are made
plain before they are shown; other output is what was asked for, and is left as it is.
-/

namespace StyleSheet

/-- What a run of the program comes to. -/
structure Outcome where
  exitCode : Nat
  output : String
  errors : String
  files : FileSystem

namespace CommandLine

/-- What is said about a command line that is not understood. -/
def usage : String := "Usage: typeuss [OPTIONS] <COMMAND>\n"

/-- The name and version of the program. -/
def versionText : String := "typeuss 0.1.0\n"

/-- Lines, each with its line end. -/
def unlines (lines : List String) : String := String.join (lines.map (· ++ "\n"))

/-- A message in a log, the later lines of which are indented. -/
def indented (message : String) : String :=
  String.ofList (message.toList.flatMap fun c => if c = '\n' then "\n    ".toList else [c])

/-- A record as a line of the log, made plain as a whole: an escape sequence that does
not end in the message goes on in what follows it. -/
def recordText (r : LogRecord) : String :=
  let level := r.level.text
  let padding := String.ofList (List.replicate (5 - level.length) ' ')
  let line := "[" ++ level ++ padding ++ " " ++ r.source.text ++ "] " ++ indented r.message ++ "\n"
  String.ofList (Text.plain line.toList)

/-- The records that are shown. -/
def logText (v : Verbosity) (records : List LogRecord) : String :=
  String.join ((records.filter fun r => r.level.rank ≤ v.verbose).map recordText)

/-- The end of a run with a failure. -/
def failed (v : Verbosity) (files : FileSystem) (log : List LogRecord) (e : Failure) : Outcome where
  exitCode := 1
  output := ""
  errors := logText v log ++ "error: " ++ e.message ++ "\n"
  files := files

/-- Output, unless the run is to be quiet. -/
def spoken (v : Verbosity) (lines : List String) : String := if v.quiet then "" else unlines lines

/-- What is said about written sheets. -/
def reportLines (report : WriteReport) : List String :=
  report.written.map (fun p => "wrote " ++ p.text) ++
    ["Generated " ++ Nat.repr report.written.length ++ " USS file(s), " ++
      Nat.repr report.unchanged.length ++ " unchanged."]

/-- Writes the sheets of a manifest. -/
def generate (v : Verbosity) (manifest outDir : Path) (files : FileSystem) : Outcome :=
  match Manifest.load files manifest with
  | .error e => failed v files [] e
  | .ok m =>
    let registry := m.toRegistry
    if registry.isEmpty then
      ⟨0, spoken v ["No sheets declared in " ++ manifest.text], "", files⟩
    else
      let run := writeSheets outDir registry.generateAll files
      let log := registry.generateLog ++ run.log
      match run.result with
      | .error e => failed v run.files log e
      | .ok report => ⟨0, spoken v (reportLines report), logText v log, run.files⟩

/-- What is said about a sheet that is not up to date. -/
def staleLines (s : StaleSheet) : List String :=
  match s.staleness with
  | .missing => ["missing  " ++ s.path.text]
  | .changed diffs =>
    ("changed  " ++ s.path.text) ::
      diffs.map fun d => "    " ++ d.kind ++ " rule " ++ d.selector

/-- Checks the sheets of a manifest. -/
def check (v : Verbosity) (manifest outDir : Path) (files : FileSystem) : Outcome :=
  match Manifest.load files manifest with
  | .error e => failed v files [] e
  | .ok m =>
    let registry := m.toRegistry
    let checked := checkSheets outDir files registry.generateAll
    let log := registry.generateLog ++ checked.1
    match checked.2 with
    | .error e => failed v files log e
    | .ok [] =>
      let count := Nat.repr registry.sheets.length
      ⟨0, spoken v ["All " ++ count ++ " USS file(s) up to date."], logText v log, files⟩
    | .ok stale => ⟨1, spoken v (stale.flatMap staleLines), logText v log, files⟩

/-- Prints the rules of a sheet. -/
def dump (v : Verbosity) (file : Path) (files : FileSystem) : Outcome :=
  match files.readText file with
  | .error e => failed v files [] (.file e)
  | .ok text => ⟨0, Json.rulesText (readSheet text) ++ "\n", "", files⟩

/-- Does what is asked. -/
def perform (request : Request) (files : FileSystem) : Outcome :=
  match request with
  | .version => ⟨0, versionText, "", files⟩
  | .run (.generate manifest outDir) v => generate v manifest outDir files
  | .run (.check manifest outDir) v => check v manifest outDir files
  | .run (.dump file) v => dump v file files

/-- A run of the program. -/
def run (args : List String) (files : FileSystem) : Outcome :=
  match Arguments.parse args with
  | none => ⟨2, "", usage, files⟩
  | some request => perform request files

end CommandLine
end StyleSheet
