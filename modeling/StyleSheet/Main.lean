import StyleSheet.CommandLine

/-!
# The executable

All that the program decides is decided by `CommandLine.run` on a file system that is a
value.  This module makes that value from the disk, for the paths that the command line
and its manifest name, and afterwards makes the disk what the value says: directories
that are new are made, and files with other bytes are written.

## Which paths are looked at

A manifest has to be read before it is known which files it names, so the value is made
in two steps (`namedPaths` before and after the manifest is there).  Of every path all
places on the way are looked at, since each of them can be what is wrong with it.
-/

namespace StyleSheet
namespace Main

/-- The paths that a command is about, as far as the files at hand tell. -/
def namedPaths (command : Command) (files : FileSystem) : List Path :=
  let targets (manifest outDir : Path) : List Path :=
    match Manifest.load files manifest with
    | .error _ => []
    | .ok m => m.toRegistry.sheets.filterMap fun s => (Path.resolve outDir s.path).toOption
  match command with
  | .generate manifest outDir => manifest :: targets manifest outDir
  | .check manifest outDir => manifest :: targets manifest outDir
  | .dump file => [file]

/-- The places on the way along components, from a place on. -/
def placesFrom (place : Location) : List Component → List Location
  | [] => []
  | c :: cs =>
    let next :=
      match c with
      | .root => []
      | .current => place
      | .parent => place.dropLast
      | .normal name => place ++ [name]
    next :: placesFrom next cs

/-- The places on the way along a path that can lead anywhere. -/
def placesOf (files : FileSystem) (p : Path) : List Location :=
  match FileSystem.checkPath p with
  | .error _ => []
  | .ok () => placesFrom files.workingDirectory p.components

/-- The name of a place on the disk. -/
def diskName (place : Location) : String := "/" ++ String.intercalate "/" place

/-- Takes what is at some places of the disk into a file system. -/
def lookAt (files : FileSystem) (places : List Location) : IO FileSystem := do
  let base ← IO.currentDir
  places.foldlM (fun files place => do
    if (files.get? place).isSome then return files
    let path := base / diskName place
    if ← path.isDir then return files.set place .directory
    if ← path.pathExists then return files.set place (.file (← IO.FS.readBinFile path))
    return files) files

/-- The working directory with the directories above it. -/
def startFiles : IO FileSystem := do
  let names := (← IO.currentDir).components.filter (· ≠ "")
  let above := (List.range names.length).map fun n => (names.take (n + 1), Entry.directory)
  return ⟨above, names⟩

/-- What is on the disk where a command can look. -/
def readDisk (command : Command) : IO FileSystem := do
  let look (files : FileSystem) : IO FileSystem :=
    lookAt files ((namedPaths command files).flatMap (placesOf files))
  look (← look (← startFiles))

/-- Makes the disk what a file system says, where it said something else before. -/
def writeDisk (before after : FileSystem) : IO Unit := do
  let changed := after.entries.filter fun (place, e) => !(before.get? place).any e.same
  let inOrder := changed.mergeSort fun a b => a.1.length ≤ b.1.length
  inOrder.forM fun (place, e) => do
    let path := (← IO.currentDir) / diskName place
    match e with
    | .directory => IO.FS.createDir path
    | .file content => IO.FS.writeBinFile path content

end Main
end StyleSheet

/-- Runs the program. -/
def main (args : List String) : IO UInt32 := do
  let before ←
    match StyleSheet.Arguments.parse args with
    | some (.run command _) => StyleSheet.Main.readDisk command
    | _ => StyleSheet.Main.startFiles
  let outcome := StyleSheet.CommandLine.run args before
  StyleSheet.Main.writeDisk before outcome.files
  IO.print outcome.output
  IO.eprint outcome.errors
  return UInt32.ofNat outcome.exitCode
