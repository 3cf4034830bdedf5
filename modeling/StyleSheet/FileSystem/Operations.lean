import StyleSheet.FileSystem
import StyleSheet.Text.Utf8

/-!
# Reading and writing files

The operations are those that writing sheets needs: read a file, make the directories
that lead to it, and write it.  Each of them looks at the path before it looks at the
tree: a path with a `NUL`, an empty one or one that is too long leads nowhere.

A path that ends in a slash or in dots can only name a directory.  Reading it as a file
fails for that reason, and so does writing it, even where nothing is yet.  Of `d/` only
what comes before its last name is looked up for that; `d/.` and `d/./` ask for something
in `d`, which has to be there first.
-/

namespace StyleSheet
namespace FileSystem

/-- What is wrong with a path whatever the tree. -/
def checkPath (p : Path) : Except FileFault Unit :=
  if p.text.toList.contains '\x00' then .error .nulInPath
  else if p.text = "" then .error .notFound
  else if maxPathBytes < p.text.utf8ByteSize then .error .nameTooLong
  else .ok ()

/-- Whether a path can only name a directory. -/
def namesDirectory (p : Path) : Bool := p.endsInSlash || p.lastName?.isNone

/-- The bytes of a file. -/
def read (fs : FileSystem) (p : Path) : Except FileFault ByteArray :=
  match checkPath p with
  | .error e => .error e
  | .ok () =>
    match fs.walk p.components with
    | .error e => .error e
    | .ok place =>
      match fs.get? place with
      | none => .error .notFound
      | some .directory => .error .isDirectory
      | some (.file content) => if namesDirectory p then .error .notDirectory else .ok content

/-- The bytes of a file, if it is there. -/
def readIfPresent (fs : FileSystem) (p : Path) : Except FileFault (Option ByteArray) :=
  match fs.read p with
  | .ok content => .ok (some content)
  | .error .notFound => .ok none
  | .error e => .error e

/-- The text of a file. -/
def readText (fs : FileSystem) (p : Path) : Except FileFault String :=
  match fs.read p with
  | .error e => .error e
  | .ok content =>
    match Text.ofBytes? content with
    | some s => .ok s
    | none => .error .notText

/-- Whether components lead to a directory. -/
def isDirectory (fs : FileSystem) (cs : List Component) : Bool :=
  match fs.walkDirectory cs with
  | .ok _ => true
  | .error _ => false

/-- Makes a directory in the directory that `parents` lead to. -/
def makeDirectory (fs : FileSystem) (parents : List Component) (c : Component) :
    Except FileFault FileSystem :=
  match fs.walkDirectory parents with
  | .error e => .error e
  | .ok place =>
    match c with
    | .normal name =>
      if maxNameBytes < name.utf8ByteSize then .error .nameTooLong
      else if (fs.get? (place ++ [name])).isSome then .error .alreadyExists
      else .ok (fs.set (place ++ [name]) .directory)
    | _ => .error .alreadyExists

/-- Makes the directory that components lead to, unless it is there; the components are
given last first.  Where its own directory is missing, that one is made before. -/
def makeDirectories (fs : FileSystem) : List Component → FileSystem × Except FileFault Unit
  | [] => (fs, .ok ())
  | c :: up =>
    match fs.makeDirectory up.reverse c with
    | .ok made => (made, .ok ())
    | .error .notFound =>
      match fs.makeDirectories up with
      | (above, .error e) => (above, .error e)
      | (above, .ok ()) =>
        match above.makeDirectory up.reverse c with
        | .ok made => (made, .ok ())
        | .error e =>
          if above.isDirectory (c :: up).reverse then (above, .ok ()) else (above, .error e)
    | .error e => if fs.isDirectory (c :: up).reverse then (fs, .ok ()) else (fs, .error e)

/-- Makes the directories that lead to the file of a path. -/
def makeParents (fs : FileSystem) (p : Path) : FileSystem × Except FileFault Unit :=
  fs.makeDirectories p.components.reverse.tail

/-- Writes a file, whether it is there or not. -/
def write (fs : FileSystem) (p : Path) (content : ByteArray) : Except FileFault FileSystem :=
  match checkPath p with
  | .error e => .error e
  | .ok () =>
    match p.lastName? with
    | none =>
      match fs.walkDirectory p.components with
      | .error e => .error e
      | .ok _ => .error .isDirectory
    | some name =>
      match fs.walkDirectory p.components.dropLast with
      | .error e => .error e
      | .ok place =>
        if p.endsInSlash then .error .isDirectory
        else if maxNameBytes < name.utf8ByteSize then .error .nameTooLong
        else
          match fs.get? (place ++ [name]) with
          | some .directory => .error .isDirectory
          | _ => .ok (fs.set (place ++ [name]) (.file content))

end FileSystem
end StyleSheet
