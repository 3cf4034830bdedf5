import StyleSheet.Path

/-!
# File systems

A file system is a tree of directories and regular files, kept as a table: the names
that lead from the root to an entry are its location, and the entry is a directory or a
file with its bytes.  The root itself is always a directory.  There are no links, so a
location is all there is to know about where an entry is.

A path is walked from the working directory, or from the root, one component at a time.
Every component but the first is looked up in a directory, which is where a walk can
fail.

`get?_set` says all about the table: an entry that is set is found, and no other changes.
-/

namespace StyleSheet

/-- The names that lead from the root to an entry. -/
abbrev Location := List String

/-- What is at a location. -/
inductive Entry where
  | directory
  | file (content : ByteArray)

/-- Whether two files hold the same bytes. -/
def sameContent (a b : ByteArray) : Bool := a.data = b.data

theorem sameContent_iff (a b : ByteArray) : sameContent a b = true ↔ a = b := by
  simp [sameContent, ByteArray.ext_iff]

/-- Whether two entries are the same. -/
def Entry.same : Entry → Entry → Bool
  | .directory, .directory => true
  | .file a, .file b => sameContent a b
  | _, _ => false

/-- Why a file operation fails. -/
inductive FileFault where
  | notFound
  | isDirectory
  | notDirectory
  | nameTooLong
  | alreadyExists
  | nulInPath
  | notText
  deriving DecidableEq

/-- What is reported about a failed operation. -/
def FileFault.message : FileFault → String
  | .notFound => "No such file or directory (os error 2)"
  | .isDirectory => "Is a directory (os error 21)"
  | .notDirectory => "Not a directory (os error 20)"
  | .nameTooLong => "File name too long (os error 36)"
  | .alreadyExists => "File exists (os error 17)"
  | .nulInPath => "file name contained an unexpected NUL byte"
  | .notText => "stream did not contain valid UTF-8"

/-- A tree of directories and files, with a working directory. -/
structure FileSystem where
  entries : List (Location × Entry)
  workingDirectory : Location

namespace FileSystem

/-- The entry at a location. -/
def get? (fs : FileSystem) (place : Location) : Option Entry :=
  if place = [] then some .directory else fs.entries.lookup place

/-- Puts an entry at a location. -/
def set (fs : FileSystem) (place : Location) (e : Entry) : FileSystem where
  entries := (place, e) :: fs.entries.filter (·.1 ≠ place)
  workingDirectory := fs.workingDirectory

theorem lookup_filter_ne {place other : Location} (h : other ≠ place)
    (entries : List (Location × Entry)) :
    (entries.filter (·.1 ≠ place)).lookup other = entries.lookup other := by
  induction entries with
  | nil => rfl
  | cons head rest ih =>
    by_cases hl : head.1 = place
    · rw [List.filter_cons_of_neg (by simp [hl]), ih, List.lookup_cons,
        beq_eq_false_iff_ne.mpr (hl ▸ h)]
    · rw [List.filter_cons_of_pos (by simp [hl]), List.lookup_cons, List.lookup_cons, ih]

theorem get?_set (fs : FileSystem) (place other : Location) (e : Entry) :
    (fs.set place e).get? other =
      if other = [] then some .directory else if other = place then some e else fs.get? other := by
  unfold get? set
  by_cases hr : other = []
  · simp [hr]
  · by_cases h : other = place
    · subst h; simp [hr]
    · have hne : (other == place) = false := by simp [h]
      simp only [hr, ↓reduceIte, h, List.lookup_cons, hne]
      exact lookup_filter_ne h fs.entries

@[simp] theorem workingDirectory_set (fs : FileSystem) (place : Location) (e : Entry) :
    (fs.set place e).workingDirectory = fs.workingDirectory := rfl

@[simp] theorem get?_root (fs : FileSystem) : fs.get? [] = some .directory := rfl

/-- The longest name of an entry, in bytes. -/
def maxNameBytes : Nat := 255

/-- The longest path, in bytes. -/
def maxPathBytes : Nat := 4095

/-- One step of a walk. -/
def enter (fs : FileSystem) (place : Location) (c : Component) : Except FileFault Location :=
  match fs.get? place with
  | none => .error .notFound
  | some (.file _) => .error .notDirectory
  | some .directory =>
    match c with
    | .root => .ok []
    | .current => .ok place
    | .parent => .ok place.dropLast
    | .normal name =>
      if maxNameBytes < name.utf8ByteSize then .error .nameTooLong
      else if (fs.get? (place ++ [name])).isSome then .ok (place ++ [name])
      else .error .notFound

/-- Where components lead to. -/
def walkFrom (fs : FileSystem) : Location → List Component → Except FileFault Location
  | place, [] => .ok place
  | place, c :: cs =>
    match fs.enter place c with
    | .ok next => fs.walkFrom next cs
    | .error e => .error e

/-- Where components lead to from the working directory. -/
def walk (fs : FileSystem) (cs : List Component) : Except FileFault Location :=
  fs.walkFrom fs.workingDirectory cs

/-- The directory that components lead to. -/
def walkDirectory (fs : FileSystem) (cs : List Component) : Except FileFault Location :=
  match fs.walk cs with
  | .error e => .error e
  | .ok place =>
    match fs.get? place with
    | some .directory => .ok place
    | some (.file _) => .error .notDirectory
    | none => .error .notFound

theorem walkFrom_append (fs : FileSystem) (place : Location) (cs ds : List Component) :
    fs.walkFrom place (cs ++ ds) =
      match fs.walkFrom place cs with
      | .ok next => fs.walkFrom next ds
      | .error e => .error e := by
  induction cs generalizing place with
  | nil => rfl
  | cons c cs ih =>
    simp only [List.cons_append, walkFrom]
    cases fs.enter place c with
    | error e => rfl
    | ok next => exact ih next

end FileSystem
end StyleSheet
