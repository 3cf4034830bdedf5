/-!
# Paths

A path is text, kept as it was given.  What it leads to depends on its components only:
slashes that are repeated or at the end, and single dots that are not at the start, do
not count.  Two paths are the same path if their components are; `..` is a component
like any other, because what it leads to is for the file system to say.
-/

namespace StyleSheet

/-- A path as it is written. -/
structure Path where
  text : String
  deriving DecidableEq

/-- One step of a path. -/
inductive Component where
  | root
  /-- A dot at the start of a path. -/
  | current
  /-- Two dots. -/
  | parent
  | normal (name : String)
  deriving DecidableEq

namespace Path

/-- The pieces of a text between slashes; there is always one. -/
def segments : List Char → List (List Char)
  | [] => [[]]
  | c :: cs =>
    if c = '/' then [] :: segments cs
    else
      match segments cs with
      | [] => [[c]]
      | s :: rest => (c :: s) :: rest

/-- The component that a piece after the start stands for, if any. -/
def component? (segment : List Char) : Option Component :=
  if segment = [] ∨ segment = ['.'] then none
  else if segment = ['.', '.'] then some .parent
  else some (.normal (String.ofList segment))

/-- Whether the path starts at the root. -/
def isAbsolute (p : Path) : Bool := p.text.toList.head? == some '/'

/-- The components of a path. -/
def components (p : Path) : List Component :=
  let pieces := segments p.text.toList
  let steps := pieces.filterMap component?
  if p.isAbsolute then .root :: steps
  else if pieces.head? = some ['.'] then .current :: steps
  else steps

/-- Whether a path ends in a slash, or is empty. -/
def endsInSlash (p : Path) : Bool := (segments p.text.toList).getLast? == some []

/-- The name that a path ends in, slashes at its end aside; a dot and two dots are no
names. -/
def lastName? (p : Path) : Option String :=
  match ((segments p.text.toList).filter (· ≠ [])).getLast? with
  | none => none
  | some segment =>
    if segment = ['.'] ∨ segment = ['.', '.'] then none else some (String.ofList segment)

/-- Whether two paths have the same components. -/
def same (p q : Path) : Bool := p.components == q.components

/-- The path `p` taken from the directory `base`. -/
def join (base p : Path) : Path :=
  if p.isAbsolute ∨ base.text = "" then p
  else if base.text.toList.getLast? = some '/' then ⟨base.text ++ p.text⟩
  else ⟨base.text ++ "/" ++ p.text⟩

theorem segments_ne_nil (s : List Char) : segments s ≠ [] := by
  match s with
  | [] => simp [segments]
  | c :: cs =>
    unfold segments
    split
    · simp
    · split <;> simp

@[simp] theorem same_refl (p : Path) : same p p = true := by simp [same]

end Path
end StyleSheet
