import StyleSheet.Path

/-!
# Output paths

A sheet names its file by a path under an output root, and no path may lead out of the
root.  So it must not be empty, absolute, or contain two dots; the first component that
offends decides what is reported.
-/

namespace StyleSheet

/-- Why a path is not taken as an output path. -/
inductive Refusal where
  | empty
  | climbs
  | absolute
  deriving DecidableEq

/-- The reason in words. -/
def Refusal.reason : Refusal → String
  | .empty => "path is empty"
  | .climbs => "path must not contain `..`"
  | .absolute => "path must be relative"

/-- A path that was not taken. -/
structure RefusedPath where
  path : Path
  refusal : Refusal
  deriving DecidableEq

/-- What is reported about a path that was not taken. -/
def RefusedPath.message (r : RefusedPath) : String :=
  "invalid output path " ++ r.path.text ++ ": " ++ r.refusal.reason

/-- What is wrong with a component of an output path. -/
def Component.refusal? : Component → Option Refusal
  | .root => some .absolute
  | .parent => some .climbs
  | .current => none
  | .normal _ => none

namespace Path

/-- The file under `root` that an output path names. -/
def resolve (root p : Path) : Except RefusedPath Path :=
  if p.text = "" then .error ⟨p, .empty⟩
  else
    match p.components.findSome? Component.refusal? with
    | some r => .error ⟨p, r⟩
    | none => .ok (root.join p)

end Path
end StyleSheet
