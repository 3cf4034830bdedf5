/-!
# Grouping under a key

Rules are compared by selector and styles are collected by output file.  Both times,
members that arrive under some key are gathered in batches: a key that is new opens a
batch at the end, and a key that is the same as an earlier one adds to the batch of the
earlier one, which keeps its place and its first key.

What counts as the same key is a parameter, since two paths can be the same file without
being the same text.
-/

namespace StyleSheet

/-- Members gathered under a key. -/
structure Batch (κ α : Type) where
  key : κ
  members : List α
  deriving DecidableEq

namespace Batch

variable {κ α : Type}

/-- Adds members under a key. -/
def insert (same : κ → κ → Bool) (key : κ) (members : List α) :
    List (Batch κ α) → List (Batch κ α)
  | [] => [⟨key, members⟩]
  | g :: gs =>
    if same g.key key then ⟨g.key, g.members ++ members⟩ :: gs
    else g :: insert same key members gs

/-- The batch of a key. -/
def find? (same : κ → κ → Bool) (key : κ) (gs : List (Batch κ α)) : Option (Batch κ α) :=
  gs.find? fun g => same g.key key

@[simp] theorem insert_nil (same : κ → κ → Bool) (key : κ) (members : List α) :
    insert same key members [] = [⟨key, members⟩] := rfl

end Batch
end StyleSheet
