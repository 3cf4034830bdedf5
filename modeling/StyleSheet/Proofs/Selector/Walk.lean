import StyleSheet.Selector.Expr

/-!
# Selector expressions from left to right

A walk through an expression from left to right meets its leaves, the combinators between
them, and the states, each of these after its whole operand.  How the expression is bracketed
cannot be told from its walk, and nor can it from what the expression builds: the text is what
is met on the walk, written in a row (`eval_eq_build`).  So expressions with one walk build the
same, and a state of a combination is a state of its right operand.

Two things are not in the text.  A combinator that style sheets do not have makes the whole
expression fail, wherever it stands.  And an expression which is a class and nothing else
builds a selector that knows the name of the class; it differs from all others with the same
text.
-/

namespace StyleSheet
namespace Selector

/-! ## Walks -/

/-- An expression without operands. -/
inductive Leaf where
  | ofClass (name : String)
  | ofId (name : String)
  | ofType (name : String)
  | ofTypePath (path : String)
  | raw (text : String)
  | all
  deriving DecidableEq

/-- What a walk through an expression meets. -/
inductive Piece where
  | leaf (l : Leaf)
  | mark (op : Combinator)
  | state (p : PseudoClass)
  deriving DecidableEq

/-- The walk through an expression, from left to right. -/
def Expr.walk : Expr → List Piece
  | .ofClass name => [.leaf (.ofClass name)]
  | .ofId name => [.leaf (.ofId name)]
  | .ofType name => [.leaf (.ofType name)]
  | .ofTypePath path => [.leaf (.ofTypePath path)]
  | .raw text => [.leaf (.raw text)]
  | .all => [.leaf .all]
  | .pseudo p operand => operand.walk ++ [.state p]
  | .combine op left right => left.walk ++ .mark op :: right.walk

def Leaf.text : Leaf → String
  | .ofClass name => "." ++ name
  | .ofId name => "#" ++ name
  | .ofType name => name
  | .ofTypePath path => String.ofList (baseName path.toList)
  | .raw text => text
  | .all => "*"

/-- The text between the operands of a combinator; the one that style sheets do not have
is never written. -/
def Combinator.mark : Combinator → String
  | .child => " > "
  | .adjacent => " + "
  | .descendant => " "
  | .and => ""
  | .inverseChild => ""

/-- A state as it stands in a selector. -/
def stateText : PseudoClass → String
  | .hover => ":hover"
  | .active => ":active"
  | .focus => ":focus"
  | .checked => ":checked"
  | .disabled => ":disabled"
  | .enabled => ":enabled"
  | .root => ":root"

def Piece.text : Piece → String
  | .leaf l => l.text
  | .mark op => op.mark
  | .state p => stateText p

/-- What is met on a walk, written in a row. -/
def walkText (w : List Piece) : String := String.join (w.map Piece.text)

/-- The name of the class, on a walk that meets nothing but a class. -/
def bareClass? : List Piece → Option String
  | [.leaf (.ofClass name)] => some name
  | _ => none

/-- What an expression with the given walk builds. -/
def build (w : List Piece) : Except UnsupportedCombinator Selector :=
  if .mark .inverseChild ∈ w then .error .inverseChild else .ok ⟨walkText w, bareClass? w⟩

/-! ## What is built -/

theorem walk_ne_nil (e : Expr) : e.walk ≠ [] := by
  cases e <;> simp [Expr.walk]

/-- A walk that goes on is not that of a bare class. -/
theorem bareClass?_append {u v : List Piece} (hu : u ≠ []) (hv : v ≠ []) :
    bareClass? (u ++ v) = none := by
  have hlength := List.length_pos_iff.mpr hu
  have hlength' := List.length_pos_iff.mpr hv
  unfold bareClass?
  split
  · next heq =>
    have hone := congrArg List.length heq
    rw [List.length_append, List.length_singleton] at hone
    omega
  · rfl

theorem build_of_mem {w : List Piece} (h : .mark .inverseChild ∈ w) :
    build w = .error .inverseChild :=
  if_pos h

theorem build_of_notMem {w : List Piece} (h : .mark .inverseChild ∉ w) :
    build w = .ok ⟨walkText w, bareClass? w⟩ :=
  if_neg h

theorem build_leaf (l : Leaf) : build [.leaf l] = .ok ⟨l.text, bareClass? [.leaf l]⟩ := by
  rw [build_of_notMem (by simp), walkText, List.map_singleton, Piece.text]
  simp

theorem stateText_eq (p : PseudoClass) : stateText p = ":" ++ p.keyword := by
  cases p <;> decide

/-- A state is written after its operand. -/
theorem build_state (e : Expr) (p : PseudoClass) :
    build (e.walk ++ [.state p]) = (build e.walk).map (·.pseudo p) := by
  by_cases h : .mark .inverseChild ∈ e.walk
  · rw [build_of_mem h, build_of_mem (List.mem_append_left _ h)]
    rfl
  · have hmark : .mark .inverseChild ∉ e.walk ++ [.state p] := by simp [h]
    rw [build_of_notMem h, build_of_notMem hmark, bareClass?_append (walk_ne_nil e) (by simp)]
    simp [Except.map, walkText, Piece.text, stateText_eq, Selector.pseudo, Selector.raw,
      String.append_assoc]

/-- The two operands of a combinator are written around its mark. -/
theorem build_combine (op : Combinator) (e e' : Expr) :
    build (e.walk ++ .mark op :: e'.walk) =
      (build e.walk).bind fun s => (build e'.walk).bind fun t => op.apply s t := by
  by_cases h : .mark .inverseChild ∈ e.walk
  · rw [build_of_mem h, build_of_mem (List.mem_append_left _ h)]
    rfl
  · by_cases h' : .mark .inverseChild ∈ e'.walk
    · rw [build_of_notMem h, build_of_mem h', build_of_mem (by simp [h'])]
      rfl
    · rw [build_of_notMem h, build_of_notMem h']
      have htext : walkText (e.walk ++ .mark op :: e'.walk) =
          walkText e.walk ++ op.mark ++ walkText e'.walk := by
        simp [walkText, Piece.text, String.append_assoc]
      have hbare := bareClass?_append (walk_ne_nil e) (List.cons_ne_nil (.mark op) e'.walk)
      cases op with
      | inverseChild => exact build_of_mem (by simp)
      | and =>
        rw [build_of_notMem (by simp [h, h']), hbare, htext, Combinator.mark, String.append_empty]
        rfl
      | _ =>
        rw [build_of_notMem (by simp [h, h']), hbare, htext]
        rfl

/-- What an expression builds can be told from its walk. -/
theorem eval_eq_build (e : Expr) : e.eval = build e.walk := by
  induction e with
  | pseudo p operand ih =>
    rw [Expr.walk, build_state, ← ih, Expr.eval]
    cases operand.eval <;> rfl
  | combine op left right ihl ihr =>
    rw [Expr.walk, build_combine, ← ihl, ← ihr, Expr.eval]
    cases left.eval with
    | error e => rfl
    | ok s => cases right.eval <;> rfl
  | ofClass name => exact (build_leaf (.ofClass name)).symm
  | ofId name => exact (build_leaf (.ofId name)).symm
  | ofType name => exact (build_leaf (.ofType name)).symm
  | ofTypePath path => exact (build_leaf (.ofTypePath path)).symm
  | raw text => exact (build_leaf (.raw text)).symm
  | all => exact (build_leaf .all).symm

/-! ## What the walk says -/

/-- Whether an expression is a class and nothing else. -/
def Expr.isBareClass : Expr → Bool
  | .ofClass _ => true
  | _ => false

theorem bareClass?_walk_eq_some_iff {e : Expr} {name : String} :
    bareClass? e.walk = some name ↔ e = .ofClass name := by
  cases e with
  | pseudo p operand => simp [Expr.walk, bareClass?_append (walk_ne_nil operand)]
  | combine op left right => simp [Expr.walk, bareClass?_append (walk_ne_nil left)]
  | _ => simp [Expr.walk, bareClass?]

theorem walkText_of_bareClass? {w : List Piece} {name : String} (h : bareClass? w = some name) :
    walkText w = "." ++ name := by
  unfold bareClass? at h
  split at h
  · next name' =>
    cases h
    simp [walkText, Piece.text, Leaf.text]
  · cases h

theorem isSome_bareClass?_walk (e : Expr) : (bareClass? e.walk).isSome = e.isBareClass := by
  cases e with
  | pseudo p operand => rw [Expr.walk, bareClass?_append (walk_ne_nil operand) (by simp)]; rfl
  | combine op left right => rw [Expr.walk, bareClass?_append (walk_ne_nil left) (by simp)]; rfl
  | _ => rfl

/-- An expression builds a selector if and only if all of its combinators are in style
sheets, and then the text of the selector is met on the walk. -/
theorem eval_eq_ok_iff {e : Expr} {s : Selector} :
    e.eval = .ok s ↔ .mark .inverseChild ∉ e.walk ∧ s.text = walkText e.walk ∧
      s.className = bareClass? e.walk := by
  rw [eval_eq_build, build]
  split
  · next h => simp [h]
  · next h =>
    cases s with
    | mk text className => simp [h, eq_comm]

/-- A selector with the name of a class is built of that class alone. -/
theorem className_eq_some_iff {e : Expr} {s : Selector} (h : e.eval = .ok s) (name : String) :
    s.className = some name ↔ e = .ofClass name := by
  rw [(eval_eq_ok_iff.mp h).2.2, bareClass?_walk_eq_some_iff]

/-- Selectors with the same text are equal, unless exactly one of them is a bare class. -/
theorem eq_iff_of_text_eq {e e' : Expr} {s t : Selector} (hs : e.eval = .ok s)
    (ht : e'.eval = .ok t) (htext : s.text = t.text) :
    s = t ↔ e.isBareClass = e'.isBareClass := by
  obtain ⟨-, hs, hname⟩ := eval_eq_ok_iff.mp hs
  obtain ⟨-, ht, hname'⟩ := eval_eq_ok_iff.mp ht
  rw [← isSome_bareClass?_walk, ← isSome_bareClass?_walk, ← hname, ← hname']
  refine ⟨fun h => by rw [h], fun h => ?_⟩
  have hclass : s.className = t.className := by
    cases hcase : s.className with
    | none =>
      rw [hcase, Option.isSome_none, eq_comm, Option.isSome_eq_false_iff] at h
      exact (Option.isNone_iff_eq_none.mp h).symm
    | some name =>
      rw [hcase] at h
      obtain ⟨name', hcase'⟩ := Option.isSome_iff_exists.mp h.symm
      -- a bare class has its name in its text
      have hdot : "." ++ name = "." ++ name' := by
        rw [← walkText_of_bareClass? (hname.symm.trans hcase), ← hs, htext, ht,
          walkText_of_bareClass? (hname'.symm.trans hcase')]
      rw [hcase', (String.append_right_inj _).mp hdot]
  exact congr (congrArg Selector.mk htext) hclass

/-- What an expression builds is read off its walk from left to right.  If it meets the
combinator that style sheets do not have, nothing is built but the failure.  Otherwise a
selector is built: its text is what is met, in a row, and it knows the name of a class exactly
if the expression is that class.  So brackets do not count, whatever the combinators are, a
state of a combination is one of its right operand, and the operators are two of the
combinators.  Selectors with the same text are equal, unless exactly one of them is built of a
class alone. -/
theorem eval_along_walk (e e' : Expr) :
    (.mark .inverseChild ∈ e.walk → e.eval = .error .inverseChild) ∧
      (.mark .inverseChild ∉ e.walk → ∃ s, e.eval = .ok s ∧ s.text = walkText e.walk ∧
        ∀ name, s.className = some name ↔ e = .ofClass name) ∧
      (e.walk = e'.walk → e.eval = e'.eval) ∧
      (∀ op op' e'', (Expr.combine op' (.combine op e e') e'').eval =
        (Expr.combine op e (.combine op' e' e'')).eval) ∧
      (∀ p op, (Expr.pseudo p (.combine op e e')).eval =
        (Expr.combine op e (.pseudo p e')).eval) ∧
      ∀ s t, e.eval = .ok s → e'.eval = .ok t →
        (Expr.combine .child e e').eval = .ok (s >>> t) ∧
          (Expr.combine .adjacent e e').eval = .ok (s + t) ∧
            (s.text = t.text → (s = t ↔ e.isBareClass = e'.isBareClass)) := by
  have hwalk : ∀ {f f' : Expr}, f.walk = f'.walk → f.eval = f'.eval := fun h => by
    rw [eval_eq_build, eval_eq_build, h]
  refine ⟨fun h => ?_, fun h => ?_, hwalk, fun op op' e'' => ?_, fun p op => ?_,
    fun s t hs ht => ⟨?_, ?_, eq_iff_of_text_eq hs ht⟩⟩
  · rw [eval_eq_build, build_of_mem h]
  · have heval : e.eval = .ok ⟨walkText e.walk, bareClass? e.walk⟩ := by
      rw [eval_eq_build, build_of_notMem h]
    exact ⟨_, heval, rfl, className_eq_some_iff heval⟩
  · exact hwalk (by simp [Expr.walk])
  · exact hwalk (by simp [Expr.walk])
  · rw [shiftRight_eq_child, Expr.eval, hs, ht]
    rfl
  · rw [add_eq_adjacent, Expr.eval, hs, ht]
    rfl

/-- Two bracketings of a child, a sibling and a state. -/
theorem eval_along_walk_hover :
    (Expr.pseudo .hover (.combine .adjacent (.combine .child (.ofClass "a") (.ofId "b"))
        (.raw "c"))).eval =
      (Expr.combine .child (.ofClass "a") (.combine .adjacent (.ofId "b")
        (.pseudo .hover (.raw "c")))).eval ∧
    ∃ s, (Expr.pseudo .hover (.combine .adjacent (.combine .child (.ofClass "a") (.ofId "b"))
        (.raw "c"))).eval = .ok s ∧ s.text = ".a > #b + c:hover" := by
  obtain ⟨-, hbuild, hwalk, -⟩ := eval_along_walk
    (.pseudo .hover (.combine .adjacent (.combine .child (.ofClass "a") (.ofId "b")) (.raw "c")))
    (.combine .child (.ofClass "a") (.combine .adjacent (.ofId "b") (.pseudo .hover (.raw "c"))))
  obtain ⟨s, heval, htext, -⟩ := hbuild (by decide)
  exact ⟨hwalk rfl, s, heval, htext.trans (by decide +kernel)⟩

end Selector
end StyleSheet
