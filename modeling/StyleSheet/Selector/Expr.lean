import StyleSheet.Selector

/-!
# Selector expressions

An expression writes down how a selector is built, operators included.  `eval` builds
it, operands from left to right, and stops at the first combinator that style sheets do
not have.
-/

namespace StyleSheet
namespace Selector

/-- The ways to combine two selectors. -/
inductive Combinator where
  | child
  | adjacent
  | descendant
  | and
  | inverseChild
  deriving DecidableEq

/-- A selector as it is built. -/
inductive Expr where
  | ofClass (name : String)
  | ofId (name : String)
  | ofType (name : String)
  | ofTypePath (path : String)
  | raw (text : String)
  | all
  | pseudo (state : PseudoClass) (operand : Expr)
  | combine (op : Combinator) (left right : Expr)
  deriving DecidableEq

/-- Combines two selectors. -/
def Combinator.apply :
    Combinator → Selector → Selector → Except UnsupportedCombinator Selector
  | .child, s, t => .ok (s.child t)
  | .adjacent, s, t => .ok (s.adjacent t)
  | .descendant, s, t => .ok (s.descendant t)
  | .and, s, t => .ok (s.and t)
  | .inverseChild, s, t => s.inverseChild t

/-- The selector that an expression builds. -/
def Expr.eval : Expr → Except UnsupportedCombinator Selector
  | .ofClass name => .ok (Selector.ofClass name)
  | .ofId name => .ok (Selector.ofId name)
  | .ofType name => .ok (Selector.ofType name)
  | .ofTypePath path => .ok (Selector.ofTypePath path)
  | .raw text => .ok (Selector.raw text)
  | .all => .ok Selector.all
  | .pseudo state operand =>
    match operand.eval with
    | .ok s => .ok (s.pseudo state)
    | .error e => .error e
  | .combine op left right =>
    match left.eval with
    | .error e => .error e
    | .ok s =>
      match right.eval with
      | .error e => .error e
      | .ok t => op.apply s t

end Selector
end StyleSheet
