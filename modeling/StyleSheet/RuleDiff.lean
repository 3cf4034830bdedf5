import StyleSheet.Grouping
import StyleSheet.Rule

/-!
# Differences between sheets

Two lists of rules are compared selector by selector.  All rules with one selector are
taken together, their declarations in order, because that is what they amount to.
What is reported follows the expected rules, then come the selectors that are not
expected; each selector is reported once.

The order of declarations counts: of two declarations of one property the later wins.
-/

namespace StyleSheet

/-- One difference between expected and actual rules. -/
inductive RuleDiff where
  /-- The selector is expected but absent. -/
  | missing (selector : String)
  /-- The selector is there but not expected. -/
  | unexpected (selector : String)
  /-- The selector is there with other declarations. -/
  | changed (selector : String) (expected actual : List Property)
  deriving DecidableEq

namespace RuleDiff

/-- The selector that differs. -/
def selector : RuleDiff → String
  | missing s => s
  | unexpected s => s
  | changed s _ _ => s

/-- The word for a kind of difference. -/
def kind : RuleDiff → String
  | missing _ => "missing"
  | unexpected _ => "unexpected"
  | changed _ _ _ => "changed"

end RuleDiff

namespace Rule

/-- The declarations of rules, gathered by selector. -/
def bySelector (rules : List Rule) : List (Batch String Property) :=
  rules.foldl (fun gs r => Batch.insert (· == ·) r.selector r.properties gs) []

/-- How the batch of an expected selector differs from the actual ones. -/
def diffExpected (actual : List (Batch String Property)) (want : Batch String Property) :
    Option RuleDiff :=
  match Batch.find? (· == ·) want.key actual with
  | none => some (.missing want.key)
  | some found =>
    if found.members = want.members then none
    else some (.changed want.key want.members found.members)

/-- Whether the selector of a batch is not among the expected ones. -/
def diffActual (expected : List (Batch String Property)) (found : Batch String Property) :
    Option RuleDiff :=
  match Batch.find? (· == ·) found.key expected with
  | none => some (.unexpected found.key)
  | some _ => none

/-- The differences between expected and actual rules. -/
def diff (expected actual : List Rule) : List RuleDiff :=
  (bySelector expected).filterMap (diffExpected (bySelector actual)) ++
    (bySelector actual).filterMap (diffActual (bySelector expected))

end Rule
end StyleSheet
