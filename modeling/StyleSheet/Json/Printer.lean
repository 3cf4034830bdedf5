import StyleSheet.Json.Text
import StyleSheet.Rule

/-!
# Rules as a JSON document

The rules of a sheet are printed as a list of objects, one member on a line, two spaces
deeper for every list and object, and the members of an object in the order of their
keys.  A list of no rules or no declarations is `[]`.

What is printed has the form of the rules in a manifest.
-/

namespace StyleSheet
namespace Json

/-- A line end and the space before a line of the given depth. -/
def lineStart (depth : Nat) : List Char := '\n' :: List.replicate (2 * depth) ' '

/-- Items one to a line, with a comma after each but the last. -/
def lines (depth : Nat) : List (List Char) → List Char
  | [] => []
  | [item] => lineStart depth ++ item
  | item :: rest => lineStart depth ++ item ++ ',' :: lines depth rest

/-- A list whose items are written already, one level deeper. -/
def listText (depth : Nat) (items : List (List Char)) : List Char :=
  match items with
  | [] => ['[', ']']
  | items => '[' :: (lines (depth + 1) items ++ lineStart depth ++ [']'])

/-- A member of an object. -/
def memberText (key : String) (value : List Char) : List Char :=
  stringText key.toList ++ ':' :: ' ' :: value

/-- An object whose members are written already, one level deeper. -/
def objectText (depth : Nat) (members : List (List Char)) : List Char :=
  '{' :: (lines (depth + 1) members ++ lineStart depth ++ ['}'])

/-- A declaration. -/
def propertyText (depth : Nat) (p : Property) : List Char :=
  objectText depth
    [memberText "name" (stringText p.name.toList), memberText "value" (stringText p.value.toList)]

/-- A rule. -/
def ruleText (depth : Nat) (r : Rule) : List Char :=
  objectText depth
    [memberText "properties" (listText (depth + 1) (r.properties.map (propertyText (depth + 2)))),
      memberText "selector" (stringText r.selector.toList)]

/-- A list of rules. -/
def rulesText (rules : List Rule) : String := String.ofList (listText 0 (rules.map (ruleText 1)))

end Json
end StyleSheet
