import StyleSheet.Json.Reader
import StyleSheet.Registry
import StyleSheet.Rule

/-!
# Manifests

A manifest is a JSON document that lists the sheets to be written, each with the path of
its file and its rules.  Selectors and values are text that another tool has formatted,
and are taken as they are.

The lists of sheets, rules and properties can be left out, and are empty then.
-/

namespace StyleSheet

/-- One sheet of a manifest. -/
structure ManifestSheet where
  output : Path
  rules : List Rule
  deriving DecidableEq

/-- The sheets to be written. -/
structure Manifest where
  sheets : List ManifestSheet
  deriving DecidableEq

namespace Manifest

open Json

/-- A member that holds the first component of the state. -/
def firstField {α β : Type} (key : String) (optional : Bool) (read : Reader α) :
    RecordField (Option α × Option β) where
  key := key
  optional := optional
  isSet state := state.1.isSome
  read state s :=
    match read s with
    | .ok (a, rest) => .ok ((some a, state.2), rest)
    | .error f => .error f

/-- A member that holds the second component of the state. -/
def secondField {α β : Type} (key : String) (optional : Bool) (read : Reader β) :
    RecordField (Option α × Option β) where
  key := key
  optional := optional
  isSet state := state.2.isSome
  read state s :=
    match read s with
    | .ok (b, rest) => .ok ((state.1, some b), rest)
    | .error f => .error f

/-- A declaration: `name` and `value`. -/
def propertyShape : Shape (Option String × Option String) Property where
  name := "PropertyEntry"
  fields := [firstField "name" false (text "a string"), secondField "value" false (text "a string")]
  start := (none, none)
  finish
    | (none, _) => .error "name"
    | (some _, none) => .error "value"
    | (some name, some value) => .ok ⟨name, value⟩

/-- A rule: `selector` and `properties`. -/
def ruleShape : Shape (Option String × Option (List Property)) Rule where
  name := "RuleEntry"
  fields := [firstField "selector" false (text "a string"),
    secondField "properties" true (list propertyShape.record)]
  start := (none, none)
  finish
    | (none, _) => .error "selector"
    | (some selector, properties) => .ok ⟨selector, properties.getD []⟩

/-- A sheet: `output` and `rules`. -/
def sheetShape : Shape (Option String × Option (List Rule)) ManifestSheet where
  name := "SheetEntry"
  fields := [firstField "output" false (text "path string"),
    secondField "rules" true (list ruleShape.record)]
  start := (none, none)
  finish
    | (none, _) => .error "output"
    | (some output, rules) => .ok ⟨⟨output⟩, rules.getD []⟩

/-- A manifest: `sheets`. -/
def shape : Shape (Option (List ManifestSheet)) Manifest where
  name := "Manifest"
  fields := [{
    key := "sheets"
    optional := true
    isSet := Option.isSome
    read := fun _ s =>
      match list sheetShape.record s with
      | .ok (sheets, rest) => .ok (some sheets, rest)
      | .error f => .error f }]
  start := none
  finish sheets := .ok ⟨sheets.getD []⟩

/-- Reads a manifest. -/
def ofJson (document : String) : Except Json.Error Manifest := readDocument shape.record document

/-- The style of a rule, as it is. -/
def style (r : Rule) : Style :=
  .ofSettings (.raw r.selector) (r.properties.map fun p => .custom p.name p.value)

/-- Declares every sheet, in order. -/
def toRegistry (m : Manifest) : Registry :=
  m.sheets.foldl (fun r s => r.declare s.output (s.rules.map style)) .empty

@[simp] theorem properties_style (r : Rule) : (style r).properties = r.properties := by
  simp [style, Setting.property, Setting.name, Setting.value, Function.comp_def]

@[simp] theorem text_selector_style (r : Rule) : (style r).selector.text = r.selector := rfl

end Manifest
end StyleSheet
