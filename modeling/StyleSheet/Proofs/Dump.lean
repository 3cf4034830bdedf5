import StyleSheet.CommandLine
import StyleSheet.Proofs.Manifest

/-!
# What is printed can be read as a manifest

The rules of a sheet are printed in the form that the rules of a manifest have.  The two sides
are written independently: the printer has its own member names, nesting and escapes, and the
reader refuses a record with any other member and a record without one.  Here the printed text
is shown to be one of the texts that the reader takes for these rules, from the strings up to
the list (`spells_rulesText`).

So the rules of any file can be put into a manifest as they were printed, and come back as they
were, whatever characters their selectors, names and values hold (`ofJson_dump`).
-/

namespace StyleSheet

open Json

/-! ## Printed lists and objects -/

namespace Json

theorem isSpaces_lineStart (depth : Nat) : IsSpaces (lineStart depth) := by
  intro c hc
  rcases List.mem_cons.mp hc with rfl | hc
  · rfl
  · rw [List.eq_of_mem_replicate hc]; rfl

/-- Every item but the first has a comma before it. -/
theorem lines_cons (depth : Nat) (item : List Char) (items : List (List Char)) :
    lines depth (item :: items) =
      lineStart depth ++ item ++ items.flatMap fun t => ',' :: (lineStart depth ++ t) := by
  induction items generalizing item with
  | nil => rw [List.flatMap_nil, List.append_nil, lines]
  | cons next items ih => simp [lines, ih next]

section Lists

variable {α : Type} {item : Reader α} {print : α → List Char}

/-- Printed elements after the first one. -/
theorem spellsElements_flatMap (h : ∀ a, Spells item (print a) a) (depth : Nat) {w : List Char}
    (hw : IsSpaces w) (as : List α) :
    SpellsElements item false
      ((as.map print).flatMap (fun t => ',' :: (lineStart depth ++ t)) ++ (w ++ [']'])) as := by
  induction as with
  | nil => exact .close hw
  | cons a as ih =>
    have helement := SpellsElements.element
      (.comma isSpaces_nil (isSpaces_lineStart depth)) (h a) ih
    simpa using helement

/-- A printed list is read back if its elements are. -/
theorem spells_listText (h : ∀ a, Spells item (print a) a) (depth : Nat) (as : List α) :
    Spells (list item) (listText depth (as.map print)) as := by
  cases as with
  | nil => exact spells_list (.close isSpaces_nil)
  | cons a as =>
    have helements := SpellsElements.element (.first (isSpaces_lineStart (depth + 1))) (h a)
      (spellsElements_flatMap h (depth + 1) (isSpaces_lineStart depth) as)
    simpa [listText, lines_cons] using spells_list helements

end Lists

/-- A printed object of two members. -/
theorem spells_objectText {σ α : Type} {shape : Shape σ α} {state last : σ} {a : α}
    {first second : List Char} (hfirst : shape.SpellsMember shape.start first state)
    (hsecond : shape.SpellsMember state second last) (ha : shape.finish last = .ok a)
    (depth : Nat) : Spells shape.record (objectText depth [first, second]) a := by
  have hmembers := Shape.SpellsMembers.member (.first (isSpaces_lineStart (depth + 1))) hfirst
    (.member (.comma isSpaces_nil (isSpaces_lineStart (depth + 1))) hsecond
      (.close (isSpaces_lineStart depth)))
  simpa [objectText, lines] using Shape.spells_record hmembers ha

end Json

/-! ## Printed rules -/

namespace Manifest

/-- A member with a blank after its colon. -/
theorem memberText_eq (key : String) (value : List Char) :
    memberText key value =
      '"' :: ((key.toList.flatMap stringChar ++ ['"']) ++ ([] ++ ':' :: ([' '] ++ value))) := by
  simp [memberText, stringText]

theorem spells_propertyText (depth : Nat) (p : Property) :
    Spells propertyShape.record (propertyText depth p) p := by
  have hname : propertyShape.SpellsMember (none, none)
      (memberText "name" (stringText p.name.toList)) (some p.name, none) := by
    rw [memberText_eq]
    exact spellsMember_first none rfl (spellsString_flatMap _) isSpaces_nil
      (isSpaces_singleton rfl) (spells_stringText _ _)
  have hvalue : propertyShape.SpellsMember (some p.name, none)
      (memberText "value" (stringText p.value.toList)) (some p.name, some p.value) := by
    rw [memberText_eq]
    exact spellsMember_second _ rfl (spellsString_flatMap _) isSpaces_nil
      (isSpaces_singleton rfl) (spells_stringText _ _)
  exact spells_objectText hname hvalue rfl depth

theorem spells_ruleText (depth : Nat) (r : Rule) :
    Spells ruleShape.record (ruleText depth r) r := by
  have hproperties : ruleShape.SpellsMember (none, none)
      (memberText "properties" (listText (depth + 1) (r.properties.map (propertyText (depth + 2)))))
      (none, some r.properties) := by
    rw [memberText_eq]
    exact spellsMember_second none rfl (spellsString_flatMap _) isSpaces_nil
      (isSpaces_singleton rfl)
      (spells_listText (spells_propertyText (depth + 2)) (depth + 1) r.properties)
  have hselector : ruleShape.SpellsMember (none, some r.properties)
      (memberText "selector" (stringText r.selector.toList))
      (some r.selector, some r.properties) := by
    rw [memberText_eq]
    exact spellsMember_first _ rfl (spellsString_flatMap _) isSpaces_nil
      (isSpaces_singleton rfl) (spells_stringText _ _)
  exact spells_objectText hproperties hselector rfl depth

/-- Printed rules are read back. -/
theorem spells_rulesText (rules : List Rule) :
    Spells (list ruleShape.record) (rulesText rules).toList rules := by
  rw [rulesText, String.toList_ofList]
  exact spells_listText (spells_ruleText 1) 0 rules

/-! ## A manifest around printed rules -/

/-- A manifest of one sheet, from the path of its file and the text of its rules. -/
def oneSheetText (output rules : String) : String :=
  String.join ["\x7b\"sheets\":[\x7b\"output\":", String.ofList (stringText output.toList),
    ",\"rules\":", rules, "\x7d]\x7d"]

theorem spells_oneSheetText (output : String) {t : String} {rules : List Rule}
    (h : Spells (list ruleShape.record) t.toList rules) :
    Spells shape.record (oneSheetText output (t ++ "\n")).toList ⟨[⟨⟨output⟩, rules⟩]⟩ := by
  have hnewline : IsSpaces ['\n'] := isSpaces_singleton rfl
  have houtput : sheetShape.SpellsMember (none, none) _ (some output, none) :=
    spellsMember_first none rfl (spellsString_of_plain "output".toList (by decide)) isSpaces_nil
      isSpaces_nil (spells_stringText output _)
  have hrules : sheetShape.SpellsMember (some output, none) _ (some output, some rules) :=
    spellsMember_second _ rfl (spellsString_of_plain "rules".toList (by decide)) isSpaces_nil
      isSpaces_nil h
  have hsheet : Spells sheetShape.record _ ⟨⟨output⟩, rules⟩ :=
    Shape.spells_record (.member (.first isSpaces_nil) houtput
      (.member (.comma isSpaces_nil isSpaces_nil) hrules (.close hnewline))) rfl
  have hsheets := spellsMember_sheets (spellsString_of_plain "sheets".toList (by decide))
    isSpaces_nil isSpaces_nil
    (spells_list (.element (.first isSpaces_nil) hsheet (.close isSpaces_nil)))
  have hmanifest : Spells shape.record _ ⟨[⟨⟨output⟩, rules⟩]⟩ :=
    Shape.spells_record (.member (.first isSpaces_nil) hsheets (.close isSpaces_nil)) rfl
  simpa [oneSheetText, stringText] using hmanifest

/-- The rules of a file of text, printed and put into a manifest, are the rules that are read
from its text. -/
theorem ofJson_dump {files : FileSystem} {file : Path} {text : String}
    (hread : files.read file = .ok text.toUTF8) (v : Verbosity) (output : String) :
    (CommandLine.perform (.run (.dump file) v) files).exitCode = 0 ∧
      ofJson (oneSheetText output (CommandLine.perform (.run (.dump file) v) files).output) =
        .ok ⟨[⟨⟨output⟩, readSheet text⟩]⟩ := by
  have htext : files.readText file = .ok text := by
    simp only [FileSystem.readText, hread, Text.ofBytes?_toUTF8]
  have hdump : CommandLine.perform (.run (.dump file) v) files =
      ⟨0, rulesText (readSheet text) ++ "\n", "", files⟩ := by
    simp only [CommandLine.perform, CommandLine.dump, htext]
  rw [hdump]
  refine ⟨rfl, (spells_oneSheetText output (spells_rulesText _)).readDocument_eq isSpaces_nil
    isSpaces_nil ?_⟩
  rw [List.nil_append, List.append_nil]

/-- Quotes, a backslash, controls and a character beyond the first plane, in a selector, a name
and a value. -/
theorem ofJson_dump_escapes :
    let text := "[a=\"\x07\"] \x7b \\😀: '\x00\t\ufffd' \\\x7f; \x7d"
    let files : FileSystem := ⟨[(["a.uss"], .file text.toUTF8)], []⟩
    files.read ⟨"a.uss"⟩ = .ok text.toUTF8 ∧
      ofJson (oneSheetText "a\"\\\n.uss"
          (CommandLine.perform (.run (.dump ⟨"a.uss"⟩) ⟨false, 0⟩) files).output) =
        .ok ⟨[⟨⟨"a\"\\\n.uss"⟩,
          [⟨"[a=\"\x07\"]", [⟨"😀", "'\x00\t\ufffd' \\\x7f"⟩]⟩]⟩]⟩ := by
  intro text files
  have hread : files.read ⟨"a.uss"⟩ = .ok text.toUTF8 := rfl
  have hrules : readSheet text =
      [⟨"[a=\"\x07\"]", [⟨"😀", "'\x00\t\ufffd' \\\x7f"⟩]⟩] := by decide +kernel
  have hmanifest := (ofJson_dump hread ⟨false, 0⟩ "a\"\\\n.uss").2
  rw [hrules] at hmanifest
  exact ⟨hread, hmanifest⟩

end Manifest
end StyleSheet
