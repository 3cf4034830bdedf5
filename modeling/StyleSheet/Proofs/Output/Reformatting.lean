import StyleSheet.Output.Check
import StyleSheet.Proofs.FileSystem.Files
import StyleSheet.Proofs.Reader.Plain
import StyleSheet.Proofs.RuleDiff

/-!
# Checking a sheet that was formatted again

A file whose text differs from its sheet in its format only holds the same rules, since
both texts are formats of the same styles.  When it is checked, it is reported, for its
bytes are others, but no difference is.
-/

namespace StyleSheet

variable {text written : String} {root target : Path} {files : FileSystem}
  {sheet : GeneratedSheet}

/-- A text is stale only if it is another text, and then with the differences of its rules. -/
theorem staleness?_some_toUTF8 (text written : String) :
    staleness? text (some written.toUTF8) =
      if written = text then none
      else some (.changed (Rule.diff (readSheet text) (readSheet written))) := by
  have hsame : sameContent written.toUTF8 text.toUTF8 = true ↔ written = text := by
    rw [sameContent_iff]
    exact String.toByteArray_inj
  show (if sameContent written.toUTF8 text.toUTF8 then none else _) = _
  rw [Text.lossy_toUTF8]
  exact if_congr hsame rfl rfl

/-- A text with the same rules is stale only if it is another text, and then without
differences. -/
theorem staleness?_toUTF8 (h : readSheet written = readSheet text) :
    staleness? text (some written.toUTF8) =
      if written = text then none else some (.changed []) := by
  rw [staleness?_some_toUTF8, h, Rule.diff_self]

/-- The result for a sheet whose file can be read, and the sheets after it. -/
theorem checkSheets_cons_result (hresolve : Path.resolve root sheet.path = .ok target)
    {content : ByteArray} (hread : files.read target = .ok content)
    (rest : List GeneratedSheet) :
    (checkSheets root files (sheet :: rest)).2 = (checkSheets root files rest).2.map
      (((staleness? sheet.text (some content)).map (StaleSheet.mk sheet.path)).toList ++ ·) := by
  have hpresent := FileSystem.readIfPresent_eq_some_iff.mpr hread
  simp only [checkSheets, hresolve, hpresent]
  cases staleness? sheet.text (some content) with
  | none =>
    show _ = Except.map id _
    rw [Except.map_id]
    rfl
  | some staleness => rfl

/-- A format of plain styles holds the rules of the generated text.  When the file of the
sheet holds it, checking reports nothing if it is the generated text, and otherwise a
change without differences. -/
theorem checkSheets_of_formats {styles : List Style} (h : ∀ s ∈ styles, s.IsPlain)
    (hwritten : Formats styles written.toList) :
    readSheet written = readSheet (Style.generate styles) ∧
      ∀ (root path target : Path) (files : FileSystem) (rest : List GeneratedSheet),
        Path.resolve root path = .ok target → files.read target = .ok written.toUTF8 →
          (checkSheets root files (⟨path, Style.generate styles⟩ :: rest)).2 =
            (checkSheets root files rest).2.map fun stale =>
              if written = Style.generate styles then stale
              else ⟨path, .changed []⟩ :: stale := by
  have hread : ∀ s ∈ styles, s.IsReadable := fun s hs => (h s hs).isReadable
  have hsame : readSheet written = readSheet (Style.generate styles) := by
    rw [hwritten.readSheet_eq hread, (formats_generate styles).readSheet_eq hread]
  refine ⟨hsame, ?_⟩
  intro root path target files rest hresolve hread
  rw [checkSheets_cons_result hresolve hread, staleness?_toUTF8 hsame]
  split <;> rfl

/-- A rule with a comment before it, and without blanks or a last semicolon. -/
theorem checkSheets_of_formats_button :
    (checkSheets ⟨"out"⟩
      ⟨[(["out"], .directory), (["out", "a.uss"], .file "/*c*/.a\x7bx:y\x7d".toUTF8)], []⟩
      [⟨⟨"a.uss"⟩, Style.generate [⟨.raw ".a", [⟨"x", "y"⟩]⟩]⟩]).2 =
        .ok [⟨⟨"a.uss"⟩, .changed []⟩] := by
  have hnone : ∀ c ∈ ([] : List Char), Reader.isBlank c = true := List.all_eq_true.mp rfl
  have hblock := FormatsBlock.last (p := ⟨"x", "y"⟩) [] hnone hnone
  have hformats : Formats [⟨.raw ".a", [⟨"x", "y"⟩]⟩] "/*c*/.a\x7bx:y\x7d".toList :=
    Formats.cons (s := ⟨.raw ".a", [⟨"x", "y"⟩]⟩) [.comment ['c'] (by decide)] [] hnone hblock
      (.nil [])
  obtain ⟨-, hcheck⟩ := checkSheets_of_formats (by decide +kernel) hformats
  rw [hcheck ⟨"out"⟩ ⟨"a.uss"⟩ ⟨"out/a.uss"⟩ _ [] rfl rfl]
  rfl

end StyleSheet
