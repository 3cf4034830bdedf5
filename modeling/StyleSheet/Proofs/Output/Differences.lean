import StyleSheet.Proofs.Output.Reformatting
import StyleSheet.Proofs.Style

/-!
# What a check reports of a sheet that was generated from other styles

A check compares bytes, and then the rules that are read from both texts.  For plain styles
both can be said of the styles themselves: the texts are equal if the styles have equal
selectors and declarations one by one, and the reported differences are those between the
rules that the styles write down (`checkSheets_generate`).

Rules that start like a custom property are skipped when a sheet is read.  They still count
for the bytes, so a sheet with another such rule is reported, but the rule is not named.
-/

namespace StyleSheet

open Reader

variable {root path target : Path} {files : FileSystem} {styles written : List Style}

/-- A generated sheet of plain styles is read as the rules of its styles, without those that
start like a custom property. -/
theorem Style.readSheet_generate (h : ∀ s ∈ styles, s.IsPlain) :
    readSheet (generate styles) =
      (styles.map rule).filter fun r => !looksCustom r.selector.toList := by
  have hread : ∀ s ∈ styles, s.IsReadable := fun s hs => (h s hs).isReadable
  rw [(formats_generate styles).readSheet_eq hread, filterMap_readBack h, List.filter_map]
  rfl

/-- Of a sheet whose file holds a sheet of other styles, nothing is reported exactly if the
styles have equal selectors and declarations one by one.  Otherwise a change is reported, and
with it each selector once that is on one side only or has other declarations there, unless
it starts like a custom property. -/
theorem checkSheets_generate (h : ∀ s ∈ styles, s.IsPlain) (h' : ∀ s ∈ written, s.IsPlain)
    (hresolve : Path.resolve root path = .ok target)
    (hread : files.read target = .ok (Style.generate written).toUTF8)
    (rest : List GeneratedSheet) :
    ∃ diffs : List RuleDiff,
      ((checkSheets root files (⟨path, Style.generate styles⟩ :: rest)).2 =
        (checkSheets root files rest).2.map fun stale =>
          if styles.map Style.rule = written.map Style.rule then stale
          else ⟨path, .changed diffs⟩ :: stale) ∧
      (diffs.map RuleDiff.selector).Nodup ∧
      ∀ d, d ∈ diffs ↔ d.Between (styles.map Style.rule) (written.map Style.rule) ∧
        looksCustom d.selector.toList = false := by
  have hsame : Style.generate written = Style.generate styles ↔
      styles.map Style.rule = written.map Style.rule := by
    rw [eq_comm, Style.generate_eq_iff (fun s hs => (h s hs).isDelimited)
      fun s hs => (h' s hs).isDelimited]
  refine ⟨_, ?_, Rule.nodup_selector_diff (readSheet (Style.generate styles))
    (readSheet (Style.generate written)), fun d => ?_⟩
  · rw [checkSheets_cons_result hresolve hread, staleness?_some_toUTF8]
    simp only [hsame]
    split <;> rfl
  · rw [Rule.mem_diff_iff, Style.readSheet_generate h, Style.readSheet_generate h']
    exact (Rule.between_filter_iff fun s => !looksCustom s.toList).trans
      (and_congr_right fun _ => by rw [Bool.not_eq_true'])

/-- A rule with another value, one that is only expected, one that is not, and one that starts
like a custom property. -/
theorem checkSheets_generate_two_styles :
    ∃ diffs : List RuleDiff,
      (checkSheets ⟨"out"⟩
        ⟨[(["out"], .directory), (["out", "a.uss"], .file (Style.generate
          [⟨.raw ".a", [⟨"x", "1"⟩]⟩, ⟨.raw ".c", []⟩, ⟨.raw "--d:e", []⟩]).toUTF8)], []⟩
        [⟨⟨"a.uss"⟩, Style.generate [⟨.raw ".a", [⟨"x", "2"⟩]⟩, ⟨.raw ".b", []⟩]⟩]).2 =
          .ok [⟨⟨"a.uss"⟩, .changed diffs⟩] ∧
      (diffs.map RuleDiff.selector).Nodup ∧
      ∀ d, d ∈ diffs ↔
        d.Between [⟨".a", [⟨"x", "2"⟩]⟩, ⟨".b", []⟩]
            [⟨".a", [⟨"x", "1"⟩]⟩, ⟨".c", []⟩, ⟨"--d:e", []⟩] ∧
          looksCustom d.selector.toList = false := by
  have hexpected : ∀ s ∈ ([⟨.raw ".a", [⟨"x", "2"⟩]⟩, ⟨.raw ".b", []⟩] : List Style),
      s.IsPlain := by
    decide +kernel
  have hwritten : ∀ s ∈ ([⟨.raw ".a", [⟨"x", "1"⟩]⟩, ⟨.raw ".c", []⟩, ⟨.raw "--d:e", []⟩] :
      List Style), s.IsPlain := by
    decide +kernel
  have hresolve : Path.resolve ⟨"out"⟩ ⟨"a.uss"⟩ = .ok ⟨"out/a.uss"⟩ := rfl
  have hread : FileSystem.read
      ⟨[(["out"], .directory), (["out", "a.uss"], .file (Style.generate
        [⟨.raw ".a", [⟨"x", "1"⟩]⟩, ⟨.raw ".c", []⟩, ⟨.raw "--d:e", []⟩]).toUTF8)], []⟩
      ⟨"out/a.uss"⟩ = .ok (Style.generate
        [⟨.raw ".a", [⟨"x", "1"⟩]⟩, ⟨.raw ".c", []⟩, ⟨.raw "--d:e", []⟩]).toUTF8 := rfl
  obtain ⟨diffs, hreport, hrest⟩ :=
    checkSheets_generate hexpected hwritten hresolve hread []
  exact ⟨diffs, hreport.trans rfl, hrest⟩

/-- A rule that starts like a custom property is missing, and is not named. -/
theorem not_checkSheets_generate :
    ¬ ∀ styles written : List Style, (∀ s ∈ styles, s.IsPlain) → (∀ s ∈ written, s.IsPlain) →
      ∀ (root path target : Path) (files : FileSystem), Path.resolve root path = .ok target →
        files.read target = .ok (Style.generate written).toUTF8 →
          ∀ rest : List GeneratedSheet, ∃ diffs : List RuleDiff,
            ((checkSheets root files (⟨path, Style.generate styles⟩ :: rest)).2 =
              (checkSheets root files rest).2.map fun stale =>
                if styles.map Style.rule = written.map Style.rule then stale
                else ⟨path, .changed diffs⟩ :: stale) ∧
            ∀ d, d ∈ diffs ↔ d.Between (styles.map Style.rule) (written.map Style.rule) := by
  intro hall
  obtain ⟨diffs, hreport, hdiffs⟩ := hall [⟨.raw "--a:b", [⟨"x", "y"⟩]⟩] [] (by decide +kernel)
    (by simp) ⟨"out"⟩ ⟨"a.uss"⟩ ⟨"out/a.uss"⟩
    ⟨[(["out"], .directory), (["out", "a.uss"], .file "".toUTF8)], []⟩ rfl rfl []
  have hmissing : RuleDiff.missing "--a:b" ∈ diffs :=
    (hdiffs _).mpr (.missing (by decide) (by decide))
  have hchecked : (checkSheets ⟨"out"⟩
      ⟨[(["out"], .directory), (["out", "a.uss"], .file "".toUTF8)], []⟩
      [⟨⟨"a.uss"⟩, Style.generate [⟨.raw "--a:b", [⟨"x", "y"⟩]⟩]⟩]).2 =
        .ok [⟨⟨"a.uss"⟩, .changed []⟩] := by
    decide +kernel
  have hreported : (.ok [⟨⟨"a.uss"⟩, .changed []⟩] : Except Failure (List StaleSheet)) =
      .ok [⟨⟨"a.uss"⟩, .changed diffs⟩] := hchecked.symm.trans (hreport.trans rfl)
  cases hreported
  cases hmissing

end StyleSheet
