import StyleSheet.Proofs.Selector
import StyleSheet.Proofs.Setting

/-!
# Reading back typed styles

A style that is put together from typed calls is always read back as it was: no name,
number, color or keyword that the calls accept can break its rule or hide one of its
declarations.
-/

namespace StyleSheet

open Reader

/-- The calls that a style is put together from. -/
structure TypedStyle where
  selector : Selector.Expr
  settings : List Setting

namespace TypedStyle

/-- Whether none of the calls takes text as it is. -/
def isTyped (t : TypedStyle) : Bool := t.selector.isTyped && t.settings.all Setting.isTyped

/-- The style that the calls make, unless the selector cannot be built. -/
def style? (t : TypedStyle) : Except UnsupportedCombinator Style :=
  match t.selector.eval with
  | .ok s => .ok (Style.ofSettings s t.settings)
  | .error e => .error e

/-- Typed calls make a style that is readable and starts like no custom property. -/
theorem exists_style {t : TypedStyle} (h : t.isTyped = true) :
    ∃ s, t.style? = .ok s ∧ s.IsReadable ∧ s.readBack = some s.rule ∧
      s.properties = t.settings.map Setting.property := by
  simp only [isTyped, Bool.and_eq_true, List.all_eq_true] at h
  obtain ⟨selector, heval, hselector⟩ := Selector.exists_eval h.1
  have hplain := hselector.isPlainSelector
  refine ⟨Style.ofSettings selector t.settings, ?_, ⟨hplain.isSelector, ?_⟩, ?_,
    Style.properties_ofSettings selector t.settings⟩
  · rw [style?, heval]
  · intro p hp
    rw [Style.properties_ofSettings] at hp
    obtain ⟨s, hs, rfl⟩ := List.mem_map.mp hp
    exact Setting.isReadable_property (h.2 s hs)
  · rw [Style.readBack, Style.selector_ofSettings, startsCustom_lexemes hplain.quiet,
      hselector.looksCustom_eq_false]
    rfl

/-- The styles of a sheet of typed calls. -/
theorem exists_styles {sheet : List TypedStyle} (h : ∀ t ∈ sheet, t.isTyped = true) :
    ∃ styles, sheet.mapM style? = .ok styles ∧ (∀ s ∈ styles, s.IsReadable) ∧
      styles.filterMap Style.readBack = styles.map Style.rule ∧
        styles.map Style.properties = sheet.map (·.settings.map Setting.property) := by
  induction sheet with
  | nil => exact ⟨[], rfl, by simp, rfl, rfl⟩
  | cons t sheet ih =>
    obtain ⟨ht, hsheet⟩ := List.forall_mem_cons.mp h
    obtain ⟨s, hstyle, hread, hback, hproperties⟩ := exists_style ht
    obtain ⟨styles, hstyles, hreads, hbacks, hall⟩ := ih hsheet
    refine ⟨s :: styles, ?_, List.forall_mem_cons.mpr ⟨hread, hreads⟩, ?_, ?_⟩
    · rw [List.mapM_cons, hstyle, hstyles]
      rfl
    · rw [List.filterMap_cons, hback, hbacks]
      rfl
    · rw [List.map_cons, List.map_cons, hproperties, hall]

end TypedStyle

/-- A sheet of typed styles is read back as one rule for each style, in order, with the
text of its selector and all of its declarations. -/
theorem readSheet_generate_typed (sheet : List TypedStyle) (h : ∀ t ∈ sheet, t.isTyped = true) :
    ∃ styles, sheet.mapM TypedStyle.style? = .ok styles ∧
      readSheet (Style.generate styles) =
        styles.map (fun s => ⟨s.selector.text, s.properties⟩) ∧
      styles.map Style.properties = sheet.map (·.settings.map Setting.property) := by
  obtain ⟨styles, hstyles, hread, hback, hproperties⟩ := TypedStyle.exists_styles h
  refine ⟨styles, hstyles, ?_, hproperties⟩
  rw [(formats_generate styles).readSheet_eq hread, hback]
  rfl

/-- A style with a state, a width that is no number, and a font. -/
theorem readSheet_generate_typed_hover :
    readSheet
      ".a:hover \x7b\n    width: NaNpx;\n    -unity-font-definition: resource('Fonts/;');\n\x7d\n" =
      [⟨".a:hover", [⟨"width", "NaNpx"⟩, ⟨"-unity-font-definition", "resource('Fonts/;')"⟩]⟩] := by
  obtain ⟨styles, hstyles, hread, -⟩ := readSheet_generate_typed
    [⟨.pseudo .hover (.ofClass "a"),
      [.length .width (.px ⟨0x7fc00000⟩), .font (some ⟨";"⟩)]⟩] (by decide +kernel)
  cases hstyles
  exact hread

end StyleSheet
