import StyleSheet.Proofs.Reader.Body
import StyleSheet.Proofs.Reader.Line
import StyleSheet.Proofs.Setting

/-!
# Fonts that do no harm

The name of a font is written between quotes as it is, so it can end its string, its call and
its declaration, or go on past them.  `Font.IsHarmless` says of a font that it does not go on:
its declaration, read by itself, ends with its semicolon, stays in its block and is one
declaration.

That is told without a look at the sheet, but it is all that a sheet needs.  If its fonts are
harmless, then a sheet of classes is read back as one rule for each style, with one declaration
for each font and with all the others as they were (`isKept_of_isHarmless`).  Names without
quotes, backslashes and line ends are harmless (`Font.IsHarmless.of_isQuotable`), and others can
be: what comes after the end of a string only has to be skipped.
-/

namespace StyleSheet

open Reader

/-! ## Sheets of classes -/

/-- Whether a setting is typed, with fonts of one kind and others left aside. -/
def Setting.IsTypedWith (F : Font → Prop) : Setting → Prop
  | .font (some f) => F f
  | s => s.isTyped = true

/-- A declaration that is read where a setting was written.  The value of a font is left open. -/
def Setting.IsKept : Setting → Property → Prop
  | .font (some f), p => p.name = (Setting.font (some f)).name
  | s, p => p = s.property

/-- A style for the elements of one class. -/
structure ClassStyle where
  name : String
  isIdentifier : Reader.isIdentifier name.toList = true
  settings : List Setting

namespace ClassStyle

/-- The style as it is built. -/
def style (s : ClassStyle) : Style := .ofSettings (.ofClass s.name) s.settings

/-- The selector that is read.  A name can end with white space beyond ASCII, which is trimmed. -/
def selector (s : ClassStyle) : String :=
  String.ofList (Text.trim s.style.selector.text.toList)

/-- A rule that is read where a style was written, with all of its declarations. -/
structure IsKept (s : ClassStyle) (r : Rule) : Prop where
  selector : r.selector = s.selector
  properties : List.Forall₂ Setting.IsKept s.settings r.properties

end ClassStyle

/-- Sheets of classes that are read back as they were, up to the values of fonts. -/
def IsKept (sheet : List ClassStyle) : Prop :=
  List.Forall₂ ClassStyle.IsKept sheet (readSheet (Style.generate (sheet.map ClassStyle.style)))

/-- A setting is a font, or else it is told what its declaration is. -/
theorem Setting.eq_font_or (s : Setting) : (∃ f, s = .font (some f)) ∨
    (∀ F, s.IsTypedWith F = (s.isTyped = true)) ∧ ∀ p, s.IsKept p = (p = s.property) := by
  cases s with
  | font f =>
    cases f with
    | none => exact .inr ⟨fun _ => rfl, fun _ => rfl⟩
    | some f => exact .inl ⟨f, rfl⟩
  | _ => exact .inr ⟨fun _ => rfl, fun _ => rfl⟩

theorem Setting.IsKept.name_eq {s : Setting} {p : Property} (h : s.IsKept p) : p.name = s.name := by
  rcases s.eq_font_or with ⟨f, rfl⟩ | ⟨-, hkept⟩
  · exact h
  · rw [hkept] at h
    rw [h, name_property]

theorem ClassStyle.IsKept.names_eq {s : ClassStyle} {r : Rule} (h : s.IsKept r) :
    r.names = s.settings.map Setting.name := by
  have hps := h.properties
  rw [Rule.names]
  generalize s.settings = settings, r.properties = ps at hps ⊢
  induction hps with
  | nil => rfl
  | cons hp _ ih => rw [List.map_cons, List.map_cons, hp.name_eq, ih]

/-- The names in a sheet that is kept are those of the settings. -/
theorem IsKept.names_eq {sheet : List ClassStyle} (h : IsKept sheet) :
    (readSheet (Style.generate (sheet.map ClassStyle.style))).map Rule.names =
      sheet.map fun s => s.settings.map Setting.name := by
  rw [IsKept] at h
  generalize readSheet (Style.generate (sheet.map ClassStyle.style)) = rs at h ⊢
  induction h with
  | nil => rfl
  | cons hr _ ih => rw [List.map_cons, List.map_cons, hr.names_eq, ih]

/-! ## Harmless fonts -/

namespace Font

variable {f : Font}

/-- The declaration of a font. -/
def property (f : Font) : Property := (Setting.font (some f)).property

/-- The lexemes of its declaration, read by itself. -/
def lexemes (f : Font) : List Lexeme := Reader.lexemes f.property.text.toList

/-- Fonts whose declaration, read by itself, ends with its semicolon, stays in its block and is one
declaration. -/
structure IsHarmless (f : Font) : Prop where
  ends : f.lexemes.getLast?.map Lexeme.token = some .semicolon
  stays : Sealed (· == .closing .curly) f.lexemes
  single : (declarations f.lexemes).length = 1

instance (f : Font) : Decidable f.IsHarmless :=
  decidable_of_iff (f.lexemes.getLast?.map Lexeme.token = some .semicolon ∧
    (passes (· == .closing .curly) [] f.lexemes = true ∧ nestAll [] f.lexemes = []) ∧
      (declarations f.lexemes).length = 1)
    ⟨fun h => ⟨h.1, ⟨h.2.1.1, h.2.1.2⟩, h.2.2⟩,
      fun h => ⟨h.ends, ⟨h.stays.passes, h.stays.closed⟩, h.single⟩⟩

/-- Names that can stand in quotes as they are do no harm. -/
theorem IsHarmless.of_isQuotable (h : f.isQuotable = true) : f.IsHarmless := by
  have hread : f.property.IsReadable := Setting.isReadable_property (s := .font (some f)) h
  have htext := hread.lexemes_text []
  rw [List.append_nil] at htext
  obtain ⟨xs, hxs, hclosed, hdeclared⟩ := hread.readAs
  have hself := hxs []
  rw [List.append_nil, lexemes_nil, List.append_nil] at hself
  refine ⟨?_, ?_, ?_⟩
  · rw [lexemes, htext, lexemes_nil, List.getLast?_concat]
    rfl
  · rw [lexemes, hself]
    exact hclosed
  · have hnil := hdeclared []
    rw [List.append_nil, declarations_nil, List.append_nil] at hnil
    rw [lexemes, hself, hnil]
    rfl

/-- Other names can do no harm, too: here the string is closed, and what comes after it in the
call. -/
example : IsHarmless ⟨"serif'), url('x"⟩ := by decide +kernel

theorem toList_text_property (f : Font) : f.property.text.toList =
    "-unity-font-definition".toList ++ ':' :: (" resource('Fonts/".toList ++ f.name.toList ++
      ['\x27', ')', ';']) := by
  have htext : f.property.text =
      "-unity-font-definition" ++ ": " ++ ("resource('Fonts/" ++ f.name ++ "')") ++ ";" := rfl
  rw [htext]
  simp

/-- The line of a font ends as those do that close a string and a call. -/
theorem isLineEnd (f : Font) : IsLineEnd f.property.text.toList := by
  rw [toList_text_property]
  refine .inr (.inr (.inr ⟨"-unity-font-definition".toList ++
    ':' :: (" resource('Fonts/".toList ++ f.name.toList), ?_⟩))
  simp

/-- A font is declared first of all. -/
theorem exists_declarations (f : Font) : ∃ p ps, declarations f.lexemes = p :: ps ∧
    p.name = f.property.name := by
  have hname : isIdentifier "-unity-font-definition".toList = true := by decide +kernel
  rw [lexemes, toList_text_property, lexemes_identifier hname rfl, lexemes_colon,
    declarations_cons_name]
  exact ⟨_, _, rfl, rfl⟩

/-- The declaration of a harmless font is read by itself, whatever comes after its line. -/
theorem IsHarmless.readAs (h : f.IsHarmless) : ∃ p, p.name = f.property.name ∧
    ReadAs (f.property.text.toList ++ ['\n']) [p] := by
  obtain ⟨p, ps, hread, hname⟩ := f.exists_declarations
  have hsingle := h.single
  rw [hread, List.length_cons, Nat.add_eq_right, List.length_eq_zero_iff] at hsingle
  subst hsingle
  refine ⟨p, hname, f.lexemes ++ [blankLexeme '\n'], fun r => ?_, ?_, fun ys => ?_⟩
  · rcases f.isLineEnd.isCutOff_or_endsInComment with hcut | ⟨xs, ⟨text, hxs⟩, -⟩
    · have hline := hcut.append r
      rw [lexemes_blank rfl] at hline
      rw [List.append_assoc, List.append_assoc]
      exact hline
    · -- a comment would be the last lexeme
      have hends := h.ends
      rw [lexemes, hxs, List.getLast?_concat] at hends
      cases hends
  · exact h.stays.append ⟨rfl, rfl⟩
  · obtain ⟨y, hy, htoken⟩ := Option.map_eq_some_iff.mp h.ends
    rw [List.append_assoc, List.singleton_append,
      declarations_append h.stays.closed ⟨y, hy, htoken⟩, hread, declarations_cons_gap rfl]

end Font

/-! ## The selector of a class -/

/-- The lexemes of the selector of a class, with the blank after it. -/
def classLexemes (u : List Char) : List Lexeme :=
  [⟨.other, ['.']⟩, ⟨.name u, u⟩, blankLexeme ' ']

theorem lexemes_class {u : List Char} (h : isIdentifier u = true) (r : List Char) :
    lexemes ('.' :: (u ++ ' ' :: '\x7b' :: r)) =
      classLexemes u ++ ⟨.opening .curly, ['\x7b']⟩ :: lexemes r := by
  rw [lexemes_cons]
  show ⟨.other, ['.']⟩ :: lexemes (u ++ ' ' :: '\x7b' :: r) = _
  rw [lexemes_identifier h rfl, lexemes_blank rfl, lexemes_openCurly]
  rfl

/-- The selector of a class before the bracket of its block. -/
theorem rules_class (u : List Char) (xs : List Lexeme) :
    rules (classLexemes u ++ ⟨.opening .curly, ['\x7b']⟩ :: xs) =
      blockRules false (String.ofList (Text.trim ('.' :: u))) xs := by
  have hsealed : Sealed (· == .opening .curly) (classLexemes u) := ⟨rfl, rfl⟩
  have htext : trimmedText (classLexemes u) = String.ofList (Text.trim ('.' :: u)) := by
    rw [← Text.trim_append fun c hc => isSpace_of_isBlank (isBlank_space c hc)]
    rfl
  rw [rules_opening (by simp [classLexemes, Token.startsRule]) hsealed rfl, htext]
  rfl

/-! ## Sheets with harmless fonts -/

section Harmless

variable {F : Font → Prop} (hF : ∀ f, F f → f.IsHarmless)

include hF

/-- The line of a setting. -/
theorem Setting.IsTypedWith.exists_readAs {s : Setting} (h : s.IsTypedWith F) :
    ∃ p, s.IsKept p ∧ ReadAs ("    " ++ s.property.text ++ "\n").toList [p] := by
  have hline : ∀ {p}, ReadAs (s.property.text.toList ++ ['\n']) [p] →
      ReadAs ("    " ++ s.property.text ++ "\n").toList [p] := fun hp => by
    have happ := (readAs_gap indentation).append hp
    rw [String.toList_append, String.toList_append, List.append_assoc]
    exact happ
  rcases s.eq_font_or with ⟨f, rfl⟩ | ⟨htyped, hkept⟩
  · obtain ⟨p, hname, hp⟩ := (hF f h).readAs
    exact ⟨p, hname, hline hp⟩
  · rw [htyped] at h
    refine ⟨s.property, by rw [hkept], hline ?_⟩
    exact (isReadable_property h).readAs.append (readAs_gap [lineEnd])

/-- The lines of settings. -/
theorem exists_readAs_linesText {settings : List Setting}
    (h : ∀ s ∈ settings, s.IsTypedWith F) :
    ∃ ps, List.Forall₂ Setting.IsKept settings ps ∧
      ReadAs (Style.linesText (settings.map Setting.property)).toList ps := by
  induction settings with
  | nil => exact ⟨[], .nil, ReadAs.nil⟩
  | cons s settings ih =>
    obtain ⟨hs, hsettings⟩ := List.forall_mem_cons.mp h
    obtain ⟨p, hp, hread⟩ := hs.exists_readAs hF
    obtain ⟨ps, hps, hreads⟩ := ih hsettings
    refine ⟨p :: ps, .cons hp hps, ?_⟩
    rw [List.map_cons, Style.linesText, String.toList_append]
    exact hread.append hreads

/-- A style, and what comes after it. -/
theorem ClassStyle.exists_rules_append (s : ClassStyle) (h : ∀ t ∈ s.settings, t.IsTypedWith F) :
    ∃ rule, s.IsKept rule ∧
      ∀ r, rules (lexemes (s.style.text.toList ++ r)) = rule :: rules (lexemes r) := by
  obtain ⟨ps, hps, hread⟩ := exists_readAs_linesText hF h
  refine ⟨⟨s.selector, ps⟩, ⟨rfl, hps⟩, fun r => ?_⟩
  have hbody := (readAs_gap [lineEnd]).append hread
  have htext : s.style.text.toList ++ r = '.' :: (s.name.toList ++ ' ' :: '\x7b' ::
      (gapText [lineEnd] ++ (Style.linesText (s.settings.map Setting.property)).toList ++
        '\x7d' :: r)) := by
    rw [Style.text_append, style, Style.properties_ofSettings, Style.selector_ofSettings,
      Selector.ofClass, String.toList_append]
    simp [lineEnd, gapText, Filler.text]
  have hselector : String.ofList (Text.trim ('.' :: s.name.toList)) = s.selector := by
    rw [selector, style, Style.selector_ofSettings, Selector.ofClass, String.toList_append]
    rfl
  rw [htext, lexemes_class s.isIdentifier, rules_class, hbody.blockRules_eq, hselector]
  rfl

/-- A sheet of classes whose fonts are harmless is read back as it was. -/
theorem isKept_of_isHarmless {sheet : List ClassStyle}
    (h : ∀ s ∈ sheet, ∀ t ∈ s.settings, t.IsTypedWith F) : IsKept sheet := by
  induction sheet with
  | nil => exact .nil
  | cons s sheet ih =>
    obtain ⟨hs, hsheet⟩ := List.forall_mem_cons.mp h
    obtain ⟨rule, hrule, hread⟩ := s.exists_rules_append hF hs
    have hrest : rules (lexemes ('\n' :: if sheet.map ClassStyle.style = [] then [] else
        '\n' :: (Style.generate (sheet.map ClassStyle.style)).toList)) =
          readSheet (Style.generate (sheet.map ClassStyle.style)) := by
      rw [lexemes_blank rfl, rules_cons_gap rfl]
      split
      next hnil => rw [hnil]; rfl
      next =>
        rw [lexemes_blank rfl, rules_cons_gap rfl]
        rfl
    rw [IsKept, readSheet, List.map_cons, Style.toList_generate_cons, hread, hrest]
    exact .cons hrule (ih hsheet)

end Harmless

end StyleSheet
