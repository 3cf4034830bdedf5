import StyleSheet.Proofs.Reader.Element
import StyleSheet.Proofs.Reader.Rules
import StyleSheet.Proofs.Text.Trim
import StyleSheet.Style

/-!
# Formats of a sheet

A sheet can be written down in many ways: blanks and comments may stand between most of
its parts, and the last semicolon of a block can be left out.  `Formats` relates styles
to all these texts, and the generated text is one of them (`formats_generate`).

What the reader makes of a format is one statement, `Formats.rules_append`, in which any
text may follow.  It asks of the styles only that their texts are `IsReadable`: that a
selector or value is one stretch which nothing around it can change, and that there is
nothing to trim.

A selector such as `--accent:hover` is readable, but a rule with it is skipped, since it
starts like a custom property.  So a style gives its rule or none, `Style.readBack`.
-/

namespace StyleSheet

open Reader

namespace Reader

variable {v w w' r : List Char}

/-! ## Gaps -/

/-- A blank or a complete comment. -/
inductive Filler where
  | blank (c : Char) (h : isBlank c = true)
  | comment (body : List Char) (h : ¬ ['*', '/'] <:+: body)

/-- The text of a filler. -/
def Filler.text : Filler → List Char
  | .blank c _ => [c]
  | .comment body _ => commentText body

/-- The lexeme of a filler. -/
def Filler.lexeme : Filler → Lexeme
  | .blank c _ => blankLexeme c
  | .comment body _ => ⟨.comment, commentText body⟩

/-- Blanks and comments between two parts of a sheet. -/
abbrev Gap := List Filler

/-- The text of a gap. -/
def gapText (g : Gap) : List Char := g.flatMap Filler.text

@[simp] theorem gapText_nil : gapText [] = [] := rfl

theorem gapText_append (g g' : Gap) : gapText (g ++ g') = gapText g ++ gapText g' :=
  List.flatMap_append

/-- A gap is read by itself, whatever comes after it. -/
theorem lexemes_gap (g : Gap) (r : List Char) :
    lexemes (gapText g ++ r) = g.map Filler.lexeme ++ lexemes r := by
  induction g with
  | nil => rfl
  | cons f g ih =>
    have hfirst : lexemes (f.text ++ (gapText g ++ r)) = f.lexeme :: lexemes (gapText g ++ r) := by
      cases f with
      | blank c h => exact lexemes_blank h _
      | comment body h => exact lexemes_comment h _
    rw [gapText, List.flatMap_cons, List.append_assoc, ← gapText, hfirst, ih]
    rfl

theorem isGap_of_mem_gap {g : Gap} {x : Lexeme} (hx : x ∈ g.map Filler.lexeme) :
    isGap x = true := by
  obtain ⟨f, -, rfl⟩ := List.mem_map.mp hx
  cases f <;> rfl

theorem isGap_of_mem_blanks {x : Lexeme} (hx : x ∈ w.map blankLexeme) : isGap x = true := by
  obtain ⟨c, -, rfl⟩ := List.mem_map.mp hx
  rfl

/-- A gap holds no stop and opens no bracket. -/
theorem sealed_gap {stop : Token → Bool} (hstop : ∀ t, stop t = true → t.isDelimiter = true)
    (g : Gap) : Sealed stop (g.map Filler.lexeme) :=
  Sealed.of_flat hstop fun _ hx => isFlat_of_isGap (isGap_of_mem_gap hx)

theorem goesOn_of_isBlank {c : Char} (h : isBlank c = true) : goesOn c = false := by
  simp only [isBlank, Bool.or_eq_true, beq_iff_eq] at h
  rcases h with (((rfl | rfl) | rfl) | rfl) | rfl <;> decide

theorem isSpace_of_isBlank {c : Char} (h : isBlank c = true) : Text.isSpace c = true := by
  simp only [isBlank, Bool.or_eq_true, beq_iff_eq] at h
  rcases h with (((rfl | rfl) | rfl) | rfl) | rfl <;> decide

theorem startsApart_gap (g : Gap) (hr : startsApart r = true) :
    startsApart (gapText g ++ r) = true := by
  cases g with
  | nil => exact hr
  | cons f g =>
    cases f with
    | blank c h =>
      show (!goesOn c) = true
      rw [goesOn_of_isBlank h]
      rfl
    | comment body h => exact (by decide : (!goesOn '/') = true)

theorem startsApart_blanks (hw : ∀ c ∈ w, isBlank c = true) (hr : startsApart r = true) :
    startsApart (w ++ r) = true := by
  cases w with
  | nil => exact hr
  | cons c cs =>
    show (!goesOn c) = true
    rw [goesOn_of_isBlank (hw c List.mem_cons_self)]
    rfl

/-! ## Readable text -/

/-- One stretch of text before a stop: what follows does not change its lexemes, no stop in
it stands outside of brackets, and there is nothing to trim. -/
structure IsStretch (stop : Token → Bool) (v : List Char) : Prop where
  detached : Detached v
  closed : Sealed stop (lexemes v)
  trimmed : Text.Trimmed v

/-- Whether a token can end a value: a semicolon, or the bracket that ends its block. -/
def Token.endsValue : Token → Bool
  | .closing .curly => true
  | .semicolon => true
  | _ => false

theorem Token.isDelimiter_of_endsValue {t : Token} (h : t.endsValue = true) :
    t.isDelimiter = true := by
  unfold endsValue at h
  split at h
  · rfl
  · rfl
  · cases h

/-- Text that can stand as a value. -/
abbrev IsValue (v : List Char) : Prop := IsStretch Token.endsValue v

/-- Text that can stand as a selector. -/
structure IsSelector (v : List Char) : Prop extends IsStretch (· == .opening .curly) v where
  starts : ∀ x ∈ (lexemes v).head?, x.token.startsRule = true

/-- The lexemes of a text with blanks around it. -/
def padded (w v w' : List Char) : List Lexeme :=
  w.map blankLexeme ++ (lexemes v ++ w'.map blankLexeme)

theorem source_blanks (w : List Char) : source (w.map blankLexeme) = w := by
  induction w with
  | nil => rfl
  | cons c cs ih =>
    rw [List.map_cons, source, List.flatMap_cons, ← source, ih]
    rfl

theorem source_padded (w v w' : List Char) : source (padded w v w') = w ++ (v ++ w') := by
  rw [padded, source_append, source_append, source_blanks, source_blanks, source_lexemes]

section Padded

variable {stop : Token → Bool} (hv : IsStretch stop v) (hw : ∀ c ∈ w, isBlank c = true)
  (hw' : ∀ c ∈ w', isBlank c = true)

include hv hw hw'

/-- The blanks around a readable text are trimmed away. -/
theorem trimmedText_padded : trimmedText (padded w v w') = String.ofList v := by
  rw [trimmedText, source_padded, Text.trim_pad (fun c hc => isSpace_of_isBlank (hw c hc))
    (fun c hc => isSpace_of_isBlank (hw' c hc)) hv.trimmed]

theorem lexemes_padded (hr : startsApart r = true) :
    lexemes (w ++ (v ++ (w' ++ r))) = padded w v w' ++ lexemes r := by
  rw [lexemes_blanks hw, hv.detached _ (startsApart_blanks hw' hr), lexemes_blanks hw', padded,
    List.append_assoc, List.append_assoc]

omit hw hw' in
variable (w w') in
theorem sealed_padded (hstop : ∀ t, stop t = true → t.isDelimiter = true) :
    Sealed stop (padded w v w') := by
  have hblank : ∀ u : List Char, Sealed stop (u.map blankLexeme) := fun u =>
    Sealed.of_flat hstop fun _ hx => isFlat_of_isGap (isGap_of_mem_blanks hx)
  exact (hblank w).append (hv.closed.append (hblank w'))

end Padded
end Reader

/-! ## Readable styles -/

/-- A declaration that is read as it is written. -/
structure Property.IsReadable (p : Property) : Prop where
  name : isIdentifier p.name.toList = true
  value : IsValue p.value.toList

/-- A style whose texts are read as they are written. -/
structure Style.IsReadable (s : Style) : Prop where
  selector : IsSelector s.selector.text.toList
  properties : ∀ p ∈ s.properties, p.IsReadable

/-- The rule that a style writes down. -/
def Style.rule (s : Style) : Rule := ⟨s.selector.text, s.properties⟩

/-- The rule that is read back from a style, unless it starts like a custom property. -/
def Style.readBack (s : Style) : Option Rule :=
  if startsCustom (lexemes s.selector.text.toList) then none else some s.rule

/-! ## Formats -/

/-- The texts of the declarations of a block, between the gap after its bracket and the
closing bracket. -/
inductive FormatsBlock : List Property → List Char → Prop where
  | nil : FormatsBlock [] []
  | cons {p : Property} {ps : List Property} {t w w' : List Char} (g g' : Gap)
      (hw : ∀ c ∈ w, isBlank c = true) (hw' : ∀ c ∈ w', isBlank c = true)
      (h : FormatsBlock ps t) :
      FormatsBlock (p :: ps)
        (p.name.toList ++ (gapText g ++ ':' ::
          (w ++ (p.value.toList ++ (w' ++ ';' :: (gapText g' ++ t))))))
  /-- The last semicolon of a block can be left out. -/
  | last {p : Property} {w w' : List Char} (g : Gap) (hw : ∀ c ∈ w, isBlank c = true)
      (hw' : ∀ c ∈ w', isBlank c = true) :
      FormatsBlock [p]
        (p.name.toList ++ (gapText g ++ ':' :: (w ++ (p.value.toList ++ w'))))

/-- The texts of a sheet. -/
inductive Formats : List Style → List Char → Prop where
  | nil (g : Gap) : Formats [] (gapText g)
  | cons {s : Style} {styles : List Style} {t t' w : List Char} (g g' : Gap)
      (hw : ∀ c ∈ w, isBlank c = true) (hblock : FormatsBlock s.properties t)
      (h : Formats styles t') :
      Formats (s :: styles)
        (gapText g ++ (s.selector.text.toList ++ (w ++ '{' :: (gapText g' ++ (t ++ '}' :: t')))))

theorem Formats.gap_append {styles : List Style} {t : List Char} (h : Formats styles t)
    (g : Gap) : Formats styles (gapText g ++ t) := by
  cases h with
  | nil g' =>
    rw [← gapText_append]
    exact .nil _
  | cons g₁ g₂ hw hblock h =>
    rw [← List.append_assoc, ← gapText_append]
    exact .cons _ _ hw hblock h

/-! ## Reading a format -/

section Block

variable {p : Property} {t w w' r : List Char}

/-- The lexemes of a declaration, up to its semicolon or to the end of its block. -/
def declarationLexemes (p : Property) (g : Gap) (w w' : List Char) : List Lexeme :=
  ⟨.name p.name.toList, p.name.toList⟩ ::
    (g.map Filler.lexeme ++ ⟨.colon, [':']⟩ :: padded w p.value.toList w')

theorem lexemes_declaration (hp : p.IsReadable) (g : Gap) (hw : ∀ c ∈ w, isBlank c = true)
    (hw' : ∀ c ∈ w', isBlank c = true) (hr : startsApart r = true) :
    lexemes (p.name.toList ++ (gapText g ++ ':' :: (w ++ (p.value.toList ++ (w' ++ r))))) =
      declarationLexemes p g w w' ++ lexemes r := by
  rw [lexemes_identifier hp.name (startsApart_gap g rfl), lexemes_gap, lexemes_colon,
    lexemes_padded hp.value hw hw' hr, declarationLexemes, List.cons_append, List.append_assoc,
    List.cons_append]

theorem sealed_declaration (hp : p.IsReadable) (g : Gap) (w w' : List Char) :
    Sealed (· == .closing .curly) (declarationLexemes p g w w') := by
  have hstop : ∀ t : Token, (t == .closing .curly) = true → t.isDelimiter = true :=
    Token.isDelimiter_of_beq rfl
  have hflat : Sealed (· == .closing .curly)
      (⟨.name p.name.toList, p.name.toList⟩ :: (g.map Filler.lexeme ++ [⟨.colon, [':']⟩])) := by
    refine Sealed.of_flat hstop fun x hx => ?_
    rcases List.mem_cons.mp hx with rfl | hx
    · rfl
    · rcases List.mem_append.mp hx with hx | hx
      · exact isFlat_of_isGap (isGap_of_mem_gap hx)
      · rw [List.mem_singleton.mp hx]
        rfl
  have hvalue : Sealed (· == .closing .curly) (padded w p.value.toList w') :=
    (sealed_padded w w' hp.value fun _ => Token.isDelimiter_of_endsValue).mono fun t ht => by
      rw [beq_iff_eq.mp ht]
      rfl
  have happ := hflat.append hvalue
  rwa [List.cons_append, List.append_assoc] at happ

theorem sealed_value (hp : p.IsReadable) (w w' : List Char) :
    Sealed (· == .semicolon) (padded w p.value.toList w') :=
  (sealed_padded w w' hp.value fun _ => Token.isDelimiter_of_endsValue).mono fun t ht => by
    rw [beq_iff_eq.mp ht]
    rfl

end Block

/-- The lexemes of the text of a block are read as its declarations. -/
theorem FormatsBlock.exists_lexemes {ps : List Property} {t : List Char}
    (h : FormatsBlock ps t) (hps : ∀ p ∈ ps, p.IsReadable) :
    ∃ xs, (∀ r, startsApart r = true → lexemes (t ++ r) = xs ++ lexemes r) ∧
      Sealed (· == .closing .curly) xs ∧ declarations xs = ps := by
  induction h with
  | nil => exact ⟨[], fun r _ => rfl, Sealed.nil _, rfl⟩
  | @last p w w' g hw hw' =>
    have hp := hps p List.mem_cons_self
    refine ⟨declarationLexemes p g w w', fun r hr => ?_, sealed_declaration hp g w w', ?_⟩
    · simp only [List.append_assoc, List.cons_append]
      exact lexemes_declaration hp g hw hw' hr
    · rw [declarationLexemes, declarations_last (fun x => isGap_of_mem_gap) rfl
        (sealed_value hp w w'), trimmedText_padded hp.value hw hw', String.ofList_toList,
        String.ofList_toList]
  | @cons p ps t w w' g g' hw hw' h ih =>
    have hp := hps p List.mem_cons_self
    obtain ⟨xs, hxs, hsealed, hread⟩ := ih fun q hq => hps q (List.mem_cons_of_mem p hq)
    refine ⟨declarationLexemes p g w w' ++ ⟨.semicolon, [';']⟩ :: (g'.map Filler.lexeme ++ xs),
      fun r hr => ?_, ?_, ?_⟩
    · have hsemicolon : lexemes (';' :: (gapText g' ++ (t ++ r))) =
          ⟨.semicolon, [';']⟩ :: (g'.map Filler.lexeme ++ (xs ++ lexemes r)) := by
        rw [lexemes_semicolon, lexemes_gap, hxs r hr]
      simp only [List.append_assoc, List.cons_append]
      rw [lexemes_declaration hp g hw hw' rfl, hsemicolon]
    · have hsemicolon : Sealed (· == .closing .curly) [(⟨.semicolon, [';']⟩ : Lexeme)] :=
        ⟨rfl, rfl⟩
      have hgap : Sealed (· == .closing .curly) (g'.map Filler.lexeme) :=
        sealed_gap (Token.isDelimiter_of_beq rfl) g'
      exact (sealed_declaration hp g w w').append (hsemicolon.append (hgap.append hsealed))
    · rw [declarationLexemes, List.cons_append, declarations_declaration
        (fun x => isGap_of_mem_gap) rfl (sealed_value hp w w') _ _ rfl,
        declarations_gap (fun x => isGap_of_mem_gap), hread,
        trimmedText_padded hp.value hw hw', String.ofList_toList, String.ofList_toList]

/-- A readable selector before the bracket of its block. -/
theorem rules_selector {v w : List Char} (hv : IsSelector v) (hw : ∀ c ∈ w, isBlank c = true)
    (rest : List Lexeme) :
    rules (padded [] v w ++ ⟨.opening .curly, ['{']⟩ :: rest) =
      blockRules (startsCustom (lexemes v)) (String.ofList v) rest := by
  have hblank : ∀ x ∈ w.map blankLexeme, isGap x = true := fun _ => isGap_of_mem_blanks
  cases v with
  | nil =>
    -- the blanks are skipped before the rule, not trimmed off its selector
    have hpadded : padded [] [] w = w.map blankLexeme := rfl
    have hnil : ∀ x ∈ ([] : List Lexeme).head?, x.token.startsRule = true := by simp
    rw [hpadded, rules_gap hblank]
    exact rules_opening hnil (Sealed.nil _) rfl rest
  | cons c cs =>
    have hpadded : padded [] (c :: cs) w = lexemes (c :: cs) ++ w.map blankLexeme := rfl
    have hstart : ∀ x ∈ (padded [] (c :: cs) w).head?, x.token.startsRule = true := by
      have hhead := hv.starts
      rw [hpadded]
      rw [lexemes_cons] at hhead ⊢
      exact hhead
    have hsealed : Sealed (· == .opening .curly) (padded [] (c :: cs) w) :=
      sealed_padded [] w hv.toIsStretch (Token.isDelimiter_of_beq rfl)
    have hcustom : startsCustom (padded [] (c :: cs) w) = startsCustom (lexemes (c :: cs)) :=
      startsCustom_append (afterColon?_of_gap hblank) (startsCustom_of_gap hblank) _
    rw [rules_opening hstart hsealed rfl, hcustom, trimmedText_padded hv.toIsStretch (by simp) hw]

/-- A format is read as the rules of its styles, whatever text comes after it. -/
theorem Formats.rules_append {styles : List Style} {t : List Char} (h : Formats styles t)
    (hstyles : ∀ s ∈ styles, s.IsReadable) (r : List Char) :
    rules (lexemes (t ++ r)) = styles.filterMap Style.readBack ++ rules (lexemes r) := by
  induction h with
  | nil g => rw [lexemes_gap, rules_gap (fun x => isGap_of_mem_gap)]; rfl
  | @cons s styles t t' w g g' hw hblock h ih =>
    have hs := hstyles s List.mem_cons_self
    obtain ⟨xs, hxs, hsealed, hread⟩ := hblock.exists_lexemes hs.properties
    have hrest := ih fun q hq => hstyles q (List.mem_cons_of_mem s hq)
    have hgap : Sealed (· == .closing .curly) (g'.map Filler.lexeme) :=
      sealed_gap (Token.isDelimiter_of_beq rfl) g'
    have hclose : lexemes (t ++ '}' :: (t' ++ r)) =
        xs ++ ⟨.closing .curly, ['}']⟩ :: lexemes (t' ++ r) := by
      rw [hxs _ rfl, lexemes_closeCurly]
    have hopen : lexemes (s.selector.text.toList ++ (w ++ '{' :: (gapText g' ++
        (t ++ '}' :: (t' ++ r))))) = padded [] s.selector.text.toList w ++
          ⟨.opening .curly, ['{']⟩ :: (g'.map Filler.lexeme ++ xs ++
            ⟨.closing .curly, ['}']⟩ :: lexemes (t' ++ r)) := by
      have hpadded := lexemes_padded (w := []) hs.selector.toIsStretch (by simp) hw
        (r := '{' :: (gapText g' ++ (t ++ '}' :: (t' ++ r)))) rfl
      rw [List.nil_append] at hpadded
      rw [hpadded, lexemes_openCurly, lexemes_gap, hclose, List.append_assoc]
    simp only [List.append_assoc, List.cons_append]
    rw [lexemes_gap, rules_gap (fun x => isGap_of_mem_gap), hopen,
      rules_selector hs.selector hw, blockRules_closed _ _ (hgap.append hsealed) rfl, hrest,
      declarations_gap (fun x => isGap_of_mem_gap), hread, String.ofList_toList,
      List.filterMap_cons, Style.readBack]
    split <;> rfl

/-- What a format is read as when it is the whole text. -/
theorem Formats.readSheet_eq {styles : List Style} {text : String}
    (h : Formats styles text.toList) (hstyles : ∀ s ∈ styles, s.IsReadable) :
    readSheet text = styles.filterMap Style.readBack := by
  have happ := h.rules_append hstyles []
  rw [List.append_nil] at happ
  rw [readSheet, happ, lexemes_nil, rules_nil, List.append_nil]

/-! ## The generated text -/

/-- The blank with which a line ends. -/
def lineEnd : Filler := .blank '\n' (by decide)

/-- The blanks with which the line of a declaration starts. -/
def indentation : Gap := List.replicate 4 (.blank ' ' (by decide))

theorem exists_formatsBlock_lines (ps : List Property) :
    ∃ g t, '\n' :: (Style.linesText ps).toList = gapText g ++ t ∧ FormatsBlock ps t := by
  induction ps with
  | nil => exact ⟨[lineEnd], [], rfl, .nil⟩
  | cons p ps ih =>
    obtain ⟨g, t, htext, hblock⟩ := ih
    refine ⟨lineEnd :: indentation, _, ?_,
      .cons [] g isBlank_space (List.forall_mem_nil _) hblock⟩
    rw [← htext]
    simp [Style.linesText, Property.text, gapText, lineEnd, indentation, Filler.text]

/-- The block of a style, before a format of other styles. -/
theorem formats_text_append (s : Style) {styles : List Style} {t : List Char}
    (h : Formats styles t) : Formats (s :: styles) (s.text.toList ++ t) := by
  obtain ⟨g, u, htext, hblock⟩ := exists_formatsBlock_lines s.properties
  have hformat := Formats.cons [] g isBlank_space hblock h
  have heq : s.text.toList ++ t = gapText [] ++ (s.selector.text.toList ++ ([' '] ++ '{' ::
      (gapText g ++ (u ++ '}' :: t)))) := by
    rw [← List.append_assoc (gapText g), ← htext]
    simp [Style.text]
  rwa [heq]

/-- The generated text is a format of its styles. -/
theorem formats_generate : ∀ styles : List Style, Formats styles (Style.generate styles).toList
  | [] => .nil []
  | [s] => by
    rw [Style.generate_singleton, String.toList_append]
    exact formats_text_append s (.nil [lineEnd])
  | s :: s' :: styles => by
    have hrest := (formats_generate (s' :: styles)).gap_append [lineEnd, lineEnd]
    rw [Style.generate_cons_cons, String.toList_append, String.toList_append, List.append_assoc]
    exact formats_text_append s hrest

end StyleSheet
