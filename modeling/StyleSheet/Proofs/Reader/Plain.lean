import Mathlib.Data.List.Basic
import Mathlib.Data.List.Infix
import StyleSheet.Proofs.Reader.Formatting

/-!
# Plain styles

Text that a theme author writes out by hand is mostly plain: no brackets, quotes, escapes
or comments, and no semicolon.  Such text is readable, so a sheet of plain styles is read
back as it was written, and nothing in it reaches into the text that comes after it
(`readSheet_generate_append`).

Selectors that start like a custom property are the exception that the reader makes.
`looksCustom` tells them by their characters, and `startsCustom_lexemes` says that the
reader's test on lexemes is the same.
-/

namespace StyleSheet

open Reader

namespace Reader

variable {v : List Char}

/-- Whether a character is no quote, bracket, semicolon or backslash. -/
def isPlainChar (c : Char) : Bool :=
  c != '\x7b' && c != '\x7d' && c != '(' && c != ')' && c != '[' && c != ']' && c != ';' &&
    c != '"' && c != '\x27' && c != '\\'

/-- Text without white space at its ends, plain characters only, and no comment. -/
structure IsPlain (v : List Char) : Prop where
  trimmed : Text.Trimmed v
  chars : ∀ c ∈ v, isPlainChar c = true
  noComment : ¬ ['/', '*'] <:+: v

instance (v : List Char) : Decidable (IsPlain v) :=
  decidable_of_iff (Text.Trimmed v ∧ v.all isPlainChar = true ∧ ¬ ['/', '*'] <:+: v)
    ⟨fun h => ⟨h.1, List.all_eq_true.mp h.2.1, h.2.2⟩,
      fun h => ⟨h.trimmed, List.all_eq_true.mpr h.chars, h.noComment⟩⟩

theorem Quiet.of_isPlainChar (hchars : ∀ c ∈ v, isPlainChar c = true)
    (hcomment : ¬ ['/', '*'] <:+: v) : Quiet v where
  chars c hc := by
    have hplain := hchars c hc
    simp only [isPlainChar, Bool.and_eq_true] at hplain
    simp [isQuietChar, hplain]
  noComment := hcomment

/-- Plain characters make no brackets and no semicolons. -/
theorem Quiet.isFlat_of_mem (h : Quiet v) (hchars : ∀ c ∈ v, isPlainChar c = true) {x : Lexeme}
    (hx : x ∈ lexemes v) : x.token.isFlat = true := by
  obtain ⟨c, cs, hsuffix, rfl⟩ := exists_scan_of_mem_lexemes hx
  have hquiet : Quiet (c :: cs) := h.of_suffix hsuffix
  have hc : isPlainChar c = true := hchars c (hsuffix.subset List.mem_cons_self)
  have hs := scans c cs
  show (scan c cs).1.isFlat = true
  generalize scan c cs = r at hs ⊢
  cases hs with
  | opening b hb => cases b <;> cases hb <;> exact absurd hc (by decide)
  | closing b hb => cases b <;> cases hb <;> exact absurd hc (by decide)
  | semicolon hsemi => cases hsemi; exact absurd hc (by decide)
  | name => rw [hquiet.scanName_eq_name]; rfl
  | _ => rfl

namespace IsPlain

theorem quiet (h : IsPlain v) : Quiet v := .of_isPlainChar h.chars h.noComment

theorem isFlat_of_mem (h : IsPlain v) {x : Lexeme} (hx : x ∈ lexemes v) :
    x.token.isFlat = true :=
  h.quiet.isFlat_of_mem h.chars hx

theorem isStretch (h : IsPlain v) {stop : Token → Bool}
    (hstop : ∀ t, stop t = true → t.isDelimiter = true) : IsStretch stop v where
  detached := h.quiet.detached
  closed := Sealed.of_flat hstop fun _ hx => h.isFlat_of_mem hx
  trimmed := h.trimmed

theorem isValue (h : IsPlain v) : IsValue v := h.isStretch fun _ => Token.isDelimiter_of_endsValue

end IsPlain

/-- Marks with which a rule does not start. -/
def refusedStarts : List (List Char) := [['@'], ['<', '!', '-', '-'], ['-', '-', '>']]

/-- Plain text that starts with no such mark. -/
structure IsPlainSelector (v : List Char) : Prop extends IsPlain v where
  start : ∀ mark ∈ refusedStarts, ¬ mark <+: v

instance (v : List Char) : Decidable (IsPlainSelector v) :=
  decidable_of_iff (_ ∧ _) ⟨fun h => ⟨h.1, h.2⟩, fun h => ⟨h.toIsPlain, h.start⟩⟩

theorem IsPlainSelector.isSelector (h : IsPlainSelector v) : IsSelector v where
  toIsStretch := h.isStretch (Token.isDelimiter_of_beq rfl)
  starts x hx := by
    cases v with
    | nil => cases hx
    | cons c cs =>
      rw [lexemes_cons] at hx
      cases hx
      have hmark : ∀ mark ∈ refusedStarts, (c :: cs).take mark.length ≠ mark := by
        intro mark hmem htake
        exact h.start mark hmem ⟨_, htake ▸ List.take_append_drop _ _⟩
      have hs := scans c cs
      show (scan c cs).1.startsRule = true
      generalize scan c cs = r at hs ⊢
      cases hs with
      | blank hb =>
        have hspace : Text.isSpace c = false := h.trimmed.head
        rw [isSpace_of_isBlank hb] at hspace
        cases hspace
      | comment hc => exact absurd hc h.quiet.not_startsComment
      | markupOpen hc =>
        obtain ⟨rfl, htake⟩ := hc
        refine absurd ?_ (hmark ['<', '!', '-', '-'] (by decide))
        rw [List.length_cons, List.take_succ_cons]
        exact congrArg _ htake
      | markupClose hc =>
        obtain ⟨rfl, htake⟩ := hc
        refine absurd ?_ (hmark ['-', '-', '>'] (by decide))
        rw [List.length_cons, List.take_succ_cons]
        exact congrArg _ htake
      | atWord hc =>
        cases hc
        exact absurd rfl (hmark ['@'] (by decide))
      | name => rw [h.quiet.scanName_eq_name]; rfl
      | opening b hb => rfl
      | _ => rfl

/-! ## Custom properties -/

/-- Whether a text starts like a custom property: with two hyphens, further characters of
a name, and a colon after blanks. -/
def looksCustom (v : List Char) : Bool :=
  v.take 2 == ['-', '-'] &&
    (((v.drop 2).dropWhile isNameChar).dropWhile isBlank).head? == some ':'

theorem scan_eq_colon_iff {c : Char} {cs : List Char} : (scan c cs).1 = .colon ↔ c = ':' := by
  constructor
  · intro h
    exact eq_of_first? (by rw [h]; rfl)
  · rintro rfl
    rfl

/-- In quiet text only blanks are gaps. -/
theorem isGap_lexemes_cons {c : Char} {cs : List Char} (h : Quiet (c :: cs))
    (hblank : isBlank c = false) (text : List Char) : isGap ⟨(scan c cs).1, text⟩ = false := by
  have hs := scans c cs
  generalize scan c cs = r at hs ⊢
  cases hs with
  | blank hb => exact absurd hb (by simp [hblank])
  | comment hc => exact absurd hc h.not_startsComment
  | name =>
    rw [h.scanName_eq_name]
    rfl
  | _ => rfl

/-- A colon follows the gaps at the start of quiet text if it follows the blanks. -/
theorem isSome_afterColon?_lexemes (h : Quiet v) :
    (afterColon? (lexemes v)).isSome = ((v.dropWhile isBlank).head? == some ':') := by
  have hgap : ∀ x ∈ (v.takeWhile isBlank).map blankLexeme, isGap x = true :=
    fun _ => isGap_of_mem_blanks
  rw [lexemes_dropWhile_isBlank, afterColon?, List.dropWhile_append_of_pos hgap]
  cases hd : v.dropWhile isBlank with
  | nil => rfl
  | cons c cs =>
    have hquiet : Quiet (c :: cs) := h.of_suffix (hd ▸ List.dropWhile_suffix isBlank)
    have hblank : isBlank c = false := by
      have hhead := List.head?_dropWhile_not isBlank v
      rwa [hd] at hhead
    rw [lexemes_cons, List.dropWhile_cons_of_neg
      (by rw [isGap_lexemes_cons hquiet hblank]; exact Bool.false_ne_true)]
    by_cases hc : c = ':'
    · subst hc
      rfl
    · have htoken : (scan c cs).1 ≠ .colon := fun heq => hc (scan_eq_colon_iff.mp heq)
      show (if (scan c cs).1 = .colon then some _ else none).isSome = (some c == some ':')
      rw [if_neg htoken]
      simp [hc]

theorem eq_of_nameValue_eq_hyphen {c : Char} (h : nameValue c = '-') : c = '-' := by
  unfold nameValue at h
  split at h
  · exact absurd h (by decide)
  · exact h

/-- A name with two hyphens at its start is written with them. -/
theorem take_two_of_isCustomName
    (h : (Token.name ((v.takeWhile isNameChar).map nameValue)).isCustomName = true) :
    v.take 2 = ['-', '-'] := by
  unfold Token.isCustomName at h
  split at h
  · next value heq =>
    have hvalue : (v.takeWhile isNameChar).map nameValue = '-' :: '-' :: value :=
      Token.name.inj heq
    obtain ⟨c, cs, htake, hc, hcs⟩ := List.map_eq_cons_iff.mp hvalue
    obtain ⟨d, ds, rfl, hd, -⟩ := List.map_eq_cons_iff.mp hcs
    obtain ⟨u, hu⟩ : c :: d :: ds <+: v := htake ▸ List.takeWhile_prefix isNameChar
    rw [← hu, eq_of_nameValue_eq_hyphen hc, eq_of_nameValue_eq_hyphen hd]
    rfl
  · cases h

/-- The reader's test for custom properties, on the characters of quiet text. -/
theorem startsCustom_lexemes (h : Quiet v) : startsCustom (lexemes v) = looksCustom v := by
  by_cases hhyphens : v.take 2 = ['-', '-']
  · obtain ⟨t, rfl⟩ : ∃ t, v = '-' :: '-' :: t :=
      ⟨v.drop 2, by rw [← List.take_append_drop 2 v, hhyphens]; rfl⟩
    by_cases hmark : t.head? = some '>'
    · -- the mark `-->` is no name
      obtain ⟨u, rfl⟩ : ∃ u, t = '>' :: u := by
        cases t with
        | nil => cases hmark
        | cons c cs => cases hmark; exact ⟨cs, rfl⟩
      rw [lexemes_cons, startsCustom_cons]
      rfl
    · have hname := h.lexemes_name rfl fun htake => hmark (by
        cases t with
        | nil => cases htake
        | cons c cs => cases htake; rfl)
      rw [hname, startsCustom_cons,
        isSome_afterColon?_lexemes (h.of_suffix (List.dropWhile_suffix isNameChar))]
      rfl
  · have hlooks : looksCustom v = false := by simp [looksCustom, hhyphens]
    rw [hlooks]
    cases v with
    | nil => rfl
    | cons c cs =>
      rw [lexemes_cons, startsCustom_cons]
      have hs := scans c cs
      generalize scan c cs = r at hs ⊢
      cases hs with
      | name =>
        have hvalue := h.name_eq startsApart_nil
        rw [List.append_nil] at hvalue
        rw [h.scanName_eq_name, hvalue]
        have hname : (Token.name (((c :: cs).takeWhile isNameChar).map nameValue)).isCustomName =
            false := by
          by_contra hcustom
          exact hhyphens (take_two_of_isCustomName (Bool.of_not_eq_false hcustom))
        exact (congrArg (· && _) hname).trans (Bool.false_and _)
      | _ => rfl

end Reader

/-! ## Sheets of plain styles -/

/-- A declaration with a plain value. -/
structure Property.IsPlain (p : Property) : Prop where
  name : isIdentifier p.name.toList = true
  value : Reader.IsPlain p.value.toList

/-- A style whose texts are plain. -/
structure Style.IsPlain (s : Style) : Prop where
  selector : IsPlainSelector s.selector.text.toList
  properties : ∀ p ∈ s.properties, p.IsPlain

instance (p : Property) : Decidable p.IsPlain :=
  decidable_of_iff (_ ∧ _) ⟨fun h => ⟨h.1, h.2⟩, fun h => ⟨h.name, h.value⟩⟩

instance (s : Style) : Decidable s.IsPlain :=
  decidable_of_iff (_ ∧ _) ⟨fun h => ⟨h.1, h.2⟩, fun h => ⟨h.selector, h.properties⟩⟩

/-- The styles that are read back: all but those that start like a custom property. -/
def Style.isRead (s : Style) : Bool := !looksCustom s.selector.text.toList

namespace Style

variable {s : Style}

theorem IsPlain.isReadable (h : s.IsPlain) : s.IsReadable where
  selector := h.selector.isSelector
  properties p hp := ⟨(h.properties p hp).name, (h.properties p hp).value.isValue⟩

theorem IsPlain.readBack_eq (h : s.IsPlain) :
    s.readBack = if s.isRead then some s.rule else none := by
  rw [readBack, startsCustom_lexemes h.selector.quiet, isRead]
  cases looksCustom s.selector.text.toList <;> rfl

theorem filterMap_readBack {styles : List Style} (h : ∀ s ∈ styles, s.IsPlain) :
    styles.filterMap readBack = (styles.filter isRead).map rule := by
  rw [← List.filterMap_eq_map, List.filterMap_filter]
  refine List.filterMap_congr fun s hs => ?_
  rw [(h s hs).readBack_eq]
  rfl

end Style

/-- Reading is local: plain styles give their rules, whatever text follows them, and that
text is read as if it stood alone. -/
theorem readSheet_generate_append {styles : List Style} (h : ∀ s ∈ styles, s.IsPlain)
    (rest : String) :
    readSheet (Style.generate styles ++ rest) =
      (styles.filter Style.isRead).map Style.rule ++ readSheet rest := by
  have hread : ∀ s ∈ styles, s.IsReadable := fun s hs => (h s hs).isReadable
  rw [readSheet, String.toList_append, (formats_generate styles).rules_append hread,
    Style.filterMap_readBack h]
  rfl

/-- A rule and a malformed rest. -/
theorem readSheet_button_append :
    readSheet (Style.generate [⟨.raw ".button", [⟨"color", "red"⟩]⟩] ++ "@media \x7b") =
      [⟨".button", [⟨"color", "red"⟩]⟩] ++ readSheet "@media \x7b" := by
  rw [readSheet_generate_append (by decide +kernel)]
  decide +kernel

/-- A style with a selector that starts like a custom property is not read back. -/
theorem not_readSheet_generate_append :
    ¬ ∀ styles : List Style, (∀ s ∈ styles, s.IsPlain) → ∀ rest : String,
      readSheet (Style.generate styles ++ rest) = styles.map Style.rule ++ readSheet rest := by
  intro hall
  have hread := hall [⟨.raw "--a:b", [⟨"x", "y"⟩]⟩] (by decide +kernel) ""
  exact absurd hread (by decide +kernel)

end StyleSheet
