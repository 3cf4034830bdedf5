import StyleSheet.Proofs.Reader.Curly
import StyleSheet.Proofs.Reader.Plain

/-!
# Noise between rules

Around the blocks of a sheet there may be things that are no rules: blanks, comments, the
marks `<!--` and `-->`, and at-rules, with a block or without one.  The reader skips each of
them, and goes on with what comes right after it, whatever that is (`rules_noise`).

So noise hides nothing and adds nothing.  A sheet of plain styles with any noise between its
blocks has the rules of these styles (`readSheet_noisyText`), and what looks like a rule in
the block of an at-rule is none.
-/

namespace StyleSheet

open Reader

namespace Reader

variable {v : List Char}

/-! ## At-rules -/

/-- Plain characters in which no comment starts; there may be white space at their ends. -/
structure IsPrelude (v : List Char) : Prop where
  chars : ∀ c ∈ v, isPlainChar c = true
  noComment : ¬ ['/', '*'] <:+: v

/-- Whether a character can stand in the block of an at-rule. -/
def isBlockChar (c : Char) : Bool := isPlainChar c || c == '\x7b' || c == '\x7d' || c == ';'

/-- Such characters with balanced brackets, in which no comment starts. -/
structure IsBlockText (v : List Char) : Prop where
  chars : ∀ c ∈ v, isBlockChar c = true
  noComment : ¬ ['/', '*'] <:+: v
  balanced : IsBalanced v

instance (v : List Char) : Decidable (IsPrelude v) :=
  decidable_of_iff (v.all isPlainChar = true ∧ ¬ ['/', '*'] <:+: v)
    ⟨fun h => ⟨List.all_eq_true.mp h.1, h.2⟩, fun h => ⟨List.all_eq_true.mpr h.chars, h.noComment⟩⟩

instance (v : List Char) : Decidable (IsBlockText v) :=
  decidable_of_iff (v.all isBlockChar = true ∧ ¬ ['/', '*'] <:+: v ∧ IsBalanced v)
    ⟨fun h => ⟨List.all_eq_true.mp h.1, h.2.1, h.2.2⟩,
      fun h => ⟨List.all_eq_true.mpr h.chars, h.noComment, h.balanced⟩⟩

theorem IsPrelude.quiet (h : IsPrelude v) : Quiet v := .of_isPlainChar h.chars h.noComment

/-- What ends the prelude of an at-rule. -/
theorem isDelimiter_of_endsPrelude (t : Token)
    (ht : (t == .semicolon || t == .opening .curly) = true) : t.isDelimiter = true := by
  rw [Bool.or_eq_true, beq_iff_eq, beq_iff_eq] at ht
  rcases ht with rfl | rfl <;> rfl

namespace IsBlockText

theorem quiet (h : IsBlockText v) : Quiet v where
  chars c hc := by
    have hblock := h.chars c hc
    simp only [isBlockChar, Bool.or_eq_true, beq_iff_eq] at hblock
    rcases hblock with ((hplain | rfl) | rfl) | rfl
    · simp only [isPlainChar, Bool.and_eq_true] at hplain
      simp [isQuietChar, hplain]
    · decide
    · decide
    · decide
  noComment := h.noComment

/-- The text of a block does not end it. -/
theorem sealed (h : IsBlockText v) : Sealed (· == .closing .curly) (lexemes v) :=
  h.balanced.sealed h.quiet fun hmem => absurd (h.chars _ hmem) (by decide)

end IsBlockText

/-! ## Noise -/

/-- One thing between rules that is none. -/
inductive Noise where
  | filler (f : Filler)
  /-- The mark `<!--`. -/
  | markupOpen
  /-- The mark `-->`. -/
  | markupClose
  /-- An at-rule that ends with a semicolon. -/
  | statement (name prelude : List Char) (hname : isIdentifier name = true)
      (hprelude : IsPrelude prelude)
  /-- An at-rule that ends with a block. -/
  | block (name prelude body : List Char) (hname : isIdentifier name = true)
      (hprelude : IsPrelude prelude) (hbody : IsBlockText body)

/-- The text of a piece of noise. -/
def Noise.text : Noise → List Char
  | .filler f => f.text
  | .markupOpen => ['<', '!', '-', '-']
  | .markupClose => ['-', '-', '>']
  | .statement name prelude _ _ => '@' :: (name ++ ' ' :: (prelude ++ [';']))
  | .block name prelude body _ _ _ =>
    '@' :: (name ++ ' ' :: (prelude ++ '\x7b' :: (body ++ ['\x7d'])))

/-- The text of several pieces of noise. -/
def noiseText (noise : List Noise) : List Char := noise.flatMap Noise.text

theorem noiseText_cons (n : Noise) (noise : List Noise) :
    noiseText (n :: noise) = n.text ++ noiseText noise :=
  List.flatMap_cons

/-- What follows the word of an at-rule and is skipped with it, whatever comes next. -/
structure EndsAtRule (xs : List Lexeme) : Prop where
  length : ∀ ys, atRuleLength (xs ++ ys) = xs.length
  closed : Sealed (· == .closing .curly) xs

theorem rules_atRule {xs : List Lexeme} (h : EndsAtRule xs) (text : List Char)
    (ys : List Lexeme) : rules (⟨.atWord, text⟩ :: (xs ++ ys)) = rules ys := by
  rw [rules_cons_atWord rfl, h.length, List.drop_left]

section AtRule

variable {name prelude body r : List Char} (hname : isIdentifier name = true)
  (hprelude : IsPrelude prelude) (hbody : IsBlockText body)

/-- The lexemes between the word of an at-rule and its semicolon or block. -/
def preludeLexemes (prelude : List Char) : List Lexeme := blankLexeme ' ' :: lexemes prelude

/-- The lexemes of an at-rule after its word, up to a semicolon. -/
def statementLexemes (prelude : List Char) : List Lexeme :=
  preludeLexemes prelude ++ [⟨.semicolon, [';']⟩]

/-- The lexemes of an at-rule after its word, up to the end of its block. -/
def atBlockLexemes (prelude body : List Char) : List Lexeme :=
  preludeLexemes prelude ++
    ⟨.opening .curly, ['\x7b']⟩ :: (lexemes body ++ [⟨.closing .curly, ['\x7d']⟩])

include hprelude

/-- A prelude holds nothing that ends a part of a sheet. -/
theorem sealed_prelude {stop : Token → Bool} (hstop : ∀ t, stop t = true → t.isDelimiter = true) :
    Sealed stop (preludeLexemes prelude) := by
  refine Sealed.of_flat hstop fun x hx => ?_
  rcases List.mem_cons.mp hx with rfl | hx
  · rfl
  · exact hprelude.quiet.isFlat_of_mem hprelude.chars hx

theorem endsAtRule_statement : EndsAtRule (statementLexemes prelude) where
  length ys := by
    have hlength : atRuleLength (preludeLexemes prelude ++ ⟨.semicolon, [';']⟩ :: ys) =
        (preludeLexemes prelude).length + 1 :=
      atRuleLength_of_semicolon (sealed_prelude hprelude isDelimiter_of_endsPrelude) rfl
    simp only [statementLexemes, List.append_assoc, List.singleton_append, hlength,
      List.length_append, List.length_singleton]
  closed := (sealed_prelude hprelude (Token.isDelimiter_of_beq rfl)).append ⟨rfl, rfl⟩

include hbody in
theorem endsAtRule_block : EndsAtRule (atBlockLexemes prelude body) where
  length ys := by
    have hlength : atRuleLength (preludeLexemes prelude ++ ⟨.opening .curly, ['\x7b']⟩ ::
        (lexemes body ++ ⟨.closing .curly, ['\x7d']⟩ :: ys)) =
          (preludeLexemes prelude).length + 2 + (lexemes body).length :=
      atRuleLength_of_block (sealed_prelude hprelude isDelimiter_of_endsPrelude) rfl hbody.sealed
        rfl
    simp only [atBlockLexemes, List.append_assoc, List.cons_append, List.nil_append, hlength,
      List.length_append, List.length_cons, List.length_nil]
    omega
  closed := (sealed_prelude hprelude (Token.isDelimiter_of_beq rfl)).append
    (sealed_block rfl hbody.sealed rfl)

include hname

theorem lexemes_atRule (hr : startsApart r = true) :
    lexemes ('@' :: (name ++ ' ' :: (prelude ++ r))) =
      ⟨.atWord, '@' :: name⟩ :: (preludeLexemes prelude ++ lexemes r) := by
  rw [lexemes_atWord hname (by rfl), lexemes_blank (by rfl), hprelude.quiet.lexemes_append hr,
    preludeLexemes, List.cons_append]

theorem lexemes_statement (r : List Char) :
    lexemes ('@' :: (name ++ ' ' :: (prelude ++ ';' :: r))) =
      ⟨.atWord, '@' :: name⟩ :: (statementLexemes prelude ++ lexemes r) := by
  rw [lexemes_atRule hname hprelude (by rfl), lexemes_semicolon]
  simp only [statementLexemes, List.append_assoc, List.singleton_append]

include hbody in
theorem lexemes_atBlock (r : List Char) :
    lexemes ('@' :: (name ++ ' ' :: (prelude ++ '\x7b' :: (body ++ '\x7d' :: r)))) =
      ⟨.atWord, '@' :: name⟩ :: (atBlockLexemes prelude body ++ lexemes r) := by
  rw [lexemes_atRule hname hprelude (by rfl), lexemes_openCurly,
    hbody.quiet.lexemes_append (by rfl), lexemes_closeCurly]
  simp only [atBlockLexemes, List.append_assoc, List.cons_append, List.nil_append]

end AtRule

/-- Noise is skipped, whatever comes after it. -/
theorem rules_noise (n : Noise) (r : List Char) :
    rules (lexemes (n.text ++ r)) = rules (lexemes r) := by
  cases n with
  | filler f =>
    have hgap := lexemes_gap [f] r
    rw [gapText, List.flatMap_singleton] at hgap
    rw [Noise.text, hgap, rules_gap fun x => isGap_of_mem_gap]
  | markupOpen => exact rules_cons_markup rfl (lexemes r)
  | markupClose => exact rules_cons_markup rfl (lexemes r)
  | statement name prelude hname hprelude =>
    have hlexemes := lexemes_statement hname hprelude r
    simp only [Noise.text, List.cons_append, List.append_assoc, List.nil_append]
    rw [hlexemes, rules_atRule (endsAtRule_statement hprelude)]
  | block name prelude body hname hprelude hbody =>
    have hlexemes := lexemes_atBlock hname hprelude hbody r
    simp only [Noise.text, List.cons_append, List.append_assoc, List.nil_append]
    rw [hlexemes, rules_atRule (endsAtRule_block hprelude hbody)]

theorem rules_noiseText (noise : List Noise) (r : List Char) :
    rules (lexemes (noiseText noise ++ r)) = rules (lexemes r) := by
  induction noise with
  | nil => rfl
  | cons n noise ih => rw [noiseText_cons, List.append_assoc, rules_noise, ih]

end Reader

/-! ## Sheets with noise -/

/-- The blocks of styles, with noise before each of them and after the last one.  The line ends
that stand between the blocks of a generated sheet are noise like any other. -/
def noisyText : List (List Noise × Style) → List Noise → List Char
  | [], last => noiseText last
  | (noise, s) :: parts, last => noiseText noise ++ (s.text.toList ++ noisyText parts last)

/-- The block of a readable style is read as its rule, whatever comes after it. -/
theorem Style.IsReadable.rules_text_append {s : Style} (h : s.IsReadable) (r : List Char) :
    rules (lexemes (s.text.toList ++ r)) = s.readBack.toList ++ rules (lexemes r) := by
  have hblock := (formats_text_append s (.nil [])).rules_append
    (fun t ht => List.mem_singleton.mp ht ▸ h) r
  rw [gapText_nil, List.append_nil] at hblock
  rw [hblock, List.filterMap_cons]
  cases s.readBack <;> rfl

theorem rules_noisyText {parts : List (List Noise × Style)} (last : List Noise)
    (h : ∀ p ∈ parts, p.2.IsReadable) :
    rules (lexemes (noisyText parts last)) = (parts.map Prod.snd).filterMap Style.readBack := by
  induction parts with
  | nil =>
    have hlast := rules_noiseText last []
    rw [List.append_nil] at hlast
    exact hlast
  | cons p parts ih =>
    obtain ⟨hp, hparts⟩ := List.forall_mem_cons.mp h
    rw [noisyText, rules_noiseText, hp.rules_text_append, ih hparts, List.map_cons,
      List.filterMap_cons]
    cases p.2.readBack <;> rfl

/-- A sheet of plain styles with noise around its blocks has the rules of its styles, in
order, but for those that start like a custom property. -/
theorem readSheet_noisyText {parts : List (List Noise × Style)} (h : ∀ p ∈ parts, p.2.IsPlain)
    (last : List Noise) :
    readSheet (String.ofList (noisyText parts last)) =
      ((parts.map Prod.snd).filter Style.isRead).map Style.rule := by
  have hplain : ∀ s ∈ parts.map Prod.snd, s.IsPlain := by
    intro s hs
    obtain ⟨p, hp, rfl⟩ := List.mem_map.mp hs
    exact h p hp
  rw [readSheet, String.toList_ofList, rules_noisyText last fun p hp => (h p hp).isReadable,
    Style.filterMap_readBack hplain]

/-- Rules in the block of an at-rule are no rules, and those around it are. -/
theorem readSheet_noisyText_media :
    readSheet ("@import a;/*b*/.c \x7b\n    x: y;\n\x7d@media d \x7b.e \x7bf: g;\x7d h\x7d\n-->" ++
      ".i \x7b\n\x7d<!--") = [⟨".c", [⟨"x", "y"⟩]⟩, ⟨".i", []⟩] := by
  have hplain : ∀ p ∈ ([
      ([.statement "import".toList ['a'] (by decide) (by decide),
        .filler (.comment ['b'] (by decide))], ⟨.raw ".c", [⟨"x", "y"⟩]⟩),
      ([.block "media".toList ['d', ' '] ".e \x7bf: g;\x7d h".toList (by decide) (by decide)
        (by decide), .filler lineEnd, .markupClose], ⟨.raw ".i", []⟩)] :
          List (List Noise × Style)), p.2.IsPlain := by
    decide +kernel
  exact readSheet_noisyText hplain [.markupOpen]

/-- A style with a selector that starts like a custom property is not read between noise. -/
theorem not_readSheet_noisyText :
    ¬ ∀ (parts : List (List Noise × Style)) (last : List Noise), (∀ p ∈ parts, p.2.IsPlain) →
      readSheet (String.ofList (noisyText parts last)) =
        (parts.map Prod.snd).map Style.rule := by
  intro hall
  have hread := hall [([.markupOpen, .filler lineEnd], ⟨.raw "--a:b", [⟨"x", "y"⟩]⟩)]
    [.filler lineEnd, .markupClose] (List.forall_mem_singleton.mpr (by decide +kernel))
  exact absurd hread (by decide +kernel)

end StyleSheet
