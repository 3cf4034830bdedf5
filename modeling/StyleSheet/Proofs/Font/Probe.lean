import StyleSheet.Proofs.Font

/-!
# What fonts can do to a sheet

A font that is not harmless does harm to small sheets: a class with the font and one more
setting, and a class without settings after it.  Two such sheets, which differ in that setting
only, are enough to find out about every font.

* If the declaration of the font leaves a comment open, then what comes after it is not there for
  the reader, and both sheets have the same names in them.
* If it closes its block, then the setting is not in the block.
* If it leaves a bracket open, then the second class is not read.
* If it ends otherwise than an item does, then the setting is taken in by its last item.
* If it ends with its semicolon, then all it can do is to declare more than the font.

With the sheets of harmless fonts (`isKept_of_isHarmless`) this says which fonts can be used at all
(`isKept_iff_isHarmless`).  A quote in a name is enough to make it one that cannot
(`not_isKept`).
-/

namespace StyleSheet

open Reader

namespace Font

variable {f : Font} {xs : List Lexeme} {selector : String}

/-! ## Probes -/

/-- The setting after the font. -/
def probeSetting : Bool → Setting
  | true => .display .flex
  | false => .overflow .hidden

/-- A class with a font and one more setting, and a class without settings. -/
def probe (f : Font) (b : Bool) : List ClassStyle :=
  [⟨"a", by decide, [.font (some f), probeSetting b]⟩, ⟨"b", by decide, []⟩]

/-- The text after the line of the font. -/
def probeTail (b : Bool) : List Char :=
  ("    " ++ (probeSetting b).property.text ++ "\n\x7d\n\n.b \x7b\n\x7d\n").toList

/-- The lexemes of the setting after the font, up to its semicolon. -/
def settingLexemes (b : Bool) : List Lexeme :=
  Reader.lexemes ("\n    " ++ (probeSetting b).name ++ ": " ++ (probeSetting b).value).toList

/-- The lexemes after the font, up to the end of the first block. -/
def blockTail (b : Bool) : List Lexeme :=
  settingLexemes b ++ ⟨.semicolon, [';']⟩ :: [blankLexeme '\n']

/-- The lexemes after the first block. -/
def secondBlock : List Lexeme := Reader.lexemes "\n\n.b \x7b\n\x7d\n".toList

/-- The lexemes after the font. -/
def tailLexemes (b : Bool) : List Lexeme :=
  blockTail b ++ ⟨.closing .curly, ['\x7d']⟩ :: secondBlock

theorem lexemes_probeTail (b : Bool) : Reader.lexemes ('\n' :: probeTail b) = tailLexemes b := by
  cases b <;> decide +kernel

theorem isAbsorbed_settingLexemes (b : Bool) : IsAbsorbed (settingLexemes b) := by
  cases b <;> exact ⟨by decide +kernel, by decide +kernel⟩

/-- The blanks before the font. -/
def blanks : List Lexeme := (lineEnd :: indentation).map Filler.lexeme

theorem sealed_blanks : Sealed (· == .closing .curly) blanks := ⟨rfl, rfl⟩

theorem namesOf_blanks (xs : List Lexeme) : namesOf (blanks ++ xs) = namesOf xs := by
  rw [namesOf, blanks, declarations_gap fun x => isGap_of_mem_gap, namesOf]

/-- The lexemes of a probe. -/
theorem lexemes_probe (f : Font) (b : Bool) :
    Reader.lexemes (Style.generate ((probe f b).map ClassStyle.style)).toList =
      classLexemes ['a'] ++ ⟨.opening .curly, ['\x7b']⟩ ::
        (blanks ++ Reader.lexemes (f.property.text.toList ++ '\n' :: probeTail b)) := by
  have htext : (Style.generate ((probe f b).map ClassStyle.style)).toList =
      '.' :: (['a'] ++ ' ' :: '\x7b' :: (gapText (lineEnd :: indentation) ++
        (f.property.text.toList ++ '\n' :: probeTail b))) := by
    rw [probe, List.map_cons, Style.toList_generate_cons, Style.text_append]
    simp [ClassStyle.style, Style.text, Style.linesText, Selector.ofClass, probeTail, Font.property,
      gapText, lineEnd, indentation, Filler.text]
  rw [htext, lexemes_class rfl, lexemes_gap, blanks]

/-- The names in a probe. -/
def probeNames (b : Bool) : List (List String) :=
  [["-unity-font-definition", (probeSetting b).name], []]

/-- The probes are told apart by the names in their first rules. -/
theorem head?_probeNames_ne : (probeNames true).head? ≠ (probeNames false).head? := by decide

/-! ## What is found out -/

/-- Lexemes before the rest of a probe that are read with the names of the probe. -/
def Probed (selector : String) (xs : List Lexeme) : Prop :=
  ∀ b, (blockRules false selector (blanks ++ (xs ++ tailLexemes b))).map Rule.names = probeNames b

/-- The block of the font goes on after it. -/
theorem Probed.passes (h : Probed selector xs) :
    passes (· == .closing .curly) [] xs = true := by
  rcases passes_or_exists_stop (· == .closing .curly) [] xs with
    hpasses | ⟨pre, y, rest, rfl, hpre, hnest, hy⟩
  · exact hpasses
  · have hsealed := sealed_blanks.append ⟨hpre, hnest⟩
    have hfirst : ∀ b, (probeNames b).head? = some (namesOf (blanks ++ pre)) := fun b => by
      have hsplit : blanks ++ (pre ++ y :: rest ++ tailLexemes b) =
          blanks ++ pre ++ y :: (rest ++ tailLexemes b) := by simp
      rw [← h b, hsplit, blockRules_closed _ _ hsealed (beq_iff_eq.mp hy)]
      rfl
    exact absurd ((hfirst true).trans (hfirst false).symm) head?_probeNames_ne

/-- What comes after the font passes, if a bracket is open before it. -/
theorem passes_tailLexemes {stack : List Bracket} (hstack : stack ≠ []) (b : Bool) :
    passes (· == .closing .curly) stack (tailLexemes b) = true := by
  have hsetting := (isAbsorbed_settingLexemes b).flat
  have hpasses : passes (· == .closing .curly) stack (settingLexemes b) = true :=
    passes_of_flat (Token.isDelimiter_of_beq rfl) hsetting
  have hsecond : secondBlock = [blankLexeme '\n', blankLexeme '\n', ⟨.other, ['.']⟩,
      ⟨.name ['b'], ['b']⟩, blankLexeme ' ', ⟨.opening .curly, ['\x7b']⟩, blankLexeme '\n',
      ⟨.closing .curly, ['\x7d']⟩, blankLexeme '\n'] := by decide +kernel
  rw [tailLexemes, blockTail, List.append_assoc, passes_append, hpasses, nestAll_of_flat hsetting,
    hsecond]
  simp [passes_cons, nest, blankLexeme, hstack]

/-- The font leaves no bracket open. -/
theorem Probed.closed (h : Probed selector xs) : nestAll [] xs = [] := by
  by_contra hopen
  have hpasses : Reader.passes (· == .closing .curly) []
      (blanks ++ (xs ++ tailLexemes true)) = true := by
    rw [passes_append, sealed_blanks.closed, sealed_blanks.passes, passes_append, h.passes,
      passes_tailLexemes hopen]
    rfl
  have hnames := h true
  rw [blockRules_unclosed _ _ hpasses] at hnames
  have hlength : 1 = 2 := congrArg List.length hnames
  exact absurd hlength (by decide)

/-- The block of the font is read with the names in the first rule of the probe. -/
theorem Probed.namesOf_eq (h : Probed selector xs) (b : Bool) :
    namesOf (xs ++ blockTail b) = ["-unity-font-definition", (probeSetting b).name] := by
  have htail : Sealed (· == .closing .curly) (blockTail b) :=
    ((isAbsorbed_settingLexemes b).sealed (Token.isDelimiter_of_beq rfl)).append ⟨rfl, rfl⟩
  have hbody := sealed_blanks.append (Sealed.append ⟨h.passes, h.closed⟩ htail)
  have hsplit : blanks ++ (xs ++ tailLexemes b) =
      blanks ++ (xs ++ blockTail b) ++ ⟨.closing .curly, ['\x7d']⟩ :: secondBlock := by
    simp [tailLexemes]
  have hnames := h b
  rw [hsplit, blockRules_closed _ _ hbody rfl] at hnames
  rw [← namesOf_blanks]
  exact (List.cons.inj hnames).1

/-- The font ends as an item does. -/
theorem Probed.endsItem (h : Probed selector xs) :
    ∀ y ∈ xs.getLast?, y.token.endsItem = true := by
  intro y hy
  by_contra hends
  obtain ⟨names, hnames⟩ :=
    exists_namesOf_append h.closed ⟨y, hy, Bool.eq_false_iff.mpr hends⟩
  have hsame : ∀ b, names ++ namesOf [blankLexeme '\n'] =
      ["-unity-font-definition", (probeSetting b).name] := fun b => by
    rw [← h.namesOf_eq b, blockTail, hnames _ (isAbsorbed_settingLexemes b) _ rfl]
  exact absurd ((hsame true).symm.trans (hsame false)) (by decide)

/-- A font that ends with its semicolon is one declaration. -/
theorem Probed.length_eq (h : Probed selector xs)
    (hlast : ∃ y ∈ xs.getLast?, y.token = .semicolon) : (declarations xs).length = 1 := by
  have hnames := congrArg List.length (h.namesOf_eq true)
  have htail : (declarations (blockTail true)).length = 1 := by decide +kernel
  rw [namesOf, List.length_map, declarations_append h.closed hlast, List.length_append,
    htail] at hnames
  exact Nat.succ.inj hnames

/-- Both probes of a font that leaves a comment open have the same names in them. -/
theorem names_probe_of_endsInComment (h : EndsInComment f.property.text.toList) :
    (readSheet (Style.generate ((probe f true).map ClassStyle.style))).map Rule.names =
      (readSheet (Style.generate ((probe f false).map ClassStyle.style))).map Rule.names := by
  obtain ⟨xs, -, hxs⟩ := h
  obtain ⟨text, htext⟩ := hxs (probeTail true) (by decide +kernel)
  obtain ⟨text', htext'⟩ := hxs (probeTail false) (by decide +kernel)
  refine names_rules_of_tokens ?_
  rw [lexemes_probe, lexemes_probe, htext, htext']
  simp

/-- A font that is kept in its probes is harmless. -/
theorem isHarmless_of_isKept_probe (h : ∀ b, IsKept (probe f b)) : f.IsHarmless := by
  have hnames : ∀ b, (readSheet (Style.generate ((probe f b).map ClassStyle.style))).map
      Rule.names = probeNames b := fun b => (h b).names_eq
  rcases f.isLineEnd.isCutOff_or_endsInComment with hcut | hcomment
  · have hprobed : Probed (String.ofList (Text.trim ('.' :: ['a']))) f.lexemes := fun b => by
      have hread := hnames b
      rwa [readSheet, lexemes_probe, rules_class, hcut.append, lexemes_probeTail] at hread
    obtain ⟨p, ps, hfirst, -⟩ := f.exists_declarations
    obtain ⟨y, hy⟩ : ∃ y, y ∈ f.lexemes.getLast? := by
      cases hlast : f.lexemes.getLast? with
      | some y => exact ⟨y, rfl⟩
      | none =>
        rw [List.getLast?_eq_none_iff.mp hlast] at hfirst
        cases hfirst
    have hsemicolon := hcut.last y hy (hprobed.endsItem y hy)
    exact ⟨Option.map_eq_some_iff.mpr ⟨y, hy, hsemicolon⟩, ⟨hprobed.passes, hprobed.closed⟩,
      hprobed.length_eq ⟨y, hy, hsemicolon⟩⟩
  · have hsame := (hnames true).symm.trans
      ((names_probe_of_endsInComment hcomment).trans (hnames false))
    exact absurd (congrArg List.head? hsame) head?_probeNames_ne

end Font

/-- Fonts can be used in every sheet of classes exactly if each of them is harmless. -/
theorem isKept_iff_isHarmless (F : Font → Prop) :
    (∀ sheet : List ClassStyle, (∀ s ∈ sheet, ∀ t ∈ s.settings, t.IsTypedWith F) → IsKept sheet) ↔
      ∀ f, F f → f.IsHarmless := by
  constructor
  · intro h f hf
    refine Font.isHarmless_of_isKept_probe fun b => h _ fun s hs t ht => ?_
    rcases List.mem_pair.mp hs with rfl | rfl
    · rcases List.mem_pair.mp ht with rfl | rfl
      · exact hf
      · cases b <;> rfl
    · cases ht
  · exact fun h sheet => isKept_of_isHarmless h

/-- A quote in the name of a font takes the rest of the sheet with it. -/
theorem not_isKept : ¬ ∀ sheet : List ClassStyle,
    (∀ s ∈ sheet, ∀ t ∈ s.settings, t.IsTypedWith fun _ => True) → IsKept sheet := by
  intro h
  have hnames := (h
    [⟨"a", by decide, [.font (some ⟨"it's"⟩), .length .width (.px ⟨0x3f800000⟩)]⟩,
      ⟨"b", by decide, [.length .height (.px ⟨0x40000000⟩)]⟩]
    (by simp [Setting.IsTypedWith, Setting.isTyped])).names_eq
  revert hnames
  decide +kernel

end StyleSheet
