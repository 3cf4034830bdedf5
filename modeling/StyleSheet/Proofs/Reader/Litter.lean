import StyleSheet.Proofs.Reader.Body
import StyleSheet.Proofs.Reader.Noise

/-!
# Litter in a block

Between the declarations of a block there may be things that are none: blanks, comments,
at-rules, semicolons too many, and other text up to a semicolon, such as a nested rule or a
number.  Each of them costs only itself.  It is read as nothing, whatever comes after it, and
it does not end the block (`readAs_junk`); so a plain style is read with all of its
declarations, whatever is strewn between them (`readSheet_litteredText`).

What the other text must not do is start like an at-rule or like a declaration, since it
would then be read as one.  Its brackets are balanced, and a semicolon outside of them would
end it early.
-/

namespace StyleSheet

open Reader

namespace Reader

variable {v w : List Char}

/-! ## Text that is no declaration -/

/-- Whether a text starts like an at-rule, or like a declaration: with a name and a colon after
blanks. -/
def startsItem (v : List Char) : Bool :=
  v.head? == some '@' ||
    startsName v && ((v.dropWhile isNameChar).dropWhile isBlank).head? == some ':'

/-- Text before a semicolon that is no at-rule and no declaration.  The semicolons in it are
inside of its brackets. -/
structure IsJunk (v : List Char) : Prop extends IsBlockText v where
  inside : ∀ u, u ++ [';'] <+: v → u.count '\x7d' < u.count '\x7b'
  start : startsItem (v.dropWhile isBlank) = false

instance (v : List Char) : Decidable (IsJunk v) :=
  decidable_of_iff (IsBlockText v ∧
      (∀ u ∈ v.inits, u ++ [';'] <+: v → u.count '\x7d' < u.count '\x7b') ∧
        startsItem (v.dropWhile isBlank) = false)
    ⟨fun h => ⟨h.1, fun u hu => h.2.1 u ((List.mem_inits u v).mpr
        ((List.prefix_append u _).trans hu)) hu, h.2.2⟩,
      fun h => ⟨h.toIsBlockText, fun u _ => h.inside u, h.start⟩⟩

/-- Junk holds no semicolon that ends it. -/
theorem IsJunk.sealed_semicolon (h : IsJunk v) : Sealed (· == .semicolon) (lexemes v) where
  passes := by
    refine passes_semicolon (n := 0) h.quiet (fun hmem => absurd (h.chars _ hmem) (by decide)) ?_
    intro u hu
    have hprefix : u <+: v := (List.prefix_append u _).trans hu
    have hcount := openCurly_add_count (n := 0) (v := u) fun t ht =>
      (h.balanced.count_le t (ht.trans hprefix)).trans (Nat.le_add_left _ 0)
    have hinside := h.inside u hu
    omega
  closed := by
    have hnest := nestAll_lexemes h.quiet (fun hmem => absurd (h.chars _ hmem) (by decide)) 0
    rwa [h.balanced.openCurly_eq] at hnest

/-- In quiet text that does not start with a name, the first lexeme starts no declaration. -/
theorem isMisplaced_scan {c : Char} {cs : List Char} (h : Quiet (c :: cs))
    (hblank : isBlank c = false) (hsemicolon : c ≠ ';') (hat : c ≠ '@')
    (hname : startsName (c :: cs) = false) : (scan c cs).1.isMisplaced = true := by
  have hs := scans c cs
  generalize scan c cs = r at hs ⊢
  cases hs with
  | blank hb => exact absurd hb (by simp [hblank])
  | comment hc => exact absurd hc h.not_startsComment
  | semicolon hc => exact absurd hc hsemicolon
  | atWord hc => exact absurd hc hat
  | name hn => exact absurd hn (by simp [hname])
  | _ => rfl

/-- What starts no declaration is skipped through the semicolon after it. -/
theorem declarations_misplaced {x : Lexeme} {xs : List Lexeme} (h : x.token.isMisplaced = true)
    (hxs : Sealed (· == .semicolon) (x :: xs)) (text : List Char) (ys : List Lexeme) :
    declarations (x :: xs ++ ⟨.semicolon, text⟩ :: ys) = declarations ys := by
  rw [List.cons_append, declarations_cons_misplaced h, ← List.cons_append,
    hxs.extent_stop (by rfl), List.drop_left, declarations_semicolon]

/-- A name without a colon after it is skipped through the next semicolon. -/
theorem declarations_name {value written text : List Char} {xs : List Lexeme}
    (hxs : Sealed (· == .semicolon) xs) (hcolon : afterColon? xs = none) (ys : List Lexeme) :
    declarations (⟨.name value, written⟩ :: (xs ++ ⟨.semicolon, text⟩ :: ys)) =
      declarations ys := by
  rw [declarations_cons_name, hxs.extent_stop (by rfl), List.take_left, hcolon, List.drop_left]
  exact declarations_semicolon text ys

/-- Quiet text that starts like no item is skipped through the semicolon after it. -/
theorem declarations_of_startsItem (h : Quiet v) (hsealed : Sealed (· == .semicolon) (lexemes v))
    (hblank : ∀ c ∈ v.head?, isBlank c = false) (hitem : startsItem v = false)
    (text : List Char) (ys : List Lexeme) :
    declarations (lexemes v ++ ⟨.semicolon, text⟩ :: ys) = declarations ys := by
  cases v with
  | nil => exact declarations_semicolon text ys
  | cons c cs =>
    rw [startsItem, Bool.or_eq_false_iff, Bool.and_eq_false_iff] at hitem
    obtain ⟨hat, hname⟩ := hitem
    by_cases hmark : (c :: cs).take 3 = ['-', '-', '>']
    · -- the mark `-->` starts like a name, but is none
      have htoken : (scan c cs).1.isMisplaced = true := by
        obtain ⟨rfl, htake⟩ := List.cons.inj hmark
        obtain ⟨ds, rfl⟩ : ∃ ds, cs = '-' :: '>' :: ds :=
          ⟨cs.drop 2, by rw [← List.take_append_drop 2 cs, htake]; rfl⟩
        rfl
      rw [lexemes_cons] at hsealed ⊢
      exact declarations_misplaced htoken hsealed text ys
    · by_cases hstart : startsName (c :: cs) = true
      · have hlexemes := h.lexemes_name hstart hmark
        have hrest := h.of_suffix (List.dropWhile_suffix isNameChar)
        have hcolon : afterColon? (lexemes ((c :: cs).dropWhile isNameChar)) = none := by
          have hsome := isSome_afterColon?_lexemes hrest
          rw [hname.resolve_left (by rw [hstart]; exact Bool.noConfusion)] at hsome
          exact Option.isNone_iff_eq_none.mp (Option.isSome_eq_false_iff.mp hsome)
        rw [hlexemes] at hsealed ⊢
        rw [← List.singleton_append] at hsealed
        exact declarations_name (hsealed.right rfl) hcolon ys
      · have htoken : (scan c cs).1.isMisplaced = true := by
          refine isMisplaced_scan h (hblank c rfl) ?_ (by simpa using hat)
            (Bool.eq_false_iff.mpr hstart)
          rintro rfl
          have hpasses := hsealed.passes
          rw [lexemes_semicolon] at hpasses
          cases hpasses
        rw [lexemes_cons] at hsealed ⊢
        exact declarations_misplaced htoken hsealed text ys

theorem IsJunk.readAs (h : IsJunk v) : ReadAs (v ++ [';']) [] := by
  refine ⟨lexemes v ++ [⟨.semicolon, [';']⟩], fun r => ?_, h.sealed.append ⟨rfl, rfl⟩,
    fun ys => ?_⟩
  · rw [List.append_assoc, List.singleton_append, h.quiet.lexemes_append (by rfl),
      lexemes_semicolon, List.append_assoc, List.singleton_append]
  · have hgap : ∀ x ∈ (v.takeWhile isBlank).map blankLexeme, isGap x = true :=
      fun _ => isGap_of_mem_blanks
    have hsealed := h.sealed_semicolon
    rw [lexemes_dropWhile_isBlank] at hsealed
    have hhead : ∀ c ∈ (v.dropWhile isBlank).head?, isBlank c = false := by
      intro c hc
      have hnot := List.head?_dropWhile_not isBlank v
      rwa [hc] at hnot
    rw [lexemes_dropWhile_isBlank, List.append_assoc, List.append_assoc, declarations_gap hgap,
      List.singleton_append]
    exact declarations_of_startsItem (h.quiet.of_suffix (List.dropWhile_suffix isBlank))
      (hsealed.right (nestAll_of_flat fun x hx => isFlat_of_isGap (hgap x hx))) hhead h.start _ ys

/-! ## Junk -/

/-- Whether a piece of noise is one of the marks `<!--` and `-->`. -/
def Noise.isMark : Noise → Bool
  | .markupOpen => true
  | .markupClose => true
  | _ => false

/-- One thing in a block that is no declaration. -/
inductive Junk where
  /-- A blank, a comment or an at-rule, as there may be between rules. -/
  | noise (n : Noise) (h : n.isMark = false)
  /-- Other text, and the semicolon that ends it.  Without any text it is a lone semicolon. -/
  | other (v : List Char) (h : IsJunk v)

/-- The text of a piece of junk. -/
def Junk.text : Junk → List Char
  | .noise n _ => n.text
  | .other v _ => v ++ [';']

/-- An at-rule is read as nothing. -/
theorem readAs_atRule {xs : List Lexeme} (h : EndsAtRule xs) {name v : List Char}
    (hv : ∀ r, lexemes (v ++ r) = ⟨.atWord, '@' :: name⟩ :: (xs ++ lexemes r)) : ReadAs v [] := by
  have hword : Sealed (· == .closing .curly) [(⟨.atWord, '@' :: name⟩ : Lexeme)] := ⟨rfl, rfl⟩
  refine ⟨⟨.atWord, '@' :: name⟩ :: xs, hv, hword.append h.closed, fun ys => ?_⟩
  rw [List.cons_append, declarations_cons_atWord rfl, h.length, List.drop_left]
  rfl

/-- Junk is read as nothing. -/
theorem readAs_junk (j : Junk) : ReadAs j.text [] := by
  cases j with
  | other v h => exact h.readAs
  | noise n h =>
    cases n with
    | filler f =>
      have hgap := readAs_gap [f]
      rwa [gapText, List.flatMap_singleton] at hgap
    | markupOpen => cases h
    | markupClose => cases h
    | statement name prelude hname hprelude =>
      have hlexemes := lexemes_statement hname hprelude
      exact readAs_atRule (endsAtRule_statement hprelude) fun r => by
        rw [← hlexemes, Junk.text, Noise.text]
        simp
    | block name prelude body hname hprelude hbody =>
      have hlexemes := lexemes_atBlock hname hprelude hbody
      exact readAs_atRule (endsAtRule_block hprelude hbody) fun r => by
        rw [← hlexemes, Junk.text, Noise.text]
        simp

/-- The text of several pieces of junk. -/
def junkText (junk : List Junk) : List Char := junk.flatMap Junk.text

theorem readAs_junkText (junk : List Junk) : ReadAs (junkText junk) [] := by
  have hnone : junk.flatMap (fun _ => ([] : List Property)) = [] :=
    List.flatMap_eq_nil_iff.mpr fun _ _ => rfl
  rw [junkText, ← hnone]
  exact ReadAs.flatMap fun j _ => readAs_junk j

end Reader

/-! ## Littered blocks -/

/-- Declarations of a block, with junk before each of them. -/
def partsText (parts : List (List Junk × Property)) : List Char :=
  parts.flatMap fun part => junkText part.1 ++ part.2.text.toList

/-- The block of a selector, with junk before each declaration and after the last one.  The line
ends and the indentation of a generated block are junk like any other. -/
def litteredText (selector : Selector) (parts : List (List Junk × Property))
    (last : List Junk) : List Char :=
  selector.text.toList ++ ' ' :: '\x7b' :: (partsText parts ++ junkText last ++ ['\x7d'])

/-- The line end and the indentation before a declaration in a generated block. -/
def lineJunk : List Junk := (lineEnd :: indentation).map fun f => .noise (.filler f) rfl

/-- The generated block of a style is one of these. -/
theorem litteredText_generated (s : Style) :
    litteredText s.selector (s.properties.map (lineJunk, ·)) [.noise (.filler lineEnd) rfl] =
      s.text.toList := by
  have hlines : partsText (s.properties.map (lineJunk, ·)) ++ ['\n'] =
      '\n' :: (Style.linesText s.properties).toList := by
    rw [Style.toList_linesText, partsText, List.flatMap_map]
    rfl
  have hlast : junkText [.noise (.filler lineEnd) rfl] = ['\n'] := rfl
  rw [litteredText, hlast, hlines]
  simp [Style.text]

/-- Junk costs only itself: a plain style is read with its selector and exactly its
declarations, in order, whatever junk is in its block, and what comes after the block is read
as if it stood alone.  A style that starts like a custom property is not read. -/
theorem readSheet_litteredText {s : Style} (h : s.IsPlain) {parts : List (List Junk × Property)}
    (hparts : parts.map Prod.snd = s.properties) (last : List Junk) (rest : String) :
    readSheet (String.ofList (litteredText s.selector parts last) ++ rest) =
      (if s.isRead then [s.rule] else []) ++ readSheet rest := by
  have hread : ∀ part ∈ parts, ReadAs (junkText part.1 ++ part.2.text.toList) [part.2] := by
    intro part hpart
    have hmem : part.2 ∈ s.properties := hparts ▸ List.mem_map_of_mem hpart
    exact (readAs_junkText part.1).append (h.isReadable.properties _ hmem).readAs
  have hbody := (ReadAs.flatMap hread).append (readAs_junkText last)
  rw [List.append_nil, ← List.map_eq_flatMap, hparts] at hbody
  have hrules := h.rules_body hbody rest.toList
  have htext : litteredText s.selector parts last ++ rest.toList =
      s.selector.text.toList ++ ' ' :: '\x7b' ::
        (partsText parts ++ junkText last ++ '\x7d' :: rest.toList) := by
    simp [litteredText]
  rw [readSheet, String.toList_append, String.toList_ofList, htext]
  exact hrules

/-- An at-rule, a number with a unit, a nested rule, and semicolons too many. -/
theorem readSheet_litteredText_nested :
    readSheet (".a \x7b@media d \x7bb: c;\x7d width 1px;\n    x: y;;.n \x7bc: d;\x7d;z: 1;3;\x7d" ++
      "e\x7b\x7d") = [⟨".a", [⟨"x", "y"⟩, ⟨"z", "1"⟩]⟩] ++ readSheet "e\x7b\x7d" := by
  have hplain : (⟨.raw ".a", [⟨"x", "y"⟩, ⟨"z", "1"⟩]⟩ : Style).IsPlain := by decide +kernel
  have hparts : ([
      (.noise (.block "media".toList ['d', ' '] "b: c;".toList (by decide) (by decide)
        (by decide)) rfl :: .other " width 1px".toList (by decide +kernel) :: lineJunk,
          ⟨"x", "y"⟩),
      ([.other [] (by decide +kernel), .other ".n \x7bc: d;\x7d".toList (by decide +kernel)],
        ⟨"z", "1"⟩)] : List (List Junk × Property)).map Prod.snd =
          [⟨"x", "y"⟩, ⟨"z", "1"⟩] := rfl
  exact readSheet_litteredText hplain hparts [.other ['3'] (by decide +kernel)] "e\x7b\x7d"

/-- A style with a selector that starts like a custom property is not read, with junk in its
block. -/
theorem not_readSheet_litteredText :
    ¬ ∀ (s : Style) (parts : List (List Junk × Property)) (last : List Junk), s.IsPlain →
      parts.map Prod.snd = s.properties →
        readSheet (String.ofList (litteredText s.selector parts last)) = [s.rule] := by
  intro hall
  have hread := hall ⟨.raw "--a:b", [⟨"x", "y"⟩]⟩ [(lineJunk, ⟨"x", "y"⟩)]
    [.other [] (by decide +kernel)] (by decide +kernel) rfl
  exact absurd hread (by decide +kernel)

end StyleSheet
