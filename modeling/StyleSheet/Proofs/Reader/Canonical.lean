import Mathlib.Data.List.Basic
import StyleSheet.Manifest
import StyleSheet.Proofs.Reader.Curly

/-!
# Reading and generating again

The rules that are read from a text can be declared as styles, and a sheet generated from
them.  That sheet is the text in a canonical form: what could not be read is left out, and
the rest has the same rules (`readSheet_generate_readSheet`).

That is not so for every text, since a value is cut out of its block and put before a
semicolon: a bracket, a string or an escape that the end of the text closed would then take
that semicolon in.  It holds for text that is `IsBare`, however malformed it is otherwise.

The brackets are followed in the characters by `openCurly` and in the lexemes by `nestAll`,
which agree in such text (`nestAll_lexemes`).  So the lexemes of the text are closed, and a
fragment, and each rule is cut out of them (`Block.isReadable_style`).
-/

namespace StyleSheet

open Reader

namespace Reader

variable {v : List Char} {xs : List Lexeme}

/-! ## Bare text -/

/-- Text without quotes, backslashes and brackets other than `)`, `]` and curly ones, in
which no comment starts, all white space is blanks, and every `{` is matched by a later `}`. -/
structure IsBare (v : List Char) : Prop where
  quiet : Quiet v
  noSquare : '[' ∉ v
  spaces : ∀ c ∈ v, Text.isSpace c = true → isBlank c = true
  matched : openCurly 0 v = 0

instance (v : List Char) : Decidable (IsBare v) :=
  decidable_of_iff (Quiet v ∧ '[' ∉ v ∧ v.all (fun c => !Text.isSpace c || isBlank c) = true ∧
      openCurly 0 v = 0)
    ⟨fun h => ⟨h.1, h.2.1, by simpa [Classical.or_iff_not_imp_left] using h.2.2.1, h.2.2.2⟩,
      fun h => ⟨h.quiet, h.noSquare, by simpa [Classical.or_iff_not_imp_left] using h.spaces,
        h.matched⟩⟩

/-- The lexemes of bare text are a fragment of it. -/
theorem IsBare.fragment (h : IsBare v) : Fragment (lexemes v) where
  lexemes_source := by rw [source_lexemes]
  quiet := by
    rw [source_lexemes]
    exact h.quiet
  spaces := by
    rw [source_lexemes]
    exact h.spaces

/-- The brackets of bare text are closed. -/
theorem IsBare.closed (h : IsBare v) : nestAll [] (lexemes v) = [] := by
  have hcount := nestAll_lexemes h.quiet h.noSquare 0
  rwa [h.matched] at hcount

/-! ## What is read is readable -/

namespace Declaration

/-- The value of a declaration in a block is ended by nothing in it. -/
theorem sealed_written (d : Declaration xs) (hxs : Sealed (· == .closing .curly) xs) :
    Sealed Token.endsValue d.written := by
  have hlead : nestAll [] (⟨.name d.name, d.text⟩ :: (d.gap ++ [d.colon])) = [] := by
    rw [nestAll_cons]
    exact nestAll_of_flat (isFlat_lead d.isGap d.isColon)
  have hafter : Sealed (· == .closing .curly)
      ((⟨.name d.name, d.text⟩ :: (d.gap ++ [d.colon])) ++ (d.written ++ d.after)) := by
    rw [d.eq] at hxs
    rw [List.cons_append, List.append_assoc]
    exact hxs.right d.closed
  refine ⟨passes_or (fun t ht => ?_) d.isSealed.passes (passes_left (hafter.right hlead).passes),
    d.isSealed.closed⟩
  unfold Token.endsValue at ht
  split at ht
  · exact .inr rfl
  · exact .inl rfl
  · cases ht

/-- A declaration in a block can be written down as it was read. -/
theorem isReadable (d : Declaration xs) (h : Fragment xs)
    (hxs : Sealed (· == .closing .curly) xs) : d.property.IsReadable := by
  have hname :
      Fragment (⟨.name d.name, d.text⟩ :: (d.gap ++ d.colon :: (d.written ++ d.after))) := by
    rw [d.eq] at h
    exact h.right
  have hafter : Fragment (d.written ++ d.after) := hname.tail.right.tail
  have hwritten : Fragment d.written :=
    hafter.left (hafter.right.startsApart_of_isDelimiter fun x hx => by rw [d.ends x hx]; rfl)
  refine ⟨?_, ?_⟩
  · rw [property, String.toList_ofList]
    exact hname.isIdentifier_name
  · rw [property, toList_trimmedText]
    exact hwritten.isStretch (d.sealed_written hxs)

end Declaration

namespace Block

/-- A selector ends with blanks, but does not start with one. -/
theorem exists_selector_eq (b : Block xs) (h : Fragment b.selector) :
    ∃ w : List Char, (∀ c ∈ w, isBlank c = true) ∧
      b.selector = lexemes (Text.trim (source b.selector)) ++ w.map blankLexeme := by
  obtain ⟨u, w, -, hw, -, hpadded⟩ := h.exists_padded
  cases u with
  | nil => exact ⟨w, hw, hpadded⟩
  | cons c u =>
    have hstart := b.starts (blankLexeme c) (by rw [hpadded]; rfl)
    cases hstart

/-- A rule of bare text can be written down as it was read, and is read again. -/
theorem isReadable_style (b : Block xs) (h : Fragment xs) :
    (Manifest.style b.rule).IsReadable ∧
      (Manifest.style b.rule).readBack = some b.rule := by
  have hfrom : Fragment (b.selector ++ b.opening :: (b.body ++ b.closing :: b.after)) := by
    rw [b.eq] at h
    exact h.right
  have hselector : Fragment b.selector :=
    hfrom.left (hfrom.right.startsApart_of_isDelimiter fun x hx => by
      cases hx
      rw [b.isOpening]
      rfl)
  have hbody : Fragment b.body :=
    hfrom.right.tail.left (hfrom.right.tail.right.startsApart_of_isDelimiter fun x hx => by
      cases hx
      rw [b.isClosing]
      rfl)
  obtain ⟨w, hw, hsplit⟩ := b.exists_selector_eq hselector
  have hblank : ∀ x ∈ w.map blankLexeme, isGap x = true := fun _ => isGap_of_mem_blanks
  have hcustom : startsCustom (lexemes (Text.trim (source b.selector))) = false := by
    rw [← startsCustom_append (afterColon?_of_gap hblank) (startsCustom_of_gap hblank), ← hsplit]
    exact b.isRead
  have htext : (Manifest.style b.rule).selector.text.toList = Text.trim (source b.selector) :=
    toList_trimmedText b.selector
  refine ⟨⟨?_, ?_⟩, ?_⟩
  · rw [htext]
    refine ⟨hselector.isStretch b.selectorSealed, fun x hx => b.starts x ?_⟩
    rw [hsplit, List.head?_append, hx]
    rfl
  · rw [Manifest.properties_style]
    intro p hp
    obtain ⟨d, rfl⟩ := exists_declaration_of_mem b.bodySealed.closed hp
    exact d.isReadable hbody b.bodySealed
  · rw [Style.readBack, htext, hcustom, if_neg Bool.false_ne_true, Style.rule,
      Manifest.properties_style, Manifest.text_selector_style]

end Block
end Reader

/-! ## The canonical form -/

/-- The sheet that is generated from the rules of a bare text has the same rules. -/
theorem readSheet_generate_readSheet {text : String} (h : IsBare text.toList) :
    readSheet (Style.generate ((readSheet text).map Manifest.style)) = readSheet text := by
  have hread : ∀ r ∈ readSheet text,
      (Manifest.style r).IsReadable ∧ (Manifest.style r).readBack = some r := by
    intro r hr
    obtain ⟨b, rfl⟩ := exists_block_of_mem h.closed hr
    exact b.isReadable_style h.fragment
  have hstyles : ∀ s ∈ (readSheet text).map Manifest.style, s.IsReadable := by
    intro s hs
    obtain ⟨r, hr, rfl⟩ := List.mem_map.mp hs
    exact (hread r hr).1
  have hback : ∀ r ∈ readSheet text, (Style.readBack ∘ Manifest.style) r = some r :=
    fun r hr => (hread r hr).2
  rw [(formats_generate _).readSheet_eq hstyles, List.filterMap_map, List.filterMap_congr hback,
    List.filterMap_some]

/-- A bare text with stray brackets and semicolons, a block in a value, at-rules, marks, a name
with `NUL`, an empty value, and a rule that is not taken. -/
def malformedText : String :=
  "<!-- ;\x7d .a ) \x7b color : red \x7b x; y: z \x7d ; @m \x7b n: o; \x7d --p:q;; : w; --x: ;" ++
    "r\x00: s \x7d @media \x7b .b \x7b c: d \x7d \x7d --> --c:d \x7b e: f \x7d .g] \x7b\x7d"

/-- What remains of it are two rules. -/
theorem readSheet_generate_readSheet_malformedText :
    IsBare malformedText.toList ∧
      readSheet (Style.generate ((readSheet malformedText).map Manifest.style)) =
        [⟨";\x7d .a )", [⟨"color", "red \x7b x; y: z \x7d"⟩, ⟨"--p", "q"⟩, ⟨"--x", ""⟩,
          ⟨"r\uFFFD", "s"⟩]⟩, ⟨".g]", []⟩] := by
  have h : IsBare malformedText.toList := by decide +kernel
  refine ⟨h, ?_⟩
  rw [readSheet_generate_readSheet h]
  decide +kernel

/-- A bracket that only the end of the text closes takes in the semicolon after it. -/
example : readSheet (Style.generate ((readSheet ".a \x7b b: (c").map Manifest.style)) ≠
    readSheet ".a \x7b b: (c" := by
  decide +kernel

end StyleSheet
