import StyleSheet.Proofs.Reader.Body
import StyleSheet.Proofs.Reader.Origin

/-!
# Sheets that are cut off

A sheet can end early, at any character, when writing it was interrupted.  What is left is
read as far as it goes: the rules of all complete blocks, and of the block in which the sheet
ends the declarations that are complete and at most one more, whose value is what is left of
it (`readSheet_of_prefix`).  So a rule, a selector or a declaration is never made up.

The two levels have the same shape.  A sheet is a sequence of blocks and a block one of lines,
and what is left of a sequence are some of its members, and a part of the next
(`exists_take_of_prefix`).  A part of a block before its bracket is no rule (`rules_eq_nil`),
and a part of a line before its colon no declaration (`declarations_eq_nil`).
-/

namespace StyleSheet

open Reader

/-! ## Prefixes -/

section Prefix

variable {u v t tail : List Char} {mark : Char}

/-- What is left of a text with a mark ends before the mark or after it. -/
theorem prefix_append_mark (h : t <+: u ++ mark :: v) :
    t <+: u ∨ ∃ w, w <+: v ∧ t = u ++ mark :: w := by
  rcases List.prefix_or_prefix_of_prefix h (List.prefix_append u _) with hu | ⟨w, rfl⟩
  · exact .inl hu
  · rw [List.prefix_append_right_inj] at h
    cases w with
    | nil => exact .inl (by rw [List.append_nil])
    | cons c w =>
      obtain ⟨rfl, hw⟩ := List.cons_prefix_cons.mp h
      exact .inr ⟨w, hw, rfl⟩

/-- What is left of a sequence of texts are some of them, and a part of the next. -/
theorem exists_take_of_prefix {α : Type} {f : α → List Char} {xs : List α}
    (h : t <+: xs.flatMap f ++ tail) :
    ∃ k ≤ xs.length, (∀ i ≤ xs.length, (xs.take i).flatMap f <+: t ↔ i ≤ k) ∧
      ∃ rest, t = (xs.take k).flatMap f ++ rest ∧
        ((k = xs.length ∧ rest <+: tail) ∨
          ∃ x, xs[k]? = some x ∧ rest <+: f x ∧ rest ≠ f x) := by
  induction xs generalizing t with
  | nil => exact ⟨0, le_refl 0, fun i hi => by simpa using hi, t, rfl, .inl ⟨rfl, h⟩⟩
  | cons x xs ih =>
    rw [List.flatMap_cons, List.append_assoc] at h
    by_cases hx : f x <+: t
    · obtain ⟨t, rfl⟩ := hx
      rw [List.prefix_append_right_inj] at h
      obtain ⟨k, hk, hcomplete, rest, rfl, hrest⟩ := ih h
      refine ⟨k + 1, Nat.succ_le_succ hk, ?_, rest, ?_, ?_⟩
      · intro i hi
        cases i with
        | zero => simp
        | succ i =>
          rw [List.take_succ_cons, List.flatMap_cons, List.prefix_append_right_inj,
            hcomplete i (Nat.le_of_succ_le_succ hi), Nat.succ_le_succ_iff]
      · rw [List.take_succ_cons, List.flatMap_cons, List.append_assoc]
      · rw [List.length_cons, Nat.succ_inj, List.getElem?_cons_succ]
        exact hrest
    · have ht : t <+: f x :=
        (List.prefix_or_prefix_of_prefix h (List.prefix_append _ _)).resolve_right hx
      refine ⟨0, Nat.zero_le _, ?_, t, rfl, .inr ⟨x, rfl, ht, ?_⟩⟩
      · intro i hi
        cases i with
        | zero => simp
        | succ i =>
          refine iff_of_false (fun hprefix => hx ?_) (Nat.not_succ_le_zero i)
          rw [List.take_succ_cons, List.flatMap_cons] at hprefix
          exact (List.prefix_append _ _).trans hprefix
      · rintro rfl
        exact hx (List.prefix_refl _)

end Prefix

namespace Reader

variable {v w : List Char} {xs : List Lexeme}

/-! ## Parts that are not read -/

/-- Without an opening bracket there is no rule. -/
theorem rules_eq_nil {xs : List Lexeme} (h : ∀ x ∈ xs, x.token ≠ .opening .curly) :
    rules xs = [] := by
  match xs with
  | [] => rfl
  | x :: xs =>
    have hxs : ∀ n, ∀ y ∈ xs.drop n, y.token ≠ .opening .curly := fun n y hy =>
      h y (List.mem_cons_of_mem x (List.mem_of_mem_drop hy))
    by_cases hstarts : x.token.startsRule = true
    · have hextent : extent (· == .opening .curly) [] (x :: xs) = (x :: xs).length :=
        extent_of_passes (passes_of_forall fun y hy => beq_eq_false_iff_ne.mpr (h y hy))
      rw [rules_cons hstarts, hextent, List.drop_length]
    · obtain ⟨t, text⟩ := x
      cases t with
      | blank => exact (rules_cons_gap rfl xs).trans (rules_eq_nil (hxs 0))
      | comment => exact (rules_cons_gap rfl xs).trans (rules_eq_nil (hxs 0))
      | markup => exact (rules_cons_markup rfl xs).trans (rules_eq_nil (hxs 0))
      | atWord => exact (rules_cons_atWord rfl xs).trans (rules_eq_nil (hxs _))
      | _ => exact absurd rfl hstarts
termination_by xs.length
decreasing_by all_goals simp only [List.length_drop, List.length_cons]; omega

/-- Without a colon there is no declaration. -/
theorem declarations_eq_nil {xs : List Lexeme} (h : ∀ x ∈ xs, x.token ≠ .colon) :
    declarations xs = [] := by
  match xs with
  | [] => rfl
  | ⟨t, text⟩ :: xs =>
    have hxs : ∀ n, ∀ y ∈ xs.drop n, y.token ≠ .colon := fun n y hy =>
      h y (List.mem_cons_of_mem _ (List.mem_of_mem_drop hy))
    cases t with
    | blank => exact (declarations_cons_gap rfl xs).trans (declarations_eq_nil (hxs 0))
    | comment => exact (declarations_cons_gap rfl xs).trans (declarations_eq_nil (hxs 0))
    | semicolon => exact (declarations_semicolon text xs).trans (declarations_eq_nil (hxs 0))
    | atWord => exact (declarations_cons_atWord rfl xs).trans (declarations_eq_nil (hxs _))
    | name value =>
      have hcolon : afterColon? (xs.take (extent (· == .semicolon) [] xs)) = none := by
        refine Option.eq_none_iff_forall_ne_some.mpr fun written hsome => ?_
        obtain ⟨gap, colon, hsplit, -, htoken⟩ := exists_of_afterColon? hsome
        have hmem : colon ∈ xs.take (extent (· == .semicolon) [] xs) := by
          rw [hsplit]
          exact List.mem_append_right gap List.mem_cons_self
        exact hxs 0 colon (List.mem_of_mem_take hmem) htoken
      rw [declarations_cons_name, hcolon]
      exact declarations_eq_nil (hxs _)
    | _ => exact (declarationsFrom_eq _ xs).trans (declarations_eq_nil (hxs _))
termination_by xs.length
decreasing_by all_goals simp only [List.length_drop, List.length_cons]; omega

theorem rules_lexemes_eq_nil (h : '\x7b' ∉ v) : rules (lexemes v) = [] :=
  rules_eq_nil fun _ hx htoken => h (mem_of_first? hx (by rw [htoken]; rfl))

theorem declarations_lexemes_eq_nil (h : ':' ∉ v) : declarations (lexemes v) = [] :=
  declarations_eq_nil fun _ hx htoken => h (mem_of_first? hx (by rw [htoken]; rfl))

/-! ## A declaration that is cut off -/

/-- What is left of a declaration after its colon is read with what is left of its value. -/
theorem declarations_cut {p : Property} (h : p.IsPlain) (hw : w <+: ' ' :: p.value.toList) :
    ∃ v, v <+: p.value.toList ∧ declarations (lexemes (p.name.toList ++ ':' :: w)) =
      [⟨p.name, String.ofList (Text.trim v)⟩] := by
  have hcut : w = [] ∨ ∃ v, w = ' ' :: v ∧ v <+: p.value.toList := List.prefix_cons_iff.mp hw
  have hflat : ∀ x ∈ lexemes w, x.token.isFlat = true := by
    rcases hcut with rfl | ⟨v, rfl, hv⟩
    · exact List.forall_mem_nil _
    · have hquiet : Quiet v := h.value.quiet.of_infix hv.isInfix
      rw [lexemes_blank (by rfl), List.forall_mem_cons]
      exact ⟨rfl, fun x => hquiet.isFlat_of_mem fun c hc => h.value.chars c (hv.subset hc)⟩
  have hlast : declarations (⟨.name p.name.toList, p.name.toList⟩ ::
      ([] ++ ⟨.colon, [':']⟩ :: lexemes w)) =
        [⟨String.ofList p.name.toList, trimmedText (lexemes w)⟩] :=
    declarations_last (List.forall_mem_nil _) rfl
      (Sealed.of_flat (Token.isDelimiter_of_beq rfl) hflat) p.name.toList p.name.toList
  have hread : declarations (lexemes (p.name.toList ++ ':' :: w)) =
      [⟨p.name, String.ofList (Text.trim w)⟩] := by
    rw [List.nil_append, String.ofList_toList, trimmedText, source_lexemes] at hlast
    rw [lexemes_identifier h.name (by rfl), lexemes_colon, hlast]
  rcases hcut with rfl | ⟨v, rfl, hv⟩
  · exact ⟨[], List.nil_prefix, hread⟩
  · exact ⟨v, hv, hread⟩

/-- What a block that is cut off has of its declarations: those that are complete, and at most
one more, with what is left of its value. -/
def CutsTo (properties : List Property) (u : List Char) (ps : List Property) : Prop :=
  ∃ j ≤ properties.length,
    (∀ i ≤ properties.length, (properties.take i).flatMap Property.line <+: u ↔ i ≤ j) ∧
      (ps = properties.take j ∨ ∃ p v, properties[j]? = some p ∧ v <+: p.value.toList ∧
        ps = properties.take j ++ [⟨p.name, String.ofList (Text.trim v)⟩])

/-- A line up to its colon. -/
def lineStart (p : Property) : List Char :=
  '\n' :: ' ' :: ' ' :: ' ' :: ' ' :: p.name.toList

theorem line_eq (p : Property) :
    p.line = lineStart p ++ ':' :: (' ' :: p.value.toList ++ [';']) := by
  simp [Property.line, Property.text, lineStart]

/-- A block that is cut off is read as what it has of its declarations. -/
theorem cutsTo_declarations {ps : List Property} (h : ∀ p ∈ ps, p.IsPlain) {u : List Char}
    (hu : u <+: ps.flatMap Property.line ++ ['\n']) :
    CutsTo ps u (declarations (lexemes u)) := by
  obtain ⟨j, hj, hcomplete, rest, rfl, hrest⟩ := exists_take_of_prefix hu
  have hlines : ReadAs ((ps.take j).flatMap Property.line) (ps.take j) :=
    readAs_lines fun p hp =>
      ⟨(h p (List.mem_of_mem_take hp)).name, (h p (List.mem_of_mem_take hp)).value.isValue⟩
  refine ⟨j, hj, hcomplete, ?_⟩
  rw [hlines.declarations_append]
  rcases hrest with ⟨-, hrest⟩ | ⟨p, hp, hrest, hne⟩
  · left
    rw [declarations_lexemes_eq_nil fun hmem => absurd (hrest.subset hmem) (by decide),
      List.append_nil]
  · have hplain : p.IsPlain := h p (List.mem_of_getElem? hp)
    rw [line_eq] at hrest hne
    rcases prefix_append_mark hrest with hstart | ⟨w, hw, rfl⟩
    · left
      have hcolon : ':' ∉ lineStart p := by simp [lineStart, hplain.isDelimited.name]
      rw [declarations_lexemes_eq_nil fun hmem => hcolon (hstart.subset hmem), List.append_nil]
    · right
      have hcut : w <+: ' ' :: p.value.toList := by
        rcases List.prefix_concat_iff.mp hw with rfl | hcut
        · exact absurd rfl hne
        · exact hcut
      obtain ⟨v, hv, hread⟩ := declarations_cut hplain hcut
      have hgap := (readAs_gap (lineEnd :: indentation)).declarations_append
        (p.name.toList ++ ':' :: w)
      rw [List.nil_append, hread] at hgap
      exact ⟨p, v, hp, hv, congrArg _ hgap⟩

end Reader

/-! ## A block that is cut off -/

theorem Property.IsPlain.closeCurly_notMem {p : Property} (h : p.IsPlain) : '\x7d' ∉ p.line := by
  have hname : '\x7d' ∉ p.name.toList := fun hmem =>
    absurd (isIdentifierChar_of_mem h.name hmem) (by decide)
  have hvalue : '\x7d' ∉ p.value.toList := fun hmem => absurd (h.value.chars _ hmem) (by decide)
  simp [line, text, hname, hvalue]

/-- What is left of a block after its bracket is read as the declarations in it. -/
theorem Style.IsPlain.rules_cut {s : Style} (h : s.IsPlain) {u : List Char}
    (hu : u <+: s.properties.flatMap Property.line ++ ['\n']) :
    rules (lexemes (s.selector.text.toList ++ ' ' :: '\x7b' :: u)) =
      if s.isRead then [⟨s.selector.text, declarations (lexemes u)⟩] else [] := by
  have hclose : '\x7d' ∉ u := by
    intro hmem
    rcases List.mem_append.mp (hu.subset hmem) with hmem | hmem
    · obtain ⟨p, hp, hmem⟩ := List.mem_flatMap.mp hmem
      exact (h.properties p hp).closeCurly_notMem hmem
    · exact absurd hmem (by decide)
  have hpasses : passes (· == .closing .curly) [] (lexemes u) = true := by
    refine passes_of_forall fun x hx => beq_eq_false_iff_ne.mpr fun htoken => hclose ?_
    exact mem_of_first? hx (by rw [htoken]; rfl)
  rw [h.rules_opening, blockRules_unclosed _ _ hpasses]
  cases s.isRead <;> rfl

/-! ## Sheets that are cut off -/

/-- Blocks with blank lines between them. -/
def separated (blocks : List (List Char)) : List Char := ['\n', '\n'].intercalate blocks

/-- The complete blocks of styles. -/
def blocksText (styles : List Style) : List Char := separated (styles.map (·.text.toList))

/-- The complete blocks of styles, and a block of which there is `u` behind its bracket. -/
def openText (styles : List Style) (s : Style) (u : List Char) : List Char :=
  separated (styles.map (·.text.toList) ++ [s.selector.text.toList ++ ' ' :: '\x7b' :: u])

/-- A block with a blank line before it. -/
def spaced (block : List Char) : List Char := '\n' :: '\n' :: block

theorem spaced_prefix_iff {u v : List Char} : spaced u <+: spaced v ↔ u <+: v :=
  List.prefix_append_right_inj ['\n', '\n']

/-- The block of a style with a blank line before it. -/
def Style.spacedText (s : Style) : List Char := spaced s.text.toList

/-- A style up to the bracket of its block, with a blank line before it. -/
def Style.spacedSelector (s : Style) : List Char := spaced (s.selector.text.toList ++ [' '])

theorem spaced_separated {blocks : List (List Char)} (h : blocks ≠ []) :
    spaced (separated blocks) = blocks.flatMap spaced := by
  induction blocks with
  | nil => exact absurd rfl h
  | cons block rest ih =>
    cases rest with
    | nil => rw [separated, List.intercalate_singleton, List.flatMap_singleton]
    | cons next rest =>
      rw [List.flatMap_cons, ← ih (List.cons_ne_nil _ _), separated, List.intercalate_cons_cons,
        List.append_assoc]
      rfl

theorem spaced_blocksText {styles : List Style} (h : styles ≠ []) :
    spaced (blocksText styles) = styles.flatMap Style.spacedText := by
  rw [blocksText, spaced_separated (by simpa using h), List.flatMap_map]
  rfl

theorem spaced_openText (styles : List Style) (s : Style) (u : List Char) :
    spaced (openText styles s u) =
      styles.flatMap Style.spacedText ++ (s.spacedSelector ++ '\x7b' :: u) := by
  have hlast : spaced (s.selector.text.toList ++ ' ' :: '\x7b' :: u) =
      s.spacedSelector ++ '\x7b' :: u := by
    simp [Style.spacedSelector, spaced]
  rw [openText, spaced_separated (by simp), List.flatMap_append, List.flatMap_map,
    List.flatMap_singleton, hlast]
  rfl

theorem spaced_generate {styles : List Style} (h : styles ≠ []) :
    spaced (Style.generate styles).toList = styles.flatMap Style.spacedText ++ ['\n'] := by
  induction styles with
  | nil => exact absurd rfl h
  | cons s rest ih =>
    rw [Style.toList_generate_cons, List.flatMap_cons, List.append_assoc]
    cases rest with
    | nil => rfl
    | cons next rest =>
      rw [← ih (List.cons_ne_nil _ _), if_neg (List.cons_ne_nil _ _)]
      rfl

theorem Style.spacedText_eq (s : Style) : s.spacedText = s.spacedSelector ++
    '\x7b' :: (s.properties.flatMap Property.line ++ ['\n'] ++ ['\x7d']) := by
  rw [← toList_linesText]
  simp [spacedText, spacedSelector, spaced, text]

/-- Whether the first blocks are complete can be told with the blank lines before them. -/
theorem blocksText_prefix_iff {styles : List Style} (h : styles ≠ []) (i : Nat) (t : List Char) :
    blocksText (styles.take i) <+: t ↔
      (styles.take i).flatMap Style.spacedText <+: spaced t := by
  cases i with
  | zero => exact iff_of_true List.nil_prefix List.nil_prefix
  | succ i => rw [← spaced_blocksText (by simpa using h), spaced_prefix_iff]

/-- What follows complete blocks is a part of one exactly if it goes past the bracket of it. -/
theorem eq_openText_iff {styles : List Style} {t rest : List Char}
    (h : spaced t = styles.flatMap Style.spacedText ++ rest) (s : Style) (u : List Char) :
    t = openText styles s u ↔ rest = s.spacedSelector ++ '\x7b' :: u := by
  have hinj : ∀ v w : List Char, spaced v = spaced w ↔ v = w := by simp [spaced]
  rw [← hinj, h, spaced_openText, List.append_right_inj]

theorem formats_spacedText : ∀ styles : List Style,
    Formats styles (styles.flatMap Style.spacedText)
  | [] => .nil []
  | s :: rest => (formats_text_append s (formats_spacedText rest)).gap_append [lineEnd, lineEnd]

/-- Complete blocks of plain styles, and what comes after them. -/
theorem rules_spacedText {styles : List Style} (h : ∀ s ∈ styles, s.IsPlain) (r : List Char) :
    rules (lexemes (styles.flatMap Style.spacedText ++ r)) =
      (styles.filter Style.isRead).map Style.rule ++ rules (lexemes r) := by
  rw [(formats_spacedText styles).rules_append (fun s hs => (h s hs).isReadable),
    Style.filterMap_readBack h]

/-- What is left of a block that is not complete: it is read if its bracket is there. -/
theorem Style.IsPlain.rules_part {s : Style} (h : s.IsPlain) {rest : List Char}
    (hrest : rest <+: s.spacedText) (hne : rest ≠ s.spacedText) :
    ('\x7b' ∉ rest ∧ rules (lexemes rest) = []) ∨
      ∃ u ps, rest = s.spacedSelector ++ '\x7b' :: u ∧ CutsTo s.properties u ps ∧
        rules (lexemes rest) = if s.isRead then [⟨s.selector.text, ps⟩] else [] := by
  rw [spacedText_eq] at hrest hne
  rcases prefix_append_mark hrest with hstart | ⟨u, hu, rfl⟩
  · left
    have hopen : '\x7b' ∉ s.spacedSelector := by
      simp [spacedSelector, spaced, h.isDelimited.selector]
    have hnone : '\x7b' ∉ rest := fun hmem => hopen (hstart.subset hmem)
    exact ⟨hnone, rules_lexemes_eq_nil hnone⟩
  · right
    have hcut : u <+: s.properties.flatMap Property.line ++ ['\n'] := by
      rcases List.prefix_concat_iff.mp hu with rfl | hcut
      · exact absurd rfl hne
      · exact hcut
    have hgap := lexemes_gap [lineEnd, lineEnd] (s.selector.text.toList ++ ' ' :: '\x7b' :: u)
    have htext : s.spacedSelector ++ '\x7b' :: u =
        gapText [lineEnd, lineEnd] ++ (s.selector.text.toList ++ ' ' :: '\x7b' :: u) := by
      simp [spacedSelector, spaced, gapText, lineEnd, Filler.text]
    refine ⟨u, declarations (lexemes u), rfl, cutsTo_declarations h.properties hcut, ?_⟩
    rw [htext, hgap, rules_gap fun x => isGap_of_mem_gap, h.rules_cut hcut]

/-- A sheet that is cut off is read as far as it goes.  It holds the first `k` blocks, and those
that are read give their rules.

* Without the bracket of the next style there is nothing more to be read.
* With it there is one more rule, unless that style starts like a custom property.  The rule has
  the selector of the style, and what is left of its declarations. -/
theorem readSheet_of_prefix {styles : List Style} (h : ∀ s ∈ styles, s.IsPlain) {t : String}
    (ht : t.toList <+: (Style.generate styles).toList) :
    ∃ k ≤ styles.length,
      (∀ i ≤ styles.length, blocksText (styles.take i) <+: t.toList ↔ i ≤ k) ∧
      ∃ more, readSheet t = ((styles.take k).filter Style.isRead).map Style.rule ++ more ∧
        ((∀ s u, styles[k]? = some s → t.toList ≠ openText (styles.take k) s u) ∧ more = [] ∨
          ∃ s u ps, styles[k]? = some s ∧ t.toList = openText (styles.take k) s u ∧
            CutsTo s.properties u ps ∧
              more = if s.isRead then [⟨s.selector.text, ps⟩] else []) := by
  have hnone : blocksText [] <+: t.toList := List.nil_prefix
  rcases eq_or_ne styles [] with rfl | hne
  · have hnil : t.toList = [] := List.prefix_nil.mp ht
    refine ⟨0, le_refl 0, fun i hi => ?_, [], by rw [readSheet, hnil]; rfl, .inl ⟨?_, rfl⟩⟩
    · rw [List.take_nil]
      exact iff_of_true hnone hi
    · intro s u hs
      cases hs
  have hspaced : spaced t.toList <+: styles.flatMap Style.spacedText ++ ['\n'] := by
    rwa [← spaced_generate hne, spaced_prefix_iff]
  obtain ⟨k, hk, hcomplete, rest, hsplit, hrest⟩ := exists_take_of_prefix hspaced
  have hblocks : ∀ i ≤ styles.length, blocksText (styles.take i) <+: t.toList ↔ i ≤ k := by
    intro i hi
    rw [blocksText_prefix_iff hne, hcomplete i hi]
  have hread : readSheet t =
      ((styles.take k).filter Style.isRead).map Style.rule ++ rules (lexemes rest) := by
    rw [← rules_spacedText (fun s hs => h s (List.mem_of_mem_take hs)), ← hsplit]
    rfl
  refine ⟨k, hk, hblocks, rules (lexemes rest), hread, ?_⟩
  simp only [ne_eq, eq_openText_iff hsplit]
  rcases hrest with ⟨rfl, hrest⟩ | ⟨s, hs, hrest, hpart⟩
  · left
    refine ⟨fun s u hs => ?_, rules_lexemes_eq_nil fun hmem => ?_⟩
    · rw [List.getElem?_length] at hs
      cases hs
    · exact absurd (hrest.subset hmem) (by decide)
  · rcases (h s (List.mem_of_getElem? hs)).rules_part hrest hpart with
      ⟨hbracket, hempty⟩ | ⟨u, ps, hu, hcut, hmore⟩
    · left
      refine ⟨fun s' u _ hrest' => hbracket ?_, hempty⟩
      rw [hrest']
      exact List.mem_append_right _ List.mem_cons_self
    · exact .inr ⟨s, u, ps, hs, hu, hcut, hmore⟩

/-- Two styles, the second of which has two declarations. -/
def twoPlainStyles : List Style :=
  [⟨.raw ".a", [⟨"x", "y"⟩]⟩, ⟨.raw ".b", [⟨"c", "d e"⟩, ⟨"f", "g"⟩]⟩]

/-- A sheet that is cut off in the first value of its second style. -/
theorem readSheet_of_prefix_in_value :
    let t := ".a \x7b\n    x: y;\n\x7d\n\n.b \x7b\n    c: d "
    readSheet t = [⟨".a", [⟨"x", "y"⟩]⟩, ⟨".b", [⟨"c", "d"⟩]⟩] ∧
      ∃ more, readSheet t = [⟨".a", [⟨"x", "y"⟩]⟩] ++ more := by
  intro t
  have hprefix : t.toList <+: (Style.generate twoPlainStyles).toList := by decide +kernel
  obtain ⟨k, hk, hblocks, more, hread, -⟩ := readSheet_of_prefix (by decide +kernel) hprefix
  have hfirst : 1 ≤ k := (hblocks 1 (by decide)).mp (by decide +kernel)
  have hsecond : ¬ 2 ≤ k := (hblocks 2 (by decide)).not.mp (by decide +kernel)
  have hone : k = 1 := by omega
  subst hone
  exact ⟨by decide +kernel, more, hread⟩

/-- A complete style with a selector that starts like a custom property is not read from what is
left of a sheet. -/
theorem not_readSheet_of_prefix :
    ¬ ∀ (styles : List Style) (t : String), (∀ s ∈ styles, s.IsPlain) →
      t.toList <+: (Style.generate styles).toList →
        ∃ k ≤ styles.length,
          (∀ i ≤ styles.length, blocksText (styles.take i) <+: t.toList ↔ i ≤ k) ∧
          ∃ more, readSheet t = (styles.take k).map Style.rule ++ more := by
  intro hall
  obtain ⟨k, hk, hblocks, more, hread⟩ := hall [⟨.raw "--a:b", [⟨"x", "y"⟩]⟩]
    (Style.generate [⟨.raw "--a:b", [⟨"x", "y"⟩]⟩]) (by decide +kernel) (List.prefix_refl _)
  have hfirst : 1 ≤ k := (hblocks 1 (by decide)).mp (by decide +kernel)
  have hone : k = 1 := le_antisymm hk hfirst
  subst hone
  have hempty : readSheet (Style.generate [⟨.raw "--a:b", [⟨"x", "y"⟩]⟩]) = [] := by
    decide +kernel
  rw [hempty] at hread
  cases hread

end StyleSheet
