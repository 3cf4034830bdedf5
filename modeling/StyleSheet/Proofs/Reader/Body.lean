import StyleSheet.Proofs.Reader.Plain
import StyleSheet.Proofs.Style

/-!
# Parts of a block

The text of a block is put together from parts: declarations, the lines they stand on, and
what may stand around them.  `ReadAs` says of one part which declarations are read from it
whatever comes after it, and that it does not end its block.  Parts of this kind can be put
next to each other (`ReadAs.append`), so what a block is read as is told part by part
(`rules_body`).
-/

namespace StyleSheet

open Reader

namespace Reader

variable {u v r : List Char} {ps qs : List Property}

/-- A part of a block that is read as some declarations, whatever comes after it. -/
def ReadAs (v : List Char) (ps : List Property) : Prop :=
  ∃ xs, (∀ r, lexemes (v ++ r) = xs ++ lexemes r) ∧ Sealed (· == .closing .curly) xs ∧
    ∀ ys, declarations (xs ++ ys) = ps ++ declarations ys

namespace ReadAs

theorem nil : ReadAs [] [] := ⟨[], fun _ => rfl, Sealed.nil _, fun _ => rfl⟩

theorem append (h : ReadAs u ps) (h' : ReadAs v qs) : ReadAs (u ++ v) (ps ++ qs) := by
  obtain ⟨xs, hxs, hclosed, hread⟩ := h
  obtain ⟨ys, hys, hclosed', hread'⟩ := h'
  refine ⟨xs ++ ys, fun r => ?_, hclosed.append hclosed', fun zs => ?_⟩
  · rw [List.append_assoc, hxs, hys, List.append_assoc]
  · rw [List.append_assoc, hread, hread', List.append_assoc]

theorem flatMap {α : Type} {f : α → List Char} {g : α → List Property} {xs : List α}
    (h : ∀ x ∈ xs, ReadAs (f x) (g x)) : ReadAs (xs.flatMap f) (xs.flatMap g) := by
  induction xs with
  | nil => exact nil
  | cons x xs ih =>
    obtain ⟨hx, hxs⟩ := List.forall_mem_cons.mp h
    rw [List.flatMap_cons, List.flatMap_cons]
    exact hx.append (ih hxs)

theorem declarations_append (h : ReadAs v ps) (r : List Char) :
    declarations (lexemes (v ++ r)) = ps ++ declarations (lexemes r) := by
  obtain ⟨xs, hxs, -, hread⟩ := h
  rw [hxs, hread]

/-- A block that is put together from parts, and what comes after it. -/
theorem blockRules_eq (h : ReadAs v ps) (skipped : Bool) (selector : String) (r : List Char) :
    blockRules skipped selector (lexemes (v ++ '\x7d' :: r)) =
      if skipped then rules (lexemes r) else ⟨selector, ps⟩ :: rules (lexemes r) := by
  obtain ⟨xs, hxs, hclosed, hread⟩ := h
  have hps : declarations xs = ps := by
    have hnil := hread []
    rwa [List.append_nil, declarations_nil, List.append_nil] at hnil
  rw [hxs, lexemes_closeCurly, blockRules_closed _ _ hclosed rfl, hps]

end ReadAs

/-- A gap is read as nothing. -/
theorem readAs_gap (g : Gap) : ReadAs (gapText g) [] := by
  refine ⟨g.map Filler.lexeme, lexemes_gap g, sealed_gap (Token.isDelimiter_of_beq rfl) g, ?_⟩
  intro ys
  rw [declarations_gap fun x => isGap_of_mem_gap]
  rfl

end Reader

/-- The lexemes of the text of a readable declaration, up to its semicolon. -/
theorem Property.IsReadable.lexemes_text {p : Property} (h : p.IsReadable) (r : List Char) :
    lexemes (p.text.toList ++ r) =
      declarationLexemes p [] [' '] [] ++ ⟨.semicolon, [';']⟩ :: lexemes r := by
  have hlexemes := lexemes_declaration h [] isBlank_space (List.forall_mem_nil _)
    (r := ';' :: r) rfl
  rw [lexemes_semicolon] at hlexemes
  simpa [Property.text] using hlexemes

/-- The text of a readable declaration is read as that declaration. -/
theorem Property.IsReadable.readAs {p : Property} (h : p.IsReadable) :
    ReadAs p.text.toList [p] := by
  refine ⟨declarationLexemes p [] [' '] [] ++ [⟨.semicolon, [';']⟩], fun r => ?_, ?_, fun ys => ?_⟩
  · rw [h.lexemes_text, List.append_assoc, List.singleton_append]
  · exact (sealed_declaration h [] [' '] []).append ⟨rfl, rfl⟩
  · have hgap : ∀ x ∈ ([] : Gap).map Filler.lexeme, isGap x = true := fun x => isGap_of_mem_gap
    rw [List.append_assoc, List.singleton_append, declarationLexemes, List.cons_append,
      declarations_declaration hgap rfl (sealed_value h [' '] []) _ _ rfl,
      trimmedText_padded h.value isBlank_space (List.forall_mem_nil _), String.ofList_toList,
      String.ofList_toList]
    rfl

/-! ## Lines -/

/-- The line of a declaration, after the line end before it. -/
def Property.line (p : Property) : List Char := '\n' :: ' ' :: ' ' :: ' ' :: ' ' :: p.text.toList

/-- The text between the brackets of a block. -/
theorem Style.toList_linesText (ps : List Property) :
    '\n' :: (linesText ps).toList = ps.flatMap Property.line ++ ['\n'] := by
  induction ps with
  | nil => rfl
  | cons p ps ih =>
    rw [List.flatMap_cons, List.append_assoc, ← ih]
    simp [linesText, Property.line]

theorem Property.IsReadable.readAs_line {p : Property} (h : p.IsReadable) :
    ReadAs p.line [p] :=
  (readAs_gap (lineEnd :: indentation)).append h.readAs

/-- The lines of readable declarations are read as these. -/
theorem Reader.readAs_lines {ps : List Property} (h : ∀ p ∈ ps, p.IsReadable) :
    ReadAs (ps.flatMap Property.line) ps := by
  have hlines := ReadAs.flatMap fun p hp => (h p hp).readAs_line
  rwa [List.flatMap_singleton'] at hlines

/-! ## Blocks -/

namespace Style.IsPlain

variable {s : Style} {v r : List Char} {ps : List Property}

/-- The selector of a plain style before the bracket of its block. -/
theorem rules_opening (h : s.IsPlain) (r : List Char) :
    rules (lexemes (s.selector.text.toList ++ ' ' :: '\x7b' :: r)) =
      blockRules (!s.isRead) s.selector.text (lexemes r) := by
  have hsel := h.selector.isSelector
  have hpadded := lexemes_padded (w := []) hsel.toIsStretch (by simp) isBlank_space
    (r := '\x7b' :: r) rfl
  rw [List.nil_append, List.singleton_append, lexemes_openCurly] at hpadded
  rw [hpadded, rules_selector hsel isBlank_space, String.ofList_toList,
    startsCustom_lexemes h.selector.quiet, isRead, Bool.not_not]

/-- A plain style with a block that is put together from parts, and what comes after it. -/
theorem rules_body (h : s.IsPlain) (hv : ReadAs v ps) (r : List Char) :
    rules (lexemes (s.selector.text.toList ++ ' ' :: '\x7b' :: (v ++ '\x7d' :: r))) =
      (if s.isRead then [⟨s.selector.text, ps⟩] else []) ++ rules (lexemes r) := by
  rw [h.rules_opening, hv.blockRules_eq]
  cases s.isRead <;> rfl

end Style.IsPlain
end StyleSheet
