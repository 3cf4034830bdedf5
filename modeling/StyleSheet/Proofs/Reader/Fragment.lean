import StyleSheet.Proofs.Reader.Formatting
import StyleSheet.Proofs.Reader.Origin

/-!
# Fragments

What is read from a text is cut out of it, trimmed, and later read by itself.  Are the
lexemes of the cut then those that it had in the text?  They are for a `Fragment`: lexemes
that are the lexemes of their own text, where that text is quiet, and its only white space
is blanks.

* `Fragment.right`, `Fragment.left`: a part of a fragment is one, if what follows it starts
  apart, as delimiters do.
* `Fragment.isStretch`: a fragment without a stop in it is readable when it is trimmed.
-/

namespace StyleSheet
namespace Reader

variable {stop : Token → Bool} {c d : Char} {v cs text value : List Char} {x : Lexeme}
  {xs ys : List Lexeme}

/-! ## Names with `NUL` replaced -/

theorem isIdentifierStart_nameValue (h : isNameStart c = true) :
    isIdentifierStart (nameValue c) = true := by
  unfold nameValue
  split
  · rfl
  · next hnul =>
    simpa [isNameStart, isIdentifierStart, hnul] using h

theorem isIdentifierChar_nameValue (h : isNameChar c = true) :
    isIdentifierChar (nameValue c) = true := by
  simp only [isNameChar, Bool.or_eq_true, beq_iff_eq] at h
  rcases h with (h | h) | rfl
  · simp [isIdentifierChar, isIdentifierStart_nameValue h]
  · have hnul : c ≠ '\x00' := by
      rintro rfl
      cases h
    simp [nameValue, hnul, isIdentifierChar, h]
  · rfl

theorem isIdentifier_cons (h : isIdentifierStart c = true)
    (hcs : cs.all isIdentifierChar = true) : isIdentifier (c :: cs) = true := by
  unfold isIdentifier
  split
  · next heq =>
    cases heq
    cases h
  · next heq =>
    cases heq
    rw [h, hcs, Bool.and_self]
  · next heq => cases heq

/-! ## Lexemes of quiet text -/

/-- A delimiter starts with a character that goes on nothing. -/
theorem goesOn_of_isDelimiter (hd : (scan c cs).1.isDelimiter = true) : goesOn c = false := by
  have hmark : ∀ t : Token, t.isDelimiter = true → ∃ d, t.first? = some d ∧ goesOn d = false := by
    intro t ht
    unfold Token.isDelimiter at ht
    split at ht
    · exact ⟨_, rfl, by decide⟩
    · exact ⟨_, rfl, by decide⟩
    · exact ⟨_, rfl, by decide⟩
    · cases ht
  obtain ⟨d, hd, hgoes⟩ := hmark _ hd
  rwa [eq_of_first? hd]

namespace Quiet

/-- In quiet text a lexeme is a character with characters that go on it. -/
theorem goesOn_of_mem_scan (h : Quiet (c :: cs)) (hd : d ∈ cs.take (scan c cs).2) :
    goesOn d = true := by
  have hsplit : cs.takeWhile goesOn ++ cs.dropWhile goesOn = cs := List.takeWhile_append_dropWhile
  have hapart : startsApart (cs.dropWhile goesOn) = true := by
    have hhead := List.head?_dropWhile_not goesOn cs
    cases hdrop : cs.dropWhile goesOn with
    | nil => rfl
    | cons e es =>
      rw [hdrop] at hhead
      simpa using hhead
  have hquiet : Quiet (c :: cs.takeWhile goesOn) :=
    h.of_infix ((List.prefix_cons_inj c).mpr (List.takeWhile_prefix goesOn)).isInfix
  have hlength : (scan c cs).2 ≤ (cs.takeWhile goesOn).length := by
    rw [← hsplit, hquiet.scan_append hapart, hsplit]
    exact scan_le c _
  have hpart : cs.take (scan c cs).2 <+: cs.takeWhile goesOn :=
    List.prefix_of_prefix_length_le (List.take_prefix _ cs) (List.takeWhile_prefix goesOn)
      ((List.length_take_le _ cs).trans hlength)
  exact List.mem_takeWhile_imp (hpart.subset hd)

/-- The value of a name is an identifier, also if `NUL` was replaced in it. -/
theorem isIdentifier_map_nameValue (h : Quiet (c :: cs)) (hstart : startsName (c :: cs) = true) :
    isIdentifier (((c :: cs).takeWhile isNameChar).map nameValue) = true := by
  have hslash : ∀ d ∈ c :: cs, d ≠ '\\' := by
    rintro d hd rfl
    exact absurd (h.chars _ hd) (by decide)
  have hall : ∀ u : List Char,
      ((u.takeWhile isNameChar).map nameValue).all isIdentifierChar = true := fun u =>
    List.all_eq_true.mpr fun e he => by
      obtain ⟨d, hd, rfl⟩ := List.mem_map.mp he
      exact isIdentifierChar_nameValue (List.mem_takeWhile_imp hd)
  by_cases hdash : c = '-'
  · subst hdash
    cases cs with
    | nil => cases hstart
    | cons d ds =>
      have hd : isNameStart d = true ∨ d = '-' := by
        have hne := hslash d (List.mem_cons_of_mem _ List.mem_cons_self)
        simpa [startsName, hne] using hstart
      have hchar : isNameChar d = true := by
        rcases hd with hd | rfl
        · simp [isNameChar, hd]
        · rfl
      rw [List.takeWhile_cons_of_pos rfl, List.takeWhile_cons_of_pos hchar]
      show (_ && _) = true
      rw [hall ds, Bool.and_true, Bool.or_eq_true, beq_iff_eq]
      refine hd.imp isIdentifierStart_nameValue ?_
      rintro rfl
      rfl
  · rw [startsName_cons hdash (hslash c List.mem_cons_self)] at hstart
    rw [List.takeWhile_cons_of_pos (by simp [isNameChar, hstart])]
    exact isIdentifier_cons (isIdentifierStart_nameValue hstart) (hall cs)

/-- In quiet text a name stands for an identifier. -/
theorem isIdentifier_of_scan (h : Quiet (c :: cs)) (hscan : (scan c cs).1 = .name value) :
    isIdentifier value = true := by
  have hs := scans c cs
  generalize scan c cs = r at hs hscan
  cases hs with
  | name hstart =>
    have hname := h.name_eq startsApart_nil
    rw [List.append_nil] at hname
    rw [h.scanName_eq_name, hname] at hscan
    rw [← Token.name.inj hscan]
    exact h.isIdentifier_map_nameValue hstart
  | _ => cases hscan

end Quiet

/-! ## Fragments -/

/-- Lexemes that are those of their own text, which is quiet and has no white space but
blanks. -/
structure Fragment (xs : List Lexeme) : Prop where
  lexemes_source : lexemes (source xs) = xs
  quiet : Quiet (source xs)
  spaces : ∀ c ∈ source xs, Text.isSpace c = true → isBlank c = true

namespace Fragment

/-- How a fragment is scanned. -/
theorem exists_scan (h : Fragment (x :: xs)) : ∃ c cs, source (x :: xs) = c :: cs ∧
    x = ⟨(scan c cs).1, c :: cs.take (scan c cs).2⟩ ∧ xs = lexemes (cs.drop (scan c cs).2) := by
  have hlexemes := h.lexemes_source
  cases hsource : source (x :: xs) with
  | nil =>
    rw [hsource] at hlexemes
    cases hlexemes
  | cons c cs =>
    rw [hsource, lexemes_cons] at hlexemes
    exact ⟨c, cs, rfl, (List.cons.inj hlexemes).1.symm, (List.cons.inj hlexemes).2.symm⟩

theorem tail (h : Fragment (x :: xs)) : Fragment xs where
  lexemes_source := by
    obtain ⟨c, cs, -, -, rfl⟩ := h.exists_scan
    rw [source_lexemes]
  quiet := h.quiet.of_suffix (List.suffix_append x.text (source xs))
  spaces c hc := h.spaces c (List.mem_append_right x.text hc)

theorem right (h : Fragment (xs ++ ys)) : Fragment ys := by
  induction xs with
  | nil => exact h
  | cons x xs ih => exact ih h.tail

theorem left (h : Fragment (xs ++ ys)) (hys : startsApart (source ys) = true) : Fragment xs := by
  have hquiet : Quiet (source xs) := by
    have hall := h.quiet
    rw [source_append] at hall
    exact hall.of_infix (List.prefix_append _ _).isInfix
  refine ⟨?_, hquiet, fun c hc => h.spaces c ?_⟩
  · have hlexemes := h.lexemes_source
    rw [source_append, hquiet.lexemes_append hys, h.right.lexemes_source] at hlexemes
    exact List.append_cancel_right hlexemes
  · rw [source_append]
    exact List.mem_append_left _ hc

/-- Delimiters start apart. -/
theorem startsApart_of_isDelimiter (h : Fragment xs)
    (hxs : ∀ x ∈ xs.head?, x.token.isDelimiter = true) : startsApart (source xs) = true := by
  cases xs with
  | nil => rfl
  | cons x xs =>
    obtain ⟨c, cs, hsource, rfl, -⟩ := h.exists_scan
    rw [hsource, startsApart_cons, goesOn_of_isDelimiter (hxs _ rfl)]
    rfl

/-- A fragment is its trimmed text with blanks around it. -/
theorem exists_padded (h : Fragment xs) : ∃ u w, (∀ c ∈ u, isBlank c = true) ∧
    (∀ c ∈ w, isBlank c = true) ∧ Quiet (Text.trim (source xs)) ∧
      xs = padded u (Text.trim (source xs)) w := by
  obtain ⟨u, w, hpad, hu, hw⟩ := Text.exists_pad (source xs)
  have hblank : ∀ c ∈ u ++ w, isBlank c = true := by
    intro c hc
    refine h.spaces c ?_ ((List.mem_append.mp hc).elim (hu c) (hw c))
    rw [hpad]
    rcases List.mem_append.mp hc with hc | hc
    · exact List.mem_append_left _ hc
    · exact List.mem_append_right _ (List.mem_append_right _ hc)
  have hu' : ∀ c ∈ u, isBlank c = true := fun c hc => hblank c (List.mem_append_left w hc)
  have hw' : ∀ c ∈ w, isBlank c = true := fun c hc => hblank c (List.mem_append_right u hc)
  have hquiet : Quiet (Text.trim (source xs)) := h.quiet.of_infix ⟨u, w, by
    rw [List.append_assoc]
    exact hpad.symm⟩
  refine ⟨u, w, hu', hw', hquiet, ?_⟩
  have hnil := lexemes_blanks hw' []
  rw [List.append_nil, lexemes_nil, List.append_nil] at hnil
  have hapart : startsApart w = true := by
    have happ := startsApart_blanks hw' startsApart_nil
    rwa [List.append_nil] at happ
  calc xs = lexemes (source xs) := h.lexemes_source.symm
    _ = lexemes (u ++ (Text.trim (source xs) ++ w)) := by rw [← hpad]
    _ = padded u (Text.trim (source xs)) w := by
      rw [lexemes_blanks hu', hquiet.lexemes_append hapart, hnil, padded]

/-- A fragment in which no stop stands outside of brackets is readable when it is trimmed. -/
theorem isStretch (h : Fragment xs) (hxs : Sealed stop xs) :
    IsStretch stop (Text.trim (source xs)) := by
  obtain ⟨u, w, -, -, hquiet, hpadded⟩ := h.exists_padded
  have hflat : ∀ v : List Char, ∀ x ∈ v.map blankLexeme, x.token.isFlat = true :=
    fun _ _ hx => isFlat_of_isGap (isGap_of_mem_blanks hx)
  rw [hpadded, padded] at hxs
  have hright := hxs.right (nestAll_of_flat (hflat u))
  have hclosed := hright.closed
  rw [nestAll_append, nestAll_of_flat (hflat w)] at hclosed
  exact ⟨hquiet.detached, ⟨passes_left hright.passes, hclosed⟩, Text.trimmed_trim _⟩

/-- The name of a declaration is an identifier. -/
theorem isIdentifier_name (h : Fragment (⟨.name value, text⟩ :: xs)) :
    isIdentifier value = true := by
  obtain ⟨c, cs, hsource, hx, -⟩ := h.exists_scan
  have hquiet := h.quiet
  rw [hsource] at hquiet
  exact hquiet.isIdentifier_of_scan (congrArg Lexeme.token hx).symm

end Fragment
end Reader
end StyleSheet
