import StyleSheet.Proofs.Reader.Plain

/-!
# Phrases and calls

The text of a typed value or selector is a phrase: words, with one or a few marks between
two of them.  A phrase is plain for its characters alone (`IsPhrase.isPlain`), since
without a slash there is no comment, and phrases are put together from shorter ones
(`IsPhrase.append`).

Colors and fonts are calls, with a phrase or a string in their brackets; they are values
although they are not plain (`isValue_call`).
-/

namespace StyleSheet
namespace Reader

variable {u v w f : List Char} {c : Char}

/-! ## Phrases -/

/-- Whether a character is plain and starts no comment. -/
def isPhraseChar (c : Char) : Bool := isPlainChar c && c != '/'

/-- Whether a character can stand in a word. -/
def isWordChar (c : Char) : Bool := isPhraseChar c && !Text.isSpace c

/-- Text of such characters that is not empty and has no white space at its ends. -/
structure IsPhrase (v : List Char) : Prop where
  nonempty : v ≠ []
  trimmed : Text.Trimmed v
  chars : ∀ c ∈ v, isPhraseChar c = true

instance (v : List Char) : Decidable (IsPhrase v) :=
  decidable_of_iff (v ≠ [] ∧ Text.Trimmed v ∧ v.all isPhraseChar = true)
    ⟨fun h => ⟨h.1, h.2.1, List.all_eq_true.mp h.2.2⟩,
      fun h => ⟨h.nonempty, h.trimmed, List.all_eq_true.mpr h.chars⟩⟩

namespace IsPhrase

/-- A word is a phrase. -/
theorem of_word (hv : v ≠ []) (h : ∀ c ∈ v, isWordChar c = true) : IsPhrase v where
  nonempty := hv
  trimmed := Text.Trimmed.of_forall fun c hc => by
    have hword := h c hc
    simp only [isWordChar, Bool.and_eq_true, Bool.not_eq_true'] at hword
    exact hword.2
  chars c hc := by
    have hword := h c hc
    simp only [isWordChar, Bool.and_eq_true] at hword
    exact hword.1

/-- Two phrases with marks between them are a phrase. -/
theorem append (hu : IsPhrase u) (hv : IsPhrase v) (hw : ∀ c ∈ w, isPhraseChar c = true) :
    IsPhrase (u ++ (w ++ v)) where
  nonempty h := hu.nonempty (List.append_eq_nil_iff.mp h).1
  trimmed := hu.trimmed.append hu.nonempty hv.trimmed hv.nonempty w
  chars c hc := by
    rcases List.mem_append.mp hc with hc | hc
    · exact hu.chars c hc
    · rcases List.mem_append.mp hc with hc | hc
      · exact hw c hc
      · exact hv.chars c hc

theorem isPlain (h : IsPhrase v) : IsPlain v where
  trimmed := h.trimmed
  chars c hc := by
    have hphrase := h.chars c hc
    simp only [isPhraseChar, Bool.and_eq_true] at hphrase
    exact hphrase.1
  noComment hcomment := by
    have hslash : isPhraseChar '/' = true := h.chars '/' (hcomment.subset List.mem_cons_self)
    exact absurd hslash (by decide)

end IsPhrase

theorem isWordChar_of_isDigit (h : c.isDigit = true) : isWordChar c = true :=
  Text.of_ascii (P := fun d => d.isDigit = true → isWordChar d = true) (by decide)
    (Text.toNat_lt_of_isDigit h) h

/-! ## Calls -/

/-- A call of a function, other than that of an address, with flat text in its brackets. -/
theorem isValue_call (hf : isIdentifier f = true) (htrim : Text.Trimmed f)
    (hurl : isUrlName f = false) (hu : Detached u)
    (hflat : ∀ x ∈ lexemes u, x.token.isFlat = true) :
    IsValue (f ++ '(' :: (u ++ [')'])) := by
  have hcall : ∀ r, lexemes (f ++ '(' :: (u ++ ')' :: r)) =
      ⟨.opening .round, f ++ ['(']⟩ :: (lexemes u ++ ⟨.closing .round, [')']⟩ :: lexemes r) := by
    intro r
    rw [lexemes_call hf hurl, hu _ rfl, lexemes_closeRound]
  have hne : f ≠ [] := by
    rintro rfl
    cases hf
  constructor
  · intro r hr
    rw [hcall []]
    simp only [List.append_assoc, List.cons_append, List.nil_append]
    rw [hcall r]
    rfl
  · rw [hcall []]
    exact Sealed.bracketed (fun _ => Token.isDelimiter_of_endsValue) rfl rfl hflat
  · have hends := htrim.append hne (by decide : Text.Trimmed [')']) (by simp) ('(' :: u)
    exact hends

/-- A phrase in the brackets of a call. -/
theorem IsPhrase.isValue_call (hu : IsPhrase u) (hf : isIdentifier f = true)
    (htrim : Text.Trimmed f) (hurl : isUrlName f = false) :
    IsValue (f ++ '(' :: (u ++ [')'])) :=
  Reader.isValue_call hf htrim hurl hu.isPlain.quiet.detached
    fun _ hx => hu.isPlain.isFlat_of_mem hx

/-- A string in the brackets of a call. -/
theorem isValue_call_string (hu : ∀ c ∈ u, isQuotable c = true) (hf : isIdentifier f = true)
    (htrim : Text.Trimmed f) (hurl : isUrlName f = false) :
    IsValue (f ++ '(' :: ('\x27' :: (u ++ ['\x27']) ++ [')'])) := by
  have hstring : ∀ r, lexemes ('\x27' :: (u ++ ['\x27']) ++ r) =
      ⟨.other, '\x27' :: (u ++ ['\x27'])⟩ :: lexemes r := by
    intro r
    rw [List.cons_append, List.append_assoc]
    exact lexemes_string hu r
  have hown : lexemes ('\x27' :: (u ++ ['\x27'])) = [⟨.other, '\x27' :: (u ++ ['\x27'])⟩] := by
    have hnil := hstring []
    rwa [List.append_nil] at hnil
  refine isValue_call hf htrim hurl (fun r _ => ?_) fun x hx => ?_
  · rw [hstring r, hown]
    rfl
  · rw [hown, List.mem_singleton] at hx
    rw [hx]
    rfl

end Reader
end StyleSheet
