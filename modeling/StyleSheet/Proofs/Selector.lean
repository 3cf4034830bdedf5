import StyleSheet.Proofs.Reader.Phrase
import StyleSheet.Selector.Expr

/-!
# The text of typed selectors

A selector that is built from classes, ids and types with ordinary names, from all
elements, states and combinators is a phrase that starts with a letter or with one of
`_`, `.`, `#` and `*`.  Such a text is plain and cannot be taken for the start of a
custom property, so it is always read.
-/

namespace StyleSheet
namespace Selector

open Reader

variable {u v w : List Char} {c : Char}

/-! ## Names -/

/-- A character of an ordinary name. -/
def isOrdinaryChar (c : Char) : Bool := c.isAlpha || c.isDigit || c == '_' || c == '-'

/-- A name of ASCII letters, digits, `_` and `-` that starts with a letter or `_`. -/
def isOrdinaryName : List Char → Bool
  | c :: cs => (c.isAlpha || c == '_') && cs.all isOrdinaryChar
  | [] => false

theorem toNat_lt_of_isOrdinaryChar (h : isOrdinaryChar c = true) : c.toNat < 128 := by
  simp only [isOrdinaryChar, Bool.or_eq_true, beq_iff_eq] at h
  rcases h with ((halpha | hdigit) | rfl) | rfl
  · exact Text.toNat_lt_of_isAlpha halpha
  · exact Text.toNat_lt_of_isDigit hdigit
  · decide
  · decide

theorem isWordChar_of_isOrdinaryChar (h : isOrdinaryChar c = true) : isWordChar c = true :=
  Text.of_ascii (P := fun d => isOrdinaryChar d = true → isWordChar d = true) (by decide)
    (toNat_lt_of_isOrdinaryChar h) h

/-! ## Texts of typed selectors -/

/-- A character with which the text of a typed selector does not start. -/
def isRefusedStart (c : Char) : Bool := c == '-' || c == '@' || c == '<'

/-- A phrase that starts with no such character. -/
structure IsTypedText (v : List Char) : Prop extends IsPhrase v where
  start : v.head?.any isRefusedStart = false

namespace IsTypedText

theorem isPlainSelector (h : IsTypedText v) : IsPlainSelector v where
  toIsPlain := h.toIsPhrase.isPlain
  start mark hmark hprefix := by
    cases v with
    | nil => exact h.nonempty rfl
    | cons c cs =>
      have hc : isRefusedStart c = false := h.start
      have hhead : ∀ mark ∈ refusedStarts, mark.head?.any isRefusedStart = true := by decide
      cases mark with
      | nil => exact absurd hmark (by decide)
      | cons d ds =>
        obtain ⟨rfl, -⟩ := List.cons_prefix_cons.mp hprefix
        have hd : isRefusedStart d = true := hhead _ hmark
        rw [hc] at hd
        cases hd

/-- A typed selector does not start like a custom property. -/
theorem looksCustom_eq_false (h : IsTypedText v) : looksCustom v = false := by
  cases v with
  | nil => rfl
  | cons c cs =>
    have hc : c ≠ '-' := by
      rintro rfl
      have hstart : isRefusedStart '-' = false := h.start
      exact absurd hstart (by decide)
    have htake : ((c :: cs).take 2 == ['-', '-']) = false := by
      rw [List.take_succ_cons]
      simp [hc]
    rw [looksCustom, htake, Bool.false_and]

theorem append (hu : IsTypedText u) (hv : IsPhrase v) (hw : ∀ c ∈ w, isPhraseChar c = true) :
    IsTypedText (u ++ (w ++ v)) where
  toIsPhrase := hu.toIsPhrase.append hv hw
  start := by
    cases u with
    | nil => exact absurd rfl hu.nonempty
    | cons d ds => exact hu.start

/-- An ordinary name with a mark before it, or none. -/
theorem of_name (mark : List Char) (hmark : mark.all isWordChar = true)
    (hstart : mark.head?.any isRefusedStart = false) (hv : isOrdinaryName v = true) :
    IsTypedText (mark ++ v) := by
  cases v with
  | nil => cases hv
  | cons c cs =>
    simp only [isOrdinaryName, Bool.and_eq_true, List.all_eq_true] at hv
    have hc : isOrdinaryChar c = true := by
      simp only [isOrdinaryChar, Bool.or_eq_true] at hv ⊢
      exact .inl (hv.1.imp_left .inl)
    refine ⟨IsPhrase.of_word (by simp) fun d hd => ?_, ?_⟩
    · rcases List.mem_append.mp hd with hd | hd
      · exact List.all_eq_true.mp hmark d hd
      · rcases List.mem_cons.mp hd with rfl | hd
        · exact isWordChar_of_isOrdinaryChar hc
        · exact isWordChar_of_isOrdinaryChar (hv.2 d hd)
    · cases mark with
      | nil =>
        exact Text.of_ascii
          (P := fun d => (d.isAlpha || d == '_') = true → isRefusedStart d = false)
          (by decide) (toNat_lt_of_isOrdinaryChar hc) (Bool.or_eq_true _ _ ▸ hv.1)
      | cons m ms => exact hstart

end IsTypedText

/-! ## Expressions -/

/-- Whether a selector is built from ordinary names, from all elements, states, and
combinators that there are. -/
def Expr.isTyped : Expr → Bool
  | .ofClass name => isOrdinaryName name.toList
  | .ofId name => isOrdinaryName name.toList
  | .ofType name => isOrdinaryName name.toList
  | .ofTypePath _ => false
  | .raw _ => false
  | .all => true
  | .pseudo _ operand => operand.isTyped
  | .combine op left right => op != .inverseChild && left.isTyped && right.isTyped

theorem isPhrase_keyword (p : PseudoClass) : IsPhrase p.keyword.toList := by
  cases p <;> decide +kernel

/-- A typed expression builds a selector, and its text is that of a typed selector. -/
theorem exists_eval {e : Expr} (h : e.isTyped = true) :
    ∃ s, e.eval = .ok s ∧ IsTypedText s.text.toList := by
  induction e with
  | ofClass name =>
    refine ⟨_, rfl, ?_⟩
    rw [ofClass, String.toList_append]
    exact IsTypedText.of_name _ (by decide) (by decide) h
  | ofId name =>
    refine ⟨_, rfl, ?_⟩
    rw [ofId, text_raw, String.toList_append]
    exact IsTypedText.of_name _ (by decide) (by decide) h
  | ofType name => exact ⟨_, rfl, IsTypedText.of_name [] rfl rfl h⟩
  | ofTypePath path => cases h
  | raw text => cases h
  | all => exact ⟨_, rfl, by decide, by decide⟩
  | pseudo state operand ih =>
    obtain ⟨s, heval, hs⟩ := ih h
    refine ⟨s.pseudo state, by rw [Expr.eval, heval], ?_⟩
    rw [Selector.pseudo, text_raw, String.toList_append, String.toList_append, List.append_assoc]
    exact hs.append (isPhrase_keyword state) (List.all_eq_true.mp (by decide))
  | combine op left right ihl ihr =>
    simp only [Expr.isTyped, Bool.and_eq_true] at h
    obtain ⟨s, hevals, hs⟩ := ihl h.1.2
    obtain ⟨t, hevalt, ht⟩ := ihr h.2
    have hcombine : ∀ mark : String, mark.toList.all isPhraseChar = true →
        IsTypedText (raw (s.text ++ mark ++ t.text)).text.toList := by
      intro mark hmark
      rw [text_raw, String.toList_append, String.toList_append, List.append_assoc]
      exact hs.append ht.toIsPhrase (List.all_eq_true.mp hmark)
    cases op with
    | child =>
      refine ⟨s.child t, ?_, hcombine " > " (by decide)⟩
      simp only [Expr.eval, hevals, hevalt]
      rfl
    | adjacent =>
      refine ⟨s.adjacent t, ?_, hcombine " + " (by decide)⟩
      simp only [Expr.eval, hevals, hevalt]
      rfl
    | descendant =>
      refine ⟨s.descendant t, ?_, hcombine " " (by decide)⟩
      simp only [Expr.eval, hevals, hevalt]
      rfl
    | and =>
      have hempty := hcombine "" (by decide)
      rw [String.append_empty] at hempty
      refine ⟨s.and t, ?_, hempty⟩
      simp only [Expr.eval, hevals, hevalt]
      rfl
    | inverseChild => exact absurd h.1.1 (by decide)

end Selector
end StyleSheet
