import Mathlib.Data.List.TakeWhile
import StyleSheet.Text.Space

/-!
# Trimmed text

Selectors and values are trimmed when they are read, so they are read back as they were
only if there was nothing to trim.  `Trimmed` says so by the characters at both ends, and
`trim_pad` that such text is what remains of any text that has white space around it.
-/

namespace StyleSheet
namespace Text

variable {u v w : List Char}

/-- Text with no white space at its ends. -/
structure Trimmed (v : List Char) : Prop where
  head : v.head?.any isSpace = false
  last : v.getLast?.any isSpace = false

instance (v : List Char) : Decidable (Trimmed v) :=
  decidable_of_iff (_ ∧ _) ⟨fun h => ⟨h.1, h.2⟩, fun h => ⟨h.head, h.last⟩⟩

theorem trimStart_append (hu : ∀ c ∈ u, isSpace c = true) (v : List Char) :
    trimStart (u ++ v) = trimStart v :=
  List.dropWhile_append_of_pos hu

theorem trimStart_eq_self (hv : v.head?.any isSpace = false) : trimStart v = v := by
  cases v with
  | nil => rfl
  | cons c cs =>
    have hc : isSpace c = false := hv
    rw [trimStart, List.dropWhile_cons_of_neg (by simp [hc])]

theorem trimEnd_append (hw : ∀ c ∈ w, isSpace c = true) (v : List Char) :
    trimEnd (v ++ w) = trimEnd v := by
  have hrev : ∀ c ∈ w.reverse, isSpace c = true := fun c hc => hw c (List.mem_reverse.mp hc)
  rw [trimEnd, List.reverse_append, trimStart_append hrev, trimEnd]

/-- White space at the end is trimmed away. -/
theorem trim_append (hw : ∀ c ∈ w, isSpace c = true) (v : List Char) : trim (v ++ w) = trim v := by
  induction v with
  | nil =>
    have hnil := trimStart_append hw []
    rw [List.append_nil] at hnil
    rw [List.nil_append, trim, hnil]
    rfl
  | cons c cs ih =>
    cases hc : isSpace c with
    | true =>
      have hskip : ∀ u, trimStart (c :: u) = trimStart u := fun u =>
        List.dropWhile_cons_of_pos hc
      rw [trim, trim, List.cons_append, hskip, hskip]
      exact ih
    | false =>
      have hself : ∀ u, trimStart (c :: u) = c :: u := fun u => trimStart_eq_self hc
      rw [trim, trim, List.cons_append, hself, hself, ← List.cons_append, trimEnd_append hw]

theorem trim_eq_self (hv : Trimmed v) : trim v = v := by
  have hlast : trimStart v.reverse = v.reverse :=
    trimStart_eq_self (by rw [List.head?_reverse]; exact hv.last)
  rw [trim, trimStart_eq_self hv.head, trimEnd, hlast, List.reverse_reverse]

/-- White space around trimmed text is what is trimmed away. -/
theorem trim_pad (hu : ∀ c ∈ u, isSpace c = true) (hw : ∀ c ∈ w, isSpace c = true)
    (hv : Trimmed v) : trim (u ++ (v ++ w)) = v := by
  rw [trim, trimStart_append hu, ← trim, trim_append hw, trim_eq_self hv]

theorem trimmed_trim (s : List Char) : Trimmed (trim s) where
  head := by
    cases h : (trim s).head? with
    | none => rfl
    | some c =>
      have hprefix : trim s <+: trimStart s := by
        rw [trim, trimEnd, trimStart, ← List.reverse_suffix, List.reverse_reverse]
        exact List.dropWhile_suffix isSpace
      have hhead : (trimStart s).head? = some c := by
        obtain ⟨u, hu⟩ := hprefix
        rw [← hu, List.head?_append, h]
        rfl
      have hnot := List.head?_dropWhile_not isSpace s
      rw [← trimStart, hhead] at hnot
      exact hnot
  last := by
    have hnot := List.head?_dropWhile_not isSpace (trimStart s).reverse
    rw [trim, trimEnd, List.getLast?_reverse, trimStart]
    cases h : ((trimStart s).reverse.dropWhile isSpace).head? with
    | none => rfl
    | some c =>
      rw [h] at hnot
      exact hnot

/-- Any text is its trimmed text with white space around it. -/
theorem exists_pad (s : List Char) : ∃ u w, s = u ++ (trim s ++ w) ∧
    (∀ c ∈ u, isSpace c = true) ∧ ∀ c ∈ w, isSpace c = true := by
  refine ⟨s.takeWhile isSpace, ((trimStart s).reverse.takeWhile isSpace).reverse, ?_, ?_, ?_⟩
  · rw [trim, trimEnd, trimStart, ← List.reverse_append, List.takeWhile_append_dropWhile,
      List.reverse_reverse, trimStart, List.takeWhile_append_dropWhile]
  · exact fun c hc => List.mem_takeWhile_imp hc
  · exact fun c hc => List.mem_takeWhile_imp (List.mem_reverse.mp hc)

/-- Text between two trimmed texts is not trimmed. -/
theorem Trimmed.append (hu : Trimmed u) (hu' : u ≠ []) (hw : Trimmed w) (hw' : w ≠ [])
    (v : List Char) : Trimmed (u ++ (v ++ w)) where
  head := by
    cases u with
    | nil => exact absurd rfl hu'
    | cons d ds => exact hu.head
  last := by
    have hlast := hw.last
    rw [List.getLast?_eq_some_getLast hw'] at hlast
    rw [List.getLast?_append, List.getLast?_append, List.getLast?_eq_some_getLast hw']
    exact hlast

theorem Trimmed.of_forall (h : ∀ c ∈ v, isSpace c = false) : Trimmed v where
  head := by
    cases hv : v.head? with
    | none => rfl
    | some c => exact h c (List.mem_of_mem_head? hv)
  last := by
    cases hv : v.getLast? with
    | none => rfl
    | some c => exact h c (List.mem_of_mem_getLast? hv)

end Text
end StyleSheet
