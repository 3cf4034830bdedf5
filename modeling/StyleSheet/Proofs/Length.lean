import StyleSheet.Proofs.Numeric.Single
import StyleSheet.Value.Length

/-!
# What the text of a length tells

A length in pixels or percent is a numeral and its unit, and no number is lost in the numeral:
it is read as the same number, bit for bit, also at the two zeros and among the least
magnitudes.  So the texts of two lengths differ as soon as their units or their numbers do,
save that the number of a keyword is not written and that all that is not a number is written
alike (`Length.text_eq_iff`).
-/

namespace StyleSheet

open Numeric

/-- What the text of a length ends with. -/
def LengthUnit.suffix : LengthUnit → String
  | .pixel => "px"
  | .percent => "%"
  | .auto => "auto"
  | .none => "none"

/-- Whether the number of a length is written. -/
def LengthUnit.isNumeric : LengthUnit → Bool
  | .pixel | .percent => true
  | .auto | .none => false

namespace Length

variable {l l' : Length}

theorem text_of_isNumeric (x : Single) {u : LengthUnit} (h : u.isNumeric = true) :
    (Length.mk x u).text = String.ofList x.numeral ++ u.suffix := by
  cases u with
  | pixel => rfl
  | percent => rfl
  | auto => cases h
  | none => cases h

theorem text_of_keyword (x : Single) {u : LengthUnit} (h : u.isNumeric = false) :
    (Length.mk x u).text = u.suffix := by
  cases u with
  | pixel => cases h
  | percent => cases h
  | auto => rfl
  | none => rfl

/-- The last character is that of the unit. -/
theorem getLast?_text (l : Length) : l.text.toList.getLast? = l.unit.suffix.toList.getLast? := by
  obtain ⟨x, u⟩ := l
  cases h : u.isNumeric with
  | true =>
    have hne : u.suffix.toList ≠ [] := by cases u <;> decide
    rw [text_of_isNumeric x h, String.toList_append, List.getLast?_append_of_ne_nil _ hne]
  | false => rw [text_of_keyword x h]

theorem unit_eq_of_text_eq (h : l.text = l'.text) : l.unit = l'.unit := by
  have hlast : l.unit.suffix.toList.getLast? = l'.unit.suffix.toList.getLast? := by
    rw [← getLast?_text, h, getLast?_text]
  revert hlast
  cases l.unit <;> cases l'.unit <;> decide

/-- Equal texts come from equal units, and from equal numbers if the unit has one. -/
theorem text_eq_iff :
    l.text = l'.text ↔ l.unit = l'.unit ∧ (l.unit.isNumeric = true →
      l.value = l'.value ∨ (l.value.isNaN = true ∧ l'.value.isNaN = true)) := by
  obtain ⟨x, u⟩ := l
  obtain ⟨y, u'⟩ := l'
  refine ⟨fun h => ?_, ?_⟩
  · obtain rfl : u = u' := unit_eq_of_text_eq h
    refine ⟨rfl, fun hnumeric => ?_⟩
    rw [text_of_isNumeric x hnumeric, text_of_isNumeric y hnumeric, ← String.toList_inj,
      String.toList_append, String.toList_append, List.append_left_inj, String.toList_ofList,
      String.toList_ofList] at h
    exact Single.numeral_eq_iff.mp h
  · rintro ⟨rfl, hvalue⟩
    cases hnumeric : u.isNumeric with
    | true =>
      rw [text_of_isNumeric x hnumeric, text_of_isNumeric y hnumeric,
        Single.numeral_eq_iff.mpr (hvalue hnumeric)]
    | false => rw [text_of_keyword x hnumeric, text_of_keyword y hnumeric]

/-- The text of a length in pixels or percent loses nothing.  A finite number is written as a
numeral that is read as this number and no other, and none of fewer significant digits is; what
is not finite is written in letters.  Lengths with different units, or with the same numeric
unit and different numbers, have different texts. -/
theorem text_lossless :
    (∀ (x : Single) (u : LengthUnit), u.isNumeric = true →
      (x.isFinite = true → ∃ n : Numeral, n.IsShortest x ∧
        (Length.mk x u).text = String.ofList n.text ++ u.suffix) ∧
      (x.isFinite = false → x.isNaN = false →
        (Length.mk x u).text = (if x.negative then "-inf" else "inf") ++ u.suffix) ∧
      (x.isNaN = true → (Length.mk x u).text = "NaN" ++ u.suffix)) ∧
    ∀ l l' : Length, l.unit ≠ l'.unit ∨
        (l.unit = l'.unit ∧ l.unit.isNumeric = true ∧ l.value ≠ l'.value ∧
          ¬ (l.value.isNaN = true ∧ l'.value.isNaN = true)) →
      l.text ≠ l'.text := by
  refine ⟨fun x u hu => ⟨fun hfinite => ?_, fun hfinite hnan => ?_, fun hnan => ?_⟩,
    fun l l' h htext => ?_⟩
  · obtain ⟨n, htext, hn⟩ := Single.exists_numeral hfinite
    exact ⟨n, hn, by rw [text_of_isNumeric x hu, htext]⟩
  · rw [text_of_isNumeric x hu, Single.numeral_of_infinite hnan hfinite]
    split <;> rfl
  · rw [text_of_isNumeric x hu, Single.numeral_of_isNaN hnan]
  · obtain ⟨hunit, hvalue⟩ := text_eq_iff.mp htext
    rcases h with hne | ⟨-, hnumeric, hne, hnan⟩
    · exact hne hunit
    · exact (hvalue hnumeric).elim hne hnan

/-- The least positive number, and the number next to one tenth. -/
theorem text_lossless_least :
    (∃ n : Numeral, n.IsShortest ⟨1⟩ ∧
      (px ⟨1⟩).text = String.ofList n.text ++ LengthUnit.pixel.suffix) ∧
    (percent ⟨0x3DCCCCCD⟩).text ≠ (percent ⟨0x3DCCCCCE⟩).text := by
  obtain ⟨hnumber, hdistinct⟩ := text_lossless
  exact ⟨(hnumber ⟨1⟩ .pixel rfl).1 (by decide),
    hdistinct _ _ (.inr ⟨rfl, rfl, by decide, by decide⟩)⟩

example : (percent ⟨0x3DCCCCCD⟩).text = "0.1%" := by decide +kernel

end Length
end StyleSheet
