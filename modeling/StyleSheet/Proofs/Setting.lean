import StyleSheet.Proofs.Numeric.Numeral
import StyleSheet.Proofs.Reader.Phrase
import StyleSheet.Setting

/-!
# The text of typed settings

The declaration of a typed setting is read as it is written (`isReadable_property`).
Its name is an identifier.  Its value is a phrase of numerals, units and keywords,
whatever the numbers are; or it is a color, which is a call with such a phrase in it; or
a font, which is a call with a string in it.
-/

namespace StyleSheet

open Reader

/-! ## Numbers and lengths -/

theorem isWordChar_of_isNumeralChar {c : Char} (h : isNumeralChar c = true) :
    isWordChar c = true := by
  simp only [isNumeralChar, Bool.or_eq_true, List.contains_iff_mem] at h
  rcases h with hdigit | hmark
  · exact isWordChar_of_isDigit hdigit
  · have hall : ['-', '.', 'N', 'a', 'i', 'n', 'f'].all isWordChar = true := by decide
    exact List.all_eq_true.mp hall c hmark

/-- A number with a unit, or with none. -/
theorem isPhrase_number (x : Single) (unit : List Char)
    (hunit : unit.all isWordChar = true) : IsPhrase (x.text.toList ++ unit) := by
  rw [Single.toList_text]
  refine IsPhrase.of_word (fun h => x.numeral_ne_nil (List.append_eq_nil_iff.mp h).1) fun c hc => ?_
  rcases List.mem_append.mp hc with hc | hc
  · exact isWordChar_of_isNumeralChar (Single.isNumeralChar_of_mem_numeral hc)
  · exact List.all_eq_true.mp hunit c hc

theorem isPhrase_append_unit (x : Single) (unit : String)
    (hunit : unit.toList.all isWordChar = true) : IsPhrase (x.text ++ unit).toList := by
  rw [String.toList_append]
  exact isPhrase_number x _ hunit

theorem isPhrase_text (x : Single) : IsPhrase x.text.toList := by
  have hnumber := isPhrase_number x [] rfl
  rwa [List.append_nil] at hnumber

theorem isPhrase_pixelText (x : Single) : IsPhrase (Setting.pixelText x).toList :=
  isPhrase_append_unit x "px" (by decide)

theorem isPhrase_length (l : Length) : IsPhrase l.text.toList := by
  cases l with
  | mk x unit =>
    cases unit with
    | pixel => exact isPhrase_append_unit x "px" (by decide)
    | percent => exact isPhrase_append_unit x "%" (by decide)
    | auto => exact (by decide +kernel : IsPhrase "auto".toList)
    | none => exact (by decide +kernel : IsPhrase "none".toList)

/-- Two phrases with text of marks between them. -/
theorem isPhrase_append {s t mark : String} (hs : IsPhrase s.toList) (ht : IsPhrase t.toList)
    (hmark : mark.toList.all isPhraseChar = true) : IsPhrase (s ++ mark ++ t).toList := by
  rw [String.toList_append, String.toList_append, List.append_assoc]
  exact hs.append ht (List.all_eq_true.mp hmark)

/-! ## Colors -/

theorem isPhrase_repr (n : Nat) : IsPhrase n.repr.toList := by
  rw [Nat.toList_repr]
  exact IsPhrase.of_word Nat.toDigits_ne_nil fun c hc =>
    isWordChar_of_isDigit (Numeric.isDigit_of_mem_digitText hc)

theorem isPhrase_channelText (c : Color) : IsPhrase c.channelText.toList :=
  isPhrase_append (isPhrase_append (isPhrase_repr _) (isPhrase_repr _) (by decide))
    (isPhrase_repr _) (by decide)

/-- A call is written with its brackets. -/
theorem toList_call {start : String} {f : List Char} (hstart : start.toList = f ++ ['('])
    (u : String) : (start ++ u ++ ")").toList = f ++ '(' :: (u.toList ++ [')']) := by
  rw [String.toList_append, String.toList_append, hstart, List.append_assoc, List.append_assoc]
  rfl

theorem isValue_color (c : Color) : IsValue c.text.toList := by
  unfold Color.text
  split
  · rw [toList_call (by decide +kernel : "rgb(".toList = ['r', 'g', 'b'] ++ ['('])]
    exact (isPhrase_channelText c).isValue_call (by decide) (by decide) (by decide)
  · have hassoc : "rgba(" ++ c.channelText ++ ", " ++ c.alpha.text ++ ")" =
        "rgba(" ++ (c.channelText ++ ", " ++ c.alpha.text) ++ ")" := by
      simp only [String.append_assoc]
    have hchannels : IsPhrase (c.channelText ++ ", " ++ c.alpha.text).toList :=
      isPhrase_append (isPhrase_channelText c) (isPhrase_text c.alpha) (by decide)
    rw [hassoc, toList_call (by decide +kernel : "rgba(".toList = ['r', 'g', 'b', 'a'] ++ ['('])]
    exact hchannels.isValue_call (by decide) (by decide) (by decide)

/-! ## Fonts -/

/-- Whether the name of a font can stand in quotes as it is. -/
def Font.isQuotable (f : Font) : Bool := f.name.toList.all Reader.isQuotable

/-- A call with a string in it is written with its brackets and quotes. -/
theorem toList_call_string {start stop : String} {f u : List Char}
    (hstart : start.toList = f ++ '(' :: '\x27' :: u) (hstop : stop.toList = ['\x27', ')'])
    (name : String) : (start ++ name ++ stop).toList =
      f ++ '(' :: ('\x27' :: (u ++ name.toList ++ ['\x27']) ++ [')']) := by
  rw [String.toList_append, String.toList_append, hstart, hstop]
  simp only [List.append_assoc, List.cons_append, List.nil_append]

theorem isValue_font {f : Font} (h : f.isQuotable = true) : IsValue f.text.toList := by
  have hname : ∀ c ∈ "Fonts/".toList ++ f.name.toList, Reader.isQuotable c = true := by
    intro c hc
    rcases List.mem_append.mp hc with hc | hc
    · exact List.all_eq_true.mp (by decide : "Fonts/".toList.all Reader.isQuotable = true) c hc
    · exact List.all_eq_true.mp h c hc
  have hstart : "resource('Fonts/".toList =
      "resource".toList ++ '(' :: '\x27' :: "Fonts/".toList := by
    decide +kernel
  have htext := toList_call_string hstart (by decide : "')".toList = ['\x27', ')']) f.name
  have hvalue := isValue_call_string hname (f := "resource".toList) (by decide) (by decide)
    (by decide)
  exact htext.symm ▸ hvalue

/-! ## Settings -/

namespace Setting

/-- Whether a setting takes no text, but for the name of a font that can be quoted. -/
def isTyped : Setting → Bool
  | .text _ _ => false
  | .custom _ _ => false
  | .font (some f) => f.isQuotable
  | _ => true

theorem isIdentifier_name {s : Setting} (h : s.isTyped = true) :
    isIdentifier s.name.toList = true := by
  cases s with
  | text => cases h
  | custom => cases h
  | length target =>
    show isIdentifier target.name.toList = true
    cases target <;> decide +kernel
  | number target =>
    show isIdentifier target.name.toList = true
    cases target <;> decide +kernel
  | pixels target =>
    show isIdentifier target.name.toList = true
    cases target <;> decide +kernel
  | pixelPair target =>
    show isIdentifier target.name.toList = true
    cases target <;> decide +kernel
  | pixelQuad target =>
    show isIdentifier target.name.toList = true
    cases target <;> decide +kernel
  | color target =>
    show isIdentifier target.name.toList = true
    cases target <;> decide +kernel
  | _ =>
    simp only [name]
    decide +kernel

theorem isPhrase_value_pixelQuad (x y z w : Single) :
    IsPhrase (pixelText x ++ " " ++ pixelText y ++ " " ++ pixelText z ++ " " ++
      pixelText w).toList :=
  isPhrase_append (isPhrase_append (isPhrase_append (isPhrase_pixelText x) (isPhrase_pixelText y)
    (by decide)) (isPhrase_pixelText z) (by decide)) (isPhrase_pixelText w) (by decide)

/-- The value of a typed setting other than a color or a font is a phrase. -/
theorem isValue_value {s : Setting} (h : s.isTyped = true) : IsValue s.value.toList := by
  have hkeyword : ∀ {t : String}, IsPhrase t.toList → IsValue t.toList :=
    fun ht => ht.isPlain.isValue
  cases s with
  | text => cases h
  | custom => cases h
  | color _ c => exact isValue_color c
  | font f =>
    cases f with
    | none => exact hkeyword (by decide +kernel : IsPhrase "none".toList)
    | some f => exact isValue_font h
  | length _ l => exact hkeyword (isPhrase_length l)
  | number _ x => exact hkeyword (isPhrase_text x)
  | pixels _ x => exact hkeyword (isPhrase_pixelText x)
  | pixelPair _ x y =>
    exact hkeyword (isPhrase_append (isPhrase_pixelText x) (isPhrase_pixelText y) (by decide))
  | pixelQuad _ x y z w => exact hkeyword (isPhrase_value_pixelQuad x y z w)
  | backgroundSize w v =>
    exact hkeyword (isPhrase_append (isPhrase_length w) (isPhrase_length v) (by decide))
  | rotate x => exact hkeyword (isPhrase_append_unit x "deg" (by decide))
  | backgroundPosition k l =>
    have hword : ∀ k : BackgroundPosition, IsPhrase (Keyword.text k).toList := by
      intro k
      cases k <;> decide +kernel
    exact hkeyword (isPhrase_append (hword k) (hword l) (by decide))
  | backgroundRepeat k l =>
    have hword : ∀ k : Repeat, IsPhrase (Keyword.text k).toList := by
      intro k
      cases k <;> decide +kernel
    exact hkeyword (isPhrase_append (hword k) (hword l) (by decide))
  | _ k => exact hkeyword (by cases k <;> decide +kernel)

/-- A typed setting is read as it is written. -/
theorem isReadable_property {s : Setting} (h : s.isTyped = true) : s.property.IsReadable :=
  ⟨isIdentifier_name h, isValue_value h⟩

end Setting
end StyleSheet
