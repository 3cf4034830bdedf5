import StyleSheet.Json.Text
import StyleSheet.Proofs.Text.Ascii

/-!
# Written strings are read back

There are several ways to write a character in a string, and what is common to them is how
they are read: the character comes first, and reading goes on after it (`StandsFor`).  That
is said of one character and of every text that may follow, so it holds for strings by
induction over their characters.

The printer writes each character in one of these ways (`standsFor_stringChar`).  A string
that it wrote is read as the characters it was made of, whatever they are
(`spellsString_flatMap`).
-/

namespace StyleSheet
namespace Json

open Text

variable {c : Char} {u v s : List Char}

/-! ## Characters -/

/-- In a string, `u` is read as the character `c`. -/
def StandsFor (u : List Char) (c : Char) : Prop :=
  ∀ ⦃r s rest : List Char⦄, readString r = .ok (s, rest) → readString (u ++ r) = .ok (c :: s, rest)

/-- A character that needs no escape stands for itself. -/
theorem standsFor_self (hquote : c ≠ '"') (hbackslash : c ≠ '\\') (hcontrol : 0x20 ≤ c.toNat) :
    StandsFor [c] c := by
  intro r s rest h
  have hrest : readStringFrom 0 r = .ok (s, rest) := h
  rw [readString, List.singleton_append, readStringFrom, if_neg hquote, if_neg hbackslash,
    if_neg (Nat.not_lt.mpr hcontrol), hrest]

/-- After a backslash, what is read as an escape stands for its character. -/
theorem standsFor_escape (h : ∀ r, readEscape (u ++ r) = .ok (c, u.length)) :
    StandsFor ('\\' :: u) c := by
  intro r s rest hr
  rw [readString, List.cons_append, readStringFrom, if_neg (by decide), if_pos rfl, h]
  simp only [readStringFrom_eq, List.drop_left, hr]

/-! ## Numeric escapes -/

theorem hexEscape_append (hlength : u.length = 4) (hhex : u.all isHexDigit = true)
    (r : List Char) : hexEscape (u ++ r) = .ok (hexNumber u) := by
  rw [hexEscape, ← hlength, List.take_left]
  exact if_pos ⟨rfl, hhex⟩

/-- Four digits are the escape of the character they number, unless that is a surrogate. -/
theorem standsFor_hex (hlength : u.length = 4) (hhex : u.all isHexDigit = true)
    (hlow : isLowSurrogate (hexNumber u) = false) (hhigh : isHighSurrogate (hexNumber u) = false) :
    StandsFor ('\\' :: 'u' :: u) (Char.ofNat (hexNumber u)) := by
  refine standsFor_escape fun r => ?_
  have hescape : unicodeEscape (u ++ r) = .ok (Char.ofNat (hexNumber u), 4) := by
    simp [unicodeEscape, hexEscape_append hlength hhex, hlow, hhigh]
  simp only [List.cons_append, readEscape, hescape, List.length_cons, hlength]

/-- The digits with which a control character is written are those of its number. -/
theorem control_digits (hc : c.toNat < 0x20) :
    let digits := ['0', '0', Nat.digitChar (c.toNat / 16), Nat.digitChar (c.toNat % 16)]
    digits.all isHexDigit = true ∧ hexNumber digits = c.toNat :=
  of_ascii (P := fun c => c.toNat < 0x20 →
    let digits := ['0', '0', Nat.digitChar (c.toNat / 16), Nat.digitChar (c.toNat % 16)]
    digits.all isHexDigit = true ∧ hexNumber digits = c.toNat) (by decide) (by omega) hc

theorem standsFor_control (hc : c.toNat < 0x20) :
    StandsFor ['\\', 'u', '0', '0', Nat.digitChar (c.toNat / 16), Nat.digitChar (c.toNat % 16)]
      c := by
  obtain ⟨hhex, hnumber⟩ := control_digits hc
  have hchar := standsFor_hex rfl hhex
    (by rw [hnumber]; simp [isLowSurrogate]; omega)
    (by rw [hnumber]; simp [isHighSurrogate]; omega)
  rwa [hnumber, Char.ofNat_toNat] at hchar

/-- However a character is written, it is read back. -/
theorem standsFor_stringChar (c : Char) : StandsFor (stringChar c) c := by
  unfold stringChar
  -- the characters with a letter or a mark of their own
  iterate 7
    split
    · next h => subst h; exact standsFor_escape fun r => rfl
  split
  · next h => exact standsFor_control h
  · next hquote hbackslash _ _ _ _ _ hcontrol =>
    exact standsFor_self hquote hbackslash (Nat.not_lt.mp hcontrol)

/-! ## Strings -/

/-- After an opening quote, `u` is read as the string `s`, up to and with the closing one. -/
def SpellsString (u s : List Char) : Prop := ∀ r, readString (u ++ r) = .ok (s, r)

theorem spellsString_nil : SpellsString ['"'] [] := fun _ => rfl

theorem StandsFor.spellsString_append (h : StandsFor u c) (hs : SpellsString v s) :
    SpellsString (u ++ v) (c :: s) := by
  intro r
  rw [List.append_assoc]
  exact h (hs r)

/-- A written string is read back. -/
theorem spellsString_flatMap (s : List Char) :
    SpellsString (s.flatMap stringChar ++ ['"']) s := by
  induction s with
  | nil => exact spellsString_nil
  | cons c s ih =>
    rw [List.flatMap_cons, List.append_assoc]
    exact (standsFor_stringChar c).spellsString_append ih

/-- A string in which nothing is escaped is written as it is. -/
theorem spellsString_of_plain (s : List Char) (h : s.flatMap stringChar = s) :
    SpellsString (s ++ ['"']) s := by
  have hstring := spellsString_flatMap s
  rwa [h] at hstring

end Json
end StyleSheet
