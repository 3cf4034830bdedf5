/-!
# ASCII characters

There are few ASCII characters, so what holds of all of them is decided by looking at
each (`of_ascii`).  Letters and digits are such characters.
-/

namespace StyleSheet
namespace Text

variable {c : Char}

/-- What holds of all ASCII characters holds of one. -/
theorem of_ascii {P : Char → Prop} (h : ∀ n : Fin 128, P (Char.ofNat n)) (hc : c.toNat < 128) :
    P c := by
  have hchar := h ⟨c.toNat, hc⟩
  rwa [Char.ofNat_toNat] at hchar

theorem toNat_lt_of_isDigit (h : c.isDigit = true) : c.toNat < 128 := by
  have hbounds := Char.isDigit_iff_toNat.mp h
  have hnine : '9'.toNat = 57 := rfl
  omega

theorem toNat_lt_of_isAlpha (h : c.isAlpha = true) : c.toNat < 128 := by
  have hcases : (c.isUpper || c.isLower) = true := h
  rcases (Bool.or_eq_true _ _).mp hcases with hupper | hlower
  · have hbounds : 'A'.val ≤ c.val ∧ c.val ≤ 'Z'.val := of_decide_eq_true hupper
    have hle : c.toNat ≤ 90 := UInt32.le_iff_toNat_le.mp hbounds.2
    omega
  · have hlast : decide (c.val ≤ 'z'.val) = true := ((Bool.and_eq_true _ _).mp hlower).2
    have hle : c.toNat ≤ 122 := UInt32.le_iff_toNat_le.mp (of_decide_eq_true hlast)
    omega

end Text
end StyleSheet
