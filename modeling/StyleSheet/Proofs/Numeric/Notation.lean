import StyleSheet.Proofs.Numeric.Numeral
import StyleSheet.Proofs.Numeric.Shortest

/-!
# Positional notation

A numeral in positional notation is a sign, the digits of the whole part and those of the
fraction, with no digit that could be left out (`Numeral`).  It is determined by its text, and
it stands for an exact decimal.  How short it is, its significant digits tell: those from the
first to the last one that is not zero.

A decimal that ends in no zero is written as such a numeral, and its digits are the significant
ones (`Decimal.numeral`).  The other way round, a numeral is worth a decimal of its significant
digits (`Numeral.exists_decimal`).
-/

namespace StyleSheet
namespace Numeric

/-- A number in positional notation.  Neither part has a digit too much. -/
@[ext] structure Numeral where
  negative : Bool
  whole : List Char
  fraction : List Char
  isDigit_whole : ∀ c ∈ whole, c.isDigit = true
  isDigit_fraction : ∀ c ∈ fraction, c.isDigit = true
  whole_ne_nil : whole ≠ []
  no_leading_zero : whole.head? = some '0' → whole = ['0']
  no_trailing_zero : fraction.getLast? ≠ some '0'

/-- The digits of a whole part and a fraction, with a point if there is a fraction. -/
def pointed (whole fraction : List Char) : List Char :=
  whole ++ if fraction = [] then [] else '.' :: fraction

/-- The digits from the first to the last one that is not zero. -/
def significant (digits : List Char) : List Char :=
  ((digits.dropWhile (· == '0')).reverse.dropWhile (· == '0')).reverse

namespace Numeral

variable {n m : Numeral}

/-- The numeral as it is written. -/
def text (n : Numeral) : List Char :=
  (if n.negative then ['-'] else []) ++ pointed n.whole n.fraction

/-- All digits. -/
def digits (n : Numeral) : List Char := n.whole ++ n.fraction

/-- The exact value without the sign. -/
def magnitude (n : Numeral) : ℚ := Nat.ofDigitChars 10 n.digits 0 / 10 ^ n.fraction.length

/-- The number of significant digits. -/
def significantDigits (n : Numeral) : ℕ := (significant n.digits).length

theorem isDigit_of_mem_digits (n : Numeral) : ∀ c ∈ n.digits, c.isDigit = true :=
  List.forall_mem_append.mpr ⟨n.isDigit_whole, n.isDigit_fraction⟩

/-! ## The text determines the numeral -/

theorem takeWhile_pointed (n : Numeral) :
    (pointed n.whole n.fraction).takeWhile Char.isDigit = n.whole := by
  rw [pointed, List.takeWhile_append_of_pos n.isDigit_whole]
  split
  · simp
  · rw [List.takeWhile_cons_of_neg (by decide), List.append_nil]

theorem tail_dropWhile_pointed (n : Numeral) :
    ((pointed n.whole n.fraction).dropWhile Char.isDigit).tail = n.fraction := by
  rw [pointed, List.dropWhile_append_of_pos n.isDigit_whole]
  split
  · next h => rw [h]; rfl
  · rw [List.dropWhile_cons_of_neg (by decide), List.tail_cons]

/-- Only a negative numeral begins with a hyphen. -/
theorem head?_text (n : Numeral) : n.text.head? = some '-' ↔ n.negative = true := by
  obtain ⟨c, rest, hc⟩ := List.exists_cons_of_ne_nil n.whole_ne_nil
  have hdigit := n.isDigit_whole c (by rw [hc]; exact List.mem_cons_self)
  rw [text, pointed, hc]
  split
  · next h => simp [h]
  · next h =>
    have hne : c ≠ '-' := by
      rintro rfl
      exact absurd hdigit (by decide)
    simp [h, hne]

theorem text_injective : Function.Injective text := by
  intro n m h
  have hsign : n.negative = m.negative := by
    rw [Bool.eq_iff_iff, ← head?_text, ← head?_text, h]
  have hrest : pointed n.whole n.fraction = pointed m.whole m.fraction := by
    rw [text, text, hsign] at h
    exact List.append_cancel_left h
  refine Numeral.ext hsign ?_ ?_
  · rw [← n.takeWhile_pointed, hrest, m.takeWhile_pointed]
  · rw [← n.tail_dropWhile_pointed, hrest, m.tail_dropWhile_pointed]

end Numeral

/-! ## Significant digits -/

/-- The digits after leading zeros. -/
theorem exists_dropWhile_zero (l : List Char) :
    ∃ i, l = List.replicate i '0' ++ l.dropWhile (· == '0') := by
  refine ⟨(l.takeWhile (· == '0')).length, ?_⟩
  have hzeros : l.takeWhile (· == '0') =
      List.replicate (l.takeWhile (· == '0')).length '0' :=
    List.eq_replicate_iff.mpr ⟨rfl, fun c hc =>
      beq_iff_eq.mp (List.all_eq_true.mp List.all_takeWhile c hc)⟩
  rw [← hzeros, List.takeWhile_append_dropWhile]

theorem exists_significant (l : List Char) :
    ∃ i j, l = List.replicate i '0' ++ significant l ++ List.replicate j '0' := by
  obtain ⟨i, hi⟩ := exists_dropWhile_zero l
  obtain ⟨j, hj⟩ := exists_dropWhile_zero (l.dropWhile (· == '0')).reverse
  refine ⟨i, j, ?_⟩
  have hrest := congrArg List.reverse hj
  rw [List.reverse_reverse, List.reverse_append, List.reverse_replicate] at hrest
  rw [significant, List.append_assoc, ← hrest]
  exact hi

theorem dropWhile_zero_append {l : List Char} (hne : l ≠ []) (hhead : l.head? ≠ some '0')
    (i : ℕ) (rest : List Char) :
    (List.replicate i '0' ++ (l ++ rest)).dropWhile (· == '0') = l ++ rest := by
  obtain ⟨c, tail, rfl⟩ := List.exists_cons_of_ne_nil hne
  have hc : ¬ (c == '0') = true := by simpa using hhead
  rw [List.dropWhile_append_of_pos (by simp), List.cons_append,
    List.dropWhile_cons_of_neg (p := fun c => c == '0') hc]

/-- What zeros surround is significant if it neither begins nor ends with one. -/
theorem significant_replicate_append {l : List Char} (hne : l ≠ []) (hhead : l.head? ≠ some '0')
    (hlast : l.getLast? ≠ some '0') (i j : ℕ) :
    significant (List.replicate i '0' ++ l ++ List.replicate j '0') = l := by
  have hreverse := dropWhile_zero_append (l := l.reverse) (by simpa using hne)
    (by simpa using hlast) j []
  rw [significant, List.append_assoc, dropWhile_zero_append hne hhead, List.reverse_append,
    List.reverse_replicate]
  rw [List.append_nil] at hreverse
  rw [hreverse, List.reverse_reverse]

/-! ## Digits of a number -/

theorem digitChar_eq_zero {n : ℕ} (hn : n < 10) (h : n.digitChar = '0') : n = 0 := by
  have hdigit : Nat.ofDigitChars 10 [n.digitChar] 0 = n := by
    rw [← Nat.toDigits_of_lt_base hn, Nat.ofDigitChars_toDigits (by decide) (by decide)]
  rw [h] at hdigit
  exact hdigit.symm

theorem getLast?_digitText {n : ℕ} (h : n % 10 ≠ 0) : (digitText n).getLast? ≠ some '0' := by
  have hlast : (digitText n).getLast? = some (n % 10).digitChar := by
    rw [digitText]
    rcases Nat.lt_or_ge n 10 with hlt | hge
    · rw [Nat.toDigits_of_lt_base hlt, Nat.mod_eq_of_lt hlt, List.getLast?_singleton]
    · rw [Nat.toDigits_of_base_le (by decide) hge, List.getLast?_concat]
  rw [hlast, ne_eq, Option.some.injEq]
  exact fun hzero => h (digitChar_eq_zero (Nat.mod_lt n (by decide)) hzero)

theorem head?_digitText {n : ℕ} (h : 0 < n) : (digitText n).head? ≠ some '0' := by
  induction n using Nat.strong_induction_on with
  | h n ih =>
    rw [digitText]
    rcases Nat.lt_or_ge n 10 with hlt | hge
    · rw [Nat.toDigits_of_lt_base hlt, List.head?_cons, ne_eq, Option.some.injEq]
      exact fun hzero => h.ne' (digitChar_eq_zero hlt hzero)
    · rw [Nat.toDigits_of_base_le (by decide) hge,
        List.head?_append_of_ne_nil _ Nat.toDigits_ne_nil]
      exact ih (n / 10) (by omega) (by omega)

theorem ofDigitChars_digitText (n : ℕ) : Nat.ofDigitChars 10 (digitText n) 0 = n :=
  Nat.ofDigitChars_toDigits (by decide) (by decide)

/-- Leading zeros do not count, and trailing ones are factors of ten. -/
theorem ofDigitChars_replicate_append (i j : ℕ) (l : List Char) :
    Nat.ofDigitChars 10 (List.replicate i '0' ++ l ++ List.replicate j '0') 0 =
      Nat.ofDigitChars 10 l 0 * 10 ^ j := by
  have hleading : Nat.ofDigitChars 10 (List.replicate i '0') 0 = 0 := by
    rw [Nat.ofDigitChars_replicate_zero, Nat.mul_zero]
  rw [Nat.ofDigitChars_append, Nat.ofDigitChars_append, hleading,
    Nat.ofDigitChars_replicate_zero, Nat.mul_comm]

theorem ofDigitChars_lt {l : List Char} (h : ∀ c ∈ l, c.isDigit = true) :
    Nat.ofDigitChars 10 l 0 < 10 ^ l.length := by
  induction l with
  | nil => simp
  | cons c l ih =>
    obtain ⟨hdigit, hrest⟩ := List.forall_mem_cons.mp h
    have hle : c.toNat ≤ '9'.toNat := (Char.isDigit_iff_toNat.mp hdigit).2
    have hc : c.toNat - '0'.toNat ≤ 9 := by
      have : '9'.toNat = '0'.toNat + 9 := rfl
      omega
    have hscaled := Nat.mul_le_mul_left (10 ^ l.length) hc
    have hih := ih hrest
    rw [Nat.ofDigitChars_cons, Nat.mul_zero, Nat.zero_add, Nat.ofDigitChars_eq_ofDigitChars_zero,
      List.length_cons, pow_succ]
    omega

/-! ## Decimals and numerals -/

/-- A numeral is worth a decimal of its significant digits. -/
theorem Numeral.exists_decimal (n : Numeral) :
    ∃ d : Decimal, d.value = n.magnitude ∧ d.digits < 10 ^ n.significantDigits := by
  obtain ⟨i, j, hdigits⟩ := exists_significant n.digits
  have hvalue := ofDigitChars_replicate_append i j (significant n.digits)
  rw [← hdigits] at hvalue
  refine ⟨⟨Nat.ofDigitChars 10 (significant n.digits) 0, j - n.fraction.length⟩, ?_, ?_⟩
  · rw [Decimal.value, magnitude, hvalue, zpow_sub₀ (by norm_num), zpow_natCast, zpow_natCast]
    push_cast
    ring
  · refine ofDigitChars_lt fun c hc => n.isDigit_of_mem_digits c ?_
    rw [hdigits]
    simp [hc]

namespace Decimal

variable {d : Decimal}

/-- The digits with the zeros that positional notation needs on either side. -/
def padded (d : Decimal) : List Char :=
  List.replicate ((-d.exponent).toNat + 1 - (digitText d.digits).length) '0' ++
    digitText d.digits ++ List.replicate d.exponent.toNat '0'

/-- The number of digits before the point. -/
def point (d : Decimal) : ℕ := d.padded.length - (-d.exponent).toNat

/-- Where the point stands: behind all digits, among them, or behind one leading zero. -/
theorem padded_cases (d : Decimal) :
    ((-d.exponent).toNat = 0 ∧
      d.padded = digitText d.digits ++ List.replicate d.exponent.toNat '0' ∧
      d.point = d.padded.length) ∨
    (0 < (-d.exponent).toNat ∧ (-d.exponent).toNat < (digitText d.digits).length ∧
      d.padded = digitText d.digits ∧
      d.point = (digitText d.digits).length - (-d.exponent).toNat) ∨
    ((digitText d.digits).length ≤ (-d.exponent).toNat ∧
      d.padded = '0' ::
        (List.replicate ((-d.exponent).toNat - (digitText d.digits).length) '0' ++
          digitText d.digits) ∧
      d.point = 1) := by
  have hlength : 0 < (digitText d.digits).length :=
    List.length_pos_iff.mpr (digitText_ne_nil d.digits)
  rcases Nat.eq_zero_or_pos (-d.exponent).toNat with hzero | hpos
  · have hleading : (-d.exponent).toNat + 1 - (digitText d.digits).length = 0 := by omega
    refine .inl ⟨hzero, ?_, ?_⟩
    · rw [padded, hleading, List.replicate_zero, List.nil_append]
    · rw [point, hzero, Nat.sub_zero]
  · have htrailing : d.exponent.toNat = 0 := by omega
    rcases Nat.lt_or_ge (-d.exponent).toNat (digitText d.digits).length with hlt | hge
    · have hleading : (-d.exponent).toNat + 1 - (digitText d.digits).length = 0 := by omega
      have hpadded : d.padded = digitText d.digits := by
        rw [padded, hleading, htrailing, List.replicate_zero, List.nil_append, List.append_nil]
      exact .inr (.inl ⟨hpos, hlt, hpadded, by rw [point, hpadded]⟩)
    · have hleading : (-d.exponent).toNat + 1 - (digitText d.digits).length =
          (-d.exponent).toNat - (digitText d.digits).length + 1 := by omega
      have hpadded : d.padded = '0' ::
          (List.replicate ((-d.exponent).toNat - (digitText d.digits).length) '0' ++
            digitText d.digits) := by
        rw [padded, hleading, htrailing, List.replicate_zero, List.append_nil,
          List.replicate_succ, List.cons_append]
      refine .inr (.inr ⟨hge, hpadded, ?_⟩)
      rw [point, hpadded, List.length_cons, List.length_append, List.length_replicate]
      omega

theorem positional_eq (d : Decimal) :
    d.positional = pointed (d.padded.take d.point) (d.padded.drop d.point) := by
  rw [positional, pointed]
  obtain ⟨hzero, hpadded, hpoint⟩ | ⟨hpos, hlt, hpadded, hpoint⟩ | ⟨hge, hpadded, hpoint⟩ :=
    d.padded_cases
  · rw [if_pos hzero, hpoint, List.take_length, List.drop_length, if_pos rfl, List.append_nil,
      hpadded]
  · have hdrop : (digitText d.digits).drop d.point ≠ [] := by
      rw [ne_eq, List.drop_eq_nil_iff, hpoint]
      omega
    rw [if_neg hpos.ne', if_pos hlt, hpadded, if_neg hdrop, hpoint]
  · have hne := digitText_ne_nil d.digits
    have hpos := List.length_pos_iff.mpr hne
    rw [if_neg (by omega), if_neg (by omega), hpadded, hpoint, List.take_succ_cons,
      List.drop_succ_cons, List.take_zero, List.drop_zero, if_neg (by simp [hne]),
      List.singleton_append]

theorem isDigit_of_mem_padded {c : Char} (h : c ∈ d.padded) : c.isDigit = true := by
  rw [padded, List.mem_append, List.mem_append] at h
  rcases h with (h | h) | h
  · rw [List.eq_of_mem_replicate h]
    decide
  · exact isDigit_of_mem_digitText h
  · rw [List.eq_of_mem_replicate h]
    decide

theorem point_pos (d : Decimal) : 0 < d.point := by
  have hpos : 0 < (digitText d.digits).length :=
    List.length_pos_iff.mpr (digitText_ne_nil d.digits)
  obtain ⟨-, hpadded, hpoint⟩ | ⟨-, hlt, -, hpoint⟩ | ⟨-, -, hpoint⟩ := d.padded_cases
  · rw [hpoint, hpadded, List.length_append]
    omega
  · omega
  · omega

theorem padded_ne_nil (d : Decimal) : d.padded ≠ [] := by
  simp [padded, digitText_ne_nil]

/-- A zero in front of the point is there only because some digit has to be. -/
theorem no_leading_zero (h : 0 < d.digits) (hzero : (d.padded.take d.point).head? = some '0') :
    d.padded.take d.point = ['0'] := by
  rw [List.head?_take, if_neg d.point_pos.ne'] at hzero
  obtain ⟨-, hpadded, -⟩ | ⟨-, -, hpadded, -⟩ | ⟨-, hpadded, hpoint⟩ := d.padded_cases
  · rw [hpadded, List.head?_append_of_ne_nil _ (digitText_ne_nil _)] at hzero
    exact absurd hzero (head?_digitText h)
  · rw [hpadded] at hzero
    exact absurd hzero (head?_digitText h)
  · rw [hpadded, hpoint, List.take_succ_cons, List.take_zero]

theorem no_trailing_zero (h : d.digits % 10 ≠ 0) :
    (d.padded.drop d.point).getLast? ≠ some '0' := by
  have hlast := getLast?_digitText h
  obtain ⟨-, -, hpoint⟩ | ⟨hpos, hlt, hpadded, hpoint⟩ | ⟨-, hpadded, hpoint⟩ := d.padded_cases
  · rw [hpoint, List.drop_length]
    simp
  · rw [hpadded, List.getLast?_drop, if_neg (by omega)]
    exact hlast
  · rw [hpadded, hpoint, List.drop_succ_cons, List.drop_zero,
      List.getLast?_append_of_ne_nil _ (digitText_ne_nil _)]
    exact hlast

/-- The numeral of a decimal that ends in no zero. -/
def numeral (negative : Bool) (d : Decimal) (h : d.digits % 10 ≠ 0) : Numeral where
  negative := negative
  whole := d.padded.take d.point
  fraction := d.padded.drop d.point
  isDigit_whole _ hc := isDigit_of_mem_padded (List.mem_of_mem_take hc)
  isDigit_fraction _ hc := isDigit_of_mem_padded (List.mem_of_mem_drop hc)
  whole_ne_nil := by simp [d.padded_ne_nil, d.point_pos.ne']
  no_leading_zero := d.no_leading_zero (by omega)
  no_trailing_zero := d.no_trailing_zero h

variable {negative : Bool} (h : d.digits % 10 ≠ 0)

theorem text_numeral :
    (d.numeral negative h).text = (if negative then ['-'] else []) ++ d.positional := by
  rw [positional_eq]
  rfl

theorem digits_numeral : (d.numeral negative h).digits = d.padded :=
  List.take_append_drop _ _

theorem magnitude_numeral : (d.numeral negative h).magnitude = d.value := by
  have hfraction : (d.numeral negative h).fraction.length = (-d.exponent).toNat := by
    show (d.padded.drop d.point).length = _
    rw [List.length_drop, point, padded]
    simp
    omega
  rw [Numeral.magnitude, hfraction, digits_numeral, padded, ofDigitChars_replicate_append,
    ofDigitChars_digitText, Decimal.value, ← pow_toNat_div]
  push_cast
  ring

theorem significantDigits_numeral :
    (d.numeral negative h).significantDigits = digitCount d.digits := by
  rw [Numeral.significantDigits, digits_numeral, padded,
    significant_replicate_append (digitText_ne_nil _) (head?_digitText (by omega))
      (getLast?_digitText h)]
  rfl

end Decimal
end Numeric
end StyleSheet
