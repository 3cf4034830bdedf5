import StyleSheet.Proofs.Numeric.Value
import StyleSheet.Value.Color

/-!
# The channels of a color

A channel is multiplied by 255, and the product is rounded twice, to a number and then to a
whole number.  Both roundings are monotone, and so a larger channel is not written smaller
(`Color.channel_le_channel`).  For a channel between zero and one the product is below 256,
where the numbers are at most `2 ^ (-16)` apart, so that the first rounding adds `2 ^ (-17)` to
the half of the second (`Color.abs_channel_sub_le`).

The alpha channel is left out if its rounded distance from one is less than a hundred-thousandth,
rounded too (`Color.text_eq_rgbText_iff`).
-/

namespace StyleSheet

open Numeric

namespace Color

variable {x y : Single} {c : Color}

/-! ## From a channel to a whole number -/

theorem channel_of_isNaN (h : x.isNaN = true) : channel x = 0 := by
  rw [channel, h, Bool.true_or, if_pos rfl]

theorem channel_of_negative (h : x.negative = true) : channel x = 0 := by
  rw [channel, h, Bool.or_true, if_pos rfl]

/-- The rounded product is rounded to a whole number, and cut off at 255. -/
theorem exists_channel_eq_min (hnan : x.isNaN = false) (hsign : x.negative = false) :
    ∃ n, IsNearest (fun n : ℕ => (n : ℚ)) Set.univ (binary32.value (x.scale 255)) n ∧
      channel x = min n 255 := by
  refine ⟨_, isNearest_roundHalfEven _ (Ratio.den_scaleTwo_pos _ _), ?_⟩
  rw [channel, hnan, hsign]
  rfl

theorem channel_le_of_positive (hx : x.isNaN = false) (hy : y.isNaN = false)
    (hxs : x.negative = false) (hys : y.negative = false) (h : x.value ≤ y.value) :
    channel x ≤ channel y := by
  obtain ⟨n, hn, hxn⟩ := exists_channel_eq_min hx hxs
  obtain ⟨m, hm, hym⟩ := exists_channel_eq_min hy hys
  rw [Single.value_of_positive hxs, Single.value_of_positive hys] at h
  have hscale : x.scale 255 ≤ y.scale 255 :=
    (x.roundsTo_scale 255).mono (y.roundsTo_scale 255) (by gcongr)
  have hnm : n ≤ m := hn.mono strictMono_natCast Set.ordConnected_univ hm
    (binary32.strictMono_value.monotone hscale)
  omega

theorem value_zero : Single.zero.value = 0 := by
  rw [Single.value_of_positive rfl]
  exact Format.value_zero _

theorem value_one : Single.one.value = 1 := by
  have hdecode : binary32.decode Single.one.magnitude = (8388608, -23) := by decide +kernel
  rw [Single.value_of_positive rfl, Format.value_eq_decode, hdecode]
  norm_num

theorem channel_zero : channel .zero = 0 := by decide +kernel

theorem channel_one : channel .one = 255 := by decide +kernel

/-- A larger channel is not written smaller. -/
theorem channel_le_channel (hx : x.isNaN = false) (hy : y.isNaN = false)
    (h : x.value ≤ y.value) : channel x ≤ channel y := by
  cases hxs : x.negative with
  | true =>
    rw [channel_of_negative hxs]
    exact Nat.zero_le _
  | false =>
    cases hys : y.negative with
    | true =>
      -- both are zero, the one without its sign
      have hzero : x.value ≤ Single.zero.value := by
        rw [value_zero]
        exact h.trans (Single.value_nonpos hys)
      have hle := channel_le_of_positive hx rfl hxs rfl hzero
      rw [channel_zero] at hle
      exact hle.trans (Nat.zero_le _)
    | false => exact channel_le_of_positive hx hy hxs hys h

theorem channel_of_nonpos (hx : x.isNaN = false) (h : x.value ≤ 0) : channel x = 0 := by
  have hle := channel_le_channel hx (y := .zero) rfl (by rwa [value_zero])
  rwa [channel_zero, Nat.le_zero] at hle

theorem channel_of_one_le (hx : x.isNaN = false) (h : 1 ≤ x.value) : channel x = 255 := by
  have hle := channel_le_channel (x := .one) rfl hx (by rwa [value_one])
  rw [channel_one] at hle
  exact le_antisymm (channel_le x) hle

/-- Up to 255, numbers are at most `2 ^ (-16)` apart. -/
theorem abs_sub_scale_le (x : Single) (h : binary32.value x.magnitude ≤ 1) :
    |255 * binary32.value x.magnitude - binary32.value (x.scale 255)| ≤ 2 ^ (-17 : ℤ) := by
  have hbinade : (2 : ℚ) * binary32.hidden * 2 ^ (binary32.quantum + (133 : ℕ)) = 256 := by
    have hhidden : binary32.hidden = 8388608 := rfl
    have hquantum : binary32.quantum = -149 := rfl
    rw [hhidden, hquantum]
    norm_num
  have hclose := Format.abs_sub_round_le (f := binary32) (k := 133)
    (r := ⟨x.ratio.num * 255, x.ratio.den⟩) two_le_precision x.den_ratio_pos
    (by rw [hbinade, Single.value_product]; push_cast; linarith) (by decide)
  rw [Single.value_product] at hclose
  refine hclose.trans (le_of_eq ?_)
  have hquantum : binary32.quantum = -149 := rfl
  rw [hquantum]
  norm_num

theorem scale_le (x : Single) (h : binary32.value x.magnitude ≤ 1) :
    binary32.value (x.scale 255) ≤ 255 := by
  have hdecode : binary32.decode 0x437F0000 = (16711680, -16) := by decide +kernel
  have hvalue : binary32.value 0x437F0000 = 255 := by
    rw [Format.value_eq_decode, hdecode]
    norm_num
  have hexact : binary32.RoundsTo 255 0x437F0000 := by
    rw [← hvalue]
    exact Format.roundsTo_value (by decide)
  have hle := (x.roundsTo_scale 255).mono hexact (by push_cast; linarith)
  rw [← hvalue]
  exact binary32.strictMono_value.monotone hle

/-- Between zero and one, a channel is written with an error of a half and a little. -/
theorem abs_channel_sub_le (hx : x.isNaN = false) (hlow : 0 ≤ x.value) (hhigh : x.value ≤ 1) :
    |(channel x : ℚ) - 255 * x.value| ≤ 1 / 2 + 2 ^ (-17 : ℤ) := by
  cases hsign : x.negative with
  | true =>
    have hzero : x.value = 0 := le_antisymm (Single.value_nonpos hsign) hlow
    rw [channel_of_negative hsign, hzero]
    norm_num
  | false =>
    obtain ⟨n, hn, hchannel⟩ := exists_channel_eq_min hx hsign
    rw [Single.value_of_positive hsign] at hhigh ⊢
    have htop : n ≤ 255 :=
      hn.mono strictMono_natCast Set.ordConnected_univ
        (isNearest_self (n := 255) strictMono_natCast trivial) (scale_le x hhigh)
    have hwhole : |binary32.value (x.scale 255) - n| ≤ 1 / 2 :=
      hn.abs_sub_le_half (Ratio.value_nonneg _)
    have hproduct := abs_sub_scale_le x hhigh
    rw [hchannel, min_eq_left htop, abs_sub_comm]
    calc |255 * binary32.value x.magnitude - n|
        ≤ |255 * binary32.value x.magnitude - binary32.value (x.scale 255)| +
          |binary32.value (x.scale 255) - n| := abs_sub_le _ _ _
      _ ≤ 2 ^ (-17 : ℤ) + 1 / 2 := add_le_add hproduct hwhole
      _ = 1 / 2 + 2 ^ (-17 : ℤ) := add_comm _ _

/-! ## The two notations -/

/-- The notation without an alpha channel. -/
def rgbText (c : Color) : String :=
  "rgb(" ++ Nat.repr (channel c.red) ++ ", " ++ Nat.repr (channel c.green) ++ ", " ++
    Nat.repr (channel c.blue) ++ ")"

/-- The notation with an alpha channel. -/
def rgbaText (c : Color) : String :=
  "rgba(" ++ Nat.repr (channel c.red) ++ ", " ++ Nat.repr (channel c.green) ++ ", " ++
    Nat.repr (channel c.blue) ++ ", " ++ c.alpha.text ++ ")"

/-- The three channels are written in the order red, green, blue. -/
theorem text_of_isOpaque (h : c.isOpaque = true) : c.text = c.rgbText := by
  rw [text, if_pos h, channelText, rgbText]
  simp only [String.append_assoc]

theorem text_of_not_isOpaque (h : ¬ c.isOpaque = true) : c.text = c.rgbaText := by
  rw [text, if_neg h, channelText, rgbaText]
  simp only [String.append_assoc]

theorem rgbaText_ne_rgbText (c : Color) : c.rgbaText ≠ c.rgbText := by
  intro h
  have hlist := congrArg String.toList h
  simp [rgbaText, rgbText] at hlist

theorem text_eq_rgbText_iff_isOpaque : c.text = c.rgbText ↔ c.isOpaque = true := by
  refine ⟨fun htext => ?_, text_of_isOpaque⟩
  by_contra h
  exact c.rgbaText_ne_rgbText ((text_of_not_isOpaque h).symm.trans htext)

theorem text_of_not_rgbText (h : c.text ≠ c.rgbText) : c.text = c.rgbaText := by
  rw [ne_eq, text_eq_rgbText_iff_isOpaque] at h
  exact text_of_not_isOpaque h

theorem text_eq_rgbText_iff :
    c.text = c.rgbText ↔ c.alpha.isFinite = true ∧ c.alpha.distanceToOne < opaqueMargin := by
  rw [text_eq_rgbText_iff_isOpaque, isOpaque, Bool.and_eq_true, decide_eq_true_iff]

/-- A hundred-thousandth, rounded. -/
theorem roundsTo_opaqueMargin : binary32.RoundsTo (1 / 100000) opaqueMargin := by
  have hvalue : (Ratio.mk 1 100000).value = 1 / 100000 := by
    rw [Ratio.value]
    norm_num
  rw [← hvalue]
  exact Format.roundsTo_round two_le_precision (by decide)

/-- The alpha channel is left out if the rounded difference to one is less than the rounded
margin. -/
theorem exists_isRounded_difference (c : Color) :
    ∃ d ε : Single, d.IsRounded (c.alpha.value - 1) ∧ ε.IsRounded (1 / 100000) ∧
      (c.text = c.rgbText ↔ c.alpha.isFinite = true ∧ |d.value| < ε.value) := by
  have hmargin : binary32.RoundsTo |1 / 100000| opaqueMargin := by
    rw [abs_of_pos (by norm_num)]
    exact roundsTo_opaqueMargin
  obtain ⟨d, hd, hdistance⟩ := Single.exists_isRounded c.alpha.roundsTo_distanceToOne
  obtain ⟨ε, hε, hbits⟩ := Single.exists_isRounded hmargin
  refine ⟨d, ε, hd, hε, ?_⟩
  have hpositive : ε.negative = false := by
    rw [Bool.eq_false_iff, ne_eq, hε.negative]
    norm_num
  rw [text_eq_rgbText_iff, Single.abs_value, Single.value_of_positive hpositive, hdistance, hbits,
    binary32.strictMono_value.lt_iff_lt]

/-- A ten-thousandth away from one, the alpha channel is not left out. -/
theorem text_of_far (h : 1 / 10000 ≤ |c.alpha.value - 1|) : c.text = c.rgbaText := by
  refine text_of_not_rgbText fun htext => ?_
  have hvalue : (Ratio.mk 1 10000).value = 1 / 10000 := by
    rw [Ratio.value]
    norm_num
  have hround := Format.roundsTo_round (r := ⟨1, 10000⟩) two_le_precision (by decide)
  rw [hvalue] at hround
  have hfar := hround.mono c.alpha.roundsTo_distanceToOne h
  have hmargin : opaqueMargin < binary32.round ⟨1, 10000⟩ := by decide +kernel
  exact absurd (text_eq_rgbText_iff.mp htext).2 (by omega)

theorem text_of_extended_far
    (h : c.alpha.extended < toExtended (9999 / 10000) ∨
      toExtended (10001 / 10000) < c.alpha.extended) : c.text = c.rgbaText := by
  cases hfinite : c.alpha.isFinite with
  | true =>
    rw [Single.extended_of_isFinite hfinite, toExtended_lt_iff, toExtended_lt_iff] at h
    refine text_of_far (le_abs.mpr ?_)
    rcases h with hbelow | habove
    · exact .inr (by linarith)
    · exact .inl (by linarith)
  | false =>
    refine text_of_not_rgbText fun htext => ?_
    rw [(text_eq_rgbText_iff.mp htext).1] at hfinite
    cases hfinite

/-- Quantization of colors.  A channel is written as a whole number up to 255, in the order of
the channels, and between zero and one it is at most a half and `2 ^ (-17)` off.  The alpha
channel is left out exactly if its rounded difference to one is less than a hundred-thousandth;
otherwise a finite one can be read from its numeral.  What is not within a ten-thousandth of one
is never left out. -/
theorem text_quantized :
    (∀ x : Single, channel x ≤ 255 ∧ (x.isNaN = true → channel x = 0)) ∧
    (∀ x y : Single, x.isNaN = false → y.isNaN = false → x.extended ≤ y.extended →
      channel x ≤ channel y) ∧
    (∀ x : Single, x.isNaN = false →
      (x.extended ≤ toExtended 0 → channel x = 0) ∧
      (toExtended 1 ≤ x.extended → channel x = 255)) ∧
    (∀ x : Single, x.isFinite = true → 0 ≤ x.value → x.value ≤ 1 →
      |(channel x : ℚ) - 255 * x.value| ≤ 1 / 2 + 2 ^ (-17 : ℤ)) ∧
    ∀ c : Color,
      (∃ d ε : Single, d.IsRounded (c.alpha.value - 1) ∧ ε.IsRounded (1 / 100000) ∧
        (c.text = c.rgbText ↔ c.alpha.isFinite = true ∧ |d.value| < ε.value)) ∧
      (c.text ≠ c.rgbText → c.text = c.rgbaText) ∧
      (c.alpha.isFinite = true →
        ∃ n : Numeral, c.alpha.text = String.ofList n.text ∧ ∀ y, n.ReadsAs y ↔ y = c.alpha) ∧
      (c.alpha.extended < toExtended (9999 / 10000) ∨
        toExtended (10001 / 10000) < c.alpha.extended → c.text = c.rgbaText) := by
  have hzero : Single.zero.extended = toExtended 0 := by
    rw [Single.extended_of_isFinite rfl, value_zero]
  have hone : Single.one.extended = toExtended 1 := by
    rw [Single.extended_of_isFinite rfl, value_one]
  refine ⟨fun x => ⟨channel_le x, channel_of_isNaN⟩, fun x y hx hy h => ?_, fun x hx => ⟨?_, ?_⟩,
    fun x hx => ?_, fun c => ⟨c.exists_isRounded_difference, text_of_not_rgbText, ?_,
      text_of_extended_far⟩⟩
  · exact channel_le_channel hx hy (Single.value_le_of_extended_le hx hy h)
  · intro h
    rw [← hzero] at h
    have hle := Single.value_le_of_extended_le hx rfl h
    exact channel_of_nonpos hx (hle.trans_eq value_zero)
  · intro h
    rw [← hone] at h
    have hle := Single.value_le_of_extended_le rfl hx h
    exact channel_of_one_le hx (value_one.symm.trans_le hle)
  · exact abs_channel_sub_le (Single.isNaN_of_isFinite hx)
  · intro hfinite
    obtain ⟨n, htext, hn⟩ := Single.exists_numeral hfinite
    exact ⟨n, by rw [Single.text, htext], hn.readsAs_iff⟩

/-- One half as a channel and as alpha. -/
theorem text_quantized_half :
    (Color.mk ⟨0x3F000000⟩ .zero .one ⟨0x3F000000⟩).text =
        (Color.mk ⟨0x3F000000⟩ .zero .one ⟨0x3F000000⟩).rgbaText ∧
      channel ⟨0x3F000000⟩ ≤ channel .one ∧
      |(channel ⟨0x3F000000⟩ : ℚ) - 255 * Single.value ⟨0x3F000000⟩| ≤
        1 / 2 + 2 ^ (-17 : ℤ) := by
  have hdecode : binary32.decode (Single.magnitude ⟨0x3F000000⟩) = (8388608, -24) := by
    decide +kernel
  have hvalue : Single.value ⟨0x3F000000⟩ = 1 / 2 := by
    rw [Single.value_of_positive rfl, Format.value_eq_decode, hdecode]
    norm_num
  have hextended : Single.extended ⟨0x3F000000⟩ = toExtended (1 / 2) := by
    rw [Single.extended_of_isFinite rfl, hvalue]
  obtain ⟨-, hmono, -, herror, htext⟩ := text_quantized
  refine ⟨(htext _).2.2.2 (.inl ?_), hmono _ _ rfl rfl ?_, herror _ rfl ?_ ?_⟩
  · rw [hextended, toExtended_lt_iff]
    norm_num
  · rw [hextended, Single.extended_of_isFinite rfl, value_one, toExtended_le_iff]
    norm_num
  · rw [hvalue]
    norm_num
  · rw [hvalue]
    norm_num

example : (Color.mk ⟨0x3F000000⟩ .zero .one ⟨0x3F000000⟩).text = "rgba(128, 0, 255, 0.5)" := by
  decide +kernel

end Color
end StyleSheet
