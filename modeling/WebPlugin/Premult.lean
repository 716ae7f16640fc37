/-
# Premultiplied pixels

`ChannelwiseMultiply` scales the four channels of a pixel at once
(`channelwiseMultiply_eq`). No sum of `BlendPixelPremult` then leaves its byte
as long as the pixel blended is premultiplied, so both row functions make the
same alpha (`BlendRowFunc.alpha_blend_of_legal`).
-/
import WebPlugin.Blend

namespace WebPlugin

/-! ### Channels under a mask -/

theorem and_shiftLeft_mask (x m k : ℕ) : x &&& m <<< k = (x >>> k &&& m) <<< k := by
  apply Nat.eq_of_testBit_eq
  intro i
  rw [Nat.testBit_and, Nat.testBit_shiftLeft, Nat.testBit_shiftLeft, Nat.testBit_and, Nat.testBit_shiftRight]
  by_cases hi : k ≤ i
  · rw [Nat.add_sub_cancel' hi]
    simp [hi]
  · simp [hi]

/-- The two bytes that a mask of `ChannelwiseMultiply` keeps. -/
theorem and_mask (x : ℕ) : x &&& 0x00ff00ff = x % 256 + x / 65536 % 256 * 65536 := by
  have hm : (0x00ff00ff : ℕ) = 0xff ||| 0xff <<< 16 := by decide
  have hb : ∀ y : ℕ, y &&& 0xff = y % 256 := fun y => Nat.and_two_pow_sub_one_eq_mod y 8
  rw [hm, Nat.and_or_distrib_left, and_shiftLeft_mask, hb, hb, Nat.or_comm,
    ← Nat.shiftLeft_add_eq_or_of_lt (by omega), Nat.shiftLeft_eq, Nat.shiftRight_eq_div_pow]
  omega

theorem and_mask_high (x : ℕ) : x &&& 0xff00ff00 = x / 256 % 256 * 256 + x / 16777216 % 256 * 16777216 := by
  rw [show (0xff00ff00 : ℕ) = 0x00ff00ff <<< 8 by decide, and_shiftLeft_mask, and_mask, Nat.shiftLeft_eq,
    Nat.shiftRight_eq_div_pow, Nat.div_div_eq_div_mul]
  omega

theorem channel_zero (pix : ℕ) : channel pix 0 = pix % 256 := by
  rw [channel_eq, pow_zero, Nat.div_one]

theorem channel_one (pix : ℕ) : channel pix 1 = pix / 256 % 256 := by
  rw [channel_eq, pow_one]

theorem channel_two (pix : ℕ) : channel pix 2 = pix / 65536 % 256 := channel_eq pix 2

theorem channel_three (pix : ℕ) : channel pix 3 = pix / 16777216 % 256 := channel_eq pix 3

/-- Two and two bytes put together. -/
theorem join_apart {b g r a : ℕ} (hb : b < 256) (hg : g < 256) (hr : r < 256) :
    b + r * 65536 ||| (g * 256 + a * 16777216) = b + g * 256 + r * 65536 + a * 16777216 := by
  have h02 := @join_eq b 0 r 0 hb (by norm_num) hr
  have h13 := @join_eq 0 g 0 a (by norm_num) hg (by norm_num)
  simp only [Nat.zero_shiftLeft, Nat.or_zero, Nat.zero_or, Nat.zero_mul, Nat.add_zero, Nat.zero_add] at h02 h13
  calc b + r * 65536 ||| (g * 256 + a * 16777216)
      = (b ||| r <<< 16) ||| (g <<< 8 ||| a <<< 24) := by rw [h02, h13]
    _ = b ||| g <<< 8 ||| r <<< 16 ||| a <<< 24 := by
      rw [Nat.or_assoc, ← Nat.or_assoc (r <<< 16), Nat.or_comm (r <<< 16), Nat.or_assoc, ← Nat.or_assoc b,
        ← Nat.or_assoc]
    _ = b + g * 256 + r * 65536 + a * 16777216 := join_eq hb hg hr

/-- The two channels under the mask are multiplied apart. -/
theorem masked_mul {p q scale : ℕ} (hp : p < 256) (hq : q < 256) (hs : scale ≤ 256) :
    ((p + q * 65536) * scale % 2 ^ 32) / 256 % 256 = p * scale / 256 ∧
      ((p + q * 65536) * scale % 2 ^ 32) / 16777216 % 256 = q * scale / 256 := by
  have h1 : p * scale ≤ 255 * 256 := Nat.mul_le_mul (by omega) hs
  have h2 : q * scale ≤ 255 * 256 := Nat.mul_le_mul (by omega) hs
  rw [Nat.add_mul, Nat.mul_right_comm q]
  omega

/-- The four channels are multiplied one by one. -/
theorem channelwiseMultiply_eq {scale : ℕ} (pix : ℕ) (hs : scale ≤ 256) :
    channelwiseMultiply pix scale = channel pix 0 * scale / 256 + channel pix 1 * scale / 256 * 256 +
      channel pix 2 * scale / 256 * 65536 + channel pix 3 * scale / 256 * 16777216 := by
  obtain ⟨e0, e2⟩ := masked_mul (channel_lt pix 0) (channel_lt pix 2) hs
  obtain ⟨e1, e3⟩ := masked_mul (channel_lt pix 1) (channel_lt pix 3) hs
  have hlt : ∀ i, channel pix i * scale / 256 < 256 := fun i => by
    have : channel pix i * scale ≤ 255 * 256 := Nat.mul_le_mul (Nat.le_of_lt_succ (channel_lt pix i)) hs
    omega
  have hrb : pix &&& 0x00ff00ff = channel pix 0 + channel pix 2 * 65536 := by
    rw [and_mask, channel_zero, channel_two]
  have hag : pix >>> 8 &&& 0x00ff00ff = channel pix 1 + channel pix 3 * 65536 := by
    rw [and_mask, channel_one, channel_three, Nat.shiftRight_eq_div_pow, Nat.div_div_eq_div_mul]
  rw [channelwiseMultiply, hrb, hag, and_mask, and_mask_high, Nat.shiftRight_eq_div_pow, Nat.div_div_eq_div_mul]
  rw [e0, e1, e2, e3]
  exact join_apart (hlt 0) (hlt 1) (hlt 2)

/-! ### Premultiplied pixels -/

theorem alpha_zero : alpha 0 = 0 := rfl

/-- Over a transparent pixel the alpha stays. -/
theorem blendAlpha_zero_right {srcA : ℕ} : blendAlpha srcA 0 = srcA := by
  rw [blendAlpha, Nat.zero_mul]
  rfl

/-- No color is above the alpha. -/
def Premultiplied (pix : ℕ) : Prop := ∀ i < 3, channel pix i ≤ alpha pix

/-- A pixel as the row function takes them. -/
def BlendRowFunc.Legal (f : BlendRowFunc) (pix : ℕ) : Prop := f = .premult → Premultiplied pix

theorem channel_sum {c : ℕ → ℕ} (h : ∀ i < 4, c i < 256) (i : ℕ) (hi : i < 4) :
    channel (c 0 + c 1 * 256 + c 2 * 65536 + c 3 * 16777216) i = c i := by
  have h0 := h 0 (by norm_num); have h1 := h 1 (by norm_num)
  have h2 := h 2 (by norm_num); have h3 := h 3 (by norm_num)
  rw [channel_eq]
  interval_cases i <;> omega

/-- Blending premultiplied pixels keeps to the bytes. -/
theorem channel_blendPixelPremult {src dst : ℕ} (hs : src < 4294967296)
    (ps : Premultiplied src) :
    (∀ i < 4, channel (blendPixelPremult src dst) i = channel src i + channel dst i * (256 - alpha src) / 256) ∧
      blendPixelPremult src dst < 4294967296 := by
  have ha := alpha_lt src
  have hd' := alpha_lt dst
  have hle : ∀ i < 4, channel src i + channel dst i * (256 - alpha src) / 256 < 256 := by
    intro i hi
    have h1 : channel src i ≤ alpha src := by
      by_cases h3 : i = 3
      · rw [h3, alpha]
      · exact ps i (by omega)
    have h2 : channel dst i * (256 - alpha src) ≤ 255 * (256 - alpha src) :=
      Nat.mul_le_mul_right _ (by have := channel_lt dst i; omega)
    omega
  have hsrc : src = channel src 0 + channel src 1 * 256 + channel src 2 * 65536 + channel src 3 * 16777216 := by
    simp only [channel_eq]
    omega
  have heq : blendPixelPremult src dst = (channel src 0 + channel dst 0 * (256 - alpha src) / 256) +
      (channel src 1 + channel dst 1 * (256 - alpha src) / 256) * 256 +
      (channel src 2 + channel dst 2 * (256 - alpha src) / 256) * 65536 +
      (channel src 3 + channel dst 3 * (256 - alpha src) / 256) * 16777216 := by
    rw [blendPixelPremult, channelwiseMultiply_eq dst (by omega)]
    have h0 := hle 0 (by norm_num); have h1 := hle 1 (by norm_num)
    have h2 := hle 2 (by norm_num); have h3 := hle 3 (by norm_num)
    generalize channel dst 0 * (256 - alpha src) / 256 = q0 at *
    generalize channel dst 1 * (256 - alpha src) / 256 = q1 at *
    generalize channel dst 2 * (256 - alpha src) / 256 = q2 at *
    generalize channel dst 3 * (256 - alpha src) / 256 = q3 at *
    omega
  rw [heq]
  refine ⟨fun i hi => channel_sum (c := fun i => channel src i + channel dst i * (256 - alpha src) / 256) hle i hi,
    ?_⟩
  have h0 := hle 0 (by norm_num); have h1 := hle 1 (by norm_num)
  have h2 := hle 2 (by norm_num); have h3 := hle 3 (by norm_num)
  omega

namespace BlendRowFunc

variable {f : BlendRowFunc} {src dst : ℕ}

/-- The alpha of a blended pixel, with either row function. -/
theorem alpha_blend_of_legal (hs : src < 4294967296) (hd : dst < 4294967296) (ls : f.Legal src) :
    alpha (f.blend src dst) = blendAlpha (alpha src) (alpha dst) := by
  cases f with
  | nonPremult => exact alpha_blend hd
  | premult =>
    by_cases ha : alpha src = 0xff
    · rw [blend_of_full _ ha, ha, blendAlpha_opaque (alpha_lt dst)]
    · rw [blend, if_pos ha, pixel, alpha,
        (@channel_blendPixelPremult src dst hs (ls rfl)).1 3 (by norm_num), blendAlpha,
        Nat.shiftRight_eq_div_pow]
      rfl

theorem legal_blend (hs : src < 4294967296) (ls : f.Legal src) (ld : f.Legal dst) :
    f.Legal (f.blend src dst) := by
  rintro rfl
  by_cases ha : alpha src = 0xff
  · rw [blend_of_full _ ha]
    exact ls rfl
  · obtain ⟨hc, -⟩ := @channel_blendPixelPremult src dst hs (ls rfl)
    rw [blend, if_pos ha, pixel]
    intro i hi
    rw [alpha, hc 3 (by norm_num), hc i (by omega)]
    have h1 : channel src i ≤ channel src 3 := ls rfl i hi
    have h2 : channel dst i * (256 - alpha src) ≤ channel dst 3 * (256 - alpha src) :=
      Nat.mul_le_mul_right _ (ld rfl i hi)
    omega

theorem legal_zero : f.Legal 0 := fun _ i _ => by simp [alpha, channel]

end BlendRowFunc

end WebPlugin
