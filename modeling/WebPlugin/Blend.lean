/-
# Blending pixels

The blend functions of `src/codec/libwebp/src/demux/anim_decode.c`. A pixel is
a 32-bit word with its alpha in the top byte. Blending gives the pixel the
alpha `blendAlpha`, which stays a byte, and never touches an opaque pixel.
-/
import WebPlugin.Memory

namespace WebPlugin

open Memory

/-- The byte of a pixel at `CHANNEL_SHIFT(i)`. -/
def channel (pix i : ℕ) : ℕ := (pix >>> (8 * i)) &&& 0xff

/-- The alpha of a pixel. -/
def alpha (pix : ℕ) : ℕ := channel pix 3

/-- The alpha of `src` blended over `dst`. -/
def blendAlpha (srcA dstA : ℕ) : ℕ := srcA + (dstA * (256 - srcA)) >>> 8

/-- `BlendChannelNonPremult`. -/
def blendChannelNonPremult (src srcA dst dstA scale i : ℕ) : ℕ :=
  let blendUnscaled := (channel src i * srcA + channel dst i * dstA) % 2 ^ 32
  ((blendUnscaled * scale % 2 ^ 32) >>> 24) % 2 ^ 8

/-- `BlendPixelNonPremult`. -/
def blendPixelNonPremult (src dst : ℕ) : ℕ :=
  let srcA := alpha src
  if srcA = 0 then dst
  else
    let dstFactorA := ((alpha dst * (256 - srcA)) >>> 8) % 2 ^ 8
    let blendA := (srcA + dstFactorA) % 2 ^ 8
    let scale := 2 ^ 24 / blendA
    let blend := blendChannelNonPremult src srcA dst dstFactorA scale
    blend 0 ||| blend 1 <<< 8 ||| blend 2 <<< 16 ||| blendA <<< 24

/-- `ChannelwiseMultiply`. -/
def channelwiseMultiply (pix scale : ℕ) : ℕ :=
  let mask := 0x00ff00ff
  let rb := ((pix &&& mask) * scale % 2 ^ 32) >>> 8
  let ag := ((pix >>> 8) &&& mask) * scale % 2 ^ 32
  (rb &&& mask) ||| (ag &&& 0xff00ff00)

/-- `BlendPixelPremult`. -/
def blendPixelPremult (src dst : ℕ) : ℕ :=
  (src + channelwiseMultiply dst (256 - alpha src)) % 2 ^ 32

/-- `BlendRowFunc`: which of the two row functions was chosen. -/
inductive BlendRowFunc
  | nonPremult | premult
  deriving DecidableEq, Repr

/-- The pixel function of a row function. -/
def BlendRowFunc.pixel : BlendRowFunc → ℕ → ℕ → ℕ
  | .nonPremult => blendPixelNonPremult
  | .premult => blendPixelPremult

/-- What a row function makes of one pixel: an opaque one stays. -/
def BlendRowFunc.blend (f : BlendRowFunc) (src dst : ℕ) : ℕ :=
  if alpha src ≠ 0xff then f.pixel src dst else src

/-- `BlendPixelRowNonPremult` and `BlendPixelRowPremult`: blend the pixels
from `offset` on in `src` over those in `dst`. -/
def blendPixelRow (f : BlendRowFunc) (src dst : Buf) (offset : ℕ) : ℕ → Buf
  | 0 => src
  | n + 1 =>
    let src := blendPixelRow f src dst offset n
    let i := 4 * (offset + n)
    if alpha (src.load32 i) ≠ 0xff then
      src.store32 i (f.pixel (src.load32 i) (dst.load32 i))
    else src

/-! ### Pixels -/

theorem channel_eq (pix i : ℕ) : channel pix i = pix / 256 ^ i % 256 := by
  rw [channel, show (0xff : ℕ) = 2 ^ 8 - 1 from rfl, Nat.and_two_pow_sub_one_eq_mod,
    Nat.shiftRight_eq_div_pow, pow_mul]
  norm_num

theorem channel_lt (pix i : ℕ) : channel pix i < 256 := by
  rw [channel_eq]
  exact Nat.mod_lt _ (by norm_num)

theorem alpha_eq {pix : ℕ} (h : pix < 4294967296) : alpha pix = pix / 16777216 := by
  rw [alpha, channel_eq]
  omega

theorem alpha_lt (pix : ℕ) : alpha pix < 256 := channel_lt pix 3

/-- Blending stays within a byte. -/
theorem blendAlpha_lt {srcA dstA : ℕ} (hs : srcA < 256) (hd : dstA < 256) :
    blendAlpha srcA dstA < 256 := by
  rw [blendAlpha, Nat.shiftRight_eq_div_pow]
  have h : dstA * (256 - srcA) ≤ 255 * (256 - srcA) := Nat.mul_le_mul_right _ (by omega)
  omega

@[simp] theorem blendAlpha_zero {dstA : ℕ} : blendAlpha 0 dstA = dstA := by
  rw [blendAlpha, Nat.shiftRight_eq_div_pow]
  omega

theorem blendAlpha_opaque {dstA : ℕ} (hd : dstA < 256) : blendAlpha 255 dstA = 255 := by
  rw [blendAlpha, Nat.shiftRight_eq_div_pow]
  omega

/-- Four bytes put together are read back from the top one. -/
theorem join_eq {b g r a : ℕ} (hb : b < 256) (hg : g < 256) (hr : r < 256) :
    b ||| g <<< 8 ||| r <<< 16 ||| a <<< 24 = b + g * 256 + r * 65536 + a * 16777216 := by
  rw [Nat.or_assoc, Nat.or_assoc]
  have h1 : r <<< 16 ||| a <<< 24 = (a * 256 + r) <<< 16 := by
    rw [show a <<< 24 = (a <<< 8) <<< 16 by rw [← Nat.shiftLeft_add], ← Nat.shiftLeft_or_distrib,
      Nat.or_comm, ← Nat.shiftLeft_add_eq_or_of_lt (by omega), Nat.shiftLeft_eq a]
  have h2 : g <<< 8 ||| (a * 256 + r) <<< 16 = ((a * 256 + r) * 256 + g) <<< 8 := by
    rw [show (a * 256 + r) <<< 16 = ((a * 256 + r) <<< 8) <<< 8 by rw [← Nat.shiftLeft_add],
      ← Nat.shiftLeft_or_distrib, Nat.or_comm, ← Nat.shiftLeft_add_eq_or_of_lt (by omega),
      Nat.shiftLeft_eq (a * 256 + r)]
  rw [h1, h2, Nat.or_comm, ← Nat.shiftLeft_add_eq_or_of_lt (by omega), Nat.shiftLeft_eq]
  omega

theorem blendChannelNonPremult_lt (src srcA dst dstA scale i : ℕ) :
    blendChannelNonPremult src srcA dst dstA scale i < 256 :=
  Nat.mod_lt _ (by norm_num)

theorem blendPixelNonPremult_eq {src : ℕ} (dst : ℕ) (h : alpha src ≠ 0) :
    ∃ c < 16777216, blendPixelNonPremult src dst =
      c + blendAlpha (alpha src) (alpha dst) * 16777216 := by
  have hs := alpha_lt src
  have hd := alpha_lt dst
  have hb := blendAlpha_lt hs hd
  have hf : ((alpha dst * (256 - alpha src)) >>> 8) % 2 ^ 8 = (alpha dst * (256 - alpha src)) >>> 8 :=
    Nat.mod_eq_of_lt (by rw [blendAlpha] at hb; omega)
  have ha : (alpha src + (alpha dst * (256 - alpha src)) >>> 8) % 2 ^ 8 =
      blendAlpha (alpha src) (alpha dst) := Nat.mod_eq_of_lt hb
  have hc := blendChannelNonPremult_lt src (alpha src) dst ((alpha dst * (256 - alpha src)) >>> 8)
    (2 ^ 24 / blendAlpha (alpha src) (alpha dst))
  simp only [blendPixelNonPremult, if_neg h, hf, ha]
  rw [join_eq (hc 0) (hc 1) (hc 2)]
  exact ⟨_, by have := hc 0; have := hc 1; have := hc 2; omega, rfl⟩

theorem blendPixelNonPremult_lt {src dst : ℕ} (hd : dst < 4294967296) :
    blendPixelNonPremult src dst < 4294967296 := by
  by_cases h : alpha src = 0
  · simp [blendPixelNonPremult, h, hd]
  · obtain ⟨c, hc, he⟩ := blendPixelNonPremult_eq dst h
    have := blendAlpha_lt (alpha_lt src) (alpha_lt dst)
    omega

/-- The alpha of a blended pixel. -/
theorem alpha_blendPixelNonPremult {src dst : ℕ} (hd : dst < 4294967296) :
    alpha (blendPixelNonPremult src dst) = blendAlpha (alpha src) (alpha dst) := by
  by_cases h : alpha src = 0
  · simp [blendPixelNonPremult, h]
  · obtain ⟨c, hc, he⟩ := blendPixelNonPremult_eq dst h
    rw [alpha_eq (blendPixelNonPremult_lt hd), he]
    omega

theorem BlendRowFunc.blend_lt (f : BlendRowFunc) {src dst : ℕ} (hs : src < 4294967296)
    (hd : dst < 4294967296) : f.blend src dst < 4294967296 := by
  unfold blend
  split_ifs
  · cases f with
    | nonPremult => exact blendPixelNonPremult_lt hd
    | premult => exact Nat.mod_lt _ (by norm_num)
  · exact hs

/-- An opaque pixel is not blended. -/
theorem BlendRowFunc.blend_of_full (f : BlendRowFunc) {src dst : ℕ} (h : alpha src = 0xff) :
    f.blend src dst = src := by
  simp [blend, h]

theorem alpha_blend {src dst : ℕ} (hd : dst < 4294967296) :
    alpha (BlendRowFunc.nonPremult.blend src dst) = blendAlpha (alpha src) (alpha dst) := by
  unfold BlendRowFunc.blend
  split_ifs with h
  · exact alpha_blendPixelNonPremult hd
  · rw [not_not] at h
    rw [h, blendAlpha_opaque (alpha_lt dst)]

/-! ### Rows -/

section

variable {f : BlendRowFunc} {src dst : Buf} {offset : ℕ}

theorem blendPixelRow_succ (n : ℕ) : blendPixelRow f src dst offset (n + 1) =
    if alpha ((blendPixelRow f src dst offset n).load32 (4 * (offset + n))) ≠ 0xff then
      (blendPixelRow f src dst offset n).store32 (4 * (offset + n))
        (f.pixel ((blendPixelRow f src dst offset n).load32 (4 * (offset + n)))
          (dst.load32 (4 * (offset + n))))
    else blendPixelRow f src dst offset n := rfl

@[simp] theorem blendPixelRow_size : ∀ n, (blendPixelRow f src dst offset n).size = src.size
  | 0 => rfl
  | n + 1 => by
    rw [blendPixelRow_succ]
    split_ifs <;> simp [blendPixelRow_size n]

/-- A row changes only its own pixels. -/
theorem blendPixelRow_out {k n : ℕ} (h : ¬ (4 * offset ≤ k ∧ k < 4 * (offset + n))) :
    (blendPixelRow f src dst offset n).byte k = src.byte k := by
  induction n with
  | zero => rfl
  | succ n ih =>
    have hn := ih (by omega)
    rw [blendPixelRow_succ]
    split_ifs
    · rw [Buf.store32, Buf.writeRow_out (by omega), hn]
    · exact hn

theorem blendPixelRow_load_out {k : ℕ} (n : ℕ) (h : ¬ (offset ≤ k ∧ k < offset + n)) :
    (blendPixelRow f src dst offset n).load32 (4 * k) = src.load32 (4 * k) :=
  Buf.load32_congr fun _ _ _ => blendPixelRow_out (by omega)

/-- Every pixel of the row is blended once. -/
theorem blendPixelRow_load {i : ℕ} : ∀ n, i < n → 4 * (offset + n) ≤ src.size →
    (blendPixelRow f src dst offset n).load32 (4 * (offset + i)) =
      f.blend (src.load32 (4 * (offset + i))) (dst.load32 (4 * (offset + i)))
  | 0, h, _ => absurd h (Nat.not_lt_zero _)
  | n + 1, h, hs => by
    rw [blendPixelRow_succ]
    by_cases hin : i = n
    · subst hin
      have hpre : (blendPixelRow f src dst offset i).load32 (4 * (offset + i)) =
          src.load32 (4 * (offset + i)) := blendPixelRow_load_out i (by omega)
      have hlt := f.blend_lt (src.load32_lt (4 * (offset + i))) (dst.load32_lt (4 * (offset + i)))
      rw [hpre]
      unfold BlendRowFunc.blend at hlt ⊢
      split_ifs at hlt ⊢
      · exact Buf.load32_store32 hlt (by rw [blendPixelRow_size]; omega)
      · exact hpre
    · have hi : i < n := by omega
      have ih := blendPixelRow_load n hi (by omega)
      split_ifs
      · rw [Buf.load32_store32_of_ne (by omega), ih]
      · exact ih

/-- Only bytes of the two blocks are read. -/
theorem blendPixelRow_same {src' dst' : Buf} (hs : src.Same src') (hd : dst.Same dst') :
    ∀ n, 4 * (offset + n) ≤ src.size → 4 * (offset + n) ≤ dst.size →
      (blendPixelRow f src dst offset n).Same (blendPixelRow f src' dst' offset n)
  | 0, _, _ => hs
  | n + 1, h, h' => by
    have ih := blendPixelRow_same hs hd n (by omega) (by omega)
    have hload := ih.load32 (i := 4 * (offset + n)) (by rw [blendPixelRow_size]; omega)
    have hload' := hd.load32 (i := 4 * (offset + n)) (by omega)
    rw [blendPixelRow_succ, blendPixelRow_succ, hload, hload']
    split_ifs
    · exact ih.writeRow _ _ _
    · exact ih

end

end WebPlugin
