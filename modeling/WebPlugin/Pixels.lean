/-
# Blending on the canvas

The pixels of a canvas by column and row, and what writing a rectangle does to
them. `Blended` says that a canvas is another one with the pixels of a set
blended over a third; blending two disjoint sets one after the other blends both
(`Blended.union`). The loop over the rows of a frame blends its rectangle
(`blendRows_blended`).
-/
import WebPlugin.GetNext

namespace WebPlugin

open Memory Ledger Words

/-- The pixel in column `i` and row `j` of a canvas `W` wide. -/
def pixel (b : Buf) (W i j : ℤ) : ℕ := b.load32 (4 * (j * W + i).toNat)

/-- The column and row are on the canvas. -/
def OnCanvas (W H i j : ℤ) : Prop := (0 ≤ i ∧ i < W) ∧ 0 ≤ j ∧ j < H

/-- The column and row are in the rectangle. -/
def FrameRect.Has (r : FrameRect) (i j : ℤ) : Prop :=
  (r.xOff ≤ i ∧ i < r.xOff + r.frmW) ∧ r.yOff ≤ j ∧ j < r.yOff + r.frmH

instance (r : FrameRect) (i j : ℤ) : Decidable (r.Has i j) := inferInstanceAs (Decidable ((_ ∧ _) ∧ _ ∧ _))

theorem pixel_lt_word (b : Buf) (W i j : ℤ) : pixel b W i j < 4294967296 := b.load32_lt _

section

variable {W H i j i' j' : ℤ}

/-- A pixel's place determines its column and row. -/
theorem place_inj (hi : 0 ≤ i ∧ i < W) (hi' : 0 ≤ i' ∧ i' < W) (h : j * W + i = j' * W + i') :
    i = i' ∧ j = j' := by
  have hj : j = j' := by
    have h1 : (j - j') * W = i' - i := by linarith
    by_contra hne
    rcases lt_or_gt_of_ne hne with hlt | hlt
    · have : (j - j') * W ≤ -1 * W := mul_le_mul_of_nonneg_right (by omega) (by omega)
      omega
    · have : 1 * W ≤ (j - j') * W := mul_le_mul_of_nonneg_right (by omega) (by omega)
      omega
  subst hj
  exact ⟨by linarith, rfl⟩

theorem OnCanvas.place_nonneg (h : OnCanvas W H i j) : 0 ≤ j * W + i := by
  have := mul_nonneg h.2.1 (show 0 ≤ W by have := h.1; omega)
  have := h.1
  omega

theorem OnCanvas.place_lt (h : OnCanvas W H i j) : j * W + i < W * H := by
  have hW : 0 ≤ W := by have := h.1; omega
  have : (j + 1) * W ≤ H * W := mul_le_mul_of_nonneg_right (by have := h.2; omega) hW
  have := h.1
  linarith

end

/-! ### Pixels of written rows -/

/-- The little-endian word made of four bytes of a row. -/
def wordOf (row : ℕ → UInt8) (i : ℕ) : ℕ :=
  (row i).toNat + (row (i + 1)).toNat * 256 + (row (i + 2)).toNat * 65536 + (row (i + 3)).toNat * 16777216

theorem wordOf_lt (row : ℕ → UInt8) (i : ℕ) : wordOf row i < 4294967296 := by
  have h := fun k => UInt8.toNat_lt (row k)
  have h0 := h i
  have h1 := h (i + 1)
  have h2 := h (i + 2)
  have h3 := h (i + 3)
  unfold wordOf
  omega

section

variable {b c : Buf} {W H i j : ℤ} {r : FrameRect} {f : ℕ → ℕ → UInt8}

theorem pixel_same (hs : b.Same c) (hb : (b.size : ℤ) = 4 * W * H) (hc : OnCanvas W H i j) :
    pixel b W i j = pixel c W i j := by
  have h0 := hc.place_nonneg
  have h1 := hc.place_lt
  exact hs.load32 (by zify; rw [hb, Int.toNat_of_nonneg h0]; linarith)

theorem pixel_zero (hb : (b.size : ℤ) = 4 * W * H) (hc : OnCanvas W H i j) (hz : ∀ k < b.size, b.byte k = 0) :
    pixel b W i j = 0 := by
  have h0 := hc.place_nonneg
  have h1 := hc.place_lt
  have hlt : 4 * (j * W + i).toNat + 3 < b.size := by
    zify
    rw [hb, Int.toNat_of_nonneg h0]
    linarith
  rw [pixel, Buf.load32, hz _ (by omega), hz _ (by omega), hz _ (by omega), hz _ (by omega)]
  rfl

/-- A byte of a row belongs to a pixel of the rectangle. -/
theorem has_of_mem (hr : r.Within W H) (hi : 0 ≤ i ∧ i < W) {k : ℕ} {a : ℤ} (hk : (canvasRows W r).Mem k a)
    (hkn : k < (canvasRows W r).count) (ha : 4 * (j * W + i) ≤ a ∧ a < 4 * (j * W + i) + 4) : r.Has i j := by
  have hx := hr.x
  have hright := hr.right
  simp only [canvasRows, Rows.Mem, Rows.start] at hk hkn
  have hstart : 4 * (r.yOff * W + r.xOff) + k * (4 * W) = 4 * ((r.yOff + k) * W + r.xOff) := by ring
  rw [hstart] at hk
  generalize hp : (r.yOff + k) * W + r.xOff = p at hk
  have heq : j * W + i = (r.yOff + k) * W + (r.xOff + (j * W + i - p)) := by rw [← hp]; ring
  obtain ⟨h1, h2⟩ := place_inj hi ⟨by omega, by omega⟩ heq
  exact ⟨⟨by omega, by omega⟩, by omega, by omega⟩

theorem pixel_writeRows_out (hr : r.Within W H) (hc : OnCanvas W H i j) (hout : ¬ r.Has i j) :
    pixel (b.writeRows (canvasRows W r) f) W i j = pixel b W i j := by
  have h0 := hc.place_nonneg
  refine Buf.load32_congr fun a ha ha' => Buf.writeRows_out fun k hk hm => hout ?_
  exact has_of_mem hr hc.1 hm hk (by omega)

theorem pixel_writeRows_in (hr : r.Within W H) (hb : (b.size : ℤ) = 4 * W * H) (hin : r.Has i j) :
    pixel (b.writeRows (canvasRows W r) f) W i j = wordOf (f (j - r.yOff).toNat) (4 * (i - r.xOff).toNat) := by
  obtain ⟨⟨hi, hi'⟩, hj, hj'⟩ := hin
  have hx := hr.x
  have hy := hr.y
  have hright := hr.right
  have hc : OnCanvas W H i j := ⟨⟨by omega, by omega⟩, by omega, by linarith [hr.bottom]⟩
  have h0 := hc.place_nonneg
  have h1 := hc.place_lt
  have hbyte : ∀ o < 4, (b.writeRows (canvasRows W r) f).byte (4 * (j * W + i).toNat + o) =
      f (j - r.yOff).toNat (4 * (i - r.xOff).toNat + o) := by
    intro o ho
    refine Buf.writeRows_in ?_ ?_ ?_ ?_ ?_
    · simp only [canvasRows]
      rw [abs_of_nonneg (by omega)]
      omega
    · simp only [canvasRows]
      omega
    · simp only [canvasRows]
      omega
    · simp only [canvasRows, Rows.start]
      push_cast
      rw [Int.toNat_of_nonneg h0, Int.toNat_of_nonneg (by omega), Int.toNat_of_nonneg (by omega)]
      ring
    · zify
      rw [hb, Int.toNat_of_nonneg h0]
      linarith
  have hb0 := hbyte 0 (by norm_num)
  rw [Nat.add_zero, Nat.add_zero] at hb0
  rw [pixel, Buf.load32, hb0, hbyte 1 (by norm_num), hbyte 2 (by norm_num), hbyte 3 (by norm_num), wordOf]

/-- A cleared rectangle. -/
theorem pixel_cleared (hr : r.Within W H) (hb : (b.size : ℤ) = 4 * W * H) (hc : OnCanvas W H i j) :
    pixel (b.writeRows (canvasRows W r) fun _ _ => 0) W i j = if r.Has i j then 0 else pixel b W i j := by
  split_ifs with hin
  · rw [pixel_writeRows_in hr hb hin]
    simp [wordOf]
  · exact pixel_writeRows_out hr hc hin

end

/-! ### Blended pixels -/

/-- `out` is `src` with the pixels of `S` blended over `dst`. -/
structure Blended (f : BlendRowFunc) (W H : ℤ) (src dst : Buf) (S : ℤ → ℤ → Prop) (out : Buf) : Prop where
  size : out.size = src.size
  inside : ∀ i j, OnCanvas W H i j → S i j → pixel out W i j = f.blend (pixel src W i j) (pixel dst W i j)
  outside : ∀ i j, OnCanvas W H i j → ¬ S i j → pixel out W i j = pixel src W i j

namespace Blended

variable {f : BlendRowFunc} {W H : ℤ} {src dst out out' : Buf} {S T : ℤ → ℤ → Prop}

theorem none : Blended f W H src dst (fun _ _ => False) src :=
  ⟨rfl, fun _ _ _ h => h.elim, fun _ _ _ _ => rfl⟩

/-- Only the pixels of the canvas matter. -/
theorem congr (h : Blended f W H src dst S out) (hST : ∀ i j, OnCanvas W H i j → (S i j ↔ T i j)) :
    Blended f W H src dst T out :=
  ⟨h.size, fun i j hc ht => h.inside i j hc ((hST i j hc).mpr ht),
    fun i j hc ht => h.outside i j hc fun hs => ht ((hST i j hc).mp hs)⟩

/-- One set of pixels after another. -/
theorem union (h : Blended f W H src dst S out) (h' : Blended f W H out dst T out')
    (hd : ∀ i j, S i j → ¬ T i j) : Blended f W H src dst (fun i j => S i j ∨ T i j) out' where
  size := h'.size.trans h.size
  inside i j hc hst := by
    rcases hst with hs | ht
    · rw [h'.outside i j hc (hd i j hs), h.inside i j hc hs]
    · rw [h'.inside i j hc ht, h.outside i j hc fun hs => hd i j hs ht]
  outside i j hc hst := by
    rw [not_or] at hst
    rw [h'.outside i j hc hst.2, h.outside i j hc hst.1]

end Blended

section

variable {f : BlendRowFunc} {src dst : Buf} {W H : ℤ}

variable (f dst) in
/-- A row of pixels, from column `x` of row `y` on. -/
theorem blendPixelRow_blended {x y : ℤ} {offset n : ℕ} (hsrc : (src.size : ℤ) = 4 * W * H)
    (hx : 0 ≤ x) (hn : x + n ≤ W) (hy : 0 ≤ y ∧ y < H) (ho : n ≠ 0 → (offset : ℤ) = y * W + x) :
    Blended f W H src dst (fun i j => j = y ∧ x ≤ i ∧ i < x + n) (blendPixelRow f src dst offset n) where
  size := blendPixelRow_size n
  inside i j hc hs := by
    obtain ⟨rfl, h1, h2⟩ := hs
    have hplace := hc.place_nonneg
    have hoff := ho (by omega)
    have hlast := OnCanvas.place_lt (W := W) (H := H) (i := x + n - 1) (j := j) ⟨by omega, hc.2⟩
    have hidx : (j * W + i).toNat = offset + (i - x).toNat := by omega
    rw [pixel, pixel, pixel, hidx]
    exact blendPixelRow_load n (by omega) (by zify; rw [hsrc]; linarith)
  outside i j hc hs := by
    have hplace := hc.place_nonneg
    refine blendPixelRow_load_out n fun hin => ?_
    have hoff := ho (by omega)
    obtain ⟨k, hk⟩ : ∃ k : ℕ, (j * W + i).toNat = offset + k := ⟨_, (Nat.add_sub_of_le hin.1).symm⟩
    have heq : j * W + i = y * W + (x + k) := by omega
    obtain ⟨h1, h2⟩ := place_inj hc.1 ⟨by omega, by omega⟩ heq
    exact hs ⟨h2, by omega, by omega⟩

/-- The rows of a frame, as far as row `n`. -/
theorem blendRows_blended (f : BlendRowFunc) (dst : Buf) {r : FrameRect} (hr : r.Within W H)
    (hc : 4 * W * H < 4294967296) (hsrc : (src.size : ℤ) = 4 * W * H) : ∀ n : ℕ, (n : ℤ) ≤ r.frmH →
    Blended f W H src dst
      (fun i j => (r.xOff ≤ i ∧ i < r.xOff + r.frmW) ∧ r.yOff ≤ j ∧ j < r.yOff + n)
      (blendRows f src dst r W n).1
  | 0, _ => Blended.none.congr fun i j _ => by
    simp only [Nat.cast_zero, add_zero, false_iff]
    omega
  | n + 1, hn => by
    push_cast at hn
    have ih := blendRows_blended f dst hr hc hsrc n (by omega)
    have hy := hr.y
    have hbottom := hr.bottom
    have hsize : ((blendRows f src dst r W n).1.size : ℤ) = 4 * W * H := by rw [ih.size, hsrc]
    have hright : r.xOff + r.frmW.toNat ≤ W := by
      rw [Int.toNat_of_nonneg hr.w]
      exact hr.right
    have hrow := blendPixelRow_blended f dst (y := r.yOff + n) (n := r.frmW.toNat) hsize hr.x hright (by omega)
      (fun hw => rowOffset_eq hr hc (by omega) (by omega))
    refine (ih.union hrow fun i j hs ht => ?_).congr fun i j _ => ?_
    · omega
    · have := hr.w
      push_cast
      omega

end

end WebPlugin
