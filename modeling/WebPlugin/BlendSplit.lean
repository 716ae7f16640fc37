/-
# Blending around the disposed area

`FindBlendRangeAtRow` is what is left of an earlier `GetNext`: after a
predecessor that was disposed to the background, each row was blended only left
and right of the predecessor's rectangle. `GetNext` now blends whole rows.
Over a transparent pixel the blend truncates `2 ^ 24 / alpha`, so the two agree
just when the decoded pixels in the overlap have alpha values that divide
`2 ^ 24`, or nothing to truncate (`split_dropped_iff`).
-/
import WebPlugin.Pixels
import WebPlugin.Block

namespace WebPlugin

open Memory Ledger Words

/-! ### The two ranges -/

/-- The two ranges of a row: left ends and widths. -/
structure BlendRanges where
  left1 : ℤ := -1
  width1 : ℤ := 0
  left2 : ℤ := -1
  width2 : ℤ := 0
  deriving DecidableEq, Repr

/-- `FindBlendRangeAtRow`: what of row `canvasY` belongs to `src` but not to
`dst`. -/
def findBlendRangeAtRow (src dst : WebPIterator) (canvasY : ℤ) : BlendRanges :=
  let srcMaxX := src.xOffset + src.width
  let dstMaxX := dst.xOffset + dst.width
  let dstMaxY := dst.yOffset + dst.height
  if canvasY < dst.yOffset ∨ dstMaxY ≤ canvasY ∨ dstMaxX ≤ src.xOffset ∨ srcMaxX ≤ dst.xOffset then
    { left1 := src.xOffset, width1 := src.width }
  else
    { left1 := if src.xOffset < dst.xOffset then src.xOffset else -1
      width1 := if src.xOffset < dst.xOffset then dst.xOffset - src.xOffset else 0
      left2 := if dstMaxX < srcMaxX then dstMaxX else -1
      width2 := if dstMaxX < srcMaxX then srcMaxX - dstMaxX else 0 }

/-- Blend one range of a row, unless it is empty. -/
def blendRange (f : BlendRowFunc) (src dst : Buf) (outW canvasY left width : ℤ) : Buf :=
  if 0 < width then blendPixelRow f src dst (u32 (canvasY * outW + left)) width.toNat else src

/-- The first rows of `iter` blended around the rectangle of `prev`. -/
def blendSplitRows (f : BlendRowFunc) (src dst : Buf) (iter prev : WebPIterator) (outW : ℤ) : ℕ → Buf
  | 0 => src
  | y + 1 =>
    let src := blendSplitRows f src dst iter prev outW y
    let canvasY := iter.yOffset + y
    let ranges := findBlendRangeAtRow iter prev canvasY
    let src := blendRange f src dst outW canvasY ranges.left1 ranges.width1
    blendRange f src dst outW canvasY ranges.left2 ranges.width2

/-! ### What they blend -/

/-- The pixel is in the frame's rectangle. -/
def InFrame (iter : WebPIterator) (i j : ℤ) : Prop :=
  (iter.xOffset ≤ i ∧ i < iter.xOffset + iter.width) ∧ iter.yOffset ≤ j ∧ j < iter.yOffset + iter.height

/-- The frame's rectangle lies on a canvas of `W × H`. -/
structure FrameOn (iter : WebPIterator) (W H : ℤ) : Prop where
  x : 0 ≤ iter.xOffset
  y : 0 ≤ iter.yOffset
  width : 0 < iter.width
  height : 0 < iter.height
  right : iter.xOffset + iter.width ≤ W
  bottom : iter.yOffset + iter.height ≤ H

theorem FrameOn.onCanvas {iter : WebPIterator} {W H i j : ℤ} (h : FrameOn iter W H) (hin : InFrame iter i j) :
    OnCanvas W H i j := by
  obtain ⟨hx, hy, -, -, hr, hb⟩ := h
  obtain ⟨h1, h2⟩ := hin
  exact ⟨⟨by omega, by omega⟩, by omega, by omega⟩

section

variable {f : BlendRowFunc} {src dst : Buf} {iter prev : WebPIterator} {W H : ℤ}

variable (f dst) in
theorem blendRange_blended {left width y : ℤ} (hc : 4 * W * H < 4294967296)
    (hsrc : (src.size : ℤ) = 4 * W * H) (hl : 0 < width → 0 ≤ left) (hr : 0 < width → left + width ≤ W)
    (hy : 0 ≤ y ∧ y < H) : Blended f W H src dst (fun i j => j = y ∧ left ≤ i ∧ i < left + width)
      (blendRange f src dst W y left width) := by
  unfold blendRange
  split_ifs with hw
  · have hpos := hl hw
    have hfit := hr hw
    have hon : OnCanvas W H left y := ⟨by omega, hy⟩
    have hplace := hon.place_lt
    have h0 := hon.place_nonneg
    have :=
      blendPixelRow_blended f dst (n := width.toNat) hsrc hpos (by omega) hy (fun _ => u32_of_range h0 (by linarith))
    exact this.congr fun i j _ => by rw [Int.toNat_of_nonneg hw.le]
  · refine Blended.none.congr fun i j _ => ?_
    simp only [false_iff]
    omega

/-- The two ranges cover the row of `iter` outside `prev`. -/
theorem findBlendRangeAtRow_covers {y : ℤ} (hi : FrameOn iter W H) (hp : FrameOn prev W H)
    (hy : iter.yOffset ≤ y ∧ y < iter.yOffset + iter.height) :
    let r := findBlendRangeAtRow iter prev y
    (0 < r.width1 → 0 ≤ r.left1 ∧ r.left1 + r.width1 ≤ W) ∧
    (0 < r.width2 → 0 ≤ r.left2 ∧ r.left2 + r.width2 ≤ W) ∧
    ∀ i, ((r.left1 ≤ i ∧ i < r.left1 + r.width1) → ¬ (r.left2 ≤ i ∧ i < r.left2 + r.width2)) ∧
      (((r.left1 ≤ i ∧ i < r.left1 + r.width1) ∨ r.left2 ≤ i ∧ i < r.left2 + r.width2) ↔
        InFrame iter i y ∧ ¬ InFrame prev i y) := by
  obtain ⟨hx, hy0, hw, hh, hr, hb⟩ := hi
  obtain ⟨px, py, pw, ph, pr, pb⟩ := hp
  intro r
  simp only [r, findBlendRangeAtRow, InFrame]
  split_ifs <;> dsimp only <;> refine ⟨by omega, by omega, fun i => ⟨by omega, by omega⟩⟩

theorem blendSplitRows_blended (f : BlendRowFunc) (dst : Buf) (hi : FrameOn iter W H) (hp : FrameOn prev W H)
    (hc : 4 * W * H < 4294967296) (hsrc : (src.size : ℤ) = 4 * W * H) : ∀ n : ℕ, (n : ℤ) ≤ iter.height →
    Blended f W H src dst (fun i j => (InFrame iter i j ∧ ¬ InFrame prev i j) ∧ j < iter.yOffset + n)
      (blendSplitRows f src dst iter prev W n)
  | 0, _ => Blended.none.congr fun i j _ => by
    simp only [InFrame, Nat.cast_zero, add_zero, false_iff]
    omega
  | n + 1, hn => by
    push_cast at hn
    have ih := blendSplitRows_blended f dst hi hp hc hsrc n (by omega)
    have hy0 := hi.y
    have hb := hi.bottom
    have hrow : 0 ≤ iter.yOffset + n ∧ iter.yOffset + n < H := by omega
    obtain ⟨h1, h2, hcover⟩ := findBlendRangeAtRow_covers (y := iter.yOffset + n) hi hp (by omega)
    have s1 := blendRange_blended f dst hc
      (by rw [ih.size, hsrc]) (fun hw => (h1 hw).1) (fun hw => (h1 hw).2) hrow
    have s2 := blendRange_blended f dst hc (by rw [s1.size, ih.size, hsrc])
      (fun hw => (h2 hw).1) (fun hw => (h2 hw).2) hrow
    refine ((ih.union s1 fun i j hs ht => ?_).union s2 fun i j hs ht => ?_).congr fun i j _ => ?_
    · omega
    · rcases hs with hs | hs
      · omega
      · exact (hcover i).1 hs.2 ht.2
    · have hiff := (hcover i).2
      push_cast
      constructor
      · rintro ((⟨hin, hlt⟩ | ⟨rfl, hin⟩) | ⟨rfl, hin⟩)
        · exact ⟨hin, by omega⟩
        · exact ⟨hiff.mp (.inl hin), by omega⟩
        · exact ⟨hiff.mp (.inr hin), by omega⟩
      · rintro ⟨hin, hlt⟩
        by_cases hj : j < iter.yOffset + n
        · exact .inl (.inl ⟨hin, hj⟩)
        · have hj' : j = iter.yOffset + n := by omega
          subst hj'
          rcases hiff.mpr hin with h | h
          · exact .inl (.inr ⟨rfl, h⟩)
          · exact .inr ⟨rfl, h⟩

end

/-! ### Over a transparent pixel -/

/-- Blending over a transparent pixel leaves this one. -/
def BlendsClean (pix : ℕ) : Prop :=
  alpha pix = 0 ∨ alpha pix = 255 ∨ ∀ c < 3, channel pix c = 0 ∨ alpha pix ∣ 2 ^ 24

/-- The same alpha, and the same colour unless it is transparent. -/
def SameLook (p q : ℕ) : Prop :=
  alpha p = alpha q ∧ (alpha q ≠ 0 → ∀ c < 3, channel p c = channel q c)

theorem SameLook.refl (p : ℕ) : SameLook p p := ⟨rfl, fun _ _ _ => rfl⟩

/-- The truncated `2 ^ 24 / a` costs a channel one, unless it is exact. -/
theorem truncated_scale {c a : ℕ} (hc : c < 256) (ha : 0 < a) (ha' : a < 256) :
    ((c * a % 2 ^ 32 * (2 ^ 24 / a) % 2 ^ 32) >>> 24) % 2 ^ 8 = c ↔ c = 0 ∨ a ∣ 2 ^ 24 := by
  have hdiv : a * (2 ^ 24 / a) = 2 ^ 24 - 2 ^ 24 % a := by
    have := Nat.div_add_mod (2 ^ 24) a
    omega
  have hr : 2 ^ 24 % a < a := Nat.mod_lt _ ha
  have hcr : c * (2 ^ 24 % a) < 65536 := by
    calc c * (2 ^ 24 % a) ≤ 255 * (2 ^ 24 % a) := Nat.mul_le_mul_right _ (by omega)
      _ < 65536 := by omega
  have hprod : c * a * (2 ^ 24 / a) = c * 2 ^ 24 - c * (2 ^ 24 % a) := by
    rw [Nat.mul_assoc, hdiv, Nat.mul_sub]
  have hca : c * a < 2 ^ 32 := (Nat.mul_lt_mul'' hc ha').trans (by norm_num)
  have hzero : c * (2 ^ 24 % a) = 0 ↔ c = 0 ∨ a ∣ 2 ^ 24 := by
    rw [Nat.mul_eq_zero, Nat.dvd_iff_mod_eq_zero]
  rw [Nat.mod_eq_of_lt hca, hprod, Nat.shiftRight_eq_div_pow, ← hzero]
  have hnone : c = 0 → c * (2 ^ 24 % a) = 0 := fun h => by rw [h, Nat.zero_mul]
  generalize c * (2 ^ 24 % a) = m at hcr hnone
  omega

theorem channel_join {b g r a : ℕ} (hb : b < 256) (hg : g < 256) (hr : r < 256) :
    channel (b ||| g <<< 8 ||| r <<< 16 ||| a <<< 24) 0 = b ∧
      channel (b ||| g <<< 8 ||| r <<< 16 ||| a <<< 24) 1 = g ∧
      channel (b ||| g <<< 8 ||| r <<< 16 ||| a <<< 24) 2 = r := by
  rw [join_eq hb hg hr, channel_eq, channel_eq, channel_eq]
  omega

/-- A channel blended over a transparent pixel. -/
theorem channel_blend_zero {s c : ℕ} (h0 : alpha s ≠ 0) (hc : c < 3) :
    channel (blendPixelNonPremult s 0) c = blendChannelNonPremult s (alpha s) 0 0 (2 ^ 24 / alpha s) c := by
  have ha := alpha_lt s
  have hz : alpha 0 = 0 := by decide
  have hlt := blendChannelNonPremult_lt s (alpha s) 0 0 (2 ^ 24 / alpha s)
  obtain ⟨h1, h2, h3⟩ := channel_join (a := alpha s) (hlt 0) (hlt 1) (hlt 2)
  have hb : blendPixelNonPremult s 0 = blendChannelNonPremult s (alpha s) 0 0 (2 ^ 24 / alpha s) 0 |||
      blendChannelNonPremult s (alpha s) 0 0 (2 ^ 24 / alpha s) 1 <<< 8 |||
      blendChannelNonPremult s (alpha s) 0 0 (2 ^ 24 / alpha s) 2 <<< 16 ||| alpha s <<< 24 := by
    simp only [blendPixelNonPremult, if_neg h0, hz, Nat.zero_mul, Nat.zero_shiftRight, Nat.zero_mod,
      Nat.add_zero, Nat.mod_eq_of_lt (show alpha s < 2 ^ 8 from ha)]
  rw [hb]
  interval_cases c
  · exact h1
  · exact h2
  · exact h3

/-- Blending a pixel over a transparent one is a no-op, or takes one off a
channel. -/
theorem sameLook_blend_zero {s : ℕ} : SameLook (BlendRowFunc.nonPremult.blend s 0) s ↔ BlendsClean s := by
  have halpha : alpha (BlendRowFunc.nonPremult.blend s 0) = alpha s := by
    rw [alpha_blend (by norm_num), show alpha 0 = 0 by decide, blendAlpha]
    simp
  unfold SameLook BlendsClean
  by_cases h255 : alpha s = 255
  · simp [h255, BlendRowFunc.blend]
  by_cases h0 : alpha s = 0
  · simp [h0, halpha]
  have hb : BlendRowFunc.nonPremult.blend s 0 = blendPixelNonPremult s 0 := by
    rw [BlendRowFunc.blend, if_pos h255]
    rfl
  simp only [halpha, h0, h255, ne_eq, not_false_eq_true, true_and, forall_const, false_or]
  refine forall₂_congr fun c hc => ?_
  rw [hb, channel_blend_zero h0 hc, blendChannelNonPremult, channel, Nat.mul_zero, Nat.add_zero]
  exact truncated_scale (channel_lt s c) (by omega) (alpha_lt s)

/-! ### Both ways of blending -/

/-- Without scaling a frame is drawn where it is. -/
theorem rect_unscaled {dec : WebPAnimDecoder} {iter : WebPIterator} (hd : Ready dec)
    (hs : dec.outCanvasW = 0) (hW : dec.outW ≤ 65535) (hH : dec.outH ≤ 65535)
    (hi : FrameOn iter dec.outW dec.outH) :
    dec.rect iter = ⟨iter.xOffset, iter.yOffset, iter.width, iter.height⟩ := by
  obtain ⟨hx, hy, hw, hh, hr, hb⟩ := hi
  obtain ⟨hcw, hch⟩ := hd.out_unscaled hs
  obtain ⟨hW0, hW'⟩ := hd.outW_range
  obtain ⟨hH0, hH'⟩ := hd.outH_range
  have ax : OnAxis iter.xOffset iter.width dec.outW dec.outW := ⟨hx, hw, hr, by omega, hW0, hW'⟩
  have ay : OnAxis iter.yOffset iter.height dec.outH dec.outH := ⟨hy, hh, hb, by omega, hH0, hH'⟩
  have hprod : ∀ {v n : ℤ}, 0 ≤ v → v ≤ n → n ≤ 65535 → v * n < 4294967296 := fun h0 hv hn => by
    have := mul_le_mul (hv.trans hn) hn (by omega) (show (0 : ℤ) ≤ 65535 by norm_num)
    omega
  have e1 := ax.start_exact_iff.mpr (hprod hx (by omega) hW)
  have e2 := ax.side_exact_iff.mpr (hprod hw.le (by omega) hW)
  have e3 := ay.start_exact_iff.mpr (hprod hy (by omega) hH)
  have e4 := ay.side_exact_iff.mpr (hprod hh.le (by omega) hH)
  rw [Int.mul_ediv_cancel _ hW0.ne'] at e1 e2
  rw [Int.mul_ediv_cancel _ hH0.ne'] at e3 e4
  rw [WebPAnimDecoder.rect, hd.width, hd.height, ← hcw, ← hch, e1, e2, e3, e4]

/-- A frame is blended after one that was disposed to the background: no
scaling, BGRA or RGBA, any rectangles on the canvas and any pixels. -/
structure AfterDisposed (dec : WebPAnimDecoder) (iter : WebPIterator) (canvas : Buf) : Prop where
  ready : Ready dec
  fits : dec.Fits
  unscaled : dec.outCanvasW = 0
  sides : dec.outW ≤ 65535 ∧ dec.outH ≤ 65535
  mode : dec.blendFunc = .nonPremult
  frame : FrameOn iter dec.outW dec.outH
  prev : FrameOn dec.prevIter dec.outW dec.outH
  blended : 1 < iter.frameNum ∧ iter.blendMethod = .blend
  disposed : dec.prevIter.disposeMethod = .background
  size : canvas.size = dec.currFrame.size
  zero : ∀ i j, InFrame dec.prevIter i j → pixel dec.prevFrameDisposed dec.outW i j = 0

/-- Blending the whole frame shows the same as blending around the disposed
rectangle just when the pixels decoded there blend cleanly. -/
theorem split_dropped_iff {dec : WebPAnimDecoder} {iter : WebPIterator} {canvas : Buf}
    (h : AfterDisposed dec iter canvas) :
    (∀ i j, OnCanvas dec.outW dec.outH i j →
      SameLook (pixel (dec.blendFrame iter false canvas).1 dec.outW i j)
        (pixel (blendSplitRows dec.blendFunc canvas dec.prevFrameDisposed iter dec.prevIter dec.outW
          iter.height.toNat) dec.outW i j)) ↔
    ∀ i j, InFrame iter i j → InFrame dec.prevIter i j → BlendsClean (pixel canvas dec.outW i j) := by
  obtain ⟨hd, hf, hs, ⟨hW, hH⟩, hmode, hi, hp, ⟨hnum, hblend⟩, -, hc, hzero⟩ := h
  have hsize : (canvas.size : ℤ) = 4 * dec.outW * dec.outH := hc ▸ hd.curr_size hf
  have hh := hi.height
  have hr : (dec.rect iter).Within dec.outW dec.outH := by
    rw [rect_unscaled hd hs hW hH hi]
    have := hi.right
    have := hi.bottom
    have := hi.width
    exact ⟨hi.x, hi.y, hi.width.le, hi.height.le, by dsimp only; omega, by dsimp only; omega, hi.right, hi.bottom⟩
  have hnew := blendRows_blended dec.blendFunc dec.prevFrameDisposed hr hf hsize
    iter.height.toNat (by rw [rect_unscaled hd hs hW hH hi]; exact (Int.toNat_of_nonneg hh.le).le)
  have hold := blendSplitRows_blended dec.blendFunc dec.prevFrameDisposed hi hp hf
    hsize iter.height.toNat (Int.toNat_of_nonneg hh.le).le
  have hframe : (dec.blendFrame iter false canvas).1 = (blendRows dec.blendFunc canvas dec.prevFrameDisposed
      (dec.rect iter) dec.outW iter.height.toNat).1 := by
    rw [WebPAnimDecoder.blendFrame, if_pos ⟨hnum, hblend, rfl⟩, rect_unscaled hd hs hW hH hi]
  rw [rect_unscaled hd hs hW hH hi] at hnew hframe
  rw [hframe]
  replace hnew := hnew.congr (T := InFrame iter) fun i j _ => by
    simp only [InFrame]
    omega
  replace hold := hold.congr (T := fun i j => InFrame iter i j ∧ ¬ InFrame dec.prevIter i j) fun i j _ => by
    simp only [InFrame]
    omega
  rw [hmode] at hnew hold ⊢
  have hpixel : ∀ i j, OnCanvas dec.outW dec.outH i j → (SameLook
      (pixel (blendRows .nonPremult canvas dec.prevFrameDisposed ⟨iter.xOffset, iter.yOffset, iter.width,
        iter.height⟩ dec.outW iter.height.toNat).1 dec.outW i j)
      (pixel (blendSplitRows .nonPremult canvas dec.prevFrameDisposed iter dec.prevIter dec.outW
        iter.height.toNat) dec.outW i j) ↔
      (InFrame iter i j → InFrame dec.prevIter i j → BlendsClean (pixel canvas dec.outW i j))) := by
    intro i j hon
    by_cases hin : InFrame iter i j
    · by_cases hpin : InFrame dec.prevIter i j
      · -- Here only the new way blends, over a transparent pixel.
        rw [hnew.inside i j hon hin, hold.outside i j hon fun h => h.2 hpin, hzero i j hpin, sameLook_blend_zero]
        exact ⟨fun h _ _ => h, fun h => h hin hpin⟩
      · rw [hnew.inside i j hon hin, hold.inside i j hon ⟨hin, hpin⟩]
        exact iff_of_true (.refl _) fun _ h => absurd h hpin
    · rw [hnew.outside i j hon hin, hold.outside i j hon fun h => hin h.1]
      exact iff_of_true (.refl _) fun h => absurd h hin
  constructor
  · intro h i j hin hpin
    exact (hpixel i j (hi.onCanvas hin)).mp (h i j (hi.onCanvas hin)) hin hpin
  · intro h i j hon
    exact (hpixel i j hon).mpr (h i j)

/-! ### A frame over a disposed one -/

/-- The second of three frames is disposed to the background, and the third
drawn over it. -/
def patch : WebPData := Files.animation 8 8
  [{ x := 0, y := 0, w := 8, h := 8 }, { x := 2, y := 2, w := 2, h := 2, background := true },
    { x := 2, y := 2, w := 4, h := 2 }]

/-- The options of the plug-in, without scaling. -/
def plainOptions : WebPAnimDecoderOptions := { colorMode := .BGRA }

/-- A property of the decoder after the next frame. -/
def afterNext (codec : Codec) (dec : WebPAnimDecoder) (p : WebPAnimDecoder → Bool) : Bool :=
  p (webPAnimDecoderGetNext codec .fine dec Heap.empty).dec

theorem afterNext_any {codec : Codec} {dec : WebPAnimDecoder} {p : WebPAnimDecoder → Bool}
    (h : afterNext codec dec p) : ∃ dec', Reach codec dec dec' ∧ p dec' :=
  ⟨_, Reach.next .refl .fine Heap.empty, h⟩

/-- What the third frame meets, as far as it can be evaluated. -/
def thirdFrame (codec : Codec) (dec : WebPAnimDecoder) (iter : WebPIterator) : Bool :=
  decide dec.Fits && decide ((dec.outCanvasW, dec.outW, dec.outH) = (0, 8, 8)) &&
    decide (dec.blendFunc = .nonPremult) &&
    decide ((iter.xOffset, iter.yOffset, iter.width, iter.height) = (2, 2, 4, 2)) &&
    decide ((dec.prevIter.xOffset, dec.prevIter.yOffset, dec.prevIter.width, dec.prevIter.height) = (2, 2, 2, 2)) &&
    decide (iter.frameNum = 3 ∧ iter.blendMethod = .blend) && decide (dec.isKey iter = false) &&
    decide (dec.prevIter.disposeMethod = .background) &&
    decide (∀ i j : Fin 2, pixel dec.prevFrameDisposed 8 (2 + (i : ℕ)) (2 + (j : ℕ)) = 0) &&
    decide ((dec.decodeFrame codec .fine iter Heap.empty).status = .ok)

theorem patch_after (codec : Codec) (p : WebPAnimDecoder → WebPIterator → Bool)
    (h : (webPAnimDecoderNew Env.fine.grants patch plainOptions Heap.empty).1.any fun dec =>
      afterNext codec dec fun dec => afterNext codec dec fun dec => dec.hasMoreFrames &&
        (webPDemuxGetFrame dec.demux dec.nextFrame).any fun iter => thirdFrame codec dec iter && p dec iter) :
    ∃ dmux dec₀ dec iter, Accepted patch dmux ∧
      webPAnimDecoderNew Env.fine.grants patch plainOptions Heap.empty =
        (some dec₀, (webPAnimDecoderNew Env.fine.grants patch plainOptions Heap.empty).2) ∧
      Reach codec dec₀ dec ∧ dec.Frame iter ∧ dec.isKey iter = false ∧
      (dec.decodeFrame codec .fine iter Heap.empty).status = .ok ∧
      AfterDisposed dec iter (dec.decodeFrame codec .fine iter Heap.empty).mem ∧ p dec iter := by
  have hdmux : (webPDemux patch).any fun dmux => hasFlag dmux.featureFlags animationFlag := by
    decide +kernel
  obtain ⟨dmux, hd, hflag⟩ := (Option.any_eq_true _ _).mp hdmux
  obtain ⟨dec₀, hnew, hrun⟩ := webPAnimDecoderNew_any h
  obtain ⟨dec₁, hr₁, hrun⟩ := afterNext_any hrun
  obtain ⟨dec, hr, hrun⟩ := afterNext_any hrun
  obtain ⟨hmore, hget⟩ := (Bool.and_eq_true _ _).mp hrun
  obtain ⟨iter, hiter, hok⟩ := (Option.any_eq_true _ _).mp hget
  have ha : Accepted patch dmux := ⟨hd, hflag⟩
  have hreach : Reach codec dec₀ dec := hr₁.trans hr
  obtain ⟨h₀, -⟩ := ready_of_new ha ⟨by decide, by decide⟩ hnew
  have hready := hreach.ready h₀
  simp only [thirdFrame, Bool.and_eq_true, decide_eq_true_eq, Prod.mk.injEq] at hok
  obtain ⟨⟨⟨⟨⟨⟨⟨⟨⟨⟨hfits, hs, hw, hh⟩, hmode⟩, hx, hy, hfw, hfh⟩, hpx, hpy, hpw, hph⟩, hnum,
    hblend⟩, hkey⟩, hbg⟩, hzero⟩, hstatus⟩, hp⟩ := hok
  have hframe : dec.Frame iter := ⟨hmore, hiter⟩
  have hsize := (hready.decoded (hready.iterFacts hframe).2 codec .fine Heap.empty).mem_size.1
  refine ⟨dmux, dec₀, dec, iter, ha, hnew, hreach, hframe, hkey, hstatus, ⟨hready, hfits, hs, ?_, hmode, ?_, ?_,
    ⟨by omega, hblend⟩, hbg, hsize, fun i j hin => ?_⟩, hp⟩
  · omega
  · exact ⟨by omega, by omega, by omega, by omega, by omega, by omega⟩
  · exact ⟨by omega, by omega, by omega, by omega, by omega, by omega⟩
  · unfold InFrame at hin
    have := hzero ⟨(i - 2).toNat, by omega⟩ ⟨(j - 2).toNat, by omega⟩
    rw [hw]
    convert this using 2 <;> dsimp only <;> omega

/-- The alpha of the decoded pixels in the overlap. -/
def overlapAlpha (codec : Codec) (dec : WebPAnimDecoder) (iter : WebPIterator) (a : ℕ) : Bool :=
  decide (∀ i j : Fin 2,
    alpha (pixel (dec.decodeFrame codec .fine iter Heap.empty).mem dec.outW (2 + (i : ℕ)) (2 + (j : ℕ))) = a) &&
  decide ((dec.prevIter.xOffset, dec.prevIter.yOffset, dec.prevIter.width, dec.prevIter.height) = (2, 2, 2, 2)) &&
  decide (dec.outW = 8 ∧ dec.outH = 8)

/-- Opaque pixels blend cleanly. -/
theorem patch_blends_clean : ∃ dec iter canvas, AfterDisposed dec iter canvas ∧
    SameLook (pixel (dec.blendFrame iter false canvas).1 dec.outW 2 2)
      (pixel (blendSplitRows dec.blendFunc canvas dec.prevFrameDisposed iter dec.prevIter dec.outW
        iter.height.toNat) dec.outW 2 2) := by
  obtain ⟨-, -, dec, iter, -, -, -, -, -, -, hafter, hp⟩ := patch_after .black
    (fun dec iter => overlapAlpha .black dec iter 255) (by decide +kernel)
  simp only [overlapAlpha, Bool.and_eq_true, decide_eq_true_eq, Prod.mk.injEq] at hp
  obtain ⟨⟨halpha, hx, hy, hw, hh⟩, hW, hH⟩ := hp
  refine ⟨dec, iter, _, hafter, (split_dropped_iff hafter).mpr (fun i j _ hin => .inr (.inl ?_)) 2 2 ?_⟩
  · unfold InFrame at hin
    have := halpha ⟨(i - 2).toNat, by omega⟩ ⟨(j - 2).toNat, by omega⟩
    convert this using 3 <;> dsimp only <;> omega
  · exact ⟨by omega, by omega⟩

/-- Every picture is white and nearly transparent. -/
def Codec.veil : Codec := ⟨fun _ _ mode _ i => if kModeBpp mode = 4 ∧ i % 4 = 3 then 3 else 255⟩

/-- White of alpha 3 loses one in every channel. -/
theorem patch_veil_darkens : ∃ dmux dec₀ dec iter, Accepted patch dmux ∧
    webPAnimDecoderNew Env.fine.grants patch plainOptions Heap.empty =
      (some dec₀, (webPAnimDecoderNew Env.fine.grants patch plainOptions Heap.empty).2) ∧
    Reach .veil dec₀ dec ∧ dec.Frame iter ∧ dec.isKey iter = false ∧
    (dec.decodeFrame .veil .fine iter Heap.empty).status = .ok ∧
    AfterDisposed dec iter (dec.decodeFrame .veil .fine iter Heap.empty).mem ∧
    OnCanvas dec.outW dec.outH 2 2 ∧
    ¬ SameLook (pixel (dec.blendFrame iter false (dec.decodeFrame .veil .fine iter Heap.empty).mem).1 dec.outW 2 2)
      (pixel (blendSplitRows dec.blendFunc (dec.decodeFrame .veil .fine iter Heap.empty).mem
        dec.prevFrameDisposed iter dec.prevIter dec.outW iter.height.toNat) dec.outW 2 2) := by
  obtain ⟨dmux, dec₀, dec, iter, ha, hnew, hr, hframe, hkey, hok, hafter, hp⟩ := patch_after .veil
    (fun dec iter => decide (dec.outW = 8 ∧ dec.outH = 8) && decide (
      pixel (dec.blendFrame iter false (dec.decodeFrame .veil .fine iter Heap.empty).mem).1 dec.outW 2 2 =
        0x03fefefe ∧
      pixel (blendSplitRows dec.blendFunc (dec.decodeFrame .veil .fine iter Heap.empty).mem dec.prevFrameDisposed
        iter dec.prevIter dec.outW iter.height.toNat) dec.outW 2 2 = 0x03ffffff)) (by decide +kernel)
  simp only [Bool.and_eq_true, decide_eq_true_eq] at hp
  obtain ⟨⟨hW, hH⟩, hnewPixel, holdPixel⟩ := hp
  refine ⟨dmux, dec₀, dec, iter, ha, hnew, hr, hframe, hkey, hok, hafter, ⟨by omega, by omega⟩, ?_⟩
  rw [hnewPixel, holdPixel]
  exact fun h => absurd (h.2 (by decide) 0 (by decide)) (by decide)

end WebPlugin
