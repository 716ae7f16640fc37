/-
# Canvas assembly

The specification assembles a canvas from frames: what the previous frame has
left, disposed, with the frame drawn over its rectangle. `Assembling` follows a
run of calls with the canvas that is so left, as a function of column and row.
`GetNext` instead clears its canvas for a key frame and does not blend it; the
run keeps the canvas empty wherever that shortcut relies on it (`Tracks`), and
so returns the assembled canvas all the same (`canvas_assembly`).
-/
import WebPlugin.Pixels
import WebPlugin.Extents
import WebPlugin.Premult
import WebPlugin.Replay

namespace WebPlugin

open Memory Ledger Words

/-- A pixel for every column and row. -/
abbrev Picture := ℤ → ℤ → ℕ

/-- The pixel of the decoded frame that goes to column `i` and row `j`. -/
def framePixel (codec : Codec) (dec : WebPAnimDecoder) (iter : WebPIterator) : Picture := fun i j =>
  wordOf (codec.sample iter.fragment (dec.targetConfig (dec.rect iter)).options dec.config.output.colorspace
    (j - (dec.rect iter).yOff).toNat) (4 * (i - (dec.rect iter).xOff).toNat)

/-- The canvas `c` once the frame is disposed. -/
def disposedPicture (dec : WebPAnimDecoder) (iter : WebPIterator) (c : Picture) : Picture := fun i j =>
  if iter.disposeMethod = .background ∧ (dec.rect iter).Has i j then 0 else c i j

/-- A run of calls on a decoder, any of which may fail, and resets, with the
canvas that the frames returned since the start or the last reset leave. -/
inductive Assembling (codec : Codec) (dec₀ : WebPAnimDecoder) : ℕ → Picture → WebPAnimDecoder → Prop
  | start : Assembling codec dec₀ 0 (fun _ _ => 0) dec₀
  | success {k : ℕ} {D : Picture} {dec : WebPAnimDecoder} {iter : WebPIterator} {t : ℤ}
      (run : Assembling codec dec₀ k D dec) (env : Env) (heap : Heap ObjectKind) (frame : dec.Frame iter)
      (ok : (webPAnimDecoderGetNext codec env dec heap).timestamp = some t) :
      Assembling codec dec₀ (k + 1)
        (disposedPicture dec iter (pixel (webPAnimDecoderGetNext codec env dec heap).dec.currFrame dec.outW))
        (webPAnimDecoderGetNext codec env dec heap).dec
  | failure {k : ℕ} {D : Picture} {dec : WebPAnimDecoder} (run : Assembling codec dec₀ k D dec) (env : Env)
      (heap : Heap ObjectKind) (failed : (webPAnimDecoderGetNext codec env dec heap).timestamp = none) :
      Assembling codec dec₀ k D (webPAnimDecoderGetNext codec env dec heap).dec
  | reset {k : ℕ} {D : Picture} {dec : WebPAnimDecoder} (run : Assembling codec dec₀ k D dec) :
      Assembling codec dec₀ 0 (fun _ _ => 0) (webPAnimDecoderReset dec)

/-! ### What is asked of the frames -/

/-- A frame has a scaled rectangle, and its products do not wrap. -/
structure Placeable (dec : WebPAnimDecoder) (iter : WebPIterator) : Prop where
  products : ProductsFit iter dec.outW dec.outH
  width : 1 ≤ (dec.rect iter).frmW
  height : 1 ≤ (dec.rect iter).frmH

/-- A frame without alpha is decoded to opaque pixels, and one for a mode with
premultiplied colors to such pixels. -/
structure Renders (codec : Codec) (dec : WebPAnimDecoder) (iter : WebPIterator) : Prop where
  solid : iter.hasAlpha = false → ∀ i j, (dec.rect iter).Has i j → alpha (framePixel codec dec iter i j) = 255
  legal : ∀ i j, (dec.rect iter).Has i j → dec.blendFunc.Legal (framePixel codec dec iter i j)

namespace Twin

variable {dec dec' : WebPAnimDecoder} {iter : WebPIterator} {codec : Codec}

theorem framePixel (h : Twin dec dec') : framePixel codec dec iter = framePixel codec dec' iter := by
  funext i j
  rw [WebPlugin.framePixel, WebPlugin.framePixel, h.rect, h.targetOptions, h.colorspace]

theorem placeable (h : Twin dec dec') (hp : Placeable dec' iter) : Placeable dec iter := by
  refine ⟨?_, ?_, ?_⟩
  · rw [h.outW, h.outH]
    exact hp.products
  · rw [h.rect]
    exact hp.width
  · rw [h.rect]
    exact hp.height

theorem renders (h : Twin dec dec') (hr : Renders codec dec' iter) : Renders codec dec iter := by
  constructor
  · rw [h.rect, h.framePixel]
    exact hr.solid
  · rw [h.rect, h.framePixel, h.blendFunc]
    exact hr.legal

end Twin

namespace Ready

variable {dec : WebPAnimDecoder} {iter : WebPIterator}

/-- A frame as large as the canvas is drawn over all of it. -/
theorem rect_full (hd : Ready dec) (hi : IterFacts dec.demux iter) (hp : Placeable dec iter)
    (hfull : isFullFrame iter.width iter.height (i32 dec.info.canvasWidth) (i32 dec.info.canvasHeight) = true)
    {i j : ℤ} (hc : OnCanvas dec.outW dec.outH i j) : (dec.rect iter).Has i j := by
  obtain ⟨data, ha⟩ := hd.accepted
  have hcw := ha.canvas.width
  have hch := ha.canvas.height
  have hw := hd.width
  have hh := hd.height
  rw [isFullFrame, decide_eq_true_eq, i32_of_range (by omega) (by omega), i32_of_range (by omega) (by omega)] at hfull
  obtain ⟨ew, eh⟩ := hfull
  have hx0 : iter.xOffset = 0 := by have := hi.x; have := hi.right; omega
  have hy0 : iter.yOffset = 0 := by have := hi.y; have := hi.bottom; omega
  obtain ⟨rx, ry, rw', rh, -⟩ := (hd.exactRect_iff hi).mpr hp.products
  rw [hx0, zero_mul, Int.zero_ediv] at rx
  rw [hy0, zero_mul, Int.zero_ediv] at ry
  rw [ew, Int.mul_ediv_cancel_left _ (by omega)] at rw'
  rw [eh, Int.mul_ediv_cancel_left _ (by omega)] at rh
  refine ⟨?_, ?_⟩
  · rw [rx, rw', zero_add]
    exact hc.1
  · rw [ry, rh, zero_add]
    exact hc.2

/-- The block decoded is the rectangle. -/
theorem block_eq_rect (hd : Ready dec) (hi : IterFacts dec.demux iter) (hp : Placeable dec iter) :
    dec.block iter = dec.rect iter := by
  refine FrameRect.with_frmW _ ?_
  rw [WebPAnimDecoder.blockWidth]
  by_cases hs : 0 < dec.outCanvasW
  · have hne : (dec.rect iter).frmW ≠ 0 := by have := hp.width; omega
    rw [if_pos hs, if_neg hne]
  · have hs' : dec.outCanvasW = 0 := by have := hd.both; omega
    rw [if_neg hs, ((hd.exactRect_iff hi).mpr hp.products).own hs']

end Ready

/-! ### The canvas left behind -/

/-- The decoder's disposed canvas is the canvas left behind, and that canvas is
empty where a key frame takes it to be. -/
structure Tracks (dec : WebPAnimDecoder) (D : Picture) : Prop where
  first : dec.nextFrame = 1 → ∀ i j, OnCanvas dec.outW dec.outH i j → D i j = 0
  kept : dec.nextFrame ≠ 1 → ∀ i j, OnCanvas dec.outW dec.outH i j →
    pixel dec.prevFrameDisposed dec.outW i j = D i j
  cleared : dec.nextFrame ≠ 1 → dec.prevIter.disposeMethod = .background →
    (isFullFrame dec.prevIter.width dec.prevIter.height (i32 dec.info.canvasWidth) (i32 dec.info.canvasHeight) =
        true ∨ dec.prevFrameWasKeyframe = true) → ∀ i j, OnCanvas dec.outW dec.outH i j → D i j = 0
  word : ∀ i j, OnCanvas dec.outW dec.outH i j → D i j < 4294967296
  legal : ∀ i j, OnCanvas dec.outW dec.outH i j → dec.blendFunc.Legal (D i j)

theorem Tracks.start {dec : WebPAnimDecoder} (h : dec.nextFrame = 1) : Tracks dec fun _ _ => 0 :=
  ⟨fun _ _ _ _ => rfl, fun hne => absurd h hne, fun hne => absurd h hne, fun _ _ _ => by norm_num,
    fun _ _ _ => BlendRowFunc.legal_zero⟩

/-- Why a frame is a key frame. -/
theorem WebPAnimDecoder.isKey_cases {dec : WebPAnimDecoder} {iter : WebPIterator} (h : dec.isKey iter = true) :
    iter.frameNum = 1 ∨
      ((iter.hasAlpha = false ∨ iter.blendMethod = .noBlend) ∧
        isFullFrame iter.width iter.height (i32 dec.info.canvasWidth) (i32 dec.info.canvasHeight) = true) ∨
      dec.prevIter.disposeMethod = .background ∧
        (isFullFrame dec.prevIter.width dec.prevIter.height (i32 dec.info.canvasWidth)
          (i32 dec.info.canvasHeight) = true ∨ dec.prevFrameWasKeyframe = true) := by
  unfold isKey isKeyFrame at h
  split_ifs at h with h1 h2
  · exact .inl h1
  · exact .inr (.inl ⟨by simpa using h2.1, h2.2⟩)
  · exact .inr (.inr (of_decide_eq_true h))

section

variable {dec : WebPAnimDecoder} {iter : WebPIterator} {codec : Codec} {D : Picture} {i j : ℤ}

/-- A key frame covers the canvas, or finds it empty. -/
theorem Tracks.key_empty (ht : Tracks dec D) (hd : Ready dec) (hframe : dec.Frame iter) (hp : Placeable dec iter)
    (hkey : dec.isKey iter = true) :
    ((iter.hasAlpha = false ∨ iter.blendMethod = .noBlend) ∧
        ∀ i j, OnCanvas dec.outW dec.outH i j → (dec.rect iter).Has i j) ∨
      ∀ i j, OnCanvas dec.outW dec.outH i j → D i j = 0 := by
  obtain ⟨hnum, hi⟩ := hd.iterFacts hframe
  rcases WebPAnimDecoder.isKey_cases hkey with h1 | ⟨hsolid, hfull⟩ | ⟨hdisp, hwas⟩
  · exact .inr (ht.first (hnum.symm.trans h1))
  · exact .inl ⟨hsolid, fun i j hc => hd.rect_full hi hp hfull hc⟩
  · by_cases h1 : dec.nextFrame = 1
    · exact .inr (ht.first h1)
    · exact .inr (ht.cleared h1 hdisp hwas)

theorem Tracks.key_outside (ht : Tracks dec D) (hd : Ready dec) (hframe : dec.Frame iter) (hp : Placeable dec iter)
    (hkey : dec.isKey iter = true) (hc : OnCanvas dec.outW dec.outH i j) (hout : ¬ (dec.rect iter).Has i j) :
    D i j = 0 := by
  rcases ht.key_empty hd hframe hp hkey with ⟨-, hall⟩ | hzero
  · exact absurd (hall i j hc) hout
  · exact hzero i j hc

/-- The canvas a frame is decoded into holds, around the frame, what the
previous one has left. -/
theorem Tracks.base (ht : Tracks dec D) (hd : Ready dec) (hf : dec.Fits) (hframe : dec.Frame iter)
    (hp : Placeable dec iter) (hc : OnCanvas dec.outW dec.outH i j) (hout : ¬ (dec.rect iter).Has i j) :
    pixel (dec.baseCanvas (dec.isKey iter)) dec.outW i j = D i j := by
  have hsize : ((dec.baseCanvas (dec.isKey iter)).size : ℤ) = 4 * dec.outW * dec.outH := hd.curr_size hf
  cases hkey : dec.isKey iter with
  | true =>
    rw [hkey] at hsize
    rw [ht.key_outside hd hframe hp hkey hc hout]
    refine pixel_zero hsize hc fun k hk => ?_
    rw [WebPAnimDecoder.baseCanvas]
    exact Buf.writeRow_in hk (by simp) hk
  | false =>
    rw [hkey] at hsize
    have hne : dec.nextFrame ≠ 1 := by
      intro h1
      rw [WebPAnimDecoder.isKey_first ((hd.iterFacts hframe).1.trans h1)] at hkey
      cases hkey
    have hsame : (dec.baseCanvas false).Same dec.prevFrameDisposed := by
      refine ⟨hd.prev.symm, fun k hk => ?_⟩
      rw [WebPAnimDecoder.baseCanvas]
      exact Buf.writeRow_in hk (by simp) hk
    rw [pixel_same hsame hsize hc]
    exact ht.kept hne i j hc

/-- The canvas a frame is composed to. -/
theorem Tracks.composed (ht : Tracks dec D) (hd : Ready dec) (hf : dec.Fits) (hframe : dec.Frame iter)
    (hp : Placeable dec iter) {d : Decoded} (hmem : d.mem = dec.blockCanvas codec iter)
    (hc : OnCanvas dec.outW dec.outH i j) :
    pixel (dec.composed iter d) dec.outW i j =
      if (dec.rect iter).Has i j then
        if 1 < iter.frameNum ∧ iter.blendMethod = .blend ∧ !dec.isKey iter then
          dec.blendFunc.blend (framePixel codec dec iter i j) (D i j)
        else framePixel codec dec iter i j
      else D i j := by
  obtain ⟨hnum, hi⟩ := hd.iterFacts hframe
  obtain ⟨-, -, hr⟩ := hd.rect_within hi
  have hbase : ((dec.baseCanvas (dec.isKey iter)).size : ℤ) = 4 * dec.outW * dec.outH := hd.curr_size hf
  rw [WebPAnimDecoder.blockCanvas, hd.block_eq_rect hi hp] at hmem
  have hsize : (d.mem.size : ℤ) = 4 * dec.outW * dec.outH := by
    rw [hmem, Buf.writeRows_size]
    exact hbase
  have hin : (dec.rect iter).Has i j → pixel d.mem dec.outW i j = framePixel codec dec iter i j := fun h => by
    rw [hmem]
    exact pixel_writeRows_in hr hbase h
  have hout : ¬ (dec.rect iter).Has i j → pixel d.mem dec.outW i j = D i j := fun h => by
    rw [hmem, pixel_writeRows_out hr hc h]
    exact ht.base hd hf hframe hp hc h
  rw [WebPAnimDecoder.composed, WebPAnimDecoder.blendFrame]
  by_cases hblend : 1 < iter.frameNum ∧ iter.blendMethod = .blend ∧ !dec.isKey iter
  · have hrows := (blendRows_blended dec.blendFunc dec.prevFrameDisposed hr hf hsize
      (dec.rect iter).frmH.toNat (Int.toNat_of_nonneg hr.h).le).congr (T := (dec.rect iter).Has) fun i j _ => by
        rw [Int.toNat_of_nonneg hr.h]
        rfl
    rw [if_pos hblend, if_pos hblend]
    split_ifs with h
    · rw [hrows.inside i j hc h, hin h, ht.kept (by omega) i j hc]
    · rw [hrows.outside i j hc h, hout h]
  · rw [if_neg hblend, if_neg hblend]
    split_ifs with h
    · exact hin h
    · exact hout h

end

/-! ### Drawing a frame -/

/-- The canvas `C` is `D` with the frame `S` drawn over the rectangle. -/
structure Drawn (r : FrameRect) (W H : ℤ) (method : WebPMuxAnimBlend) (D S C : Picture) : Prop where
  outside : ∀ i j, OnCanvas W H i j → ¬ r.Has i j → C i j = D i j
  replaced : method = .noBlend → ∀ i j, OnCanvas W H i j → r.Has i j → alpha (C i j) = alpha (S i j)
  blended : method = .blend → ∀ i j, OnCanvas W H i j → r.Has i j →
    alpha (C i j) = blendAlpha (alpha (S i j)) (alpha (D i j)) ∧ blendAlpha (alpha (S i j)) (alpha (D i j)) < 256
  source : ∀ i j, OnCanvas W H i j → r.Has i j → alpha (S i j) = 255 ∨ method = .noBlend → C i j = S i j

/-- The canvas `D` with the frame `S` put on the rectangle, or blended over it. -/
def overPicture (f : BlendRowFunc) (r : FrameRect) (blended : Bool) (D S : Picture) : Picture := fun i j =>
  if r.Has i j then if blended then f.blend (S i j) (D i j) else S i j else D i j

/-- A frame is blended when it asks for it and is not a key frame. -/
def WebPIterator.blends (iter : WebPIterator) (key : Bool) : Bool :=
  1 < iter.frameNum ∧ iter.blendMethod = .blend ∧ !key

section

variable {dec : WebPAnimDecoder} {iter : WebPIterator} {codec : Codec} {D : Picture} {d : Decoded}

theorem Tracks.composed_eq (ht : Tracks dec D) (hd : Ready dec) (hf : dec.Fits) (hframe : dec.Frame iter)
    (hp : Placeable dec iter) (hmem : d.mem = dec.blockCanvas codec iter) {i j : ℤ}
    (hc : OnCanvas dec.outW dec.outH i j) : pixel (dec.composed iter d) dec.outW i j =
      overPicture dec.blendFunc (dec.rect iter) (iter.blends (dec.isKey iter)) D (framePixel codec dec iter) i j := by
  rw [ht.composed hd hf hframe hp hmem hc, overPicture, WebPIterator.blends]
  simp only [decide_eq_true_eq]

/-- The shortcut for key frames does not show: they cover what is left, or there
is nothing left to blend over. -/
theorem Tracks.drawn (ht : Tracks dec D) (hd : Ready dec) (hf : dec.Fits) (hframe : dec.Frame iter)
    (hp : Placeable dec iter) (hr : Renders codec dec iter) (hmem : d.mem = dec.blockCanvas codec iter) :
    Drawn (dec.rect iter) dec.outW dec.outH iter.blendMethod D (framePixel codec dec iter)
      (pixel (dec.composed iter d) dec.outW) := by
  have hD : ∀ i j, OnCanvas dec.outW dec.outH i j → D i j < 4294967296 := fun i j hc => ht.word i j hc
  have hpix := fun i j hc => ht.composed (i := i) (j := j) hd hf hframe hp hmem hc
  have hS : ∀ i j, framePixel codec dec iter i j < 4294967296 := fun i j => wordOf_lt _ _
  constructor
  · intro i j hc hout
    rw [hpix i j hc, if_neg hout]
  · intro hm i j hc hin
    rw [hpix i j hc, if_pos hin, if_neg (by simp [hm])]
  · intro hm i j hc hin
    refine ⟨?_, blendAlpha_lt (alpha_lt _) (alpha_lt _)⟩
    rw [hpix i j hc, if_pos hin]
    split_ifs with hb
    · exact BlendRowFunc.alpha_blend_of_legal (hS i j) (hD i j hc) (hr.legal i j hin)
    · -- Not blended, the frame is a key frame.
      have hkey : dec.isKey iter = true := by
        by_contra hk
        have hnum : ¬ 1 < iter.frameNum := fun h1 => hb ⟨h1, hm, by simpa using hk⟩
        have hnext := hd.next
        have := (hd.iterFacts hframe).1
        exact hk (WebPAnimDecoder.isKey_first (by omega))
      rcases ht.key_empty hd hframe hp hkey with ⟨hsolid | hm', -⟩ | hzero
      · rw [hr.solid hsolid i j hin, blendAlpha_opaque (alpha_lt _)]
      · rw [hm] at hm'
        cases hm'
      · rw [hzero i j hc, alpha_zero, blendAlpha_zero_right]
  · intro i j hc hin hs
    rw [hpix i j hc, if_pos hin]
    split_ifs with hb
    · rcases hs with ha | hm
      · exact BlendRowFunc.blend_of_full _ ha
      · rw [hm] at hb
        cases hb.2.1
    · rfl

/-- The next frame finds the canvas this one leaves. -/
theorem Tracks.compose (ht : Tracks dec D) (hd : Ready dec) (hf : dec.Fits) (hframe : dec.Frame iter)
    (hp : Placeable dec iter) (hr : Renders codec dec iter) (hmem : d.mem = dec.blockCanvas codec iter)
    (hs : d.mem.size = dec.currFrame.size) :
    Tracks (dec.compose iter d) (disposedPicture dec iter (pixel (dec.composed iter d) dec.outW)) := by
  obtain ⟨hnum, hi⟩ := hd.iterFacts hframe
  obtain ⟨-, -, hrect⟩ := hd.rect_within hi
  have hnext := hd.next
  have hsize : (dec.composed iter d).size = dec.currFrame.size := (hd.blendFrame_fit hf hi hs (dec.isKey iter)).1
  have hcurr := hd.curr_size hf
  have hpix := fun i j hc => ht.composed (i := i) (j := j) hd hf hframe hp hmem hc
  have hW : (dec.compose iter d).outW = dec.outW := by
    rw [WebPAnimDecoder.outW, WebPAnimDecoder.outW, WebPAnimDecoder.compose_outCanvasW, WebPAnimDecoder.compose_info]
  have hH : (dec.compose iter d).outH = dec.outH := by
    rw [WebPAnimDecoder.outH, WebPAnimDecoder.outH, WebPAnimDecoder.compose_outCanvasH, WebPAnimDecoder.compose_info]
  have hne : (dec.compose iter d).nextFrame ≠ 1 := by
    rw [WebPAnimDecoder.compose_nextFrame]
    omega
  constructor
  · exact fun h => absurd h hne
  · intro _ i j hc
    rw [hW, hH] at hc
    rw [hW, WebPAnimDecoder.compose_prevFrameDisposed, disposedPicture]
    exact hd.pixel_disposed hf hrect hsize hc
  · intro _ hbg hwas i j hc
    rw [WebPAnimDecoder.compose_prevIter] at hbg hwas
    rw [WebPAnimDecoder.compose_prevFrameWasKeyframe, WebPAnimDecoder.compose_info] at hwas
    rw [hW, hH] at hc
    rw [disposedPicture]
    split_ifs with hin
    · rfl
    · have hout : ¬ (dec.rect iter).Has i j := fun h => hin ⟨hbg, h⟩
      rcases hwas with hfull | hkey
      · exact absurd (hd.rect_full hi hp hfull hc) hout
      · rw [hpix i j hc, if_neg hout]
        exact ht.key_outside hd hframe hp hkey hc hout
  · intro i j _
    rw [disposedPicture]
    split_ifs
    · norm_num
    · exact pixel_lt_word _ _ _ _
  · intro i j hc
    rw [hW, hH] at hc
    rw [WebPAnimDecoder.compose_blendFunc, disposedPicture]
    split_ifs
    · exact BlendRowFunc.legal_zero
    · rw [hpix i j hc]
      split_ifs with hin hb
      · exact BlendRowFunc.legal_blend (wordOf_lt _ _) (hr.legal i j hin) (ht.legal i j hc)
      · exact hr.legal i j hin
      · exact ht.legal i j hc

/-- A call without a frame keeps the canvas left behind. -/
theorem Tracks.spoil (ht : Tracks dec D) : Tracks (dec.spoil iter d) D := by
  have hW : (dec.spoil iter d).outW = dec.outW := by simp
  have hH : (dec.spoil iter d).outH = dec.outH := by simp
  constructor
  · simpa [hW, hH] using ht.first
  · simpa [hW, hH] using ht.kept
  · simpa [hW, hH] using ht.cleared
  · simpa [hW, hH] using ht.word
  · simpa [hW, hH] using ht.legal

end

/-! ### Runs -/

theorem Assembling.since {codec : Codec} {dec₀ dec : WebPAnimDecoder} {k : ℕ} {D : Picture}
    (hr : Assembling codec dec₀ k D dec) : Since codec dec₀ k dec := by
  induction hr with
  | start => exact .start
  | success run env heap frame ok ih => exact ih.success env heap ok
  | failure run env heap failed ih => exact ih.failure env heap failed
  | reset run ih => exact ih.reset

/-- What a call that returns a frame has done. -/
theorem Ready.next_drawn {codec : Codec} {env : Env} {heap : Heap ObjectKind} {dec : WebPAnimDecoder}
    {iter : WebPIterator} {D : Picture} {t : ℤ} (hd : Ready dec) (hframe : dec.Frame iter) (ht : Tracks dec D)
    (hp : Placeable dec iter) (hr : Renders codec dec iter)
    (hok : (webPAnimDecoderGetNext codec env dec heap).timestamp = some t) :
    Drawn (dec.rect iter) dec.outW dec.outH iter.blendMethod D (framePixel codec dec iter)
        (pixel (webPAnimDecoderGetNext codec env dec heap).dec.currFrame dec.outW) ∧
      Tracks (webPAnimDecoderGetNext codec env dec heap).dec
        (disposedPicture dec iter (pixel (webPAnimDecoderGetNext codec env dec heap).dec.currFrame dec.outW)) ∧
      ∀ i j, OnCanvas dec.outW dec.outH i j →
        pixel (webPAnimDecoderGetNext codec env dec heap).dec.currFrame dec.outW i j =
          overPicture dec.blendFunc (dec.rect iter) (iter.blends (dec.isKey iter)) D (framePixel codec dec iter)
            i j := by
  have hcases := hd.next_cases codec env heap
  generalize webPAnimDecoderGetNext codec env dec heap = n at hok hcases ⊢
  cases hcases with
  | nothing why => cases hok
  | failed fits frame bad => cases hok
  | @composed iter' fits frame good =>
    obtain rfl : iter' = iter := Option.some.inj (frame.2.symm.trans hframe.2)
    have hi := (hd.iterFacts frame).2
    have hdec := hd.decoded hi codec env heap
    have hmem := (hd.decodeFrame_ok fits hi good).2
    generalize dec.decodeFrame codec env iter' heap = d at hdec hmem ⊢
    have hcanvas : d.mem = dec.blockCanvas codec iter' := by rw [hmem]
    rw [WebPAnimDecoder.compose_currFrame]
    exact ⟨ht.drawn hd fits frame hp hr hcanvas, ht.compose hd fits frame hp hr hcanvas hdec.mem_size.1,
      fun i j hc => ht.composed_eq hd fits frame hp hcanvas hc⟩

theorem Assembling.tracks {codec : Codec} {dec₀ dec : WebPAnimDecoder} {k : ℕ} {D : Picture} (h₀ : Ready dec₀)
    (hnew : dec₀ = webPAnimDecoderReset dec₀)
    (hframes : ∀ n iter, 1 ≤ n → webPDemuxGetFrame dec₀.demux n = some iter →
      Placeable dec₀ iter ∧ Renders codec dec₀ iter)
    (hr : Assembling codec dec₀ k D dec) : Tracks dec D := by
  induction hr with
  | start =>
    rw [hnew]
    exact .start rfl
  | success run env heap frame ok ih =>
    obtain ⟨hd, ht⟩ := run.since.ready h₀
    obtain ⟨hp, hrend⟩ := hframes _ _ hd.next (ht.demux ▸ frame.2)
    exact (hd.next_drawn frame ih (ht.placeable hp) (ht.renders hrend) ok).2.1
  | failure run env heap failed ih =>
    obtain ⟨hd, -⟩ := run.since.ready h₀
    have hcases := hd.next_cases codec env heap
    generalize webPAnimDecoderGetNext codec env _ heap = n at failed hcases ⊢
    cases hcases with
    | nothing why => exact ih
    | failed fits frame bad => exact ih.spoil
    | composed fits frame good => cases failed
  | reset run ih => exact .start rfl

/-- Without scaling, every frame of a canvas of at most 65535 a side is placed
as it is. -/
theorem placeable_unscaled {dec : WebPAnimDecoder} {iter : WebPIterator} (hd : Ready dec) (hs : dec.outCanvasW = 0)
    (hW : dec.outW ≤ 65535) (hH : dec.outH ≤ 65535) (hi : IterFacts dec.demux iter) : Placeable dec iter := by
  obtain ⟨hcw, hch⟩ := hd.out_unscaled hs
  have hprod : ∀ {v n : ℤ}, 0 ≤ v → v ≤ n → n ≤ 65535 → v * n < 4294967296 := fun h0 hv hn => by
    have := mul_le_mul (hv.trans hn) hn (by omega) (show (0 : ℤ) ≤ 65535 by norm_num)
    omega
  have hx := hi.x; have hy := hi.y
  have hw := hi.width; have hh := hi.height
  have hright := hi.right; have hbottom := hi.bottom
  have hfit : ProductsFit iter dec.outW dec.outH :=
    ⟨hprod hx (by omega) hW, hprod hy (by omega) hH, hprod hw.le (by omega) hW, hprod hh.le (by omega) hH⟩
  have hown := ((hd.exactRect_iff hi).mpr hfit).own hs
  refine ⟨hfit, ?_, ?_⟩ <;> rw [hown] <;> dsimp only <;> omega

/-- The canvases that a run returns are those of the specification: each draws
its frame over the one before, disposed. An unscaled animation of up to 65535 a
side asks nothing of its frames for that. -/
theorem canvas_assembly {codec : Codec} {grants : Grants} {data : WebPData} {dmux : WebPDemuxer}
    {options : WebPAnimDecoderOptions} {heap heap' : Heap ObjectKind} {dec₀ : WebPAnimDecoder}
    (ha : Accepted data dmux) (ho : IntOptions options)
    (hnew : webPAnimDecoderNew grants data options heap = (some dec₀, heap')) :
    ((∀ n iter, 1 ≤ n → webPDemuxGetFrame dmux n = some iter → Placeable dec₀ iter) →
      (∀ n iter, 1 ≤ n → webPDemuxGetFrame dmux n = some iter → Renders codec dec₀ iter) →
      ∀ {k D dec iter env heap t}, Assembling codec dec₀ k D dec → dec.Frame iter →
        (webPAnimDecoderGetNext codec env dec heap).timestamp = some t →
        iter.frameNum = k + 1 ∧
          Drawn (dec₀.rect iter) dec₀.outW dec₀.outH iter.blendMethod D (framePixel codec dec₀ iter)
            (pixel (webPAnimDecoderGetNext codec env dec heap).dec.currFrame dec₀.outW)) ∧
    (¬ (0 < options.scaledWidth ∧ 0 < options.scaledHeight) → dmux.canvasWidth ≤ 65535 →
      dmux.canvasHeight ≤ 65535 →
      ∀ n iter, 1 ≤ n → webPDemuxGetFrame dmux n = some iter → Placeable dec₀ iter) := by
  obtain ⟨h₀, hdmux⟩ := ready_of_new ha ho hnew
  obtain ⟨-, -, -, -, -, -, hreset⟩ := webPAnimDecoderNew_some hnew
  constructor
  · intro hplace hrend k D dec iter env heap t hrun hframe hok
    have htracks := hrun.tracks h₀ hreset fun n iter hn hget =>
      ⟨hplace n iter hn (hdmux ▸ hget), hrend n iter hn (hdmux ▸ hget)⟩
    obtain ⟨hd, ht⟩ := hrun.since.ready h₀
    have hget : webPDemuxGetFrame dmux dec.nextFrame = some iter := hdmux ▸ ht.demux ▸ hframe.2
    have hdrawn := (hd.next_drawn hframe htracks (ht.placeable (hplace _ _ hd.next hget))
      (ht.renders (hrend _ _ hd.next hget)) hok).1
    rw [ht.rect, ht.outW, ht.outH, ht.framePixel] at hdrawn
    exact ⟨(hd.iterFacts hframe).1.trans (hrun.since.nextFrame h₀ hreset), hdrawn⟩
  · intro hs hW hH n iter hn hget
    have hr : Reach codec dec₀ dec₀ := .refl
    obtain ⟨-, -, hcw, eW, eH⟩ := hr.out ha ho hnew
    rw [if_neg hs] at hcw eW eH
    exact placeable_unscaled h₀ hcw (eW ▸ hW) (eH ▸ hH) (hdmux ▸ (ha.of_getFrame hn hget).2)

/-! The second frame of an animation, over a first one that is disposed. -/

theorem Ready.black_renders {dec : WebPAnimDecoder} (hd : Ready dec) (iter : WebPIterator) :
    Renders .black dec iter := by
  have hpix : ∀ i j, framePixel .black dec iter i j = 4278190080 := by
    intro i j
    have hbpp := hd.config.bpp
    have h0 : 4 * (i - (dec.rect iter).xOff).toNat % 4 = 0 := Nat.mul_mod_right _ _
    have h1 : (4 * (i - (dec.rect iter).xOff).toNat + 1) % 4 = 1 := by omega
    have h2 : (4 * (i - (dec.rect iter).xOff).toNat + 2) % 4 = 2 := by omega
    have h3 : (4 * (i - (dec.rect iter).xOff).toNat + 3) % 4 = 3 := by omega
    simp [framePixel, wordOf, Codec.black, hbpp, h0, h1, h2, h3]
  constructor
  · intro _ i j _
    rw [hpix]
    decide
  · intro i j _ _
    rw [hpix]
    intro c hc
    interval_cases c <;> decide

theorem Ready.frame_of_next {codec : Codec} {env : Env} {heap : Heap ObjectKind} {dec : WebPAnimDecoder} {t : ℤ}
    (hd : Ready dec) (hok : (webPAnimDecoderGetNext codec env dec heap).timestamp = some t) :
    ∃ iter, dec.Frame iter := by
  have hcases := hd.next_cases codec env heap
  generalize webPAnimDecoderGetNext codec env dec heap = n at hok hcases
  cases hcases with
  | nothing why => cases hok
  | failed fits frame bad => cases hok
  | composed fits frame good => exact ⟨_, frame⟩

theorem badge_assembles : ∃ dec₀ D dec iter, Assembling .black dec₀ 1 D dec ∧ dec.Frame iter ∧
    Drawn (dec₀.rect iter) dec₀.outW dec₀.outH iter.blendMethod D (framePixel .black dec₀ iter)
      (pixel (webPAnimDecoderGetNext .black .fine dec Heap.empty).dec.currFrame dec₀.outW) := by
  obtain ⟨dmux, ha⟩ := badge_accepted
  have hsize : (webPDemux badge).any fun d => d.canvasWidth = 64 && d.canvasHeight = 64 := by decide +kernel
  rw [ha.demux, Option.any_some, Bool.and_eq_true, decide_eq_true_eq, decide_eq_true_eq] at hsize
  have hrun : (webPAnimDecoderNew Env.fine.grants badge {} Heap.empty).1.any
      fun dec => cleanNext .black dec fun dec => cleanNext .black dec fun _ => true := by decide +kernel
  obtain ⟨dec₀, hnew, hp⟩ := webPAnimDecoderNew_any hrun
  obtain ⟨h₀, -⟩ := ready_of_new ha ⟨by decide, by decide⟩ hnew
  obtain ⟨hok, hp⟩ := (Bool.and_eq_true _ _).mp hp
  obtain ⟨t, ht⟩ := Option.isSome_iff_exists.mp hok
  obtain ⟨iter, hframe⟩ := h₀.frame_of_next ht
  have hstep := Assembling.start.success .fine Heap.empty hframe ht
  have hd := h₀.next_dec .black .fine Heap.empty
  generalize (webPAnimDecoderGetNext .black .fine dec₀ Heap.empty).dec = dec at hp hstep hd
  obtain ⟨t', ht'⟩ := Option.isSome_iff_exists.mp ((Bool.and_eq_true _ _).mp hp).1
  obtain ⟨iter', hframe'⟩ := hd.frame_of_next ht'
  have h := @canvas_assembly .black _ _ _ _ _ _ _ ha ⟨by decide, by decide⟩ hnew
  exact ⟨dec₀, _, dec, iter', hstep, hframe', (h.1 (h.2 (by decide) (by omega) (by omega))
    (fun _ iter _ _ => h₀.black_renders iter) hstep hframe' ht').2⟩

end WebPlugin
