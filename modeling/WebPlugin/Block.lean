/-
# The block a decode fills

`WebPDecode` takes its own size: the one asked for when it scales, except that
a width of 0 is guessed from the height, and the frame's own when it does not.
`checkDecBuffer` then compares it with the rows of the canvas that `GetNext`
offers. `Ready.accepted_iff`: what passes is a block as high as the frame's
rectangle and no wider than the canvas, from the rectangle's corner on.
-/
import WebPlugin.GetNext
import WebPlugin.Files

namespace WebPlugin

open Memory Ledger Words

/-- A picture fits the rows of a strip of the canvas, `fh` rows of `W` pixels,
when it is exactly as high and no wider than the canvas. -/
theorem checkDecBuffer_strip {o : WebPDecBuffer} {base W fh : ℤ} (hbpp : kModeBpp o.colorspace = 4)
    (hu : o.u = ⟨some base, 4 * W, (fh * (4 * W)).toNat⟩) (hW : 0 < W) (hW' : 4 * W < 2147483648)
    (hw : 0 < o.width) (hw' : o.width ≤ 1073741823) (hh : 0 < o.height) (hh' : o.height ≤ 1073741823)
    (h0 : 0 ≤ fh) (hle : fh ≤ o.height) : checkDecBuffer o = .ok ↔ o.height = fh ∧ o.width ≤ W := by
  have hstride : i32 |4 * W| = 4 * W := by
    rw [abs_of_nonneg (by omega)]
    exact i32_of_range (by omega) hW'
  have hrow : ((u64 o.width * 4 % 2 ^ 64 : ℕ) : ℤ) = 4 * o.width := by
    have := u64_of_range hw.le (by omega)
    omega
  have hlast : 4 * W * (o.height - 1) ≤ 2147483648 * 1073741823 :=
    mul_le_mul hW'.le (by omega) (by omega) (by norm_num)
  have hlast0 : 0 ≤ 4 * W * (o.height - 1) := mul_nonneg (by omega) (by omega)
  have hmin : (minBufferSize (u64 o.width * 4 % 2 ^ 64) o.height (4 * W) : ℤ) =
      4 * W * (o.height - 1) + 4 * o.width := by
    have h1 := u64_of_range (show 0 ≤ 4 * W by omega) (by omega)
    have h2 := u64_of_range (show 0 ≤ o.height - 1 by omega) (by omega)
    rw [minBufferSize]
    push_cast at hrow ⊢
    rw [h1, h2, hrow, Int.emod_eq_of_lt (by omega) (by omega)]
  have hsize : 0 ≤ fh * (4 * W) := mul_nonneg h0 (by omega)
  have hcheck : checkDecBuffer o = .ok ↔ 4 * W * (o.height - 1) + 4 * o.width ≤ fh * (4 * W) ∧
      i32 (o.width * (4 : ℕ)) ≤ 4 * W := by
    unfold checkDecBuffer
    simp only [hu, hbpp, hstride, Option.isSome_some, and_true]
    generalize minBufferSize (u64 o.width * 4 % 2 ^ 64) o.height (4 * W) = m at hmin
    split_ifs with hc
    · exact iff_of_true rfl ⟨by omega, hc.2⟩
    · exact iff_of_false (by decide) fun hc' => hc ⟨by omega, hc'.2⟩
  rw [hcheck]
  constructor
  · rintro ⟨hfit, -⟩
    -- A row short, the block would end a row past the strip.
    have hfh : o.height = fh := by
      by_contra hne
      have : fh * (4 * W) ≤ (o.height - 1) * (4 * W) :=
        mul_le_mul_of_nonneg_right (by omega) (by omega)
      linarith
    refine ⟨hfh, ?_⟩
    rw [← hfh] at hfit
    linarith
  · rintro ⟨rfl, hwW⟩
    refine ⟨by linarith, ?_⟩
    rw [i32_of_range (by push_cast; omega) (by push_cast; omega)]
    push_cast
    omega

theorem FrameRect.with_frmW (r : FrameRect) {w : ℤ} (h : w = r.frmW) : { r with frmW := w } = r := by
  rw [h]

/-- With a height asked for, only the width is guessed. -/
theorem webPRescaler_eq {w h sw sh : ℤ} (hh : 0 < h) (hsh : sh ≠ 0) :
    webPRescalerGetScaledDimensions w h sw sh =
      if (if sw = 0 then guessSide w h sh else sw) ≤ 0 ∨ sh ≤ 0 ∨
          1073741823 < (if sw = 0 then guessSide w h sh else sw) ∨ 1073741823 < sh then none
      else some (if sw = 0 then guessSide w h sh else sw, sh) := by
  simp [webPRescalerGetScaledDimensions, hh, hsh]

theorem webPRescaler_width {w h sw sh w' h' : ℤ} (hh : 0 < h) (hsh : sh ≠ 0)
    (hr : webPRescalerGetScaledDimensions w h sw sh = some (w', h')) :
    w' = (if sw = 0 then guessSide w h sh else sw) ∧ h' = sh := by
  rw [webPRescaler_eq hh hsh, Option.ite_none_left_eq_some, Option.some.injEq, Prod.mk.injEq] at hr
  exact ⟨hr.2.1.symm, hr.2.2.symm⟩

namespace WebPAnimDecoder

variable (dec : WebPAnimDecoder) (iter : WebPIterator)

/-- The width of the picture decoded for a frame. -/
def blockWidth : ℤ :=
  if 0 < dec.outCanvasW then
    if (dec.rect iter).frmW = 0 then guessSide iter.width iter.height (dec.rect iter).frmH
    else (dec.rect iter).frmW
  else iter.width

/-- The rectangle decoded for a frame. -/
def block : FrameRect := { dec.rect iter with frmW := dec.blockWidth iter }

/-- `WebPDecode` accepts the sizes it gets for a frame. -/
structure Playable : Prop where
  height : 0 < (dec.rect iter).frmH
  whole : dec.outCanvasW = 0 → (dec.rect iter).frmH = iter.height
  width : 0 < dec.blockWidth iter
  fits : dec.blockWidth iter ≤ dec.outW

instance : Decidable (dec.Playable iter) :=
  decidable_of_iff (0 < (dec.rect iter).frmH ∧ (dec.outCanvasW = 0 → (dec.rect iter).frmH = iter.height) ∧
      0 < dec.blockWidth iter ∧ dec.blockWidth iter ≤ dec.outW)
    ⟨fun ⟨h1, h2, h3, h4⟩ => ⟨h1, h2, h3, h4⟩, fun ⟨h1, h2, h3, h4⟩ => ⟨h1, h2, h3, h4⟩⟩

/-- The output buffer of a frame's picture. -/
def blockBuffer : WebPDecBuffer :=
  (dec.targetConfig (dec.rect iter)).output.sized (dec.blockWidth iter) (dec.rect iter).frmH

theorem blockBuffer_colorspace : (dec.blockBuffer iter).colorspace = dec.config.output.colorspace := by
  rw [blockBuffer, WebPDecBuffer.sized_colorspace, targetConfig_colorspace]
theorem blockBuffer_u : (dec.blockBuffer iter).u =
    ⟨some (4 * ((dec.rect iter).yOff * dec.outW + (dec.rect iter).xOff)), 4 * dec.outW,
      ((dec.rect iter).frmH * (4 * dec.outW)).toNat⟩ := by
  rw [blockBuffer, WebPDecBuffer.sized_u, targetConfig_u]
theorem blockBuffer_width : (dec.blockBuffer iter).width = dec.blockWidth iter := by
  rw [blockBuffer, WebPDecBuffer.sized_width]
theorem blockBuffer_height : (dec.blockBuffer iter).height = (dec.rect iter).frmH := by
  rw [blockBuffer, WebPDecBuffer.sized_height]

end WebPAnimDecoder

namespace Ready

variable {dec : WebPAnimDecoder} {iter : WebPIterator} {r : FrameRect} {o : WebPDecBuffer} {w h : ℤ}

/-- A canvas that fits is small enough for the rescaler. -/
theorem side_le (hd : Ready dec) (hf : dec.Fits) : dec.outW ≤ 1073741823 ∧ dec.outH ≤ 1073741823 := by
  obtain ⟨hW, -⟩ := hd.outW_range
  obtain ⟨hH, -⟩ := hd.outH_range
  unfold WebPAnimDecoder.Fits at hf
  constructor <;> nlinarith

theorem acceptedBuffer_scaled (hd : Ready dec) (hf : dec.Fits) (hs : 0 < dec.outCanvasW)
    (hr : r.Within dec.outW dec.outH) (hh : 0 < h) :
    acceptedBuffer w h (dec.targetConfig r) = some o ↔
      (0 < r.frmH ∧ 0 < (if r.frmW = 0 then guessSide w h r.frmH else r.frmW) ∧
        (if r.frmW = 0 then guessSide w h r.frmH else r.frmW) ≤ dec.outW) ∧
      o = (dec.targetConfig r).output.sized (if r.frmW = 0 then guessSide w h r.frmH else r.frmW) r.frmH := by
  obtain ⟨hW, hH⟩ := hd.side_le hf
  have hbottom := hr.bottom
  have hy := hr.y
  have hH0 := hr.h
  have hcheck : ∀ w' h' : ℤ, 0 < w' → w' ≤ 1073741823 → 0 < h' → h' ≤ 1073741823 → r.frmH ≤ h' →
      (checkDecBuffer ((dec.targetConfig r).output.sized w' h') = .ok ↔
        h' = r.frmH ∧ w' ≤ dec.outW) := fun w' h' h1 h2 h3 h4 h5 =>
    checkDecBuffer_strip (by simpa using hd.config.bpp) (dec.targetConfig_u r) hd.outW_range.1
      (hd.stride_lt hf) h1 h2 h3 h4 hH0 h5
  have happly : applyOptions w h (dec.targetConfig r).options =
      webPRescalerGetScaledDimensions w h r.frmW r.frmH := by
    simp [applyOptions, hd.config.crop, hd.config.scaling, hs]
  constructor
  · intro ha
    obtain ⟨w', h', hopt, rfl, hc⟩ := acceptedBuffer_some ha
    rw [happly] at hopt
    obtain ⟨h1, h2, h3, h4⟩ := webPRescaler_some hopt
    -- With no height asked for, the strip of the canvas is empty and nothing fits it.
    have hside : r.frmH ≠ 0 → w' = (if r.frmW = 0 then guessSide w h r.frmH else r.frmW) ∧
        h' = r.frmH := fun h0 => webPRescaler_width hh h0 hopt
    have hle : r.frmH ≤ h' := by
      by_cases h0 : r.frmH = 0
      · omega
      · exact (hside h0).2.ge
    obtain ⟨rfl, hfits⟩ := (hcheck w' h' h1 h3 h2 h4 hle).mp hc
    obtain ⟨rfl, -⟩ := hside h2.ne'
    exact ⟨⟨h2, h1, hfits⟩, rfl⟩
  · rintro ⟨⟨h1, h2, h3⟩, rfl⟩
    generalize hb : (if r.frmW = 0 then guessSide w h r.frmH else r.frmW) = b at h2 h3 ⊢
    have hopt : webPRescalerGetScaledDimensions w h r.frmW r.frmH = some (b, r.frmH) := by
      rw [webPRescaler_eq hh h1.ne', hb, if_neg (by omega)]
    have hc := (hcheck b r.frmH h2 (by omega) h1 (by omega) le_rfl).mpr ⟨rfl, h3⟩
    simp only [acceptedBuffer, happly, hopt, hc, if_true]

theorem acceptedBuffer_unscaled (hd : Ready dec) (hf : dec.Fits) (hs : dec.outCanvasW = 0)
    (hr : r.Within dec.outW dec.outH) (hw : 0 < w) (hw' : w ≤ dec.outW) (hh : r.frmH ≤ h)
    (hh0 : 0 < h) (hh' : h ≤ dec.outH) :
    acceptedBuffer w h (dec.targetConfig r) = some o ↔
      h = r.frmH ∧ o = (dec.targetConfig r).output.sized w h := by
  obtain ⟨hW, hH⟩ := hd.side_le hf
  have hcheck : checkDecBuffer ((dec.targetConfig r).output.sized w h) = .ok ↔
      h = r.frmH ∧ w ≤ dec.outW :=
    checkDecBuffer_strip (by simpa using hd.config.bpp) (dec.targetConfig_u r) hd.outW_range.1
      (hd.stride_lt hf) hw (hw'.trans hW) hh0 (hh'.trans hH) hr.h hh
  have happly : applyOptions w h (dec.targetConfig r).options = some (w, h) := by
    simp [applyOptions, hd.config.crop, hd.config.scaling, hs]
  simp only [acceptedBuffer, happly]
  split_ifs with hc
  · simp only [Option.some.injEq, (hcheck.mp hc).1, true_and]
    exact eq_comm
  · exact iff_of_false (by simp) fun ha => hc (hcheck.mpr ⟨ha.1, hw'⟩)

/-- What `WebPDecode` accepts for a frame, and the buffer it decodes into. -/
theorem accepted_iff (hd : Ready dec) (hf : dec.Fits) (hi : IterFacts dec.demux iter) :
    acceptedBuffer iter.width iter.height (dec.targetConfig (dec.rect iter)) = some o ↔
      dec.Playable iter ∧ o = dec.blockBuffer iter := by
  obtain ⟨hx, hy, hr⟩ := hd.rect_within hi
  unfold WebPAnimDecoder.blockBuffer
  by_cases hs : 0 < dec.outCanvasW
  · have hb : dec.blockWidth iter = if (dec.rect iter).frmW = 0 then
        guessSide iter.width iter.height (dec.rect iter).frmH else (dec.rect iter).frmW := by
      rw [WebPAnimDecoder.blockWidth, if_pos hs]
    rw [hd.acceptedBuffer_scaled hf hs hr hi.height, ← hb]
    exact and_congr_left' ⟨fun ⟨h1, h2, h3⟩ => ⟨h1, fun h0 => absurd h0 hs.ne', h2, h3⟩,
      fun hp => ⟨hp.height, hp.width, hp.fits⟩⟩
  · have hs' : dec.outCanvasW = 0 := by have := hd.both; omega
    obtain ⟨hW, hH⟩ := hd.out_unscaled hs'
    have hb : dec.blockWidth iter = iter.width := by rw [WebPAnimDecoder.blockWidth, if_neg hs]
    have hw : iter.width ≤ dec.outW := by
      have := hi.right; have := hi.x
      omega
    have hh : iter.height ≤ dec.outH := by
      have := hi.bottom; have := hi.y
      omega
    have hle : (dec.rect iter).frmH ≤ iter.height := by
      have hfull : dec.outH = dec.info.canvasHeight := by rw [hH, hd.height]
      simp only [WebPAnimDecoder.rect]
      rw [hfull] at hy ⊢
      exact hy.side_le
    rw [hd.acceptedBuffer_unscaled hf hs' hr hi.width hw hle hi.height hh, hb]
    constructor
    · rintro ⟨he, rfl⟩
      exact ⟨⟨he ▸ hi.height, fun _ => he.symm, hb ▸ hi.width, hb ▸ hw⟩, by rw [he]⟩
    · rintro ⟨hp, rfl⟩
      have he := hp.whole hs'
      exact ⟨he.symm, by rw [he]⟩

/-- The rows of that buffer. -/
theorem blockBuffer_rows (hd : Ready dec) :
    (dec.blockBuffer iter).rows = canvasRows dec.outW (dec.block iter) := by
  have hwidth : (dec.blockWidth iter).toNat * 4 = (4 * dec.blockWidth iter).toNat := by omega
  rw [WebPDecBuffer.rows, WebPAnimDecoder.blockBuffer_u, WebPAnimDecoder.blockBuffer_colorspace,
    WebPAnimDecoder.blockBuffer_width, WebPAnimDecoder.blockBuffer_height, hd.config.bpp, hwidth,
    canvasRows, WebPAnimDecoder.block, Option.getD_some]

end Ready

namespace WebPAnimDecoder

/-- The canvas with the block of a frame written. -/
def blockCanvas (dec : WebPAnimDecoder) (codec : Codec) (iter : WebPIterator) : Buf :=
  (dec.baseCanvas (dec.isKey iter)).writeRows (canvasRows dec.outW (dec.block iter))
    (codec.sample iter.fragment (dec.targetConfig (dec.rect iter)).options
      dec.config.output.colorspace)

end WebPAnimDecoder

namespace Ready

variable {dec : WebPAnimDecoder} {iter : WebPIterator} {codec : Codec} {env : Env}
  {heap : Heap ObjectKind}

/-- A decode that succeeds. -/
theorem decodeFrame_ok (hd : Ready dec) (hf : dec.Fits) (hi : IterFacts dec.demux iter)
    (hok : (dec.decodeFrame codec env iter heap).status = .ok) :
    dec.Playable iter ∧ dec.decodeFrame codec env iter heap =
      ⟨.ok, dec.blockBuffer iter, dec.blockCanvas codec iter, heap,
        some (canvasRows dec.outW (dec.block iter))⟩ := by
  have hcases := hd.decoded hi codec env heap
  generalize dec.decodeFrame codec env iter heap = d at hok hcases
  cases hcases with
  | refused why bad kind => exact absurd hok bad
  | broken header accepted image => cases hok
  | done header accepted image =>
    obtain ⟨hp, rfl⟩ := (hd.accepted_iff hf hi).mp accepted
    refine ⟨hp, ?_⟩
    rw [hd.blockBuffer_rows, WebPAnimDecoder.blockCanvas, WebPAnimDecoder.blockBuffer_colorspace]

variable (codec env heap) in
/-- When a decode succeeds. -/
theorem decodeFrame_ok_iff (hd : Ready dec) (hf : dec.Fits) (hi : IterFacts dec.demux iter) :
    (dec.decodeFrame codec env iter heap).status = .ok ↔
      dec.Playable iter ∧ env.run.header = true ∧ env.run.image = none := by
  have hacc := hd.accepted_iff (o := dec.blockBuffer iter) hf hi
  have hcases := hd.decoded hi codec env heap
  generalize dec.decodeFrame codec env iter heap = d at hcases
  cases hcases with
  | refused why bad kind =>
    refine iff_of_false bad fun ⟨hp, hh, _⟩ => ?_
    rcases why with why | why
    · rw [why] at hh
      cases hh
    · rw [hacc.mpr ⟨hp, rfl⟩] at why
      cases why
  | broken header accepted image =>
    exact iff_of_false (by simp) fun ⟨_, _, hnone⟩ => by rw [hnone] at image; cases image
  | done header accepted image =>
    exact iff_of_true rfl ⟨((hd.accepted_iff hf hi).mp accepted).1, header, image⟩

end Ready

/-! ### One rectangle for all steps -/

/-- The call of `WebPDecode` that `GetNext` makes for a frame. -/
inductive DecodeCall (codec : Codec) (env : Env) (dec : WebPAnimDecoder) (heap : Heap ObjectKind)
    (iter : WebPIterator) : Decoded → Prop
  | intro {canvas : Buf} {stray : Bool} {config : WebPDecoderConfig} (frame : dec.Frame iter)
      (start : dec.startCanvas (dec.isKey iter) = some (canvas, stray))
      (target : dec.frameConfig (dec.rect iter) = some config) :
      DecodeCall codec env dec heap iter (webPDecode codec env iter.fragment config canvas heap)

/-- The decode wrote the rectangle that the frame is blended and disposed in,
and nothing outside the canvas. -/
structure WritesRect (dec : WebPAnimDecoder) (iter : WebPIterator) (d : Decoded) : Prop where
  rows : d.rows = some (canvasRows dec.outW (dec.rect iter))
  within : (dec.rect iter).Within dec.outW dec.outH
  inside : (canvasRows dec.outW (dec.rect iter)).Inside dec.currFrame.size
  stray : d.stray = false

/-- A frame of `w × h` loses its width when its canvas of `W × H` is scaled to
`sw × sh`, keeps its height, and the width in proportion to that height is one
the canvas accepts. -/
structure Guessed (w h W H sw sh : ℤ) : Prop where
  lost : w * sw % 4294967296 < W
  kept : H ≤ h * sh % 4294967296
  pos : 0 < i32 ((w * (h * sh % 4294967296 / H) + h - 1) / h)
  fits : i32 ((w * (h * sh % 4294967296 / H) + h - 1) / h) ≤ sw

/-- Its block then reaches the bottom of the canvas, and past the right end
there. -/
structure Spills (iter : WebPIterator) (W H sw sh : ℤ) : Prop where
  guessed : Guessed iter.width iter.height W H sw sh
  bottom : scaleDim iter.yOffset H sh + scaleDim iter.height H sh = sh
  right : sw < scaleDim iter.xOffset W sw + guessSide iter.width iter.height (scaleDim iter.height H sh)

/-- A rectangle that starts on the canvas and is no wider than it leaves it in
its last row only. -/
theorem FrameRect.leaves_iff {r : FrameRect} {W H : ℤ} {n : ℕ} (hn : (n : ℤ) = 4 * W * H)
    (hx : 0 ≤ r.xOff ∧ r.xOff < W) (hy : 0 ≤ r.yOff) (hw : 0 < r.frmW ∧ r.frmW ≤ W) (hh : 0 < r.frmH)
    (hbottom : r.yOff + r.frmH ≤ H) :
    ¬ (canvasRows W r).Inside n ↔ r.yOff + r.frmH = H ∧ W < r.xOff + r.frmW := by
  obtain ⟨x, y, w, h⟩ := r
  dsimp only at hx hy hw hh hbottom ⊢
  have hn' : (n : ℤ) = 4 * (H * W) := by rw [hn]; ring
  -- The ends of a row in pixels.
  have hstart : ∀ j : ℕ, (canvasRows W ⟨x, y, w, h⟩).start j = 4 * ((y + j) * W + x) := fun j => by
    simp only [canvasRows, Rows.start]
    ring
  have hwidth : ((canvasRows W ⟨x, y, w, h⟩).width : ℤ) = 4 * w :=
    Int.toNat_of_nonneg (show 0 ≤ 4 * w by omega)
  constructor
  · intro hout
    by_contra hno
    refine hout fun j hj => .inr ?_
    rw [hstart, hwidth, hn']
    have hj' : (j : ℤ) < h := by
      simp only [canvasRows] at hj
      omega
    have h0 : 0 ≤ (y + j) * W := mul_nonneg (by omega) (by omega)
    refine ⟨by omega, ?_⟩
    by_cases hlast : y + j + 1 < H
    · -- There is another row below.
      have hmul : (y + j + 2) * W ≤ H * W := mul_le_mul_of_nonneg_right (by omega) (by omega)
      linarith
    · have hmul : (y + j + 1) * W = H * W := by rw [show y + j + 1 = H by omega]
      have hright : x + w ≤ W := not_lt.mp fun hover => hno ⟨by omega, hover⟩
      linarith
  · rintro ⟨hlast, hright⟩ hin
    have hj : h.toNat - 1 < (canvasRows W ⟨x, y, w, h⟩).count := by
      simp only [canvasRows]
      omega
    rcases hin _ hj with hzero | ⟨-, hstay⟩
    · omega
    · rw [hstart, hwidth, hn'] at hstay
      have hmul : (y + (h.toNat - 1 : ℕ) + 1) * W = H * W := by
        rw [show y + (h.toNat - 1 : ℕ) + 1 = H by omega]
      linarith

namespace Ready

variable {dec : WebPAnimDecoder} {iter : WebPIterator} {codec : Codec} {env : Env}
  {heap : Heap ObjectKind} {d : Decoded}

theorem decodeCall (hd : Ready dec) (hc : DecodeCall codec env dec heap iter d) :
    dec.Fits ∧ dec.Frame iter ∧ d = dec.decodeFrame codec env iter heap := by
  obtain ⟨hframe, hstart, htarget⟩ := hc
  obtain ⟨-, hi⟩ := hd.iterFacts hframe
  obtain ⟨-, -, hr⟩ := hd.rect_within hi
  have hf : dec.Fits := by
    by_contra hf
    rw [hd.startCanvas_unfit hf] at hstart
    cases hstart
  rw [hd.startCanvas_fit hf] at hstart
  rw [hd.frameConfig_fit hf hr] at htarget
  obtain ⟨rfl, -⟩ := Prod.mk.inj (Option.some.inj hstart)
  obtain rfl := Option.some.inj htarget
  exact ⟨hf, hframe, by rw [WebPAnimDecoder.decodeFrame]⟩

variable (codec env heap) in
theorem decodeCall_of_frame (hd : Ready dec) (hf : dec.Fits) (hframe : dec.Frame iter) :
    DecodeCall codec env dec heap iter (dec.decodeFrame codec env iter heap) := by
  obtain ⟨-, hi⟩ := hd.iterFacts hframe
  obtain ⟨-, -, hr⟩ := hd.rect_within hi
  rw [WebPAnimDecoder.decodeFrame]
  exact .intro hframe (hd.startCanvas_fit hf _) (hd.frameConfig_fit hf hr)

/-- The guess in numbers. -/
theorem guess_eq (hd : Ready dec) (hi : IterFacts dec.demux iter) :
    guessSide iter.width iter.height (dec.rect iter).frmH =
      i32 ((iter.width * (iter.height * dec.outH % 4294967296 / dec.info.canvasHeight) + iter.height - 1) /
        iter.height) := by
  obtain ⟨hx, hy, hr⟩ := hd.rect_within hi
  obtain ⟨data, ha⟩ := hd.accepted
  have hcw := ha.canvas.width
  have hch := ha.canvas.height
  have hw := hi.width; have hh := hi.height
  have hw' := hi.right; have hh' := hi.bottom
  have hx0 := hi.x; have hy0 := hi.y
  have hfh : (dec.rect iter).frmH = iter.height * dec.outH % 4294967296 / dec.info.canvasHeight := hy.side_eq
  rw [← hfh]
  have h0 := hr.h
  have h1 : (dec.rect iter).frmH ≤ 2147483647 := by
    have := hr.bottom; have := hr.y; have := hd.outH_range
    omega
  generalize (dec.rect iter).frmH = fh at h0 h1
  have hp0 : 0 ≤ iter.width * fh := mul_nonneg hw.le h0
  have hp1 : iter.width * fh ≤ 16777216 * 2147483647 :=
    mul_le_mul (by omega) h1 h0 (by norm_num)
  have e1 : (u64 iter.width : ℤ) = iter.width := u64_of_range hw.le (by omega)
  have e2 : (u64 iter.height : ℤ) = iter.height := u64_of_range hh.le (by omega)
  have e3 : (u64 fh : ℤ) = fh := u64_of_range h0 (by omega)
  have e4 : (u64 (iter.width * fh + iter.height - 1) : ℤ) = iter.width * fh + iter.height - 1 :=
    u64_of_range (by omega) (by omega)
  unfold guessSide
  push_cast
  rw [e1, e2, e3, e4]

/-- A decode writes the rectangle when the width asked for is one. -/
theorem writesRect (hd : Ready dec) (hf : dec.Fits) (hi : IterFacts dec.demux iter)
    (hok : (dec.decodeFrame codec env iter heap).status = .ok)
    (hb : dec.blockWidth iter = (dec.rect iter).frmW) :
    WritesRect dec iter (dec.decodeFrame codec env iter heap) := by
  obtain ⟨-, -, hr⟩ := hd.rect_within hi
  have hsize := hd.curr_size hf
  have hinside := hr.rows_inside hsize
  have hblock : dec.block iter = dec.rect iter := by
    rw [WebPAnimDecoder.block]
    exact FrameRect.with_frmW _ hb
  obtain ⟨-, he⟩ := hd.decodeFrame_ok hf hi hok
  have hmem := (hd.decoded hi codec env heap).mem_size.1
  rw [hblock] at he
  have hrows : (dec.decodeFrame codec env iter heap).rows =
      some (canvasRows dec.outW (dec.rect iter)) := by rw [he]
  exact ⟨hrows, hr, hinside, Decoded.stray_eq_false hrows (by rw [hmem]; exact hinside)⟩

theorem guessed_iff (hd : Ready dec) (hi : IterFacts dec.demux iter) :
    Guessed iter.width iter.height dec.info.canvasWidth dec.info.canvasHeight dec.outW dec.outH ↔
      (dec.rect iter).frmW = 0 ∧ 0 < (dec.rect iter).frmH ∧
        0 < guessSide iter.width iter.height (dec.rect iter).frmH ∧
        guessSide iter.width iter.height (dec.rect iter).frmH ≤ dec.outW := by
  obtain ⟨hx, hy, hr⟩ := hd.rect_within hi
  have hlost : iter.width * dec.outW % 4294967296 < dec.info.canvasWidth ↔ (dec.rect iter).frmW = 0 := by
    have hpos : 0 < (dec.rect iter).frmW ↔ _ := hx.side_pos_iff
    have h0 := hr.w
    omega
  have hkept : (dec.info.canvasHeight : ℤ) ≤ iter.height * dec.outH % 4294967296 ↔
      0 < (dec.rect iter).frmH := hy.side_pos_iff.symm
  have hguess := hd.guess_eq hi
  constructor
  · rintro ⟨h1, h2, h3, h4⟩
    rw [← hguess] at h3 h4
    exact ⟨hlost.mp h1, hkept.mp h2, h3, h4⟩
  · rintro ⟨h1, h2, h3, h4⟩
    rw [hguess] at h3 h4
    exact ⟨hlost.mpr h1, hkept.mpr h2, h3, h4⟩

variable (codec) in
/-- Whatever is decoded for a frame is its rectangle, except a frame whose width
is guessed. -/
theorem writesRect_iff (hd : Ready dec) (hs : 0 < dec.outCanvasW) (hframe : dec.Frame iter) :
    (∀ env heap d, DecodeCall codec env dec heap iter d → d.status = .ok → WritesRect dec iter d) ↔
      ¬ (dec.Fits ∧ Guessed iter.width iter.height dec.info.canvasWidth dec.info.canvasHeight dec.outW
        dec.outH) := by
  obtain ⟨-, hi⟩ := hd.iterFacts hframe
  have hblock : dec.blockWidth iter = if (dec.rect iter).frmW = 0 then
      guessSide iter.width iter.height (dec.rect iter).frmH else (dec.rect iter).frmW := by
    rw [WebPAnimDecoder.blockWidth, if_pos hs]
  rw [hd.guessed_iff hi]
  constructor
  · rintro hall ⟨hf, hlost, hkept, hpos, hfits⟩
    rw [if_pos hlost] at hblock
    have hplay : dec.Playable iter := ⟨hkept, fun h0 => absurd h0 hs.ne', hblock ▸ hpos, hblock ▸ hfits⟩
    have hok := (hd.decodeFrame_ok_iff codec ⟨fun _ _ _ => true, fun _ => 0, ⟨true, none⟩⟩ Heap.empty hf
      hi).mpr ⟨hplay, rfl, rfl⟩
    have hw := (hall _ _ _ (hd.decodeCall_of_frame codec _ _ hf hframe) hok).rows
    rw [(hd.decodeFrame_ok hf hi hok).2] at hw
    -- The block has the guessed width, the rectangle none.
    have hwidth := congrArg Rows.width (Option.some.inj hw)
    simp only [canvasRows, WebPAnimDecoder.block, hblock, hlost] at hwidth
    omega
  · intro hg env heap d hcall hok
    obtain ⟨hf, -, rfl⟩ := hd.decodeCall hcall
    refine hd.writesRect hf hi hok ?_
    obtain ⟨hplay, -⟩ := hd.decodeFrame_ok hf hi hok
    have hpos := hplay.width
    have hfits := hplay.fits
    by_cases hlost : (dec.rect iter).frmW = 0
    · rw [hblock, if_pos hlost] at hpos hfits
      exact absurd ⟨hf, hlost, hplay.height, hpos, hfits⟩ hg
    · rw [hblock, if_neg hlost]

/-- The block of a picture that is accepted stays on the canvas, unless its
width is guessed. -/
theorem block_within (hd : Ready dec) (hi : IterFacts dec.demux iter) (hp : dec.Playable iter)
    (hg : ¬ (0 < dec.outCanvasW ∧
      Guessed iter.width iter.height dec.info.canvasWidth dec.info.canvasHeight dec.outW dec.outH)) :
    (dec.block iter).Within dec.outW dec.outH := by
  obtain ⟨hx, -, hr⟩ := hd.rect_within hi
  have hright : (dec.rect iter).xOff + dec.blockWidth iter ≤ dec.outW := by
    have hwidth := hp.width
    have hfits := hp.fits
    rw [WebPAnimDecoder.blockWidth] at hwidth hfits ⊢
    split_ifs at hwidth hfits ⊢ with hs hlost
    · rw [hd.guessed_iff hi] at hg
      exact absurd ⟨hs, hlost, hp.height, hwidth, hfits⟩ hg
    · exact hr.right
    · -- Without scaling the frame starts no further right than in the file.
      obtain ⟨hW, -⟩ := hd.out_unscaled (show dec.outCanvasW = 0 by have := hd.both; omega)
      have hfull : dec.outW = dec.info.canvasWidth := by rw [hW, hd.width]
      have hstart : (dec.rect iter).xOff ≤ iter.xOffset := by
        simp only [WebPAnimDecoder.rect]
        rw [hfull] at hx ⊢
        exact hx.start_le
      have hend := hi.right
      omega
  exact ⟨hr.x, hr.y, hp.width.le, hr.h, hr.left, hr.top, hright, hr.bottom⟩

/-- The block of a picture that is accepted leaves the canvas in its last row
only. -/
theorem block_leaves_iff (hd : Ready dec) (hf : dec.Fits) (hi : IterFacts dec.demux iter) (hp : dec.Playable iter) :
    ¬ (canvasRows dec.outW (dec.block iter)).Inside dec.currFrame.size ↔
      (dec.rect iter).yOff + (dec.rect iter).frmH = dec.outH ∧
        dec.outW < (dec.rect iter).xOff + dec.blockWidth iter := by
  obtain ⟨-, -, hr⟩ := hd.rect_within hi
  exact FrameRect.leaves_iff (hd.curr_size hf) ⟨hr.x, hr.left⟩ hr.y ⟨hp.width, hp.fits⟩ hp.height
    hr.bottom

/-- The frames whose block leaves the canvas are those that spill. -/
theorem spills_iff (hd : Ready dec) (hf : dec.Fits) (hi : IterFacts dec.demux iter) :
    dec.Playable iter ∧ ¬ (canvasRows dec.outW (dec.block iter)).Inside dec.currFrame.size ↔
      0 < dec.outCanvasW ∧
        Spills iter dec.info.canvasWidth dec.info.canvasHeight dec.outW dec.outH := by
  constructor
  · rintro ⟨hp, hout⟩
    obtain ⟨hlast, hright⟩ := (hd.block_leaves_iff hf hi hp).mp hout
    have hguess : 0 < dec.outCanvasW ∧ Guessed iter.width iter.height dec.info.canvasWidth dec.info.canvasHeight
        dec.outW dec.outH := by
      by_contra hno
      exact hout ((hd.block_within hi hp hno).rows_inside (hd.curr_size hf))
    obtain ⟨hlost, -⟩ := (hd.guessed_iff hi).mp hguess.2
    rw [WebPAnimDecoder.blockWidth, if_pos hguess.1, if_pos hlost] at hright
    exact ⟨hguess.1, hguess.2, hlast, hright⟩
  · rintro ⟨hs, hspill⟩
    obtain ⟨hlost, hrows, hpos, hfits⟩ := (hd.guessed_iff hi).mp hspill.guessed
    have hb : dec.blockWidth iter = guessSide iter.width iter.height (dec.rect iter).frmH := by
      rw [WebPAnimDecoder.blockWidth, if_pos hs, if_pos hlost]
    have hp : dec.Playable iter := ⟨hrows, fun h0 => absurd h0 hs.ne', hb ▸ hpos, hb ▸ hfits⟩
    refine ⟨hp, (hd.block_leaves_iff hf hi hp).mpr ⟨hspill.bottom, ?_⟩⟩
    rw [hb]
    exact hspill.right

variable (codec env heap) in
theorem decodeFrame_stray_iff (hd : Ready dec) (hf : dec.Fits) (hi : IterFacts dec.demux iter) :
    (dec.decodeFrame codec env iter heap).stray = true ↔ env.run.header = true ∧ 0 < dec.outCanvasW ∧
      Spills iter dec.info.canvasWidth dec.info.canvasHeight dec.outW dec.outH := by
  rw [← hd.spills_iff hf hi]
  have hacc := @Ready.accepted_iff dec iter (dec.blockBuffer iter) hd hf hi
  have hdecoded := hd.decoded hi codec env heap
  have hsize := hdecoded.mem_size.1
  have hrows := @Ready.blockBuffer_rows dec iter hd
  generalize dec.decodeFrame codec env iter heap = d at hdecoded hsize
  have hn : (dec.baseCanvas (dec.isKey iter)).size = dec.currFrame.size := rfl
  rw [hn] at hsize
  -- What the codec is given to write are the rows of the block.
  have hstray : ∀ {o : WebPDecBuffer}, acceptedBuffer iter.width iter.height (dec.targetConfig (dec.rect iter)) =
      some o → d.rows = some o.rows → env.run.header = true →
      (d.stray = true ↔ env.run.header = true ∧ dec.Playable iter ∧
        ¬ (canvasRows dec.outW (dec.block iter)).Inside dec.currFrame.size) := fun {o} ho hr hheader => by
    obtain ⟨hp, rfl⟩ := (hd.accepted_iff hf hi).mp ho
    rw [Decoded.stray, hr, Option.any_some, hrows, hsize]
    simp only [Bool.not_eq_eq_eq_not, Bool.not_true, decide_eq_false_iff_not, hheader, hp, true_and]
  cases hdecoded with
  | refused why bad kind =>
    refine iff_of_false (by simp [Decoded.stray]) fun hwrites => ?_
    obtain ⟨hheader, hp, -⟩ := hwrites
    rcases why with why | why
    · rw [why] at hheader
      cases hheader
    · rw [hacc.mpr ⟨hp, rfl⟩] at why
      cases why
  | broken header accepted image => exact hstray accepted rfl header
  | done header accepted image => exact hstray accepted rfl header

/-- A call writes outside the canvas just when the frame it decodes spills. -/
theorem next_stray_iff (hd : Ready dec) : (webPAnimDecoderGetNext codec env dec heap).stray = true ↔
    dec.Fits ∧ env.run.header = true ∧ 0 < dec.outCanvasW ∧ ∃ iter, dec.Frame iter ∧
      Spills iter dec.info.canvasWidth dec.info.canvasHeight dec.outW dec.outH := by
  have decoded : ∀ {iter}, dec.Fits → dec.Frame iter → ((dec.decodeFrame codec env iter heap).stray = true ↔
      dec.Fits ∧ env.run.header = true ∧ 0 < dec.outCanvasW ∧ ∃ iter, dec.Frame iter ∧
        Spills iter dec.info.canvasWidth dec.info.canvasHeight dec.outW dec.outH) := fun {iter} hf hframe => by
    rw [hd.decodeFrame_stray_iff codec env heap hf (hd.iterFacts hframe).2]
    constructor
    · rintro ⟨hheader, hs, hspill⟩
      exact ⟨hf, hheader, hs, iter, hframe, hspill⟩
    · rintro ⟨-, hheader, hs, iter', hframe', hspill⟩
      obtain rfl : iter' = iter := Option.some.inj (hframe'.2.symm.trans hframe.2)
      exact ⟨hheader, hs, hspill⟩
  have hcases := hd.next_cases codec env heap
  generalize webPAnimDecoderGetNext codec env dec heap = n at hcases
  cases hcases with
  | nothing why =>
    refine iff_of_false (by simp) fun ⟨hf, _, _, iter, hframe, _⟩ => ?_
    exact why.elim (fun hno => hno iter hframe) fun hno => hno hf
  | failed fits frame bad => exact decoded fits frame
  | composed fits frame good => exact decoded fits frame

end Ready

/-- In every run of a scaled animation, and for each of its frames, the decode
writes the rectangle that is blended and disposed, inside the canvas, unless
the frame's width is guessed. -/
theorem decode_writes_rect_iff {codec : Codec} {grants : Grants} {data : WebPData} {dmux : WebPDemuxer}
    {options : WebPAnimDecoderOptions} {heap heap' : Heap ObjectKind} {dec₀ dec : WebPAnimDecoder}
    {iter : WebPIterator} (ha : Accepted data dmux) (ho : IntOptions options)
    (hw : 1 ≤ options.scaledWidth) (hh : 1 ≤ options.scaledHeight)
    (hnew : webPAnimDecoderNew grants data options heap = (some dec₀, heap'))
    (hr : Reach codec dec₀ dec) (hframe : dec.Frame iter) :
    (∀ env heap d, DecodeCall codec env dec heap iter d → d.status = .ok → WritesRect dec iter d) ↔
      ¬ (4 * options.scaledWidth * options.scaledHeight < 4294967296 ∧
        Guessed iter.width iter.height dmux.canvasWidth dmux.canvasHeight options.scaledWidth
          options.scaledHeight) := by
  obtain ⟨hd, hdmux, hcw, hW, hH⟩ := hr.scaled ha ho hw hh hnew
  have h := hd.writesRect_iff codec (by omega) hframe
  rwa [WebPAnimDecoder.Fits, hd.width, hd.height, hdmux, hW, hH] at h

/-! A frame at the right end of a canvas, fifty pixels wide, whose width is lost
when the canvas becomes ten pixels wide: the guess is five. -/

/-- Every allocation succeeds and every frame decodes. -/
def Env.fine : Env := ⟨fun _ _ _ => true, fun _ => 0, ⟨true, none⟩⟩

/-- Every picture is black and opaque. -/
def Codec.black : Codec := ⟨fun _ _ mode _ i => if kModeBpp mode = 4 ∧ i % 4 = 3 then 255 else 0⟩

/-- A new decoder with a property that can be evaluated. -/
theorem webPAnimDecoderNew_any {grants : Grants} {data : WebPData} {options : WebPAnimDecoderOptions}
    {heap : Heap ObjectKind} {p : WebPAnimDecoder → Bool}
    (h : (webPAnimDecoderNew grants data options heap).1.any p) :
    ∃ dec, webPAnimDecoderNew grants data options heap =
      (some dec, (webPAnimDecoderNew grants data options heap).2) ∧ p dec := by
  obtain ⟨dec, hdec, hp⟩ := (Option.any_eq_true _ _).mp h
  exact ⟨dec, Prod.ext hdec rfl, hp⟩

def narrowFrame : WebPData := Files.animation 1000 1000 [{ x := 950, y := 500, w := 50, h := 500 }]

/-- The decode of that frame leaves the canvas. -/
theorem narrowFrame_strays : ∃ dmux dec heap iter d,
    Accepted narrowFrame dmux ∧
      webPAnimDecoderNew Env.fine.grants narrowFrame { scaledWidth := 10, scaledHeight := 100 }
        Heap.empty = (some dec, heap) ∧
      DecodeCall .black .fine dec Heap.empty iter d ∧ d.status = .ok ∧ d.stray = true ∧
      ¬ WritesRect dec iter d := by
  have hdmux : (webPDemux narrowFrame).any fun dmux => hasFlag dmux.featureFlags animationFlag := by
    decide +kernel
  have hnew : (webPAnimDecoderNew Env.fine.grants narrowFrame { scaledWidth := 10, scaledHeight := 100 }
      Heap.empty).1.any fun dec => decide dec.Fits && dec.hasMoreFrames &&
        (webPDemuxGetFrame dec.demux dec.nextFrame).any fun iter =>
          (dec.decodeFrame .black .fine iter Heap.empty).status = .ok &&
            (dec.decodeFrame .black .fine iter Heap.empty).stray := by
    decide +kernel
  obtain ⟨dmux, hd, hflag⟩ := (Option.any_eq_true _ _).mp hdmux
  obtain ⟨dec, hnew', hrun⟩ := webPAnimDecoderNew_any hnew
  simp only [Bool.and_eq_true, decide_eq_true_eq] at hrun
  obtain ⟨⟨hfits, hmore⟩, hget⟩ := hrun
  obtain ⟨iter, hiter, hok⟩ := (Option.any_eq_true _ _).mp hget
  simp only [Bool.and_eq_true, decide_eq_true_eq] at hok
  have ha : Accepted narrowFrame dmux := ⟨hd, hflag⟩
  obtain ⟨hready, -⟩ := ready_of_new ha ⟨by decide, by decide⟩ hnew'
  have hcall := hready.decodeCall_of_frame .black .fine Heap.empty hfits ⟨hmore, hiter⟩
  exact ⟨dmux, dec, _, iter, _, ha, hnew', hcall, hok.1, hok.2, fun hw => by
    rw [hw.stray] at hok; exact absurd hok.2 (by decide)⟩

/-- An animation with a full frame and a blended one at its centre. -/
def badge : WebPData :=
  Files.animation 64 64 [{ x := 0, y := 0, w := 64, h := 64, background := true },
    { x := 16, y := 16, w := 32, h := 32 }]

theorem badge_accepted : ∃ dmux, Accepted badge dmux := by
  have hdmux : (webPDemux badge).any fun dmux => hasFlag dmux.featureFlags animationFlag := by
    decide +kernel
  obtain ⟨dmux, hd, hflag⟩ := (Option.any_eq_true _ _).mp hdmux
  exact ⟨dmux, hd, hflag⟩

theorem badge_size {dmux : WebPDemuxer} (ha : Accepted badge dmux) :
    dmux.canvasWidth = 64 ∧ dmux.canvasHeight = 64 := by
  have hsize : (webPDemux badge).all fun d => decide (d.canvasWidth = 64 ∧ d.canvasHeight = 64) := by decide +kernel
  rw [ha.demux, Option.all_some] at hsize
  exact of_decide_eq_true hsize

/-- Decoders of several sizes play the animation. -/
theorem badge_plays (options : WebPAnimDecoderOptions)
    (hnew : (webPAnimDecoderNew Env.fine.grants badge options Heap.empty).1.any
      fun dec => decide dec.Fits && dec.hasMoreFrames && (webPDemuxGetFrame dec.demux dec.nextFrame).isSome) :
    ∃ dmux dec iter, Accepted badge dmux ∧ webPAnimDecoderNew Env.fine.grants badge options Heap.empty =
      (some dec, (webPAnimDecoderNew Env.fine.grants badge options Heap.empty).2) ∧ dec.Fits ∧
      dec.Frame iter := by
  obtain ⟨dmux, ha⟩ := badge_accepted
  obtain ⟨dec, hnew', hrun⟩ := webPAnimDecoderNew_any hnew
  simp only [Bool.and_eq_true, decide_eq_true_eq] at hrun
  obtain ⟨⟨hfits, hmore⟩, hget⟩ := hrun
  obtain ⟨iter, hiter⟩ := Option.isSome_iff_exists.mp hget
  exact ⟨dmux, dec, iter, ha, hnew', hfits, hmore, hiter⟩

/-- Its first frame, at half the size. -/
theorem badge_writes_rect : ∃ dec iter, dec.Frame iter ∧
    (dec.decodeFrame .black .fine iter Heap.empty).status = .ok ∧
    WritesRect dec iter (dec.decodeFrame .black .fine iter Heap.empty) := by
  have hrun : (webPAnimDecoderNew Env.fine.grants badge { scaledWidth := 32, scaledHeight := 32 } Heap.empty).1.any
      fun dec => decide dec.Fits && dec.hasMoreFrames && (webPDemuxGetFrame dec.demux dec.nextFrame).any fun iter =>
        decide (iter.width = 64) && (dec.decodeFrame .black .fine iter Heap.empty).status = .ok := by
    decide +kernel
  obtain ⟨dec, hnew, hrun⟩ := webPAnimDecoderNew_any hrun
  simp only [Bool.and_eq_true, decide_eq_true_eq] at hrun
  obtain ⟨⟨hfits, hmore⟩, hget⟩ := hrun
  obtain ⟨iter, hiter, hframe⟩ := (Option.any_eq_true _ _).mp hget
  simp only [Bool.and_eq_true, decide_eq_true_eq] at hframe
  obtain ⟨hwidth, hok⟩ := hframe
  obtain ⟨dmux, ha⟩ := badge_accepted
  obtain ⟨hready, -⟩ := ready_of_new ha ⟨by decide, by decide⟩ hnew
  -- The frame keeps its width: no width is guessed.
  have hkeeps : ¬ (4 * 32 * 32 < (4294967296 : ℤ) ∧
      Guessed iter.width iter.height dmux.canvasWidth dmux.canvasHeight 32 32) := fun ⟨_, hg⟩ => by
    have hlost := hg.lost
    rw [hwidth, (badge_size ha).1] at hlost
    exact absurd hlost (by decide)
  exact ⟨dec, iter, ⟨hmore, hiter⟩, hok,
    (decode_writes_rect_iff ha ⟨by decide, by decide⟩ (by decide) (by decide) hnew
    (.refl : Reach .black dec dec) ⟨hmore, hiter⟩).mpr hkeeps .fine Heap.empty _
    (hready.decodeCall_of_frame .black .fine Heap.empty hfits ⟨hmore, hiter⟩) hok⟩

end WebPlugin
