/-
# Animation decoders as New makes them

`Ready dec`: the decoder belongs to an accepted animation, its two canvases
have the size its options call for, and its configuration writes four bytes a
pixel into external memory. `WebPAnimDecoderNew` returns such decoders
(`ready_of_new`), and `GetNext` and `Reset` keep them so (`Ready.next`,
`Ready.reset`). For a ready decoder `GetNext` comes down to three outcomes: no
frame, a failed decode, a composed frame (`getNext_unfit`, `getNext_fit`).
-/
import WebPlugin.Placement

namespace WebPlugin

open Memory Ledger Words

/-- The fields of the configuration that no call changes. -/
structure ConfigFacts (dec : WebPAnimDecoder) : Prop where
  crop : dec.config.options.useCropping = false
  flip : dec.config.options.flip = false
  external : dec.config.output.isExternalMemory = true
  priv : dec.config.output.privateMemory = none
  bpp : kModeBpp dec.config.output.colorspace = 4
  scaling : dec.config.options.useScaling = decide (0 < dec.outCanvasW)

/-- A decoder of an accepted animation. -/
structure Ready (dec : WebPAnimDecoder) : Prop where
  accepted : ∃ data, Accepted data dec.demux
  width : (dec.info.canvasWidth : ℤ) = dec.demux.canvasWidth
  height : (dec.info.canvasHeight : ℤ) = dec.demux.canvasHeight
  both : (0 < dec.outCanvasW ∧ 0 < dec.outCanvasH) ∨ (dec.outCanvasW = 0 ∧ dec.outCanvasH = 0)
  int : dec.outCanvasW < 2147483648 ∧ dec.outCanvasH < 2147483648
  config : ConfigFacts dec
  curr : dec.currFrame.size = u64 (i32 (dec.outW * numChannels)) * u32 dec.outH
  prev : dec.prevFrameDisposed.size = dec.currFrame.size
  alloc : dec.currFrame.size ≤ maxAllocableMemory
  next : 1 ≤ dec.nextFrame

/-- The options are C `int`s. -/
structure IntOptions (options : WebPAnimDecoderOptions) : Prop where
  width : options.scaledWidth < 2147483648
  height : options.scaledHeight < 2147483648

theorem webPSafeMalloc_some {grants : Grants} {garbage : ℕ → UInt8} {k : ObjectKind} {n m : ℕ}
    {heap heap' : Heap ObjectKind} {b : Block}
    (h : webPSafeMalloc grants garbage k n m heap = (some b, heap')) :
    b.buf.size = n * m ∧ b.buf.byte = garbage ∧ n * m ≤ maxAllocableMemory ∧
      heap.alloc (grants k) k (n * m) = (some b.id, heap') := by
  unfold webPSafeMalloc at h
  split_ifs at h with hc
  · split at h <;> rename_i ha <;> cases h
    exact ⟨rfl, rfl, mul_le_of_check hc, ha⟩
  · cases h

theorem webPSafeMalloc_none {grants : Grants} {garbage : ℕ → UInt8} {k : ObjectKind} {n m : ℕ}
    {heap heap' : Heap ObjectKind} (h : webPSafeMalloc grants garbage k n m heap = (none, heap')) :
    heap.Keeps heap' := by
  unfold webPSafeMalloc at h
  split_ifs at h with hc
  · split at h <;> rename_i ha <;> cases h
    exact .of_refused ha
  · cases h
    exact .refl heap

theorem applyDecoderOptions_some {options : WebPAnimDecoderOptions} {f : BlendRowFunc}
    {config : WebPDecoderConfig} {w h : ℤ}
    (ha : applyDecoderOptions options = some (f, config, w, h)) :
    config.options.useCropping = false ∧ config.options.flip = false ∧
      config.output.isExternalMemory = true ∧ config.output.privateMemory = none ∧
      kModeBpp config.output.colorspace = 4 ∧
      config.options.useScaling = decide (0 < w) ∧
      ((0 < w ∧ 0 < h) ∨ (w = 0 ∧ h = 0)) ∧
      (w = options.scaledWidth ∨ w = 0) ∧ (h = options.scaledHeight ∨ h = 0) := by
  unfold applyDecoderOptions at ha
  dsimp only at ha
  split_ifs at ha with hm hblend hs hs
  all_goals
    have hb : kModeBpp options.colorMode = 4 := by
      revert hm
      cases options.colorMode <;> simp [kModeBpp]
    cases ha
    simp only [decide_eq_true_eq] at hs
  · exact ⟨rfl, rfl, rfl, rfl, hb, by simp [hs], .inl hs, .inl rfl, .inl rfl⟩
  · exact ⟨rfl, rfl, rfl, rfl, hb, by simpa using hs, .inr ⟨rfl, rfl⟩, .inr rfl, .inr rfl⟩
  · exact ⟨rfl, rfl, rfl, rfl, hb, by simp [hs], .inl hs, .inl rfl, .inl rfl⟩
  · exact ⟨rfl, rfl, rfl, rfl, hb, by simpa using hs, .inr ⟨rfl, rfl⟩, .inr rfl, .inr rfl⟩

section

variable {grants : Grants} {data : WebPData} {options : WebPAnimDecoderOptions}
  {heap heap' : Heap ObjectKind} {dmux : WebPDemuxer} {dec : WebPAnimDecoder}

theorem webPDemuxNew_some {id : ℕ} (h : webPDemuxNew grants data heap = (some (id, dmux), heap')) :
    webPDemux data = some dmux := by
  unfold webPDemuxNew at h
  split at h
  · cases h
  · rename_i d hd
    rcases ha : heap.alloc (grants .demuxer) .demuxer 0 with ⟨i, h'⟩
    simp only [ha, Prod.mk.injEq, Option.map_eq_some_iff] at h
    obtain ⟨⟨_, -, hid⟩, -⟩ := h
    rw [hd, hid.2]

/-- The decoder `WebPAnimDecoderNew` returns. -/
theorem webPAnimDecoderNew_some (h : webPAnimDecoderNew grants data options heap = (some dec, heap')) :
    webPDemux data = some dec.demux ∧ dec.info = animInfo dec.demux ∧
      (∃ f, applyDecoderOptions options = some (f, dec.config, dec.outCanvasW, dec.outCanvasH) ∧
        dec.blendFunc = f) ∧
      dec.currFrame.size = u64 (i32 (dec.outW * numChannels)) * u32 dec.outH ∧
      dec.prevFrameDisposed.size = u64 (i32 (dec.outW * numChannels)) * u32 dec.outH ∧
      u64 (i32 (dec.outW * numChannels)) * u32 dec.outH ≤ maxAllocableMemory ∧
      dec = webPAnimDecoderReset dec := by
  unfold webPAnimDecoderNew at h
  split_ifs at h
  · cases h
  split at h
  · cases h
  · split at h
    · cases h
    · rename_i f config w hh happly
      split at h
      · cases h
      · rename_i id demux heap₂ hd
        dsimp only at h
        split at h
        · cases h
        · rename_i b heap₃ hb
          split at h
          · cases h
          · rename_i b' heap₄ hb'
            cases h
            obtain ⟨hsz, -, hle, -⟩ := webPSafeMalloc_some hb
            obtain ⟨hsz', -, -, -⟩ := webPSafeMalloc_some hb'
            exact ⟨webPDemuxNew_some hd, rfl, ⟨f, happly, rfl⟩, hsz, hsz', hle, rfl⟩

/-- `WebPAnimDecoderNew` is granted the memory for the decoder, the demuxer and
two canvases of `n` bytes, one after the other. -/
structure NewGranted (grants : Grants) (heap : Heap ObjectKind) (n : ℕ) : Prop where
  decoder : grants .animDecoder heap 0 = true
  demuxer : grants .demuxer (heap.grown .animDecoder 0) 0 = true
  currFrame : grants .canvas ((heap.grown .animDecoder 0).grown .demuxer 0) n = true
  prevFrame : grants .canvas (((heap.grown .animDecoder 0).grown .demuxer 0).grown .canvas n) n = true

theorem webPDemuxNew_granted {id : ℕ} (h : webPDemuxNew grants data heap = (some (id, dmux), heap')) :
    grants .demuxer heap 0 = true ∧ heap' = heap.grown .demuxer 0 := by
  unfold webPDemuxNew at h
  split at h
  · cases h
  · rcases ha : heap.alloc (grants .demuxer) .demuxer 0 with ⟨_ | i, h'⟩
    · simp only [ha, Option.map_none, Prod.mk.injEq, reduceCtorEq, false_and] at h
    · rw [ha] at h
      obtain rfl := (Prod.mk.inj h).2
      exact Heap.of_alloc_some ha

/-- What a decoder takes to be made. -/
theorem newGranted_of_new (h : webPAnimDecoderNew grants data options heap = (some dec, heap')) :
    (webPGetFeatures data).1 = .ok ∧ NewGranted grants heap dec.currFrame.size := by
  unfold webPAnimDecoderNew at h
  split_ifs at h with hf
  · cases h
  refine ⟨not_not.mp hf, ?_⟩
  split at h
  · cases h
  · rename_i self heap₁ hself
    obtain ⟨hgself, rfl⟩ := Heap.of_alloc_some hself
    split at h
    · cases h
    · split at h
      · cases h
      · rename_i id demux heap₂ hd
        obtain ⟨hgdemux, rfl⟩ := webPDemuxNew_granted hd
        dsimp only at h
        split at h
        · cases h
        · rename_i b heap₃ hb
          obtain ⟨hsz, -, -, ha⟩ := webPSafeMalloc_some hb
          obtain ⟨hgcurr, rfl⟩ := Heap.of_alloc_some ha
          split at h
          · cases h
          · rename_i b' heap₄ hb'
            cases h
            obtain ⟨-, -, -, ha'⟩ := webPSafeMalloc_some hb'
            rw [← hsz] at hgcurr ha'
            exact ⟨hgself, hgdemux, hgcurr, (Heap.of_alloc_some ha').1⟩

theorem webPSafeCalloc_granted {k : ObjectKind} {n m : ℕ} (hc : checkSizeArgumentsOverflow n m = true)
    (hg : grants k heap (n * m) = true) :
    webPSafeCalloc grants k n m heap =
      (some ⟨heap.attempts, ⟨n * m, fun _ => 0, lt_of_check hc⟩⟩, heap.grown k (n * m)) := by
  rw [webPSafeCalloc, webPSafeMalloc, dif_pos hc, Heap.alloc_granted hg]

/-- With all of that a decoder is made. -/
theorem new_of_newGranted (hf : (webPGetFeatures data).1 = .ok) (hd : webPDemux data = some dmux) {f : BlendRowFunc}
    {config : WebPDecoderConfig} {w h : ℤ} (happly : applyDecoderOptions options = some (f, config, w, h)) {n m : ℕ}
    (hn : u64 (i32 ((if 0 < w then w else i32 (animInfo dmux).canvasWidth) * numChannels)) = n)
    (hm : u32 (if 0 < h then h else i32 (animInfo dmux).canvasHeight) = m)
    (hc : checkSizeArgumentsOverflow n m = true) (hg : NewGranted grants heap (n * m)) :
    ∃ dec, (webPAnimDecoderNew grants data options heap).1 = some dec := by
  have hdemux : webPDemuxNew grants data (heap.grown .animDecoder 0) =
      (some ((heap.grown .animDecoder 0).attempts, dmux), (heap.grown .animDecoder 0).grown .demuxer 0) := by
    rw [webPDemuxNew, hd]
    dsimp only
    rw [Heap.alloc_granted hg.demuxer]
    rfl
  unfold webPAnimDecoderNew
  rw [if_neg (not_not.mpr hf), Heap.alloc_granted hg.decoder]
  dsimp only
  rw [happly]
  dsimp only
  rw [hdemux]
  dsimp only
  rw [hn, hm, webPSafeCalloc_granted hc hg.currFrame]
  dsimp only
  rw [webPSafeCalloc_granted hc hg.prevFrame]
  exact ⟨_, rfl⟩

/-- A new decoder of an accepted animation is ready. -/
theorem ready_of_new (ha : Accepted data dmux) (ho : IntOptions options)
    (h : webPAnimDecoderNew grants data options heap = (some dec, heap')) :
    Ready dec ∧ dec.demux = dmux := by
  obtain ⟨hd, hinfo, ⟨f, happly, -⟩, hcurr, hprev, hle, hreset⟩ := webPAnimDecoderNew_some h
  have hdmux : dec.demux = dmux := Option.some.inj (hd.symm.trans ha.demux)
  have hacc : Accepted data dec.demux := hdmux ▸ ha
  obtain ⟨hw, hh, -⟩ := hacc.canvas
  obtain ⟨h1, h2, h3, hp, h4, h5, h6, h7, h8⟩ := applyDecoderOptions_some happly
  have hint := ho.width
  have hint' := ho.height
  refine ⟨⟨⟨data, hacc⟩, ?_, ?_, h6, ⟨by omega, by omega⟩, ⟨h1, h2, h3, hp, h4, h5⟩, hcurr,
    ?_, ?_, ?_⟩, hdmux⟩
  · rw [hinfo]
    exact u32_of_range hw.1.le (by omega)
  · rw [hinfo]
    exact u32_of_range hh.1.le (by omega)
  · rw [hcurr, hprev]
  · rw [hcurr]
    exact hle
  · rw [hreset]
    exact le_rfl

end

/-! ### Sizes -/

namespace Ready

variable {dec : WebPAnimDecoder} {iter : WebPIterator}

/-- The output canvas is a canvas. -/
theorem outW_range (h : Ready dec) : 0 < dec.outW ∧ dec.outW < 2147483648 := by
  obtain ⟨data, ha⟩ := h.accepted
  have hw := ha.canvas.width
  have hb := h.both
  have hi := h.int
  have he : i32 dec.info.canvasWidth = dec.demux.canvasWidth := by
    rw [h.width]
    exact i32_of_range (by omega) (by omega)
  unfold WebPAnimDecoder.outW
  split_ifs
  · omega
  · rw [he]
    omega

theorem outH_range (h : Ready dec) : 0 < dec.outH ∧ dec.outH < 2147483648 := by
  obtain ⟨data, ha⟩ := h.accepted
  have hw := ha.canvas.height
  have hb := h.both
  have hi := h.int
  have he : i32 dec.info.canvasHeight = dec.demux.canvasHeight := by
    rw [h.height]
    exact i32_of_range (by omega) (by omega)
  unfold WebPAnimDecoder.outH
  split_ifs
  · omega
  · rw [he]
    omega

/-- Without scaling the output canvas is the canvas. -/
theorem out_unscaled (h : Ready dec) (hs : dec.outCanvasW = 0) :
    dec.outW = dec.demux.canvasWidth ∧ dec.outH = dec.demux.canvasHeight := by
  obtain ⟨data, ha⟩ := h.accepted
  have hw := ha.canvas.width
  have hh := ha.canvas.height
  have hb := h.both
  have hs' : dec.outCanvasH = 0 := by omega
  simp only [WebPAnimDecoder.outW, WebPAnimDecoder.outH, hs, hs', lt_irrefl, if_false, h.width,
    h.height]
  exact ⟨i32_of_range (by omega) (by omega), i32_of_range (by omega) (by omega)⟩

end Ready

/-- The canvas has fewer than `2 ^ 32` bytes: the check of `ZeroFillCanvas` and
`CopyCanvas` passes. -/
def WebPAnimDecoder.Fits (dec : WebPAnimDecoder) : Prop := 4 * dec.outW * dec.outH < 4294967296

instance (dec : WebPAnimDecoder) : Decidable dec.Fits := by
  unfold WebPAnimDecoder.Fits
  infer_instance

namespace Ready

variable {dec : WebPAnimDecoder} {iter : WebPIterator}

theorem canvasSize_eq (h : Ready dec) :
    (canvasSize (u32 dec.outW) (u32 dec.outH) : ℤ) = 4 * dec.outW * dec.outH := by
  obtain ⟨hw, hw'⟩ := h.outW_range
  obtain ⟨hh, hh'⟩ := h.outH_range
  have hprod : dec.outW * dec.outH < 4611686018427387904 := by nlinarith
  have h0 : 0 < dec.outW * dec.outH := by positivity
  simp only [canvasSize, numChannels]
  push_cast
  rw [u32_of_range hw.le (by omega), u32_of_range hh.le (by omega)]
  rw [Int.emod_eq_of_lt (by omega) (by omega)]
  ring

theorem check_iff (h : Ready dec) :
    checkSizeOverflow (canvasSize (u32 dec.outW) (u32 dec.outH)) ↔ dec.Fits := by
  have := h.canvasSize_eq
  simp only [checkSizeOverflow, decide_eq_true_eq, WebPAnimDecoder.Fits]
  omega

/-- Up to a width of `2 ^ 30` the canvases have exactly four bytes a pixel. -/
theorem curr_size_of_lt (h : Ready dec) (hfit : 4 * dec.outW < 4294967296) :
    (dec.currFrame.size : ℤ) = 4 * dec.outW * dec.outH := by
  obtain ⟨hw, hw'⟩ := h.outW_range
  obtain ⟨hh, hh'⟩ := h.outH_range
  have hle := h.alloc
  rw [h.curr, maxAllocableMemory] at hle
  have hH : (u32 dec.outH : ℤ) = dec.outH := u32_of_range hh.le (by omega)
  rw [h.curr]
  simp only [numChannels] at hle ⊢
  by_cases hneg : 4 * dec.outW < 2147483648
  · have : i32 (dec.outW * (4 : ℕ)) = 4 * dec.outW := by
      rw [i32_of_range (by push_cast; omega) (by push_cast; omega)]
      push_cast
      ring
    rw [this]
    push_cast
    rw [u64_of_range (by omega) (by omega), hH]
  · -- The number of elements would be negative, and their size past every bound.
    exfalso
    have hi : i32 (dec.outW * (4 : ℕ)) = 4 * dec.outW - 4294967296 := by
      unfold i32
      push_cast
      omega
    rw [hi] at hle
    have hu : 18446744071562067968 ≤ u64 (4 * dec.outW - 4294967296) := by
      unfold u64
      omega
    have hp : 1 ≤ u32 dec.outH := by omega
    have : u64 (4 * dec.outW - 4294967296) * 1 ≤ u64 (4 * dec.outW - 4294967296) * u32 dec.outH :=
      Nat.mul_le_mul_left _ hp
    omega

/-- The canvases of a ready decoder have exactly four bytes a pixel. -/
theorem curr_size (h : Ready dec) (hf : dec.Fits) :
    (dec.currFrame.size : ℤ) = 4 * dec.outW * dec.outH := by
  obtain ⟨hw, -⟩ := h.outW_range
  obtain ⟨hh, -⟩ := h.outH_range
  unfold WebPAnimDecoder.Fits at hf
  exact h.curr_size_of_lt (by nlinarith)

/-- From a width of `2 ^ 30` on they are too small: the number of bytes of a row
has wrapped. -/
theorem curr_size_iff (h : Ready dec) :
    (dec.currFrame.size : ℤ) = 4 * dec.outW * dec.outH ↔ dec.outW < 1073741824 := by
  obtain ⟨hw, hw'⟩ := h.outW_range
  obtain ⟨hh, hh'⟩ := h.outH_range
  refine ⟨fun he => ?_, fun hlt => h.curr_size_of_lt (by omega)⟩
  by_contra hge
  have hle := h.alloc
  rw [maxAllocableMemory] at hle
  have hbig : (4 * 1073741824 : ℤ) * 1 ≤ 4 * dec.outW * dec.outH :=
    mul_le_mul (by omega) (by omega) (by omega) (by omega)
  omega

end Ready

/-! ### Rectangles on the canvas -/

/-- The rectangle lies on a canvas of `W × H` pixels. -/
structure FrameRect.Within (r : FrameRect) (W H : ℤ) : Prop where
  x : 0 ≤ r.xOff
  y : 0 ≤ r.yOff
  w : 0 ≤ r.frmW
  h : 0 ≤ r.frmH
  left : r.xOff < W
  top : r.yOff < H
  right : r.xOff + r.frmW ≤ W
  bottom : r.yOff + r.frmH ≤ H

/-- The rows of a rectangle, four bytes a pixel, on a canvas `W` wide. -/
def canvasRows (W : ℤ) (r : FrameRect) : Rows :=
  ⟨4 * (r.yOff * W + r.xOff), 4 * W, (4 * r.frmW).toNat, r.frmH.toNat⟩

namespace FrameRect.Within

variable {r : FrameRect} {W H : ℤ}

/-- A pixel of the rectangle is a pixel of the canvas. -/
theorem pixel_lt (h : r.Within W H) {i j : ℤ} (hi : i < r.frmW) (hj : j < r.frmH) :
    (r.yOff + j) * W + r.xOff + i < W * H := by
  have hW : 0 ≤ W := by linarith [h.x, h.w, h.right]
  have h1 : (r.yOff + j + 1) * W ≤ H * W :=
    mul_le_mul_of_nonneg_right (by linarith [h.bottom]) hW
  linarith [h.right]

theorem rows_inside (h : r.Within W H) {n : ℕ} (hn : (n : ℤ) = 4 * W * H) :
    (canvasRows W r).Inside n := by
  intro j hj
  have hW : 0 ≤ W := by linarith [h.x, h.w, h.right]
  simp only [canvasRows] at hj
  refine or_iff_not_imp_left.mpr fun hw => ?_
  simp only [canvasRows, Rows.start] at hw ⊢
  have hp := h.pixel_lt (show r.frmW - 1 < r.frmW by omega) (show (j : ℤ) < r.frmH by omega)
  have hstart : 4 * (r.yOff * W + r.xOff) + j * (4 * W) = 4 * ((r.yOff + j) * W + r.xOff) := by ring
  have h0 : 0 ≤ (r.yOff + j) * W := mul_nonneg (by linarith [h.y, Int.natCast_nonneg j]) hW
  have hx := h.x
  rw [hstart]
  constructor <;> linarith [Int.toNat_of_nonneg (show 0 ≤ 4 * r.frmW by linarith [h.w])]

end FrameRect.Within

/-- The rectangle of a frame on the canvas of a ready decoder. -/
theorem Ready.rect_within {dec : WebPAnimDecoder} {iter : WebPIterator} (h : Ready dec)
    (hi : IterFacts dec.demux iter) :
    OnAxis iter.xOffset iter.width dec.info.canvasWidth dec.outW ∧
      OnAxis iter.yOffset iter.height dec.info.canvasHeight dec.outH ∧
      (dec.rect iter).Within dec.outW dec.outH := by
  obtain ⟨data, ha⟩ := h.accepted
  have hw := ha.canvas.width
  have hh := ha.canvas.height
  have hx : OnAxis iter.xOffset iter.width dec.info.canvasWidth dec.outW :=
    ⟨hi.x, hi.width, h.width ▸ hi.right, by rw [h.width]; omega, h.outW_range.1, h.outW_range.2⟩
  have hy : OnAxis iter.yOffset iter.height dec.info.canvasHeight dec.outH :=
    ⟨hi.y, hi.height, h.height ▸ hi.bottom, by rw [h.height]; omega, h.outH_range.1,
      h.outH_range.2⟩
  exact ⟨hx, hy, hx.start_nonneg, hy.start_nonneg, hx.side_nonneg, hy.side_nonneg, hx.start_lt,
    hy.start_lt, hx.inside, hy.inside⟩

end WebPlugin
