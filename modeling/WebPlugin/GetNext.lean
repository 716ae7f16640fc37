/-
# What GetNext does

For a ready decoder `WebPAnimDecoderGetNext` comes down to three outcomes
(`Ready.next_cases`): nothing, because there is no frame or no canvas of that
size; a failed decode, which changes only the canvas and the configuration; a
composed frame (`WebPAnimDecoder.compose`). Each keeps the decoder ready
(`Ready.next`), so every decoder reached from a new one is (`Reach.ready`).
-/
import WebPlugin.AnimFacts

namespace WebPlugin

open Memory Ledger Words

/-! ### WebPDecode into external memory -/

/-- The output buffer of a picture of `w × h`, when its sizes are accepted. -/
def acceptedBuffer (w h : ℤ) (config : WebPDecoderConfig) : Option WebPDecBuffer :=
  match applyOptions w h config.options with
  | none => none
  | some (w', h') =>
    if checkDecBuffer (config.output.sized w' h') = .ok then some (config.output.sized w' h') else none

/-- The part of an output buffer that does not depend on the picture. -/
def WebPDecBuffer.SameKind (o p : WebPDecBuffer) : Prop :=
  o.colorspace = p.colorspace ∧ o.isExternalMemory = p.isExternalMemory ∧
    o.privateMemory = p.privateMemory

/-- The three ways a call of `WebPDecode` into external memory goes: refused
before the codec writes, broken off while it writes, or done. -/
inductive DecodedAs (codec : Codec) (env : Env) (d : WebPData) (w h : ℤ) (config : WebPDecoderConfig)
    (mem : Buf) (heap : Heap ObjectKind) : Decoded → Prop
  | refused {status : VP8StatusCode} {output : WebPDecBuffer}
      (why : env.run.header = false ∨ acceptedBuffer w h config = none) (bad : status ≠ .ok)
      (kind : output.SameKind config.output) :
      DecodedAs codec env d w h config mem heap ⟨status, output, mem, heap, none⟩
  | broken {output : WebPDecBuffer} {write : Rows → ℕ → Option UInt8}
      (header : env.run.header = true) (accepted : acceptedBuffer w h config = some output)
      (image : env.run.image = some write) :
      DecodedAs codec env d w h config mem heap
        ⟨.bitstreamError, output, mem.overlay (write output.rows), heap, some output.rows⟩
  | done {output : WebPDecBuffer} (header : env.run.header = true)
      (accepted : acceptedBuffer w h config = some output) (image : env.run.image = none) :
      DecodedAs codec env d w h config mem heap
        ⟨.ok, output, mem.writeRows output.rows (codec.sample d config.options output.colorspace),
          heap, some output.rows⟩

theorem Decoded.stray_eq_false {d : Decoded} {r : Rows} (hr : d.rows = some r)
    (hi : r.Inside d.mem.size) : d.stray = false := by
  simp [Decoded.stray, hr, hi]

section

variable {codec : Codec} {env : Env} {d : WebPData} {w h : ℤ} {config : WebPDecoderConfig} {mem : Buf}
  {heap : Heap ObjectKind}

/-- The rescaler yields positive sides of at most half an `int`. -/
theorem webPRescaler_some {sw sh w' h' : ℤ}
    (hr : webPRescalerGetScaledDimensions w h sw sh = some (w', h')) :
    0 < w' ∧ 0 < h' ∧ w' ≤ 1073741823 ∧ h' ≤ 1073741823 := by
  simp only [webPRescalerGetScaledDimensions, Option.ite_none_left_eq_some, Option.some.injEq,
    Prod.mk.injEq] at hr
  obtain ⟨hb, rfl, rfl⟩ := hr
  simp only [not_or, not_le, not_lt] at hb
  exact ⟨hb.1, hb.2.1, hb.2.2.1, hb.2.2.2⟩

/-- Without cropping, the size asked for has positive sides. -/
theorem applyOptions_pos {w' h' : ℤ} (hw : 0 < w) (hh : 0 < h)
    (hcrop : config.options.useCropping = false)
    (ha : applyOptions w h config.options = some (w', h')) : 0 < w' ∧ 0 < h' := by
  unfold applyOptions at ha
  simp only [hcrop, Bool.false_eq_true, if_false] at ha
  split_ifs at ha
  · exact ⟨(webPRescaler_some ha).1, (webPRescaler_some ha).2.1⟩
  · cases ha
    exact ⟨hw, hh⟩

/-- External memory is checked, not allocated. -/
theorem allocateBuffer_external {o : WebPDecBuffer} (grants : Grants) (garbage : ℕ → UInt8) (mem : Buf)
    (heap : Heap ObjectKind) (hw : 0 < o.width) (hh : 0 < o.height)
    (hext : o.isExternalMemory = true) :
    allocateBuffer grants garbage o mem heap = (checkDecBuffer o, o, mem, heap) := by
  unfold allocateBuffer
  simp only [hext, Bool.not_true, Bool.false_eq_true, false_and, if_false]
  rw [if_neg (by omega)]

variable (codec env config mem heap) in
theorem webPDecode_external (hs : HeadersSay d w h) (hw : 0 < w) (hh : 0 < h)
    (hcrop : config.options.useCropping = false) (hflip : config.options.flip = false)
    (hext : config.output.isExternalMemory = true) (hpriv : config.output.privateMemory = none) :
    DecodedAs codec env d w h config mem heap (webPDecode codec env d config mem heap) := by
  obtain ⟨hfeat, g, hg, rfl, rfl⟩ := hs
  rcases hf : webPGetFeatures d with ⟨status, f⟩
  rw [hf] at hfeat
  subst hfeat
  have hfree : ∀ o : WebPDecBuffer, o.isExternalMemory = true → o.privateMemory = none →
      webPFreeDecBuffer o heap = (o, heap) := fun o he hp => by
    rw [webPFreeDecBuffer, if_pos he, ← hp]
  have hpos : ¬ (g.width ≤ 0 ∨ g.height ≤ 0) := by omega
  unfold webPDecode decodeInto webPAllocateDecBuffer
  simp only [hf, hg, hpos, if_false, hflip, Bool.false_eq_true]
  cases hrun : env.run.header
  · simp only [Bool.not_false, if_true, Decoded.failed, hfree _ hext hpriv]
    exact .refused (.inl hrun) (by decide) ⟨rfl, rfl, rfl⟩
  · simp only [Bool.not_true, Bool.false_eq_true, if_false]
    cases ha : applyOptions g.width g.height config.options with
    | none =>
      simp only [Decoded.failed, hfree _ hext hpriv]
      exact .refused (.inr (by simp only [acceptedBuffer, ha])) (by decide) ⟨rfl, rfl, rfl⟩
    | some size =>
      obtain ⟨w', h'⟩ := size
      obtain ⟨hw', hh'⟩ := applyOptions_pos hw hh hcrop ha
      have hbuf := allocateBuffer_external (o := config.output.sized w' h') env.grants env.garbage mem
        heap (by simpa using hw') (by simpa using hh') (by simpa using hext)
      simp only [hbuf]
      cases hc : checkDecBuffer (config.output.sized w' h') with
      | ok =>
        have hacc : acceptedBuffer g.width g.height config =
            some (config.output.sized w' h') := by
          simp only [acceptedBuffer, ha, hc, if_true]
        cases himg : env.run.image with
        | some write =>
          simp only [Decoded.failed, hfree (config.output.sized w' h') (by simpa using hext) (by simpa using hpriv)]
          exact .broken hrun hacc himg
        | none => exact .done hrun hacc himg
      | _ =>
        have hacc : acceptedBuffer g.width g.height config = none := by
          simp only [acceptedBuffer, ha, hc, reduceCtorEq, if_false]
        simp only [Decoded.failed, hfree (config.output.sized w' h') (by simpa using hext) (by simpa using hpriv)]
        exact .refused (.inr hacc) (by decide) ⟨rfl, rfl, rfl⟩

end

/-! ### The steps of a call -/

namespace WebPAnimDecoder

variable (dec : WebPAnimDecoder)

/-- The canvas a frame is decoded into. -/
def baseCanvas (key : Bool) : Buf :=
  dec.currFrame.writeRow 0 dec.currFrame.size
    (if key then fun _ => 0 else dec.prevFrameDisposed.byte)

/-- The configuration a frame is decoded with. -/
def targetConfig (r : FrameRect) : WebPDecoderConfig where
  options := { dec.config.options with scaledWidth := r.frmW, scaledHeight := r.frmH }
  output := { dec.config.output with
    u := ⟨some (4 * (r.yOff * dec.outW + r.xOff)), 4 * dec.outW, (r.frmH * (4 * dec.outW)).toNat⟩ }

/-- The call of `WebPDecode` for a frame. -/
def decodeFrame (codec : Codec) (env : Env) (iter : WebPIterator) (heap : Heap ObjectKind) : Decoded :=
  webPDecode codec env iter.fragment (dec.targetConfig (dec.rect iter))
    (dec.baseCanvas (dec.isKey iter)) heap

section

variable {dec : WebPAnimDecoder} (r : FrameRect) (config : WebPDecoderConfig) (d : Decoded)

@[simp] theorem targetConfig_useCropping :
    (dec.targetConfig r).options.useCropping = dec.config.options.useCropping := by
  simp only [targetConfig]
@[simp] theorem targetConfig_flip : (dec.targetConfig r).options.flip = dec.config.options.flip := by
  simp only [targetConfig]
@[simp] theorem targetConfig_useScaling :
    (dec.targetConfig r).options.useScaling = dec.config.options.useScaling := by
  simp only [targetConfig]
@[simp] theorem targetConfig_scaledWidth : (dec.targetConfig r).options.scaledWidth = r.frmW := by
  simp only [targetConfig]
@[simp] theorem targetConfig_scaledHeight : (dec.targetConfig r).options.scaledHeight = r.frmH := by
  simp only [targetConfig]
@[simp] theorem targetConfig_colorspace :
    (dec.targetConfig r).output.colorspace = dec.config.output.colorspace := by
  simp only [targetConfig]
@[simp] theorem targetConfig_u : (dec.targetConfig r).output.u =
    ⟨some (4 * (r.yOff * dec.outW + r.xOff)), 4 * dec.outW, (r.frmH * (4 * dec.outW)).toNat⟩ := by
  simp only [targetConfig]
@[simp] theorem decodedInto_output : (dec.decodedInto config d).config.output = d.output := by
  simp only [decodedInto]
@[simp] theorem decodedInto_options : (dec.decodedInto config d).config.options = config.options := by
  simp only [decodedInto]

end

/-- The decoder after a failed decode. -/
def spoil (iter : WebPIterator) (d : Decoded) : WebPAnimDecoder :=
  dec.decodedInto (dec.targetConfig (dec.rect iter)) d

/-- The canvas after a decoded frame. -/
def composed (iter : WebPIterator) (d : Decoded) : Buf := (dec.blendFrame iter (dec.isKey iter) d.mem).1

/-- The previous canvas after a frame, disposed. -/
def disposed (iter : WebPIterator) (canvas : Buf) : Buf :=
  let prev := dec.prevFrameDisposed.writeRow 0 dec.currFrame.size canvas.byte
  if iter.disposeMethod = .background then
    prev.writeRows (canvasRows dec.outW (dec.rect iter)) fun _ _ => 0
  else prev

/-- The decoder after a composed frame. -/
def compose (iter : WebPIterator) (d : Decoded) : WebPAnimDecoder :=
  { dec.spoil iter d with
    currFrame := dec.composed iter d
    prevFrameDisposed := dec.disposed iter (dec.composed iter d)
    prevFrameTimestamp := i32 (dec.prevFrameTimestamp + iter.duration)
    prevIter := iter
    prevFrameWasKeyframe := dec.isKey iter
    nextFrame := dec.nextFrame + 1 }

/-! A decoder with other canvases and another configuration acts on frames as
before. -/

section

variable {dec : WebPAnimDecoder} (iter : WebPIterator) (d : Decoded)

@[simp] theorem spoil_demux : (dec.spoil iter d).demux = dec.demux := by simp only [spoil, decodedInto]
@[simp] theorem spoil_blocks : (dec.spoil iter d).blocks = dec.blocks := by
  simp only [spoil, decodedInto]
@[simp] theorem spoil_info : (dec.spoil iter d).info = dec.info := by simp only [spoil, decodedInto]
@[simp] theorem spoil_blendFunc : (dec.spoil iter d).blendFunc = dec.blendFunc := by
  simp only [spoil, decodedInto]
@[simp] theorem spoil_outCanvasW : (dec.spoil iter d).outCanvasW = dec.outCanvasW := by
  simp only [spoil, decodedInto]
@[simp] theorem spoil_outCanvasH : (dec.spoil iter d).outCanvasH = dec.outCanvasH := by
  simp only [spoil, decodedInto]
@[simp] theorem spoil_currFrame : (dec.spoil iter d).currFrame = d.mem := by simp only [spoil, decodedInto]
@[simp] theorem spoil_prevFrameDisposed :
    (dec.spoil iter d).prevFrameDisposed = dec.prevFrameDisposed := by simp only [spoil, decodedInto]
@[simp] theorem spoil_prevFrameTimestamp :
    (dec.spoil iter d).prevFrameTimestamp = dec.prevFrameTimestamp := by simp only [spoil, decodedInto]
@[simp] theorem spoil_prevIter : (dec.spoil iter d).prevIter = dec.prevIter := by simp only [spoil, decodedInto]
@[simp] theorem spoil_prevFrameWasKeyframe :
    (dec.spoil iter d).prevFrameWasKeyframe = dec.prevFrameWasKeyframe := by simp only [spoil, decodedInto]
@[simp] theorem spoil_nextFrame : (dec.spoil iter d).nextFrame = dec.nextFrame := by
  simp only [spoil, decodedInto]

@[simp] theorem spoil_output : (dec.spoil iter d).config.output = d.output := by
  rw [spoil, decodedInto_output]
@[simp] theorem spoil_options :
    (dec.spoil iter d).config.options = (dec.targetConfig (dec.rect iter)).options := by
  rw [spoil, decodedInto_options]

@[simp] theorem compose_demux : (dec.compose iter d).demux = dec.demux := by
  simp only [compose, spoil_demux]
@[simp] theorem compose_blocks : (dec.compose iter d).blocks = dec.blocks := by
  simp only [compose, spoil_blocks]
@[simp] theorem compose_info : (dec.compose iter d).info = dec.info := by
  simp only [compose, spoil_info]
@[simp] theorem compose_blendFunc : (dec.compose iter d).blendFunc = dec.blendFunc := by
  simp only [compose, spoil_blendFunc]
@[simp] theorem compose_outCanvasW : (dec.compose iter d).outCanvasW = dec.outCanvasW := by
  simp only [compose, spoil_outCanvasW]
@[simp] theorem compose_outCanvasH : (dec.compose iter d).outCanvasH = dec.outCanvasH := by
  simp only [compose, spoil_outCanvasH]
@[simp] theorem compose_config : (dec.compose iter d).config = (dec.spoil iter d).config := by
  simp only [compose]
@[simp] theorem compose_currFrame : (dec.compose iter d).currFrame = dec.composed iter d := by
  simp only [compose]
@[simp] theorem compose_prevFrameDisposed :
    (dec.compose iter d).prevFrameDisposed = dec.disposed iter (dec.composed iter d) := by
  simp only [compose]
@[simp] theorem compose_prevIter : (dec.compose iter d).prevIter = iter := by simp only [compose]
@[simp] theorem compose_prevFrameWasKeyframe :
    (dec.compose iter d).prevFrameWasKeyframe = dec.isKey iter := by simp only [compose]
@[simp] theorem compose_prevFrameTimestamp : (dec.compose iter d).prevFrameTimestamp =
    i32 (dec.prevFrameTimestamp + iter.duration) := by simp only [compose]
@[simp] theorem compose_nextFrame : (dec.compose iter d).nextFrame = dec.nextFrame + 1 := by
  simp only [compose]

@[simp] theorem disposed_size (canvas : Buf) :
    (dec.disposed iter canvas).size = dec.prevFrameDisposed.size := by
  unfold disposed
  dsimp only
  split_ifs <;> simp

@[simp] theorem spoil_outW : (dec.spoil iter d).outW = dec.outW := by
  simp only [outW, spoil_outCanvasW, spoil_info]
@[simp] theorem spoil_outH : (dec.spoil iter d).outH = dec.outH := by
  simp only [outH, spoil_outCanvasH, spoil_info]
@[simp] theorem compose_outW : (dec.compose iter d).outW = dec.outW := by
  simp only [outW, compose_outCanvasW, compose_info]
@[simp] theorem compose_outH : (dec.compose iter d).outH = dec.outH := by
  simp only [outH, compose_outCanvasH, compose_info]

@[simp] theorem spoil_rect (i : WebPIterator) : (dec.spoil iter d).rect i = dec.rect i := by
  simp only [rect, spoil_info, spoil_outW, spoil_outH]

@[simp] theorem spoil_isKey (i : WebPIterator) : (dec.spoil iter d).isKey i = dec.isKey i := by
  simp only [isKey, spoil_info, spoil_prevIter, spoil_prevFrameWasKeyframe]

@[simp] theorem spoil_blendFrame (i : WebPIterator) (key : Bool) (canvas : Buf) :
    (dec.spoil iter d).blendFrame i key canvas = dec.blendFrame i key canvas := by
  simp only [blendFrame, spoil_blendFunc, spoil_prevFrameDisposed, spoil_rect, spoil_outW]

@[simp] theorem spoil_disposeFrame (i : WebPIterator) (canvas : Buf) :
    (dec.spoil iter d).disposeFrame i canvas = dec.disposeFrame i canvas := by
  simp only [disposeFrame, spoil_prevFrameDisposed, spoil_rect, spoil_outW, spoil_outH]

end

end WebPAnimDecoder

namespace Ready

variable {dec : WebPAnimDecoder} {iter : WebPIterator}

theorem canvasSize_fit (h : Ready dec) (hf : dec.Fits) :
    canvasSize (u32 dec.outW) (u32 dec.outH) = dec.currFrame.size := by
  have h1 := h.canvasSize_eq
  have h2 := h.curr_size hf
  omega

theorem startCanvas_fit (h : Ready dec) (hf : dec.Fits) (key : Bool) :
    dec.startCanvas key = some (dec.baseCanvas key, false) := by
  have hc := h.check_iff.mpr hf
  have hs := h.canvasSize_fit hf
  rw [hs] at hc
  have hp := h.prev
  cases key <;>
    simp [WebPAnimDecoder.startCanvas, zeroFillCanvas, copyCanvas, hs, hc, hp,
      WebPAnimDecoder.baseCanvas]

theorem startCanvas_unfit (h : Ready dec) (hf : ¬ dec.Fits) (key : Bool) :
    dec.startCanvas key = none := by
  have hc : ¬ checkSizeOverflow (canvasSize (u32 dec.outW) (u32 dec.outH)) :=
    fun hc => hf (h.check_iff.mp hc)
  cases key <;> simp [WebPAnimDecoder.startCanvas, zeroFillCanvas, copyCanvas, hc]

/-- A row of the canvas is shorter than an `int`. -/
theorem stride_lt (h : Ready dec) (hf : dec.Fits) : 4 * dec.outW < 2147483648 := by
  have h1 := h.curr_size hf
  have h2 := h.alloc
  have h3 := h.outH_range
  have h4 := h.outW_range
  rw [maxAllocableMemory] at h2
  have h5 : 4 * dec.outW * 1 ≤ 4 * dec.outW * dec.outH :=
    mul_le_mul_of_nonneg_left (by omega) (by omega)
  omega

theorem frameConfig_fit (h : Ready dec) (hf : dec.Fits) {r : FrameRect}
    (hr : r.Within dec.outW dec.outH) : dec.frameConfig r = some (dec.targetConfig r) := by
  obtain ⟨hW, hW'⟩ := h.outW_range
  obtain ⟨hH, hH'⟩ := h.outH_range
  have hs := h.stride_lt hf
  have hstride : ((u32 dec.outW * numChannels % 2 ^ 32 : ℕ) : ℤ) = 4 * dec.outW := by
    have := u32_of_range hW.le (by omega)
    simp only [numChannels]
    omega
  have hy : (u64 r.yOff : ℤ) = r.yOff := u64_of_range hr.y (by linarith [hr.bottom, hr.h])
  have hx : (u64 r.xOff : ℤ) = r.xOff := u64_of_range hr.x (by linarith [hr.right, hr.w])
  have hh : (u64 r.frmH : ℤ) = r.frmH := u64_of_range hr.h (by linarith [hr.bottom, hr.y])
  have harea : r.frmH * (4 * dec.outW) < 4294967296 := by
    have : r.frmH * (4 * dec.outW) ≤ dec.outH * (4 * dec.outW) :=
      mul_le_mul_of_nonneg_right (by linarith [hr.bottom, hr.y]) (by omega)
    unfold WebPAnimDecoder.Fits at hf
    linarith
  have hoff : r.yOff * (4 * dec.outW) + r.xOff * 4 < 8589934592 := by
    have : r.yOff * (4 * dec.outW) ≤ dec.outH * (4 * dec.outW) :=
      mul_le_mul_of_nonneg_right (by linarith [hr.bottom, hr.h]) (by omega)
    unfold WebPAnimDecoder.Fits at hf
    linarith [hr.right, hr.w]
  have h0 : 0 ≤ r.frmH * (4 * dec.outW) := mul_nonneg hr.h (by omega)
  have h0' : 0 ≤ r.yOff * (4 * dec.outW) + r.xOff * 4 := by
    have := mul_nonneg hr.y (show 0 ≤ 4 * dec.outW by omega)
    linarith [hr.x]
  unfold WebPAnimDecoder.frameConfig WebPAnimDecoder.targetConfig
  dsimp only
  generalize u32 dec.outW * numChannels % 2 ^ 32 = stride at hstride
  have hsize : u64 r.frmH * stride % 2 ^ 64 = (r.frmH * (4 * dec.outW)).toNat := by
    zify
    rw [hh, hstride, Int.toNat_of_nonneg h0, Int.emod_eq_of_lt h0 (by omega)]
  have hbase : (((u64 r.yOff * stride + u64 r.xOff * numChannels) % 2 ^ 64 : ℕ) : ℤ) =
      4 * (r.yOff * dec.outW + r.xOff) := by
    simp only [numChannels]
    push_cast
    rw [hy, hx, hstride, Int.emod_eq_of_lt h0' (by omega)]
    ring
  have hcheck : checkSizeOverflow (r.frmH * (4 * dec.outW)).toNat = true := by
    simp only [checkSizeOverflow, decide_eq_true_eq]
    omega
  have hi : i32 stride = 4 * dec.outW := by
    rw [hstride]
    exact i32_of_range (by omega) hs
  simp only [hsize, hbase, hcheck, hi, Bool.not_true, Bool.false_eq_true, if_false]

theorem copyCanvas_fit (h : Ready dec) (hf : dec.Fits) {src dst : Buf}
    (hsrc : src.size = dec.currFrame.size) (hdst : dst.size = dec.currFrame.size) :
    copyCanvas src dst (u32 dec.outW) (u32 dec.outH) =
      some (dst.writeRow 0 dec.currFrame.size src.byte, false) := by
  have hcheck := h.check_iff.mpr hf
  rw [h.canvasSize_fit hf] at hcheck
  simp [copyCanvas, h.canvasSize_fit hf, hcheck, hsrc, hdst]

/-- The distance of two rows of the canvas, as an `int`. -/
theorem stride_eq (h : Ready dec) (hf : dec.Fits) : i32 (dec.outW * numChannels) = 4 * dec.outW := by
  have := h.outW_range
  have := h.stride_lt hf
  simp only [numChannels]
  push_cast
  rw [i32_of_range (by omega) (by omega)]
  ring

/-- Where a rectangle starts on the canvas, as an `int`. -/
theorem base_eq (h : Ready dec) (hf : dec.Fits) {r : FrameRect} (hr : r.Within dec.outW dec.outH) :
    i32 (r.yOff * (4 * dec.outW) + r.xOff * numChannels) = 4 * (r.yOff * dec.outW + r.xOff) := by
  obtain ⟨hW, -⟩ := h.outW_range
  have hsize := h.curr_size hf
  have hle : (dec.currFrame.size : ℤ) ≤ 2147418112 := by
    have := h.alloc
    rw [maxAllocableMemory] at this
    omega
  have h1 : r.yOff * dec.outW ≤ (dec.outH - 1) * dec.outW :=
    mul_le_mul_of_nonneg_right (by linarith [hr.top]) hW.le
  have h2 : 0 ≤ r.yOff * dec.outW := mul_nonneg hr.y hW.le
  have h3 := hr.x
  have h4 := hr.left
  simp only [numChannels]
  push_cast
  rw [i32_of_range (by linarith) (by linarith)]
  ring

/-- Disposing a frame touches only its rectangle. -/
theorem zeroFillFrameRect_fit (h : Ready dec) (hf : dec.Fits) {r : FrameRect}
    (hr : r.Within dec.outW dec.outH) {buf : Buf} (hb : buf.size = dec.currFrame.size) :
    zeroFillFrameRect buf (i32 (dec.outW * numChannels)) r =
      (buf.writeRows (canvasRows dec.outW r) fun _ _ => 0, false) := by
  obtain ⟨hW, hW'⟩ := h.outW_range
  have hsize := h.curr_size hf
  have hlt := h.stride_lt hf
  have hi32 := h.stride_eq hf
  have hbase := h.base_eq hf hr
  have hwidth : u32 (r.frmW * numChannels) = (4 * r.frmW).toNat := by
    have h5 := hr.w
    have h6 := hr.right
    have h7 := hr.x
    simp only [numChannels]
    push_cast
    rw [u32_toNat (by omega) (by omega), mul_comm]
  have hinside := hr.rows_inside (hb ▸ hsize)
  unfold zeroFillFrameRect
  simp only [hi32, hbase, hwidth]
  rw [canvasRows] at hinside ⊢
  simp only [hinside, decide_true, Bool.not_true]

theorem disposeFrame_fit (h : Ready dec) (hf : dec.Fits) (hi : IterFacts dec.demux iter) {canvas : Buf}
    (hc : canvas.size = dec.currFrame.size) :
    dec.disposeFrame iter canvas = some (dec.disposed iter canvas, false) := by
  obtain ⟨-, -, hr⟩ := h.rect_within hi
  simp only [WebPAnimDecoder.disposeFrame, WebPAnimDecoder.disposed, h.copyCanvas_fit hf hc h.prev]
  by_cases hd : iter.disposeMethod = .background
  · have hz := h.zeroFillFrameRect_fit hf hr
      (show (dec.prevFrameDisposed.writeRow 0 dec.currFrame.size canvas.byte).size =
        dec.currFrame.size from h.prev)
    simp only [hd, if_true, hz, Bool.or_false]
  · simp only [hd, if_false]

end Ready

/-! ### Blending stays in the rectangle -/

section

variable {f : BlendRowFunc} {src dst : Buf} {r : FrameRect} {W H : ℤ}

@[simp] theorem blendRows_size : ∀ n, (blendRows f src dst r W n).1.size = src.size
  | 0 => rfl
  | n + 1 => by simp [blendRows, blendRows_size n]

/-- Where row `y` of the rectangle starts, in pixels. -/
theorem rowOffset_eq (hr : r.Within W H) (hc : 4 * W * H < 4294967296) {y : ℕ}
    (hy : (y : ℤ) < r.frmH) (hw : 0 < r.frmW) :
    (u32 ((r.yOff + y) * W + r.xOff) : ℤ) = (r.yOff + y) * W + r.xOff := by
  have h1 := hr.pixel_lt hw hy
  have h0 : 0 ≤ (r.yOff + y) * W :=
    mul_nonneg (by linarith [hr.y, Int.natCast_nonneg y]) (by linarith [hr.x, hr.w, hr.right])
  exact u32_of_range (by linarith [hr.x]) (by linarith)

theorem blendRows_stray (hr : r.Within W H) (hc : 4 * W * H < 4294967296)
    (hsrc : (src.size : ℤ) = 4 * W * H) (hdst : dst.size = src.size) :
    ∀ n : ℕ, (n : ℤ) ≤ r.frmH → (blendRows f src dst r W n).2 = false
  | 0, _ => rfl
  | n + 1, hn => by
    push_cast at hn
    have ih := blendRows_stray hr hc hsrc hdst n (by omega)
    simp only [blendRows, ih, Bool.false_or, decide_eq_false_iff_not, not_and, not_or, not_lt,
      blendRows_size, hdst, and_self]
    intro hw
    have hoff := rowOffset_eq hr hc (show (n : ℤ) < r.frmH by omega) hw
    have hp := hr.pixel_lt (show r.frmW - 1 < r.frmW by omega) (show (n : ℤ) < r.frmH by omega)
    zify
    rw [hoff, hsrc, Int.toNat_of_nonneg hr.w]
    linarith

end

namespace Ready

variable {dec : WebPAnimDecoder} {iter : WebPIterator}

theorem blendFrame_fit (h : Ready dec) (hf : dec.Fits) (hi : IterFacts dec.demux iter) {canvas : Buf}
    (hc : canvas.size = dec.currFrame.size) (key : Bool) :
    (dec.blendFrame iter key canvas).1.size = dec.currFrame.size ∧
      (dec.blendFrame iter key canvas).2 = false := by
  obtain ⟨-, -, hr⟩ := h.rect_within hi
  unfold WebPAnimDecoder.blendFrame
  split_ifs
  · have hsize : (canvas.size : ℤ) = 4 * dec.outW * dec.outH := hc ▸ h.curr_size hf
    exact ⟨(blendRows_size _).trans hc,
      blendRows_stray hr hf hsize (h.prev.trans hc.symm) _ (Int.toNat_of_nonneg hr.h).le⟩
  · exact ⟨hc, rfl⟩

/-! ### A whole call -/

theorem target_facts (h : Ready dec) (r : FrameRect) :
    (dec.targetConfig r).options.useCropping = false ∧ (dec.targetConfig r).options.flip = false ∧
      (dec.targetConfig r).output.isExternalMemory = true ∧
      (dec.targetConfig r).output.privateMemory = none := by
  simp only [WebPAnimDecoder.targetConfig]
  exact ⟨h.config.crop, h.config.flip, h.config.external, h.config.priv⟩

/-- What is known of the decode of a frame. -/
theorem decoded (h : Ready dec) (hi : IterFacts dec.demux iter) (codec : Codec)
    (env : Env) (heap : Heap ObjectKind) :
    DecodedAs codec env iter.fragment iter.width iter.height (dec.targetConfig (dec.rect iter))
      (dec.baseCanvas (dec.isKey iter)) heap (dec.decodeFrame codec env iter heap) := by
  obtain ⟨hcrop, hflip, hext, hpriv⟩ := h.target_facts (dec.rect iter)
  unfold WebPAnimDecoder.decodeFrame
  exact webPDecode_external _ _ _ _ _ hi.headers hi.width hi.height hcrop hflip hext hpriv

end Ready

theorem DecodedAs.mem_size {codec : Codec} {env : Env} {d : WebPData} {w h : ℤ}
    {config : WebPDecoderConfig} {mem : Buf} {heap : Heap ObjectKind} {r : Decoded}
    (hr : DecodedAs codec env d w h config mem heap r) : r.mem.size = mem.size ∧ r.heap = heap := by
  cases hr <;> exact ⟨by simp, rfl⟩

/-- The decoder reads its frames in order and has one left. -/
def WebPAnimDecoder.Frame (dec : WebPAnimDecoder) (iter : WebPIterator) : Prop :=
  dec.hasMoreFrames ∧ webPDemuxGetFrame dec.demux dec.nextFrame = some iter

/-- The three outcomes of a call. -/
inductive NextAs (codec : Codec) (env : Env) (dec : WebPAnimDecoder) (heap : Heap ObjectKind) :
    Next → Prop
  | nothing (why : (∀ iter, ¬ dec.Frame iter) ∨ ¬ dec.Fits) :
      NextAs codec env dec heap ⟨dec, heap, none, false⟩
  | failed {iter : WebPIterator} (fits : dec.Fits) (frame : dec.Frame iter)
      (bad : (dec.decodeFrame codec env iter heap).status ≠ .ok) :
      NextAs codec env dec heap ⟨dec.spoil iter (dec.decodeFrame codec env iter heap), heap, none,
        (dec.decodeFrame codec env iter heap).stray⟩
  | composed {iter : WebPIterator} (fits : dec.Fits) (frame : dec.Frame iter)
      (good : (dec.decodeFrame codec env iter heap).status = .ok) :
      NextAs codec env dec heap ⟨dec.compose iter (dec.decodeFrame codec env iter heap), heap,
        some (i32 (dec.prevFrameTimestamp + iter.duration)),
        (dec.decodeFrame codec env iter heap).stray⟩

namespace Ready

variable {dec : WebPAnimDecoder} {iter : WebPIterator}

theorem iterFacts (h : Ready dec) (hf : dec.Frame iter) :
    iter.frameNum = dec.nextFrame ∧ IterFacts dec.demux iter := by
  obtain ⟨data, ha⟩ := h.accepted
  exact ha.of_getFrame (by linarith [h.next]) hf.2

/-- The end of a call, for the decoder the decode has left. -/
theorem finishFrame_fit (h : Ready dec) (hf : dec.Fits) (hi : IterFacts dec.demux iter) {d : Decoded}
    (hd : d.mem.size = dec.currFrame.size) (heap : Heap ObjectKind) (stray : Bool) :
    finishFrame (dec.spoil iter d) iter heap stray =
      ⟨dec.compose iter d, heap, some (i32 (dec.prevFrameTimestamp + iter.duration)), stray⟩ := by
  obtain ⟨hsize, hstray⟩ := h.blendFrame_fit hf hi hd (dec.isKey iter)
  have hdisp := h.disposeFrame_fit hf hi hsize
  rcases hb : dec.blendFrame iter (dec.isKey iter) d.mem with ⟨canvas, stray'⟩
  rw [hb] at hsize hstray hdisp
  subst hstray
  have hcomp : dec.composed iter d = canvas := by rw [WebPAnimDecoder.composed, hb]
  unfold finishFrame
  simp only [WebPAnimDecoder.spoil_isKey, WebPAnimDecoder.spoil_currFrame,
    WebPAnimDecoder.spoil_blendFrame, WebPAnimDecoder.spoil_disposeFrame, hb, hdisp, Bool.or_false,
    WebPAnimDecoder.spoil_prevFrameTimestamp, WebPAnimDecoder.spoil_nextFrame]
  unfold WebPAnimDecoder.compose
  rw [hcomp]

end Ready

namespace Ready

variable {dec : WebPAnimDecoder} {iter : WebPIterator}

/-- The call from `WebPDecode` on, whatever the decode did to the canvas. -/
theorem afterDecode_fit (h : Ready dec) (hf : dec.Fits) (hi : IterFacts dec.demux iter) {d : Decoded}
    (hd : d.mem.size = dec.currFrame.size) :
    afterDecode dec iter (dec.targetConfig (dec.rect iter)) false d =
      if d.status ≠ .ok then ⟨dec.spoil iter d, d.heap, none, d.stray⟩
      else ⟨dec.compose iter d, d.heap, some (i32 (dec.prevFrameTimestamp + iter.duration)), d.stray⟩ := by
  rw [afterDecode, Bool.false_or, ← h.finishFrame_fit hf hi hd, WebPAnimDecoder.spoil]

theorem next_cases (h : Ready dec) (codec : Codec) (env : Env) (heap : Heap ObjectKind) :
    NextAs codec env dec heap (webPAnimDecoderGetNext codec env dec heap) := by
  unfold webPAnimDecoderGetNext
  by_cases hmore : dec.hasMoreFrames
  · rw [if_neg (by simp [hmore])]
    cases hget : webPDemuxGetFrame dec.demux dec.nextFrame with
    | none => exact .nothing (.inl fun iter hf => by simp [hf.2] at hget)
    | some iter =>
      have hframe : dec.Frame iter := ⟨hmore, hget⟩
      obtain ⟨-, hi⟩ := h.iterFacts hframe
      by_cases hf : dec.Fits
      · obtain ⟨-, -, hr⟩ := h.rect_within hi
        obtain ⟨hsize, hheap⟩ := (h.decoded hi codec env heap).mem_size
        simp only [h.startCanvas_fit hf]
        rw [h.frameConfig_fit hf hr, decodeCanvas, ← WebPAnimDecoder.decodeFrame,
          h.afterDecode_fit hf hi hsize, hheap]
        split_ifs with hbad
        · exact .failed hf hframe hbad
        · exact .composed hf hframe (not_not.mp hbad)
      · simp only [h.startCanvas_unfit hf]
        exact .nothing (.inr hf)
  · rw [if_pos (by simp [hmore])]
    exact .nothing (.inl fun iter hf => hmore hf.1)

end Ready

/-! ### Every run -/

theorem acceptedBuffer_some {w h : ℤ} {config : WebPDecoderConfig} {o : WebPDecBuffer}
    (ha : acceptedBuffer w h config = some o) :
    ∃ w' h', applyOptions w h config.options = some (w', h') ∧
      o = config.output.sized w' h' ∧ checkDecBuffer o = .ok := by
  unfold acceptedBuffer at ha
  split at ha
  · cases ha
  · rename_i w' h' hopt
    split_ifs at ha with hc
    cases ha
    exact ⟨w', h', hopt, rfl, hc⟩

theorem DecodedAs.sameKind {codec : Codec} {env : Env} {d : WebPData} {w h : ℤ}
    {config : WebPDecoderConfig} {mem : Buf} {heap : Heap ObjectKind} {r : Decoded}
    (hr : DecodedAs codec env d w h config mem heap r) : r.output.SameKind config.output := by
  cases hr with
  | refused why bad kind => exact kind
  | broken header accepted image =>
    obtain ⟨w', h', -, rfl, -⟩ := acceptedBuffer_some accepted
    exact ⟨WebPDecBuffer.sized_colorspace, WebPDecBuffer.sized_isExternalMemory,
      WebPDecBuffer.sized_privateMemory⟩
  | done header accepted image =>
    obtain ⟨w', h', -, rfl, -⟩ := acceptedBuffer_some accepted
    exact ⟨WebPDecBuffer.sized_colorspace, WebPDecBuffer.sized_isExternalMemory,
      WebPDecBuffer.sized_privateMemory⟩

namespace Ready

variable {dec : WebPAnimDecoder} {iter : WebPIterator}

theorem reset (h : Ready dec) : Ready (webPAnimDecoderReset dec) :=
  ⟨h.accepted, h.width, h.height, h.both, h.int, ⟨h.config.crop, h.config.flip, h.config.external,
    h.config.priv, h.config.bpp, h.config.scaling⟩, h.curr, h.prev, h.alloc, le_rfl⟩

theorem spoil (h : Ready dec) {d : Decoded} (hs : d.mem.size = dec.currFrame.size)
    (hk : d.output.SameKind dec.config.output) : Ready (dec.spoil iter d) := by
  obtain ⟨hcolor, hext, hpriv⟩ := hk
  refine ⟨by simpa using h.accepted, by simpa using h.width, by simpa using h.height,
    by simpa using h.both, by simpa using h.int, ?_, by simpa [hs] using h.curr,
    by simpa [hs] using h.prev, by simpa [hs] using h.alloc, by simpa using h.next⟩
  exact ⟨by simpa using h.config.crop, by simpa using h.config.flip, by simpa [hext] using h.config.external,
    by simpa [hpriv] using h.config.priv, by simpa [hcolor] using h.config.bpp,
    by simpa using h.config.scaling⟩

theorem compose (h : Ready dec) (hf : dec.Fits) (hi : IterFacts dec.demux iter) {d : Decoded}
    (hs : d.mem.size = dec.currFrame.size) (hk : d.output.SameKind dec.config.output) :
    Ready (dec.compose iter d) := by
  have hsp : Ready (dec.spoil iter d) := h.spoil hs hk
  have hcanvas : (dec.composed iter d).size = dec.currFrame.size :=
    (h.blendFrame_fit hf hi hs (dec.isKey iter)).1
  have hnext := h.next
  refine ⟨by simpa using h.accepted, by simpa using h.width, by simpa using h.height,
    by simpa using h.both, by simpa using h.int, ?_, by simpa [hcanvas] using h.curr, ?_,
    by simpa [hcanvas] using h.alloc, ?_⟩
  · have hc := hsp.config
    exact ⟨by simpa using hc.crop, by simpa using hc.flip, by simpa using hc.external,
      by simpa using hc.priv, by simpa using hc.bpp, by simpa using hc.scaling⟩
  · simp [hcanvas, h.prev]
  · rw [WebPAnimDecoder.compose_nextFrame]
    omega

/-- A ready decoder stays ready through a call, failed or not. -/
theorem next_dec (h : Ready dec) (codec : Codec) (env : Env) (heap : Heap ObjectKind) :
    Ready (webPAnimDecoderGetNext codec env dec heap).dec := by
  have hn := h.next_cases codec env heap
  generalize webPAnimDecoderGetNext codec env dec heap = n at hn
  cases hn with
  | nothing why => exact h
  | @failed iter fits frame bad =>
    have hd := h.decoded (h.iterFacts frame).2 codec env heap
    exact h.spoil hd.mem_size.1 hd.sameKind
  | @composed iter fits frame good =>
    have hi := (h.iterFacts frame).2
    have hd := h.decoded hi codec env heap
    exact h.compose fits hi hd.mem_size.1 hd.sameKind

end Ready

/-- What no call changes. -/
structure WebPAnimDecoder.Same (dec dec' : WebPAnimDecoder) : Prop where
  demux : dec.demux = dec'.demux
  info : dec.info = dec'.info
  blendFunc : dec.blendFunc = dec'.blendFunc
  outCanvasW : dec.outCanvasW = dec'.outCanvasW
  outCanvasH : dec.outCanvasH = dec'.outCanvasH
  blocks : dec.blocks = dec'.blocks

namespace WebPAnimDecoder.Same

variable {dec dec' dec'' : WebPAnimDecoder}

theorem refl : dec.Same dec := ⟨rfl, rfl, rfl, rfl, rfl, rfl⟩

theorem trans (h : dec.Same dec') (h' : dec'.Same dec'') : dec.Same dec'' :=
  ⟨h.demux.trans h'.demux, h.info.trans h'.info, h.blendFunc.trans h'.blendFunc,
    h.outCanvasW.trans h'.outCanvasW, h.outCanvasH.trans h'.outCanvasH, h.blocks.trans h'.blocks⟩

theorem outW (h : dec.Same dec') : dec.outW = dec'.outW := by
  rw [WebPAnimDecoder.outW, WebPAnimDecoder.outW, h.outCanvasW, h.info]

theorem outH (h : dec.Same dec') : dec.outH = dec'.outH := by
  rw [WebPAnimDecoder.outH, WebPAnimDecoder.outH, h.outCanvasH, h.info]

theorem fits (h : dec.Same dec') : dec.Fits ↔ dec'.Fits := by
  rw [Fits, Fits, h.outW, h.outH]

end WebPAnimDecoder.Same

theorem Ready.next_same {dec : WebPAnimDecoder} (h : Ready dec) (codec : Codec) (env : Env)
    (heap : Heap ObjectKind) : (webPAnimDecoderGetNext codec env dec heap).dec.Same dec := by
  have hn := h.next_cases codec env heap
  generalize webPAnimDecoderGetNext codec env dec heap = n at hn
  cases hn with
  | nothing why => exact .refl
  | failed fits frame bad => constructor <;> simp
  | composed fits frame good => constructor <;> simp

/-- One call on a decoder. -/
inductive AnimStep (codec : Codec) : WebPAnimDecoder → WebPAnimDecoder → Prop
  | next (dec : WebPAnimDecoder) (env : Env) (heap : Heap ObjectKind) :
      AnimStep codec dec (webPAnimDecoderGetNext codec env dec heap).dec
  | reset (dec : WebPAnimDecoder) : AnimStep codec dec (webPAnimDecoderReset dec)

/-- The decoders that runs of calls lead to. -/
def Reach (codec : Codec) : WebPAnimDecoder → WebPAnimDecoder → Prop :=
  Relation.ReflTransGen (AnimStep codec)

theorem Reach.next {codec : Codec} {dec₀ dec : WebPAnimDecoder} (h : Reach codec dec₀ dec) (env : Env)
    (heap : Heap ObjectKind) : Reach codec dec₀ (webPAnimDecoderGetNext codec env dec heap).dec :=
  Relation.ReflTransGen.tail h (AnimStep.next dec env heap)

theorem Reach.ready {codec : Codec} {dec₀ dec : WebPAnimDecoder} (h₀ : Ready dec₀)
    (hr : Reach codec dec₀ dec) : Ready dec := by
  induction hr with
  | refl => exact h₀
  | tail _ hstep ih =>
    cases hstep with
    | next env heap => exact ih.next_dec codec env heap
    | reset => exact ih.reset

theorem Reach.same {codec : Codec} {dec₀ dec : WebPAnimDecoder} (h₀ : Ready dec₀)
    (hr : Reach codec dec₀ dec) : dec.Same dec₀ := by
  induction hr with
  | refl => exact .refl
  | tail hprev hstep ih =>
    cases hstep with
    | next env heap => exact (Ready.next_same (Reach.ready h₀ hprev) codec env heap).trans ih
    | reset => exact ⟨ih.demux, ih.info, ih.blendFunc, ih.outCanvasW, ih.outCanvasH, ih.blocks⟩

/-- The options set the scaled canvas when they ask for both sides. -/
theorem applyDecoderOptions_sizes {options : WebPAnimDecoderOptions} {f : BlendRowFunc}
    {config : WebPDecoderConfig} {w h : ℤ} (ha : applyDecoderOptions options = some (f, config, w, h)) :
    w = (if 0 < options.scaledWidth ∧ 0 < options.scaledHeight then options.scaledWidth else 0) ∧
      h = if 0 < options.scaledWidth ∧ 0 < options.scaledHeight then options.scaledHeight else 0 := by
  unfold applyDecoderOptions at ha
  dsimp only at ha
  rw [Option.ite_none_left_eq_some] at ha
  obtain ⟨-, ha⟩ := ha
  simp only [Option.some.injEq, Prod.mk.injEq, decide_eq_true_eq] at ha
  exact ⟨ha.2.2.1.symm, ha.2.2.2.symm⟩

/-- The size of the canvas that runs on a new decoder work on. -/
theorem Reach.out {codec : Codec} {grants : Grants} {data : WebPData} {dmux : WebPDemuxer}
    {options : WebPAnimDecoderOptions} {heap heap' : Heap ObjectKind} {dec₀ dec : WebPAnimDecoder}
    (ha : Accepted data dmux) (ho : IntOptions options)
    (hnew : webPAnimDecoderNew grants data options heap = (some dec₀, heap'))
    (hr : Reach codec dec₀ dec) :
    Ready dec ∧ dec.demux = dmux ∧
      dec.outCanvasW = (if 0 < options.scaledWidth ∧ 0 < options.scaledHeight then options.scaledWidth
        else 0) ∧
      dec.outW = (if 0 < options.scaledWidth ∧ 0 < options.scaledHeight then options.scaledWidth
        else dmux.canvasWidth) ∧
      dec.outH = if 0 < options.scaledWidth ∧ 0 < options.scaledHeight then options.scaledHeight
        else dmux.canvasHeight := by
  obtain ⟨h₀, hdmux⟩ := ready_of_new ha ho hnew
  obtain ⟨-, -, ⟨f, happly, -⟩, -⟩ := webPAnimDecoderNew_some hnew
  obtain ⟨e1, e2⟩ := applyDecoderOptions_sizes happly
  have hsame := hr.same h₀
  have hready := hr.ready h₀
  have hd : dec.demux = dmux := hsame.demux.trans hdmux
  have hcw := hsame.outCanvasW.trans e1
  have hch := hsame.outCanvasH.trans e2
  refine ⟨hready, hd, hcw, ?_, ?_⟩ <;> split_ifs at hcw hch ⊢ with hs
  · rw [WebPAnimDecoder.outW, if_pos (by omega), hcw]
  · rw [(hready.out_unscaled hcw).1, hd]
  · rw [WebPAnimDecoder.outH, if_pos (by omega), hch]
  · rw [(hready.out_unscaled hcw).2, hd]

/-- The decoders that runs on a new decoder with a scaled canvas lead to. -/
theorem Reach.scaled {codec : Codec} {grants : Grants} {data : WebPData} {dmux : WebPDemuxer}
    {options : WebPAnimDecoderOptions} {heap heap' : Heap ObjectKind} {dec₀ dec : WebPAnimDecoder}
    (ha : Accepted data dmux) (ho : IntOptions options) (hw : 1 ≤ options.scaledWidth)
    (hh : 1 ≤ options.scaledHeight)
    (hnew : webPAnimDecoderNew grants data options heap = (some dec₀, heap'))
    (hr : Reach codec dec₀ dec) :
    Ready dec ∧ dec.demux = dmux ∧ dec.outCanvasW = options.scaledWidth ∧
      dec.outW = options.scaledWidth ∧ dec.outH = options.scaledHeight := by
  simpa [show 0 < options.scaledWidth ∧ 0 < options.scaledHeight by omega] using hr.out ha ho hnew

end WebPlugin
