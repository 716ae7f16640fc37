/-
# The animation decoder

`src/codec/libwebp/src/demux/anim_decode.c`: `WebPAnimDecoderNew`, `GetNext`,
`Reset` and `Delete`. A call that fails leaves the decoder as the source leaves
it at the exit taken, dirty canvas and changed configuration included. The
result of a call also says whether it touched memory outside its canvases
(`stray`).
-/
import WebPlugin.Demux
import WebPlugin.Decode
import WebPlugin.Blend

namespace WebPlugin

open Memory Ledger Words

/-- `SCALE_DIM`: scale a full-res dimension down to the scaled canvas. -/
def scaleDim (val full scaled : ℤ) : ℤ := i32 (u32 val * u32 scaled % 2 ^ 32 / u32 full : ℕ)

/-- `NUM_CHANNELS`. -/
def numChannels : ℕ := 4

/-! ### Data -/

/-- `WebPAnimDecoderOptions`. -/
structure WebPAnimDecoderOptions where
  colorMode : WebPCspMode := .RGBA
  useThreads : Bool := false
  scaledWidth : ℤ := 0
  scaledHeight : ℤ := 0
  deriving DecidableEq, Repr

/-- `WebPAnimInfo`. -/
structure WebPAnimInfo where
  canvasWidth : ℕ
  canvasHeight : ℕ
  loopCount : ℕ
  bgcolor : ℕ
  frameCount : ℕ
  deriving DecidableEq, Repr

/-- The objects of a decoder, NULL until allocated. -/
structure AnimBlocks where
  self : ℕ
  demux : Option ℕ := none
  currFrame : Option ℕ := none
  prevFrameDisposed : Option ℕ := none
  deriving DecidableEq, Repr

/-- `WebPAnimDecoder`. -/
structure WebPAnimDecoder where
  blocks : AnimBlocks
  demux : WebPDemuxer
  config : WebPDecoderConfig
  blendFunc : BlendRowFunc
  info : WebPAnimInfo
  currFrame : Buf
  prevFrameDisposed : Buf
  prevFrameTimestamp : ℤ
  prevIter : WebPIterator
  prevFrameWasKeyframe : Bool
  nextFrame : ℤ
  outCanvasW : ℤ
  outCanvasH : ℤ

/-- A frame's rectangle on the output canvas. -/
structure FrameRect where
  xOff : ℤ
  yOff : ℤ
  frmW : ℤ
  frmH : ℤ
  deriving DecidableEq, Repr

namespace WebPAnimDecoder

/-- `out_w`. -/
def outW (dec : WebPAnimDecoder) : ℤ :=
  if 0 < dec.outCanvasW then dec.outCanvasW else i32 dec.info.canvasWidth

/-- `out_h`. -/
def outH (dec : WebPAnimDecoder) : ℤ :=
  if 0 < dec.outCanvasH then dec.outCanvasH else i32 dec.info.canvasHeight

/-- The rectangle decoded, blended and disposed for a frame. -/
def rect (dec : WebPAnimDecoder) (iter : WebPIterator) : FrameRect :=
  ⟨scaleDim iter.xOffset dec.info.canvasWidth dec.outW,
    scaleDim iter.yOffset dec.info.canvasHeight dec.outH,
    scaleDim iter.width dec.info.canvasWidth dec.outW,
    scaleDim iter.height dec.info.canvasHeight dec.outH⟩

end WebPAnimDecoder

/-! ### Canvases -/

/-- `IsFullFrame`. -/
def isFullFrame (width height canvasWidth canvasHeight : ℤ) : Bool :=
  width = canvasWidth ∧ height = canvasHeight

/-- The size `ZeroFillCanvas` and `CopyCanvas` compute, in 64 bits. -/
def canvasSize (canvasWidth canvasHeight : ℕ) : ℕ :=
  canvasWidth * canvasHeight * numChannels % 2 ^ 64

/-- `ZeroFillCanvas`: the canvas, and whether `memset` left it. -/
def zeroFillCanvas (buf : Buf) (canvasWidth canvasHeight : ℕ) : Option (Buf × Bool) :=
  let size := canvasSize canvasWidth canvasHeight
  if !checkSizeOverflow size then none
  else some (buf.writeRow 0 size fun _ => 0, buf.size < size)

/-- `CopyCanvas`. -/
def copyCanvas (src dst : Buf) (width height : ℕ) : Option (Buf × Bool) :=
  let size := canvasSize width height
  if !checkSizeOverflow size then none
  else some (dst.writeRow 0 size src.byte, src.size < size ∨ dst.size < size)

/-- `ZeroFillFrameRect`. -/
def zeroFillFrameRect (buf : Buf) (bufStride : ℤ) (r : FrameRect) : Buf × Bool :=
  let rows : Rows := ⟨i32 (r.yOff * bufStride + r.xOff * numChannels), bufStride,
    u32 (r.frmW * numChannels), r.frmH.toNat⟩
  (buf.writeRows rows fun _ _ => 0, !decide (rows.Inside buf.size))

/-- `IsKeyFrame`. -/
def isKeyFrame (curr prev : WebPIterator) (prevFrameWasKeyFrame : Bool)
    (canvasWidth canvasHeight : ℤ) : Bool :=
  if curr.frameNum = 1 then true
  else if (!curr.hasAlpha ∨ curr.blendMethod = .noBlend) ∧
      isFullFrame curr.width curr.height canvasWidth canvasHeight then true
  else prev.disposeMethod = .background ∧
    (isFullFrame prev.width prev.height canvasWidth canvasHeight ∨ prevFrameWasKeyFrame)

/-- The loops over the rows of a frame that call `blend_row`; the two of the
source are the same loop. -/
def blendRows (f : BlendRowFunc) (src dst : Buf) (r : FrameRect) (outW : ℤ) : ℕ → Buf × Bool
  | 0 => (src, false)
  | y + 1 =>
    let (src, stray) := blendRows f src dst r outW y
    let offset := u32 ((r.yOff + y) * outW + r.xOff)
    let last := 4 * (offset + r.frmW.toNat)
    (blendPixelRow f src dst offset r.frmW.toNat,
      stray || 0 < r.frmW ∧ (src.size < last ∨ dst.size < last))

/-! ### The decoder's life -/

/-- `WebPAnimDecoderReset`. -/
def webPAnimDecoderReset (dec : WebPAnimDecoder) : WebPAnimDecoder :=
  { dec with
    prevFrameTimestamp := 0
    prevIter := .zero
    prevFrameWasKeyframe := false
    nextFrame := 1 }

/-- `WebPAnimDecoderDelete`. -/
def webPAnimDecoderDelete (blocks : AnimBlocks) (heap : Heap ObjectKind) : Heap ObjectKind :=
  (((heap.release? blocks.demux).release? blocks.currFrame).release?
    blocks.prevFrameDisposed).release blocks.self

/-- `WebPDemux`, with its object. -/
def webPDemuxNew (grants : Grants) (data : WebPData) (heap : Heap ObjectKind) :
    Option (ℕ × WebPDemuxer) × Heap ObjectKind :=
  match webPDemux data with
  | none => (none, heap)
  | some demux =>
    match heap.alloc (grants .demuxer) .demuxer 0 with
    | (id, heap) => (id.map (·, demux), heap)

/-- `ApplyDecoderOptions`: the row function, the configuration and the scaled
canvas, for the modes allowed. -/
def applyDecoderOptions (options : WebPAnimDecoderOptions) :
    Option (BlendRowFunc × WebPDecoderConfig × ℤ × ℤ) :=
  let mode := options.colorMode
  if mode ≠ .RGBA ∧ mode ≠ .BGRA ∧ mode ≠ .rgbA ∧ mode ≠ .bgrA then none
  else
    let blendFunc := if mode = .RGBA ∨ mode = .BGRA then .nonPremult else .premult
    let scaling : Bool := 0 < options.scaledWidth ∧ 0 < options.scaledHeight
    some (blendFunc,
      { output := { colorspace := mode, isExternalMemory := true }
        options := { useThreads := options.useThreads, useScaling := scaling } },
      if scaling then options.scaledWidth else 0, if scaling then options.scaledHeight else 0)

/-- `dec->info`, as `WebPDemuxGetI` reads it. -/
def animInfo (demux : WebPDemuxer) : WebPAnimInfo :=
  ⟨u32 demux.canvasWidth, u32 demux.canvasHeight, u32 demux.loopCount, demux.bgcolor,
    u32 demux.numFrames⟩

/-- `WebPAnimDecoderNew`. -/
def webPAnimDecoderNew (grants : Grants) (data : WebPData) (options : WebPAnimDecoderOptions)
    (heap : Heap ObjectKind) : Option WebPAnimDecoder × Heap ObjectKind :=
  -- Validate the bitstream before doing expensive allocations.
  if (webPGetFeatures data).1 ≠ .ok then (none, heap)
  else match heap.alloc (grants .animDecoder) .animDecoder 0 with
  | (none, heap) => (none, heap)
  | (some self, heap) =>
    let blocks : AnimBlocks := { self := self }
    match applyDecoderOptions options with
    | none => (none, webPAnimDecoderDelete blocks heap)
    | some (blendFunc, config, outCanvasW, outCanvasH) =>
      match webPDemuxNew grants data heap with
      | (none, heap) => (none, webPAnimDecoderDelete blocks heap)
      | (some (demuxId, demux), heap) =>
        let blocks := { blocks with demux := some demuxId }
        let info := animInfo demux
        let bufW := if 0 < outCanvasW then outCanvasW else i32 info.canvasWidth
        let bufH := if 0 < outCanvasH then outCanvasH else i32 info.canvasHeight
        let nmemb := u64 (i32 (bufW * numChannels))
        match webPSafeCalloc grants .canvas nmemb (u32 bufH) heap with
        | (none, heap) => (none, webPAnimDecoderDelete blocks heap)
        | (some currFrame, heap) =>
          let blocks := { blocks with currFrame := some currFrame.id }
          match webPSafeCalloc grants .canvas nmemb (u32 bufH) heap with
          | (none, heap) => (none, webPAnimDecoderDelete blocks heap)
          | (some prevFrameDisposed, heap) =>
            (some (webPAnimDecoderReset
              ⟨{ blocks with prevFrameDisposed := some prevFrameDisposed.id }, demux, config,
                blendFunc, info, currFrame.buf, prevFrameDisposed.buf, 0, .zero, false, 0,
                outCanvasW, outCanvasH⟩), heap)

/-! ### GetNext -/

namespace WebPAnimDecoder

/-- `WebPAnimDecoderHasMoreFrames`. -/
def hasMoreFrames (dec : WebPAnimDecoder) : Bool := dec.nextFrame ≤ i32 dec.info.frameCount

/-- Whether `GetNext` takes a frame for a key frame. -/
def isKey (dec : WebPAnimDecoder) (iter : WebPIterator) : Bool :=
  isKeyFrame iter dec.prevIter dec.prevFrameWasKeyframe (i32 dec.info.canvasWidth)
    (i32 dec.info.canvasHeight)

/-- The canvas before decoding: cleared for a key frame, else the previous
canvas, disposed. -/
def startCanvas (dec : WebPAnimDecoder) (key : Bool) : Option (Buf × Bool) :=
  if key then zeroFillCanvas dec.currFrame (u32 dec.outW) (u32 dec.outH)
  else copyCanvas dec.prevFrameDisposed dec.currFrame (u32 dec.outW) (u32 dec.outH)

/-- The configuration `WebPDecode` gets: the size wanted, and the part of
`curr_frame` to write. -/
def frameConfig (dec : WebPAnimDecoder) (r : FrameRect) : Option WebPDecoderConfig :=
  let stride := u32 dec.outW * numChannels % 2 ^ 32
  let outOffset : ℕ := (u64 r.yOff * stride + u64 r.xOff * numChannels) % 2 ^ 64
  let size := u64 r.frmH * stride % 2 ^ 64
  if !checkSizeOverflow size then none
  else some {
    options := { dec.config.options with scaledWidth := r.frmW, scaledHeight := r.frmH }
    output := { dec.config.output with u := ⟨some (outOffset : ℤ), i32 stride, size⟩ } }

/-- The decoder as a call of `WebPDecode` leaves it. -/
def decodedInto (dec : WebPAnimDecoder) (config : WebPDecoderConfig) (r : Decoded) : WebPAnimDecoder :=
  { dec with config := { config with output := r.output }, currFrame := r.mem }

/-- Blend the decoded frame over the previous canvas, where the frame asks for
it and is not a key frame. -/
def blendFrame (dec : WebPAnimDecoder) (iter : WebPIterator) (key : Bool) (canvas : Buf) :
    Buf × Bool :=
  if 1 < iter.frameNum ∧ iter.blendMethod = .blend ∧ !key then
    blendRows dec.blendFunc canvas dec.prevFrameDisposed (dec.rect iter) dec.outW
      (dec.rect iter).frmH.toNat
  else (canvas, false)

/-- The previous canvas for the next frame: a copy, disposed where the frame
asks for it. -/
def disposeFrame (dec : WebPAnimDecoder) (iter : WebPIterator) (canvas : Buf) :
    Option (Buf × Bool) :=
  match copyCanvas canvas dec.prevFrameDisposed (u32 dec.outW) (u32 dec.outH) with
  | none => none
  | some (prev, stray) =>
    if iter.disposeMethod = .background then
      match zeroFillFrameRect prev (i32 (dec.outW * numChannels)) (dec.rect iter) with
      | (prev, stray') => some (prev, stray || stray')
    else some (prev, stray)

end WebPAnimDecoder

/-- What `GetNext` leaves: the decoder, whose `currFrame` is the canvas
returned, the heap, and the timestamp when it succeeds. -/
structure Next where
  dec : WebPAnimDecoder
  heap : Heap ObjectKind
  timestamp : Option ℤ
  stray : Bool

/-- The end of `GetNext`, once `curr_frame` holds the decoded frame: blend it,
update the info of the previous frame and dispose it for the next iteration. -/
def finishFrame (dec : WebPAnimDecoder) (iter : WebPIterator) (heap : Heap ObjectKind)
    (stray : Bool) : Next :=
  let timestamp := i32 (dec.prevFrameTimestamp + iter.duration)
  let key := dec.isKey iter
  match dec.blendFrame iter key dec.currFrame with
  | (canvas, stray') =>
    let disposed := dec.disposeFrame iter canvas
    let dec := { dec with
      currFrame := canvas
      prevFrameTimestamp := timestamp
      prevIter := iter
      prevFrameWasKeyframe := key }
    match disposed with
    | none => ⟨dec, heap, none, stray || stray'⟩
    | some (prev, stray'') =>
      ⟨{ dec with prevFrameDisposed := prev, nextFrame := dec.nextFrame + 1 }, heap, some timestamp,
        stray || stray' || stray''⟩

/-- What `GetNext` does once `WebPDecode` has returned. -/
def afterDecode (dec : WebPAnimDecoder) (iter : WebPIterator) (config : WebPDecoderConfig)
    (stray : Bool) (r : Decoded) : Next :=
  if r.status ≠ .ok then ⟨dec.decodedInto config r, r.heap, none, stray || r.stray⟩
  else finishFrame (dec.decodedInto config r) iter r.heap (stray || r.stray)

/-- `GetNext` from the decode of the frame on, into the canvas prepared for it. -/
def decodeCanvas (codec : Codec) (env : Env) (dec : WebPAnimDecoder) (iter : WebPIterator)
    (heap : Heap ObjectKind) (canvas : Buf) (stray : Bool) : Option WebPDecoderConfig → Next
  | none => ⟨{ dec with currFrame := canvas }, heap, none, stray⟩
  | some config =>
    afterDecode dec iter config stray (webPDecode codec env iter.fragment config canvas heap)

/-- `WebPAnimDecoderGetNext`. -/
def webPAnimDecoderGetNext (codec : Codec) (env : Env) (dec : WebPAnimDecoder)
    (heap : Heap ObjectKind) : Next :=
  if !dec.hasMoreFrames then ⟨dec, heap, none, false⟩
  else match webPDemuxGetFrame dec.demux dec.nextFrame with
  | none => ⟨dec, heap, none, false⟩
  | some iter =>
    match dec.startCanvas (dec.isKey iter) with
    | none => ⟨dec, heap, none, false⟩
    | some (canvas, stray) =>
      decodeCanvas codec env dec iter heap canvas stray (dec.frameConfig (dec.rect iter))

end WebPlugin
