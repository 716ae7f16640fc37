/-
# The decoder of a handle

`src/codec/WebPDecoder.cpp`: `decode` reads the headers and the frame delays,
`getFrame` decodes one picture into a DIB. A still picture is decoded on every
call; an animation goes through a `WebPAnimDecoder` that is kept between calls
and replaced when the output size changes.
-/
import WebPlugin.AnimDecode
import WebPlugin.Composite

namespace WebPlugin

open Memory Ledger Words

def kDefaultFrameDelayMs : ℤ := 100

/-- `WebPDecoder`. `id` is its name in the ledger. -/
structure WebPDecoder where
  id : ℕ
  width : ℤ := 0
  height : ℤ := 0
  hasAlpha : Bool := false
  hasAnimation : Bool := false
  totalFrames : ℤ := 0
  srcBytes : WebPData := ⟨fun _ => 0, 0⟩
  animDecoder : Option WebPAnimDecoder := none
  frameDelays : List ℤ := []
  frameDelaysBlock : Option ℕ := none
  animScaleW : ℤ := 0
  animScaleH : ℤ := 0

namespace WebPDecoder

/-- `~WebPDecoder` and the release of the object: the anim decoder, the vector,
the decoder itself. -/
def delete (d : WebPDecoder) (heap : Heap ObjectKind) : Heap ObjectKind :=
  let heap := match d.animDecoder with
    | none => heap
    | some dec => webPAnimDecoderDelete dec.blocks heap
  (heap.release? d.frameDelaysBlock).release d.id

/-- How a call ends: it returns, or `std::bad_alloc` leaves it. -/
inductive Ended (α : Type)
  | returned (a : α)
  | badAlloc
  deriving DecidableEq, Repr

/-- The delay `decode` stores for frame `i`. -/
def frameDelayOf (demux : WebPDemuxer) (i : ℕ) : ℤ :=
  match webPDemuxGetFrame demux (i + 1) with
  | some iter => if 0 < iter.duration then iter.duration else kDefaultFrameDelayMs
  | none => kDefaultFrameDelayMs

/-- `decode`. The vector of delays is the one allocation that throws. -/
def decode (grants : Grants) (d : WebPDecoder) (bytes : WebPData) (heap : Heap ObjectKind) :
    Ended Bool × WebPDecoder × Heap ObjectKind :=
  match webPGetFeatures bytes with
  | (.ok, features) =>
    let d := { d with
      width := features.width
      height := features.height
      hasAlpha := features.hasAlpha
      hasAnimation := features.hasAnimation
      srcBytes := bytes }
    if features.hasAnimation then
      match webPDemuxNew grants bytes heap with
      | (none, heap) => (.returned false, d, heap)
      | (some (demuxId, demux), heap) =>
        let total := i32 (u32 demux.numFrames)
        let d := { d with totalFrames := total }
        if total = 0 then (.returned false, d, heap.release demuxId)
        else
          match heap.alloc (grants .frameDelays) .frameDelays (u32 (4 * total)) with
          | (none, heap) => (.badAlloc, d, heap)
          | (some delaysId, heap) =>
            (.returned true, { d with
              frameDelays := (List.range total.toNat).map (frameDelayOf demux)
              frameDelaysBlock := some delaysId }, heap.release demuxId)
    else (.returned true, { d with totalFrames := 1 }, heap)
  | _ => (.returned false, d, heap)

/-- `getFrameCount`. -/
def getFrameCount (d : WebPDecoder) : ℤ := if d.hasAnimation then d.totalFrames else 1

/-- `getFrameDelay`. -/
def getFrameDelay (d : WebPDecoder) (index : ℤ) : ℤ :=
  if !d.hasAnimation ∨ index < 0 ∨ d.totalFrames ≤ index then 0
  else d.frameDelays.getD index.toNat 0

/-- `resolveOutputSize`. -/
def resolveOutputSize (d : WebPDecoder) (reqW reqH : ℤ) : ℤ × ℤ :=
  if reqW ≤ 0 ∨ reqH ≤ 0 then (d.width, d.height)
  else if (d.width * d.height * 55).tdiv 100 ≤ reqW * reqH then (d.width, d.height)
  else (reqW, reqH)

/-- The options `ensureAnimDecoder` creates an anim decoder with. -/
def animOptions (scaleW scaleH : ℤ) : WebPAnimDecoderOptions :=
  { colorMode := .BGRA, useThreads := true, scaledWidth := scaleW, scaledHeight := scaleH }

/-- `ensureAnimDecoder`: the anim decoder to use, which is also the one kept. -/
def ensureAnimDecoder (grants : Grants) (d : WebPDecoder) (scaleW scaleH : ℤ)
    (heap : Heap ObjectKind) : Option WebPAnimDecoder × WebPDecoder × Heap ObjectKind :=
  let create (d : WebPDecoder) (heap : Heap ObjectKind) :
      Option WebPAnimDecoder × WebPDecoder × Heap ObjectKind :=
    match webPAnimDecoderNew grants d.srcBytes (animOptions scaleW scaleH) heap with
    | (none, heap) => (none, { d with animDecoder := none }, heap)
    | (some dec, heap) =>
      (some dec, { d with
        animDecoder := some dec, animScaleW := scaleW, animScaleH := scaleH }, heap)
  match d.animDecoder with
  | some dec =>
    if d.animScaleW = scaleW ∧ d.animScaleH = scaleH then (some dec, d, heap)
    -- Scale parameters changed - recreate
    else create { d with animDecoder := none } (webPAnimDecoderDelete dec.blocks heap)
  | none => create d heap

end WebPDecoder

/-! ### getFrame -/

/-- Memory touched outside its block: the header of the DIB, the DIB from its
pixels on, the pixels composited, and the buffers those are decoded into (the
canvases of the anim decoder, or the buffer of `WebPDecode`). -/
structure Strays where
  header : Bool := false
  dib : Bool := false
  read : Bool := false
  canvas : Bool := false
  deriving DecidableEq, Repr

/-- What `getFrame` leaves. -/
structure Got where
  ok : Bool
  decoder : WebPDecoder
  dst : Buf
  heap : Heap ObjectKind
  strays : Strays := {}

/-- Rows that do not all lie between `lo` and `hi`. -/
def rowsLeave (r : Rows) (lo : ℤ) (hi : ℕ) : Bool :=
  !decide (Rows.Inside { r with base := r.base - lo } (hi - lo).toNat)

namespace WebPDecoder

/-- The configuration of a still picture, before its output buffer. -/
def staticOptions (scaling : Bool) (outW outH : ℤ) : WebPDecoderOptions :=
  { useThreads := true
    useScaling := scaling
    scaledWidth := if scaling then outW else 0
    scaledHeight := if scaling then outH else 0 }

/-- The output buffer of a picture without alpha: the DIB, bottom row first. -/
def dibBuffer (dst stride outH : ℤ) : WebPDecBuffer :=
  { colorspace := .BGR
    isExternalMemory := true
    u := ⟨some (dst + u32 ((outH - 1) * stride)), -stride, u32 (stride * outH)⟩ }

/-- `getFrame`, a still picture: directly into the DIB, or through a buffer of
its own and the checkerboard. -/
def getStatic (codec : Codec) (env : Env) (d : WebPDecoder) (mem : Buf) (dst stride outW outH : ℤ)
    (heap : Heap ObjectKind) : Got :=
  let scaling : Bool := outW ≠ d.width ∨ outH ≠ d.height
  let options := staticOptions scaling outW outH
  if !d.hasAlpha then
    let r := webPDecode codec env d.srcBytes ⟨dibBuffer dst stride outH, options⟩ mem heap
    ⟨r.status = .ok, d, r.mem, (webPFreeDecBuffer r.output r.heap).2,
      { dib := r.rows.any fun rows => rowsLeave rows dst mem.size }⟩
  else
    let r := webPDecode codec env d.srcBytes ⟨{ colorspace := .BGRA }, options⟩ mem heap
    let heap := (webPFreeDecBuffer r.output r.heap).2
    if r.status = .ok then
      let out := compositeBGRAtoBGR r.mem mem dst stride outW outH
      ⟨true, d, out.dst, heap,
        { read := out.strayRead, dib := out.strayWrite, canvas := r.stray }⟩
    else ⟨false, d, mem, heap, { canvas := r.stray }⟩

/-- `getFrame`, a frame of an animation, with the call of `GetNext` left open. -/
def getAnimatedBy (getNext : WebPAnimDecoder → Heap ObjectKind → Next) (grants : Grants) (d : WebPDecoder)
    (index : ℤ) (mem : Buf) (dst stride outW outH : ℤ) (heap : Heap ObjectKind) : Got :=
  let scaling : Bool := outW ≠ d.width ∨ outH ≠ d.height
  match d.ensureAnimDecoder grants (if scaling then outW else 0) (if scaling then outH else 0) heap with
  | (none, d, heap) => ⟨false, d, mem, heap, {}⟩
  | (some dec, d, heap) =>
    -- Reset to frame 0 on each sequential pass
    let dec := if index = 0 then webPAnimDecoderReset dec else dec
    let next := getNext dec heap
    let d := { d with animDecoder := some next.dec }
    match next.timestamp with
    | none => ⟨false, d, mem, next.heap, { canvas := next.stray }⟩
    | some _ =>
      let out := compositeBGRAtoBGR next.dec.currFrame mem dst stride outW outH
      ⟨true, d, out.dst, next.heap,
        { read := out.strayRead, dib := out.strayWrite, canvas := next.stray }⟩

/-- `getFrame`, a frame of an animation. -/
def getAnimated (codec : Codec) (env : Env) (d : WebPDecoder) (index : ℤ) (mem : Buf)
    (dst stride outW outH : ℤ) (heap : Heap ObjectKind) : Got :=
  getAnimatedBy (webPAnimDecoderGetNext codec env) env.grants d index mem dst stride outW outH heap

/-- `getFrame`: frame `index` into the block `mem` from `dst` on. -/
def getFrame (codec : Codec) (env : Env) (d : WebPDecoder) (index : ℤ) (mem : Buf)
    (dst stride outW outH : ℤ) (heap : Heap ObjectKind) : Got :=
  if index < 0 ∨ d.totalFrames ≤ index then ⟨false, d, mem, heap, {}⟩
  else if !d.hasAnimation then getStatic codec env d mem dst stride outW outH heap
  else getAnimated codec env d index mem dst stride outW outH heap

end WebPDecoder

end WebPlugin
