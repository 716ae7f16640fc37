/-
# The demuxer

`src/codec/libwebp/src/demux/demux.c`: from the bytes of a file to its canvas
and its list of frames, as `WebPDemux` builds them (`allow_partial` is 0). A
`Frame*` list is a list; the parsers thread the demuxer, which holds the read
position. `AddFrame` compares with `*frames_tail`, which is the NULL `next` of
the last frame, so it always appends. The other chunks of a file are skipped:
nothing reads the list they are stored in.
-/
import WebPlugin.Features

namespace WebPlugin

/-! ### Data -/

/-- `MemBuffer`: the read position, the end of the data and of the RIFF chunk. -/
structure MemBuffer where
  start : ℕ
  endPos : ℕ
  riffEnd : ℕ
  bufSize : ℕ
  buf : ℕ → UInt8

namespace MemBuffer

/-- `MemDataSize`: the remaining data size. -/
def dataSize (mem : MemBuffer) : ℕ := mem.endPos - mem.start

/-- `SizeIsInvalid`: `size` exceeds the end of the RIFF chunk. -/
def sizeIsInvalid (mem : MemBuffer) (size : ℕ) : Bool := mem.riffEnd - mem.start < size

/-- `Skip`. -/
def skip (mem : MemBuffer) (size : ℕ) : MemBuffer := { mem with start := mem.start + size }

/-- `Rewind`. -/
def rewind (mem : MemBuffer) (size : ℕ) : MemBuffer := { mem with start := mem.start - size }

/-- `InitMemBuffer`. -/
def init (data : WebPData) : MemBuffer := ⟨0, data.size, 0, data.size, data.bytes⟩

/-- The data from an offset of the buffer on. -/
def sub (mem : MemBuffer) (offset size : ℕ) : WebPData := ⟨fun i => mem.buf (offset + i), size⟩

end MemBuffer

/-- `ChunkData`. -/
structure ChunkData where
  offset : ℕ := 0
  size : ℕ := 0
  deriving DecidableEq, Repr

/-- `WebPMuxAnimDispose`. -/
inductive WebPMuxAnimDispose
  | none | background
  deriving DecidableEq, Repr

/-- `WebPMuxAnimBlend`. -/
inductive WebPMuxAnimBlend
  | blend | noBlend
  deriving DecidableEq, Repr

/-- `Frame`. The default is the zeroed frame `NewFrame` returns; `image` and
`alpha` are its `img_components`. -/
structure Frame where
  xOffset : ℤ := 0
  yOffset : ℤ := 0
  width : ℤ := 0
  height : ℤ := 0
  hasAlpha : Bool := false
  duration : ℤ := 0
  disposeMethod : WebPMuxAnimDispose := .none
  blendMethod : WebPMuxAnimBlend := .blend
  frameNum : ℤ := 0
  complete : Bool := false
  image : ChunkData := {}
  alpha : ChunkData := {}
  deriving DecidableEq, Repr

/-- `WebPDemuxState`. -/
inductive WebPDemuxState
  | parseError | parsingHeader | parsedHeader | done
  deriving DecidableEq, Repr

/-- `ParseStatus`. -/
inductive ParseStatus
  | ok | needMoreData | error
  deriving DecidableEq, Repr

/-- `WebPDemuxer`. -/
structure WebPDemuxer where
  mem : MemBuffer
  state : WebPDemuxState
  isExtFormat : Bool
  featureFlags : ℕ
  canvasWidth : ℤ
  canvasHeight : ℤ
  loopCount : ℤ
  bgcolor : ℕ
  numFrames : ℤ
  frames : List Frame

namespace WebPDemuxer

/-- `InitDemux` on a zeroed demuxer. -/
def init (mem : MemBuffer) : WebPDemuxer :=
  ⟨mem, .parsingHeader, false, 0, -1, -1, 1, 0xffffffff, 0, []⟩

/-- `AddFrame`. -/
def addFrame (dmux : WebPDemuxer) (frame : Frame) : WebPDemuxer :=
  { dmux with frames := dmux.frames ++ [frame] }

end WebPDemuxer

/-! ### Frames -/

/-- `SetFrameInfo`. -/
def setFrameInfo (startOffset size : ℕ) (frameNum : ℤ) (complete : Bool)
    (features : WebPBitstreamFeatures) (frame : Frame) : Frame :=
  { frame with
    image := ⟨startOffset, size⟩
    width := features.width
    height := features.height
    hasAlpha := frame.hasAlpha || features.hasAlpha
    frameNum := frameNum
    complete := complete }

/-- The variables of the loop of `StoreFrame`. -/
structure FrameStore where
  mem : MemBuffer
  frame : Frame
  alphaChunks : ℕ := 0
  imageChunks : ℕ := 0

/-- What the switch of `StoreFrame` does: return, go on, or leave the loop. -/
inductive Stored
  | ret (status : ParseStatus)
  | next (s : FrameStore)
  | done (s : FrameStore)

/-- The switch of `StoreFrame`. `s.mem` stands after the chunk header, of which
`payloadAvailable` bytes of payload are there; `status` tells whether that is
all of it. -/
def storeChunk (frameNum : ℤ) (status : ParseStatus) (fourcc chunkStartOffset payloadAvailable : ℕ)
    (s : FrameStore) : Stored :=
  let chunkSize := chunkHeaderSize + payloadAvailable
  -- Restore fourcc/size when moving up one level in parsing.
  let leave := Stored.done { s with mem := s.mem.rewind chunkHeaderSize }
  if fourcc = tagALPH then
    if s.alphaChunks = 0 then
      .next { s with
        alphaChunks := 1
        frame := { s.frame with
          alpha := ⟨chunkStartOffset, chunkSize⟩, hasAlpha := true, frameNum := frameNum }
        mem := s.mem.skip payloadAvailable }
    else leave
  else if fourcc = tagVP8L ∧ 0 < s.alphaChunks then .ret .error   -- VP8L has its own alpha
  else if fourcc = tagVP8L ∨ fourcc = tagVP8 then
    if s.imageChunks = 0 then
      match webPGetFeatures (s.mem.sub chunkStartOffset chunkSize) with
      | (vp8Status, features) =>
        if status = .needMoreData ∧ vp8Status = .notEnoughData then .ret .needMoreData
        else if vp8Status ≠ .ok then .ret .error
        else .next { s with
          imageChunks := 1
          frame := setFrameInfo chunkStartOffset chunkSize frameNum (status = .ok) features s.frame
          mem := s.mem.skip payloadAvailable }
    else leave
  else leave

/-- The loop of `StoreFrame`. Every turn but the last moves past a chunk
header, so `fuel` above the remaining size is never used up. -/
def storeFrameLoop (frameNum : ℤ) : ℕ → FrameStore → ParseStatus × FrameStore
  | 0, s => (.error, s)
  | fuel + 1, s =>
    let chunkStartOffset := s.mem.start
    let fourcc := getLE32 s.mem.buf s.mem.start
    let payloadSize := getLE32 s.mem.buf (s.mem.start + 4)
    let mem := s.mem.skip chunkHeaderSize
    let payloadSizePadded := payloadSize + (payloadSize &&& 1)
    if maxChunkPayload < payloadSize then (.error, s)
    else if mem.sizeIsInvalid payloadSizePadded then (.error, s)
    else
      let status := if mem.dataSize < payloadSizePadded then .needMoreData else .ok
      let finish (done : Bool) (s : FrameStore) : ParseStatus × FrameStore :=
        let status := if s.mem.start ≠ s.mem.riffEnd ∧ s.mem.dataSize < chunkHeaderSize then
          .needMoreData else status
        if done ∨ s.mem.start = s.mem.riffEnd ∨ status ≠ .ok then (status, s)
        else storeFrameLoop frameNum fuel s
      match storeChunk frameNum status fourcc chunkStartOffset
          (min payloadSizePadded mem.dataSize) { s with mem := mem } with
      | .ret status => (status, s)
      | .next s => finish false s
      | .done s => finish true s

/-- `StoreFrame`: the image bearing chunks of a frame. -/
def storeFrame (frameNum : ℤ) (minSize : ℕ) (mem : MemBuffer) (frame : Frame) :
    ParseStatus × MemBuffer × Frame :=
  if mem.dataSize < chunkHeaderSize ∨ mem.dataSize < minSize then (.needMoreData, mem, frame)
  else match storeFrameLoop frameNum (mem.dataSize + 1) { mem := mem, frame := frame } with
    | (status, s) => (status, s.mem, s.frame)

/-- The 16 bytes of an ANMF chunk before the frame data. -/
def readAnmf (mem : MemBuffer) : Frame :=
  let bits := (mem.buf (mem.start + 15)).toNat
  { xOffset := 2 * getLE24 mem.buf mem.start
    yOffset := 2 * getLE24 mem.buf (mem.start + 3)
    width := 1 + getLE24 mem.buf (mem.start + 6)
    height := 1 + getLE24 mem.buf (mem.start + 9)
    duration := getLE24 mem.buf (mem.start + 12)
    disposeMethod := if bits &&& 1 ≠ 0 then .background else .none
    blendMethod := if bits &&& 2 ≠ 0 then .noBlend else .blend }

/-- `NewFrame`. -/
def newFrame (mem : MemBuffer) (minSize actualSize : ℕ) : ParseStatus :=
  if mem.sizeIsInvalid minSize then .error
  else if actualSize < minSize then .error
  else if mem.dataSize < minSize then .needMoreData
  else .ok

/-- `ParseAnimationFrame`. `frameChunkSize` is the padded size of the chunk. -/
def parseAnimationFrame (dmux : WebPDemuxer) (frameChunkSize : ℕ) : ParseStatus × WebPDemuxer :=
  let isAnimation := hasFlag dmux.featureFlags animationFlag
  let anmfPayloadSize := Words.u32 ((frameChunkSize : ℤ) - anmfChunkSize)
  match newFrame dmux.mem anmfChunkSize frameChunkSize with
  | .ok =>
    let frame := readAnmf dmux.mem
    let mem := dmux.mem.skip anmfChunkSize
    if (maxImageArea : ℤ) ≤ frame.width * frame.height then (.error, dmux)
    else match storeFrame (dmux.numFrames + 1) anmfPayloadSize mem frame with
      | (status, mem', frame) =>
        let status := if status ≠ .error ∧ anmfPayloadSize < mem'.start - mem.start then .error
          else status
        let dmux := { dmux with mem := mem' }
        -- Store a frame only if the animation flag is set and there is data for it.
        if status ≠ .error ∧ isAnimation ∧ 0 < frame.frameNum then
          (status, { dmux.addFrame frame with numFrames := dmux.numFrames + 1 })
        else (status, dmux)
  | status => (status, dmux)

/-! ### Primary chunks -/

/-- `ReadHeader`. -/
def readHeader (mem : MemBuffer) : ParseStatus × MemBuffer :=
  if mem.dataSize < riffHeaderSize + chunkHeaderSize then (.needMoreData, mem)
  else if !isTag mem.buf mem.start tagRIFF ∨ !isTag mem.buf (mem.start + 8) tagWEBP then
    (.error, mem)
  else
    let riffSize := getLE32 mem.buf (mem.start + tagSize)
    if riffSize < chunkHeaderSize ∨ maxChunkPayload < riffSize then (.error, mem)
    else
      -- There's no point in reading past the end of the RIFF chunk
      let riffEnd := riffSize + chunkHeaderSize
      (.ok, { mem with
        start := mem.start + riffHeaderSize
        riffEnd := riffEnd
        endPos := if riffEnd < mem.bufSize then riffEnd else mem.endPos
        bufSize := if riffEnd < mem.bufSize then riffEnd else mem.bufSize })

/-- `ParseSingleImage`. -/
def parseSingleImage (dmux : WebPDemuxer) : ParseStatus × WebPDemuxer :=
  if dmux.frames ≠ [] then (.error, dmux)
  else if dmux.mem.sizeIsInvalid chunkHeaderSize then (.error, dmux)
  else if dmux.mem.dataSize < chunkHeaderSize then (.needMoreData, dmux)
  else match storeFrame 1 0 dmux.mem {} with
    | (.error, mem, _) => (.error, { dmux with mem := mem })
    | (status, mem, frame) =>
      let hasAlpha := hasFlag dmux.featureFlags alphaFlag
      -- Clear any alpha when the alpha flag is missing.
      let frame := if !hasAlpha ∧ 0 < frame.alpha.size then
        { frame with alpha := {}, hasAlpha := false } else frame
      -- Use the frame width/height as the canvas values for non-vp8x files.
      let dmux := { dmux with mem := mem }
      let dmux := if !dmux.isExtFormat ∧ 0 < frame.width ∧ 0 < frame.height then
        { dmux with
          state := .parsedHeader
          canvasWidth := frame.width
          canvasHeight := frame.height
          featureFlags := dmux.featureFlags ||| (if frame.hasAlpha then alphaFlag else 0) }
        else dmux
      (status, { dmux.addFrame frame with numFrames := 1 })

/-- The switch of `ParseVP8XChunks`: nothing for an immediate `PARSE_ERROR`,
otherwise the status and the number of ANIM chunks so far. `dmux.mem` stands
after the chunk header. -/
def parseVP8XChunk (dmux : WebPDemuxer) (animChunks fourcc chunkSizePadded : ℕ) :
    Option (ParseStatus × WebPDemuxer × ℕ) :=
  let isAnimation := hasFlag dmux.featureFlags animationFlag
  let mem := dmux.mem
  let skipChunk := if chunkSizePadded ≤ mem.dataSize then
      some (.ok, { dmux with mem := mem.skip chunkSizePadded }, animChunks)
    else some (.needMoreData, dmux, animChunks)
  if fourcc = tagVP8X then none
  else if fourcc = tagALPH ∨ fourcc = tagVP8 ∨ fourcc = tagVP8L then
    -- check that this isn't an animation (all frames should be in an ANMF).
    if 0 < animChunks ∨ isAnimation then none
    else match parseSingleImage { dmux with mem := mem.rewind chunkHeaderSize } with
      | (status, dmux) => some (status, dmux, animChunks)
  else if fourcc = tagANIM then
    if chunkSizePadded < animChunkSize then none
    else if mem.dataSize < chunkSizePadded then some (.needMoreData, dmux, animChunks)
    else if animChunks = 0 then
      some (.ok, { dmux with
        bgcolor := getLE32 mem.buf mem.start
        loopCount := getLE16 mem.buf (mem.start + 4)
        mem := mem.skip chunkSizePadded }, 1)
    else skipChunk
  else if fourcc = tagANMF then
    if animChunks = 0 then none                   -- 'ANIM' precedes frames.
    else match parseAnimationFrame dmux chunkSizePadded with
      | (status, dmux) => some (status, dmux, animChunks)
  else skipChunk

/-- The loop of `ParseVP8XChunks`. -/
def parseVP8XChunksLoop : ℕ → WebPDemuxer → ℕ → ParseStatus × WebPDemuxer
  | 0, dmux, _ => (.error, dmux)
  | fuel + 1, dmux, animChunks =>
    let fourcc := getLE32 dmux.mem.buf dmux.mem.start
    let chunkSize := getLE32 dmux.mem.buf (dmux.mem.start + 4)
    let mem := dmux.mem.skip chunkHeaderSize
    let chunkSizePadded := chunkSize + (chunkSize &&& 1)
    if maxChunkPayload < chunkSize then (.error, dmux)
    else if mem.sizeIsInvalid chunkSizePadded then (.error, dmux)
    else match parseVP8XChunk { dmux with mem := mem } animChunks fourcc chunkSizePadded with
      | none => (.error, dmux)
      | some (status, dmux, animChunks) =>
        if dmux.mem.start = dmux.mem.riffEnd then (status, dmux)
        else if dmux.mem.dataSize < chunkHeaderSize then (.needMoreData, dmux)
        else if status = .ok then parseVP8XChunksLoop fuel dmux animChunks
        else (status, dmux)

/-- `ParseVP8X` of the demuxer, with `ParseVP8XChunks`. -/
def parseVP8XFile (dmux : WebPDemuxer) : ParseStatus × WebPDemuxer :=
  if dmux.mem.dataSize < chunkHeaderSize then (.needMoreData, dmux)
  else
    let vp8xSize := getLE32 dmux.mem.buf (dmux.mem.start + tagSize)
    let mem := dmux.mem.skip chunkHeaderSize
    if maxChunkPayload < vp8xSize ∨ vp8xSize < vp8xChunkSize then (.error, dmux)
    else
      let vp8xSize := vp8xSize + (vp8xSize &&& 1)
      let dmux := { dmux with
        isExtFormat := true
        featureFlags := (mem.buf mem.start).toNat
        canvasWidth := 1 + getLE24 mem.buf (mem.start + 4)
        canvasHeight := 1 + getLE24 mem.buf (mem.start + 7)
        mem := mem.skip vp8xSize }
      if mem.sizeIsInvalid vp8xSize then (.error, dmux)
      else if mem.dataSize < vp8xSize then (.needMoreData, dmux)
      else if (maxImageArea : ℤ) ≤ dmux.canvasWidth * dmux.canvasHeight then (.error, dmux)
      else
        let dmux := { dmux with state := .parsedHeader }
        if dmux.mem.sizeIsInvalid chunkHeaderSize then (.error, dmux)
        else if dmux.mem.dataSize < chunkHeaderSize then (.needMoreData, dmux)
        else parseVP8XChunksLoop (dmux.mem.dataSize + 1) dmux 0

/-! ### Validation -/

/-- `IsValidSimpleFormat`. -/
def isValidSimpleFormat (dmux : WebPDemuxer) : Bool :=
  if dmux.state = .parsingHeader then true
  else if dmux.canvasWidth ≤ 0 ∨ dmux.canvasHeight ≤ 0 then false
  else match dmux.frames.head? with
    | none => false
    | some frame => 0 < frame.width ∧ 0 < frame.height

/-- `CheckFrameBounds`. -/
def checkFrameBounds (frame : Frame) (exact : Bool) (canvasWidth canvasHeight : ℤ) : Bool :=
  if exact then
    frame.xOffset = 0 ∧ frame.yOffset = 0 ∧
      frame.width = canvasWidth ∧ frame.height = canvasHeight
  else
    0 ≤ frame.xOffset ∧ 0 ≤ frame.yOffset ∧
      frame.width + frame.xOffset ≤ canvasWidth ∧ frame.height + frame.yOffset ≤ canvasHeight

/-- The checks of `IsValidExtendedFormat` on one frame; `isLast` when no frame
follows it. -/
def isValidFrame (dmux : WebPDemuxer) (f : Frame) (isLast : Bool) : Bool :=
  let isAnimation := hasFlag dmux.featureFlags animationFlag
  if !isAnimation ∧ 1 < f.frameNum then false
  else if f.complete ∧ (f.alpha.size = 0 ∧ f.image.size = 0 ∨
      -- Ensure alpha precedes image bitstream.
      0 < f.alpha.size ∧ f.image.offset < f.alpha.offset ∨ f.width ≤ 0 ∨ f.height ≤ 0) then false
  else if ¬ f.complete ∧ (dmux.state = .done ∨
      0 < f.alpha.size ∧ 0 < f.image.size ∧ f.image.offset < f.alpha.offset ∨ ¬ isLast) then false
  else if 0 < f.width ∧ 0 < f.height ∧
      !checkFrameBounds f (!isAnimation) dmux.canvasWidth dmux.canvasHeight then false
  else true

/-- The loops of `IsValidExtendedFormat` over the frame list. -/
def areValidFrames (dmux : WebPDemuxer) : List Frame → Bool
  | [] => true
  | f :: rest => isValidFrame dmux f rest.isEmpty && areValidFrames dmux rest

/-- `IsValidExtendedFormat`. -/
def isValidExtendedFormat (dmux : WebPDemuxer) : Bool :=
  if dmux.state = .parsingHeader then true
  else if dmux.canvasWidth ≤ 0 ∨ dmux.canvasHeight ≤ 0 then false
  else if dmux.loopCount < 0 then false
  else if dmux.state = .done ∧ dmux.frames = [] then false
  else if dmux.featureFlags &&& (2 ^ 32 - 1 - allValidFlags) ≠ 0 then false   -- invalid bitstream
  else areValidFrames dmux dmux.frames

/-! ### The demuxer object -/

/-- `CreateRawImageDemuxer`: a VP8/VP8L frame without container. -/
def createRawImageDemuxer (mem : MemBuffer) : Option WebPDemuxer :=
  match webPGetFeatures (mem.sub 0 mem.bufSize) with
  | (.ok, features) =>
    let frame := setFrameInfo 0 mem.bufSize 1 true features {}
    some { (WebPDemuxer.init mem).addFrame frame with
      state := .done
      canvasWidth := frame.width
      canvasHeight := frame.height
      featureFlags := if frame.hasAlpha then alphaFlag else 0
      numFrames := 1 }
  | _ => none

/-- What `WebPDemuxInternal` does with the result of a parser. With all data
there, `PARSE_NEED_MORE_DATA` is an error too. -/
def checkParsed (valid : WebPDemuxer → Bool) : ParseStatus × WebPDemuxer → Option WebPDemuxer
  | (.ok, dmux) => if valid { dmux with state := .done } then some { dmux with state := .done }
    else none
  | _ => none

/-- `WebPDemux`, memory available. -/
def webPDemux (data : WebPData) : Option WebPDemuxer :=
  if data.size = 0 then none
  else match readHeader (MemBuffer.init data) with
    | (.error, mem) => createRawImageDemuxer mem
    | (.needMoreData, _) => none
    | (.ok, mem) =>
      if mem.bufSize < mem.riffEnd then none
      else if isTag mem.buf mem.start tagVP8 ∨ isTag mem.buf mem.start tagVP8L then
        checkParsed isValidSimpleFormat (parseSingleImage (WebPDemuxer.init mem))
      else if isTag mem.buf mem.start tagVP8X then
        checkParsed isValidExtendedFormat (parseVP8XFile (WebPDemuxer.init mem))
      else none

/-! ### Frame iteration -/

/-- `WebPIterator`. -/
structure WebPIterator where
  frameNum : ℤ
  numFrames : ℤ
  xOffset : ℤ
  yOffset : ℤ
  width : ℤ
  height : ℤ
  duration : ℤ
  disposeMethod : WebPMuxAnimDispose
  complete : Bool
  fragment : WebPData
  hasAlpha : Bool
  blendMethod : WebPMuxAnimBlend

/-- The zeroed iterator. -/
def WebPIterator.zero : WebPIterator :=
  ⟨0, 0, 0, 0, 0, 0, 0, .none, false, ⟨fun _ => 0, 0⟩, false, .blend⟩

/-- `GetFramePayload`. -/
def getFramePayload (mem : MemBuffer) (frame : Frame) : WebPData :=
  if 0 < frame.alpha.size then
    -- alpha precedes image, update the size allowing for intervening chunks.
    let interSize := if 0 < frame.image.offset then
      frame.image.offset - (frame.alpha.offset + frame.alpha.size) else 0
    mem.sub frame.alpha.offset (frame.image.size + (frame.alpha.size + interSize))
  else mem.sub frame.image.offset frame.image.size

/-- `SynthesizeFrame`. -/
def synthesizeFrame (dmux : WebPDemuxer) (frame : Frame) : WebPIterator :=
  ⟨frame.frameNum, dmux.numFrames, frame.xOffset, frame.yOffset, frame.width, frame.height,
    frame.duration, frame.disposeMethod, frame.complete, getFramePayload dmux.mem frame,
    frame.hasAlpha, frame.blendMethod⟩

/-- `WebPDemuxGetFrame`: frame 0 is the last one. -/
def webPDemuxGetFrame (dmux : WebPDemuxer) (frameNum : ℤ) : Option WebPIterator :=
  if frameNum < 0 ∨ dmux.numFrames < frameNum then none
  else
    let frameNum := if frameNum = 0 then dmux.numFrames else frameNum
    (dmux.frames.find? (·.frameNum = frameNum)).map (synthesizeFrame dmux)

end WebPlugin
