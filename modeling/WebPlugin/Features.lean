/-
# Reading the headers of a WebP file

`src/codec/libwebp/src/dec/webp_dec.c`: `ParseRIFF`, `ParseVP8X`,
`ParseOptionalChunks`, `ParseVP8Header` and `ParseHeadersInternal`, with the
size readers `VP8GetInfo` (`vp8_dec.c`) and `VP8LGetInfo` (`vp8l_dec.c`).
`WebPGetFeatures` is `ParseHeadersInternal` without headers; `WebPDecode` runs
it a second time with `have_all_data` set.
-/
import WebPlugin.Format

namespace WebPlugin

/-- `VP8StatusCode`. -/
inductive VP8StatusCode
  | ok | outOfMemory | invalidParam | bitstreamError | unsupportedFeature | suspended | userAbort
  | notEnoughData
  deriving DecidableEq, Repr

/-- `WebPBitstreamFeatures`. -/
structure WebPBitstreamFeatures where
  width : ℤ := 0
  height : ℤ := 0
  hasAlpha : Bool := false
  hasAnimation : Bool := false
  deriving DecidableEq, Repr

/-! ### The pieces -/

/-- `ParseRIFF`: the data after the RIFF header and the RIFF size, 0 when no
RIFF header is present. -/
def parseRIFF (d : WebPData) (haveAllData : Bool) : Except VP8StatusCode (WebPData × ℕ) :=
  if riffHeaderSize ≤ d.size ∧ isTag d.bytes 0 tagRIFF then
    if !isTag d.bytes 8 tagWEBP then .error .bitstreamError
    else if getLE32 d.bytes tagSize < tagSize + chunkHeaderSize then .error .bitstreamError
    else if maxChunkPayload < getLE32 d.bytes tagSize then .error .bitstreamError
    else if haveAllData ∧ d.size - chunkHeaderSize < getLE32 d.bytes tagSize then
      .error .notEnoughData
    else .ok (d.skip riffHeaderSize, getLE32 d.bytes tagSize)
  else .ok (d, 0)

/-- What a VP8X chunk says. -/
structure VP8XChunk where
  width : ℤ
  height : ℤ
  flags : ℕ
  deriving DecidableEq, Repr

/-- `ParseVP8X`: the data after the VP8X chunk, and the chunk if there is one. -/
def parseVP8X (d : WebPData) : Except VP8StatusCode (WebPData × Option VP8XChunk) :=
  if d.size < chunkHeaderSize then .error .notEnoughData
  else if isTag d.bytes 0 tagVP8X then
    if getLE32 d.bytes tagSize ≠ vp8xChunkSize then .error .bitstreamError
    else if d.size < chunkHeaderSize + vp8xChunkSize then .error .notEnoughData
    else if maxImageArea ≤ (1 + getLE24 d.bytes 12) * (1 + getLE24 d.bytes 15) then
      .error .bitstreamError
    else .ok (d.skip (chunkHeaderSize + vp8xChunkSize),
      some ⟨1 + getLE24 d.bytes 12, 1 + getLE24 d.bytes 15, getLE32 d.bytes 8⟩)
  else .ok (d, none)

/-- The loop of `ParseOptionalChunks`: the status, the data from the VP8/VP8L
chunk on, and whether an ALPH chunk was seen. Every turn skips a chunk header
at least, so `fuel` above the size is never used up. -/
def skipOptionalChunks (riffSize : ℕ) :
    ℕ → WebPData → ℕ → Bool → VP8StatusCode × WebPData × Bool
  | 0, d, _, alpha => (.notEnoughData, d, alpha)
  | fuel + 1, d, totalSize, alpha =>
    if d.size < chunkHeaderSize then (.notEnoughData, d, alpha)
    else
      let chunkSize := getLE32 d.bytes tagSize
      if maxChunkPayload < chunkSize then (.bitstreamError, d, alpha)
      else
        -- For odd-sized chunk-payload, there's one byte padding at the end.
        let diskChunkSize := (chunkHeaderSize + chunkSize + 1) / 2 * 2
        let totalSize := (totalSize + diskChunkSize) % 2 ^ 32
        if 0 < riffSize ∧ riffSize < totalSize then (.bitstreamError, d, alpha)
        else if isTag d.bytes 0 tagVP8 ∨ isTag d.bytes 0 tagVP8L then (.ok, d, alpha)
        else if d.size < diskChunkSize then (.notEnoughData, d, alpha)
        else skipOptionalChunks riffSize fuel (d.skip diskChunkSize) totalSize
          (alpha || isTag d.bytes 0 tagALPH)

/-- `ParseOptionalChunks`. -/
def parseOptionalChunks (d : WebPData) (riffSize : ℕ) : VP8StatusCode × WebPData × Bool :=
  skipOptionalChunks riffSize (d.size + 1) d (tagSize + chunkHeaderSize + vp8xChunkSize) false

/-- `VP8LCheckSignature`. -/
def vp8lCheckSignature (d : WebPData) : Bool :=
  vp8lFrameHeaderSize ≤ d.size ∧ (d.bytes 0).toNat = vp8lMagicByte ∧ (d.bytes 4).toNat >>> 5 = 0

/-- `ParseVP8Header`: the data after the VP8/VP8L chunk header, the size of the
compressed data and whether it is lossless. -/
def parseVP8Header (d : WebPData) (haveAllData : Bool) (riffSize : ℕ) :
    Except VP8StatusCode (WebPData × ℕ × Bool) :=
  if d.size < chunkHeaderSize then .error .notEnoughData
  else if isTag d.bytes 0 tagVP8 ∨ isTag d.bytes 0 tagVP8L then
    let size := getLE32 d.bytes tagSize
    let minimalSize := tagSize + chunkHeaderSize
    if minimalSize ≤ riffSize ∧ riffSize - minimalSize < size then .error .bitstreamError
    else if haveAllData ∧ d.size - chunkHeaderSize < size then .error .notEnoughData
    else .ok (d.skip chunkHeaderSize, size, isTag d.bytes 0 tagVP8L)
  else .ok (d, d.size, vp8lCheckSignature d)

/-- `VP8GetInfo`: width and height of a raw VP8 key frame. -/
def vp8GetInfo (d : WebPData) (chunkSize : ℕ) : Option (ℤ × ℤ) :=
  if d.size < vp8FrameHeaderSize then none
  else if ¬ ((d.bytes 3).toNat = 0x9d ∧ (d.bytes 4).toNat = 0x01 ∧ (d.bytes 5).toNat = 0x2a) then
    none
  else
    let bits := getLE24 d.bytes 0
    let w := getLE16 d.bytes 6 &&& 0x3fff
    let h := getLE16 d.bytes 8 &&& 0x3fff
    if bits &&& 1 ≠ 0 then none                  -- not a keyframe
    else if 3 < (bits >>> 1) &&& 7 then none      -- unknown profile
    else if (bits >>> 4) &&& 1 = 0 then none      -- first frame is invisible
    else if chunkSize ≤ bits >>> 5 then none      -- partition length
    else if w = 0 ∨ h = 0 then none
    else some (w, h)

/-- `VP8LGetInfo`: width, height and alpha bit of a VP8L stream, read as 14, 14
and 1 bits after the magic byte. -/
def vp8lGetInfo (d : WebPData) : Option (ℤ × ℤ × Bool) :=
  if d.size < vp8lFrameHeaderSize then none
  else if !vp8lCheckSignature d then none
  else
    let bits := getLE32 d.bytes 1
    let w := bits &&& 0x3fff
    let h := (bits >>> 14) &&& 0x3fff
    some (w + 1, h + 1, (bits >>> 28) &&& 1 != 0)

/-! ### The whole header -/

/-- The end of `ParseHeadersInternal` from the label `ReturnWidthHeight` on, with
`image_width` and `image_height`. An error leaves the size unwritten. -/
def returnWidthHeight (status : VP8StatusCode) (foundVp8x : Bool) (headers : Option Bool)
    (imageWidth imageHeight : ℤ) (f : WebPBitstreamFeatures) (alphaData : Bool) :
    VP8StatusCode × WebPBitstreamFeatures :=
  if status = .ok ∨ (status = .notEnoughData ∧ foundVp8x ∧ headers.isNone) then
    (.ok, { f with width := imageWidth, height := imageHeight, hasAlpha := f.hasAlpha || alphaData })
  else (status, f)

/-- `ParseHeadersInternal` from the VP8/VP8L chunk on: the size in the frame
header, which must be the canvas size when there is a VP8X chunk. `VP8LGetInfo`
writes the alpha bit before the sizes are compared. -/
def parseImageHeader (data : WebPData) (haveAllData : Bool) (riffSize : ℕ)
    (vp8x : Option VP8XChunk) (headers : Option Bool) (f : WebPBitstreamFeatures)
    (alphaData : Bool) : VP8StatusCode × WebPBitstreamFeatures :=
  let canvasWidth := vp8x.elim 0 VP8XChunk.width
  let canvasHeight := vp8x.elim 0 VP8XChunk.height
  match parseVP8Header data haveAllData riffSize with
  | .error status => returnWidthHeight status vp8x.isSome headers canvasWidth canvasHeight f alphaData
  | .ok (data, compressedSize, isLossless) =>
    if maxChunkPayload < compressedSize then (.bitstreamError, f)
    else if data.size < (if isLossless then vp8lFrameHeaderSize else vp8FrameHeaderSize) then
      returnWidthHeight .notEnoughData vp8x.isSome headers canvasWidth canvasHeight f alphaData
    else
      let image := if isLossless then vp8lGetInfo data
        else (vp8GetInfo data compressedSize).map fun (w, h) => (w, h, f.hasAlpha)
      match image with
      | none => (.bitstreamError, f)
      | some (w, h, alpha) =>
        -- Validates image size coherency.
        if vp8x.isSome ∧ (canvasWidth ≠ w ∨ canvasHeight ≠ h) then
          (.bitstreamError, { f with hasAlpha := alpha })
        else returnWidthHeight .ok vp8x.isSome headers w h { f with hasAlpha := alpha } alphaData

/-- `ParseHeadersInternal`. `headers` is `none` for a NULL pointer, otherwise
the value of `have_all_data`. -/
def parseHeadersInternal (data : WebPData) (headers : Option Bool) :
    VP8StatusCode × WebPBitstreamFeatures :=
  let haveAllData := headers.getD false
  if data.size < riffHeaderSize then (.notEnoughData, {})
  else match parseRIFF data haveAllData with
    | .error status => (status, {})
    | .ok (data, riffSize) =>
      match parseVP8X data with
      | .error status => (status, {})
      | .ok (data, vp8x) =>
        let foundRiff := decide (0 < riffSize)
        let flags := vp8x.elim 0 VP8XChunk.flags
        let canvasWidth := vp8x.elim 0 VP8XChunk.width
        let canvasHeight := vp8x.elim 0 VP8XChunk.height
        let f : WebPBitstreamFeatures := {
          hasAlpha := hasFlag flags alphaFlag
          hasAnimation := hasFlag flags animationFlag }
        if !foundRiff ∧ vp8x.isSome then (.bitstreamError, {})
        else if vp8x.isSome ∧ f.hasAnimation ∧ headers.isNone then
          -- Just return features from VP8X header.
          returnWidthHeight .ok vp8x.isSome headers canvasWidth canvasHeight f false
        else if data.size < tagSize then
          returnWidthHeight .notEnoughData vp8x.isSome headers canvasWidth canvasHeight f false
        else if (foundRiff ∧ vp8x.isSome) ∨
            (!foundRiff ∧ !vp8x.isSome ∧ isTag data.bytes 0 tagALPH) then
          match parseOptionalChunks data riffSize with
          | (.ok, data, alpha) => parseImageHeader data haveAllData riffSize vp8x headers f alpha
          | (status, _, alpha) =>
            returnWidthHeight status vp8x.isSome headers canvasWidth canvasHeight f alpha
        else parseImageHeader data haveAllData riffSize vp8x headers f false

/-- `WebPGetFeatures`. -/
def webPGetFeatures (data : WebPData) : VP8StatusCode × WebPBitstreamFeatures :=
  parseHeadersInternal data none

/-- `WebPParseHeaders` as `DecodeInto` calls it, with `have_all_data` set. An
animation is not decoded as a picture. -/
def webPParseHeaders (data : WebPData) : VP8StatusCode × WebPBitstreamFeatures :=
  match parseHeadersInternal data (some true) with
  | (status, f) =>
    if (status = .ok ∨ status = .notEnoughData) ∧ f.hasAnimation then (.unsupportedFeature, f)
    else (status, f)

end WebPlugin
