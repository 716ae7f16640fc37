/-
# How lossy pictures are emitted

The RGB output of `src/codec/libwebp/src/dec/io_dec.c` behind `FinishRow` of
`frame_dec.c`: a band of decoded luma and chroma rows is cut to the crop window
and then either upsampled (`EmitFancyRGB`) or rescaled plane by plane
(`EmitRescaledRGB`), and its alpha is put in afterwards. With it `yuv.h`,
`UPSAMPLE_FUNC` and `YUV444_FUNC` of `upsampling.c`, `DispatchAlpha` and
`ApplyAlphaMultiply` of `alpha_processing.c` in plain C, on a little-endian target.
The two rows a line pair is upsampled to do not alias (`WEBP_RESTRICT`). An
`assert` that fails is `none`, and so is a zero that `CustomPut` returns.
-/
import WebPlugin.EmitRows

namespace WebPlugin

open Memory Words

/-! ### Colour conversion -/

/-- `MultHi`. -/
def multHi (v coeff : ℕ) : ℕ := (v * coeff) >>> 8

/-- `VP8Clip8`: the bits outside `YUV_MASK2` are 0 for `0 .. 16383`. -/
def vp8Clip8 (v : ℤ) : ℕ := if 0 ≤ v ∧ v < 16384 then v.toNat >>> 6 else if v < 0 then 0 else 255

/-- `VP8YUVToR`. -/
def vp8YUVToR (y v : ℕ) : ℕ := vp8Clip8 ((multHi y 19077 : ℤ) + multHi v 26149 - 14234)

/-- `VP8YUVToG`. -/
def vp8YUVToG (y u v : ℕ) : ℕ := vp8Clip8 ((multHi y 19077 : ℤ) - multHi u 6419 - multHi v 13320 + 8708)

/-- `VP8YUVToB`. -/
def vp8YUVToB (y u : ℕ) : ℕ := vp8Clip8 ((multHi y 19077 : ℤ) + multHi u 33050 - 17685)

/-- The bytes of a pixel: `VP8YuvToRgb` and its variants, by mode as
`WebPYUV444Converters` and `WebPUpsamplers` list them. -/
def vp8YuvTo (colorspace : WebPCspMode) (y u v : ℕ) : List ℕ :=
  let r := vp8YUVToR y v
  let g := vp8YUVToG y u v
  let b := vp8YUVToB y u
  match colorspace with
  | .RGB => [r, g, b]
  | .BGR => [b, g, r]
  | .RGBA | .rgbA => [r, g, b, 0xff]
  | .BGRA | .bgrA => [b, g, r, 0xff]
  | .ARGB | .Argb => [0xff, r, g, b]
  | .RGBA_4444 | .rgbA_4444 => [(r &&& 0xf0) ||| (g >>> 4), (b &&& 0xf0) ||| 0x0f]
  | .RGB_565 => [(r &&& 0xf8) ||| (g >>> 5), ((g <<< 3) &&& 0xe0) ||| (b >>> 3)]

/-- Byte `c` of a converted row. -/
def yuvByte (colorspace : WebPCspMode) (y u v : ℕ → ℕ) (c : ℕ) : UInt8 :=
  let x := c / kModeBpp colorspace
  UInt8.ofNat ((vp8YuvTo colorspace (y x) (u x) (v x)).getD (c % kModeBpp colorspace) 0)

/-- `WebPIsPremultipliedMode`. -/
def webPIsPremultipliedMode : WebPCspMode → Bool
  | .rgbA | .bgrA | .Argb | .rgbA_4444 => true
  | _ => false

/-- `WebPIsAlphaMode`. -/
def webPIsAlphaMode (mode : WebPCspMode) : Bool :=
  decide (mode = .RGBA ∨ mode = .BGRA ∨ mode = .ARGB ∨ mode = .RGBA_4444) || webPIsPremultipliedMode mode

/-- `alpha_first`. -/
def alphaFirst (colorspace : WebPCspMode) : Bool := decide (colorspace = .ARGB ∨ colorspace = .Argb)

/-- The modes whose pixels are two bytes with four bits of alpha. -/
def is4444 (colorspace : WebPCspMode) : Bool := decide (colorspace = .RGBA_4444 ∨ colorspace = .rgbA_4444)

/-! ### Alpha -/

/-- A row of `n` pixels of `size` bytes each, made anew from their own bytes. -/
def mapPixels (mem : Buf) (base : ℤ) (size : ℕ) (pixel : ℕ → (ℕ → UInt8) → ℕ → UInt8) : ℕ → Buf
  | 0 => mem
  | n + 1 =>
    let mem := mapPixels mem base size pixel n
    mem.writeRow (base + n * size) size (pixel n fun c => mem.get (base + n * size + c))

/-- Where the alpha of a pixel of four bytes is. -/
def alphaByte (alphaFirst : Bool) : ℕ := if alphaFirst then 0 else 3

/-- A pixel in `DispatchAlpha_C`. -/
def dispatchPixel (alphaFirst : Bool) (alpha : ℕ → ℕ) (i : ℕ) (px : ℕ → UInt8) (c : ℕ) : UInt8 :=
  if c = alphaByte alphaFirst then UInt8.ofNat (alpha i) else px c

/-- A row of `DispatchAlpha_C`. -/
def dispatchAlpha (alphaFirst : Bool) (alpha : ℕ → ℕ) (mem : Buf) (rgba : ℤ) (width : ℕ) : Buf :=
  mapPixels mem rgba 4 (dispatchPixel alphaFirst alpha) width

/-- A pixel in `ApplyAlphaMultiply_C`: the three bytes beside the alpha are premultiplied. -/
def multiplyPixel (alphaFirst : Bool) (_ : ℕ) (px : ℕ → UInt8) (c : ℕ) : UInt8 :=
  if c = alphaByte alphaFirst then px c
  else UInt8.ofNat (premultiply (px c).toNat (px (alphaByte alphaFirst)).toNat)

/-- A row of `ApplyAlphaMultiply_C`. -/
def applyAlphaMultiplyRow (alphaFirst : Bool) (mem : Buf) (rgba : ℤ) (w : ℕ) : Buf :=
  mapPixels mem rgba 4 (multiplyPixel alphaFirst) w

/-- A pixel in the alpha loop of `EmitAlphaRGBA4444`: four bits of alpha go to the second byte. -/
def dispatchPixel4444 (alpha : ℕ → ℕ) (i : ℕ) (px : ℕ → UInt8) (c : ℕ) : UInt8 :=
  if c = 1 then UInt8.ofNat (((px 1).toNat &&& 0xf0) ||| (alpha i >>> 4)) else px c

/-- A row of the alpha loop of `EmitAlphaRGBA4444`. -/
def dispatchAlpha4444 (alpha : ℕ → ℕ) (mem : Buf) (rgba : ℤ) (width : ℕ) : Buf :=
  mapPixels mem rgba 2 (dispatchPixel4444 alpha) width

/-- A pixel in `ApplyAlphaMultiply4444_C`. -/
def multiplyPixel4444 (_ : ℕ) (px : ℕ → UInt8) (c : ℕ) : UInt8 :=
  let rgba := applyAlphaMultiply4444 (px 0).toNat (px 1).toNat
  UInt8.ofNat (if c = 0 then rgba.1 else rgba.2)

/-- A row of `ApplyAlphaMultiply4444_C`. -/
def applyAlphaMultiply4444Row (mem : Buf) (rgba4444 : ℤ) (w : ℕ) : Buf :=
  mapPixels mem rgba4444 2 multiplyPixel4444 w

/-- A row of alpha goes into the pixels at `rgba`. -/
def putAlphaRow (colorspace : WebPCspMode) (alpha : ℕ → ℕ) (width : ℕ) (mem : Buf) (rgba : ℤ) : Buf :=
  if is4444 colorspace then dispatchAlpha4444 alpha mem rgba width
  else dispatchAlpha (alphaFirst colorspace) alpha mem rgba width

/-- `alpha_mask` after a row of samples. -/
def alphaMask (alpha : ℕ → ℕ) (mask : ℕ) : ℕ → ℕ
  | 0 => mask
  | n + 1 => alphaMask alpha mask n &&& alpha n

/-- What a row adds to the mask: all of the samples' bits, or the four that are kept. -/
def rowMask (colorspace : WebPCspMode) (alpha : ℕ → ℕ) (mask width : ℕ) : ℕ :=
  if is4444 colorspace then alphaMask (fun i => alpha i >>> 4) mask width else alphaMask alpha mask width

/-- The mask of samples that are all opaque. -/
def fullMask (colorspace : WebPCspMode) : ℕ := if is4444 colorspace then 0x0f else 0xff

/-- `WebPApplyAlphaMultiply` or `WebPApplyAlphaMultiply4444` of `h` rows. -/
def applyAlphaMultiplyRows (colorspace : WebPCspMode) (w : ℕ) (stride base : ℤ) (mem : Buf) : ℕ → Buf
  | 0 => mem
  | h + 1 =>
    let mem := applyAlphaMultiplyRows colorspace w stride base mem h
    if is4444 colorspace then applyAlphaMultiply4444Row mem (base + h * stride) w
    else applyAlphaMultiplyRow (alphaFirst colorspace) mem (base + h * stride) w

/-! ### Decoding parameters -/

/-- The samples of a band, as `FinishRow` sets the pointers of `VP8Io`: the planes
in the cache, and the alpha plane where there is one. -/
structure Samples where
  cache : Buf
  y : ℤ
  u : ℤ
  v : ℤ
  yStride : ℕ
  uvStride : ℕ
  a : Option (Buf × ℤ)

/-- `OutputFunc` of the RGB modes. -/
inductive Emit
  | rescaledRGB | fancyRGB
  deriving DecidableEq, Repr

/-- `WebPDecParams`: `tmp` is the memory behind the rows the scalers export to, or
behind `tmp_y`, `tmp_u` and `tmp_v`, and `mem` the picture's. Whether alpha is put in
(`emit_alpha`), and which way, follows from the colour mode. -/
structure WebPDecParams where
  output : WebPDecBuffer
  mem : Buf
  tmp : Buf
  lastY : ℕ
  emit : Emit
  scalerY : WebPRescaler
  scalerU : WebPRescaler
  scalerV : WebPRescaler
  scalerA : WebPRescaler

namespace WebPDecParams

/-- Row `y` of the output. -/
def rowPtr (p : WebPDecParams) (y : ℤ) : ℤ := p.output.u.rgba.getD 0 + y * p.output.u.stride

end WebPDecParams

/-! ### Rescaling -/

/-- The row a scaler has exported. -/
def dstRow (tmp : Buf) (wrk : WebPRescaler) (x : ℕ) : ℕ := (tmp.get (wrk.dst + x)).toNat

/-- The loop of `ExportRGB`; at most `n` turns, with the number of lines out. -/
def exportRGBLoop : ℕ → WebPDecParams → ℕ → Option (WebPDecParams × ℕ)
  | n, p, yPos =>
    if webPRescalerHasPendingOutput p.scalerY && webPRescalerHasPendingOutput p.scalerU then
      match n with
      | 0 => none
      | n + 1 =>
        if ¬ ((yPos : ℤ) < p.output.height ∧ p.scalerU.yAccum = p.scalerV.yAccum) then none
        else
          match webPRescalerExportRow p.scalerY p.tmp with
          | none => none
          | some (scalerY, tmp) =>
            match webPRescalerExportRow p.scalerU tmp with
            | none => none
            | some (scalerU, tmp) =>
              match webPRescalerExportRow p.scalerV tmp with
              | none => none
              | some (scalerV, tmp) =>
                let mem := p.mem.writeRow (p.rowPtr yPos) (scalerY.dstWidth * kModeBpp p.output.colorspace)
                  (yuvByte p.output.colorspace (dstRow tmp scalerY) (dstRow tmp scalerU) (dstRow tmp scalerV))
                (exportRGBLoop n { p with mem, tmp, scalerY, scalerU, scalerV } (yPos + 1)).map fun (p, k) => (p, k + 1)
    else some (p, 0)

/-- `ExportRGB`. -/
def exportRGB (p : WebPDecParams) (yPos : ℕ) : Option (WebPDecParams × ℕ) :=
  exportRGBLoop (p.scalerY.dstHeight - p.scalerY.dstY) p yPos

/-- The import of chroma lines in `EmitRescaledRGB`, with their number. -/
def importChroma (s : Samples) (p : WebPDecParams) (uvMbH uvJ : ℕ) : Option (WebPDecParams × ℕ) :=
  if webPRescaleNeededLines p.scalerU ((uvMbH : ℤ) - uvJ) ≠ 0 then
    match webPRescalerImport p.scalerU s.cache (uvMbH - uvJ) (s.u + uvJ * s.uvStride) s.uvStride,
      webPRescalerImport p.scalerV s.cache (uvMbH - uvJ) (s.v + uvJ * s.uvStride) s.uvStride with
    | some (scalerU, uLinesIn), some (scalerV, vLinesIn) =>
      if uLinesIn = vLinesIn then some ({ p with scalerU, scalerV }, uLinesIn) else none
    | _, _ => none
  else some (p, 0)

/-- The loop of `EmitRescaledRGB`; at most `n` turns. -/
def emitRescaledRGBLoop (s : Samples) (mbH uvMbH : ℕ) :
    ℕ → WebPDecParams → ℕ → ℕ → ℕ → Option (WebPDecParams × ℕ)
  | n, p, j, uvJ, numLinesOut =>
    if j < mbH then
      match n with
      | 0 => none
      | n + 1 =>
        match webPRescalerImport p.scalerY s.cache (mbH - j) (s.y + j * s.yStride) s.yStride with
        | none => none
        | some (scalerY, yLinesIn) =>
          match importChroma s { p with scalerY } uvMbH uvJ with
          | none => none
          | some (p, uLinesIn) =>
            match exportRGB p (p.lastY + numLinesOut) with
            | none => none
            | some (p, k) =>
              emitRescaledRGBLoop s mbH uvMbH n p (j + yLinesIn) (uvJ + uLinesIn) (numLinesOut + k)
    else some (p, numLinesOut)

/-- `EmitRescaledRGB`: a turn takes a line or gives a row. -/
def emitRescaledRGB (io : VP8Io) (s : Samples) (p : WebPDecParams) : Option (WebPDecParams × ℕ) :=
  emitRescaledRGBLoop s io.mbH ((io.mbH + 1) / 2) (io.mbH + p.scalerY.dstHeight) p 0 0 0

/-- The loop of `ExportAlpha` and of `ExportAlphaRGBA4444`; at most `maxLinesOut`
turns. With the mask of the samples, which is full unless one is `non_opaque`, and
the number of lines out. -/
def exportAlphaLoop : ℕ → WebPDecParams → ℕ → ℕ → Option (WebPDecParams × ℕ × ℕ)
  | 0, p, _, mask => some (p, mask, 0)
  | maxLinesOut + 1, p, yPos, mask =>
    if webPRescalerHasPendingOutput p.scalerA then
      if ¬ ((yPos : ℤ) < p.output.height) then none
      else
        match webPRescalerExportRow p.scalerA p.tmp with
        | none => none
        | some (scalerA, tmp) =>
          let mem := putAlphaRow p.output.colorspace (dstRow tmp scalerA) scalerA.dstWidth p.mem (p.rowPtr yPos)
          let mask := rowMask p.output.colorspace (dstRow tmp scalerA) mask scalerA.dstWidth
          (exportAlphaLoop maxLinesOut { p with mem, tmp, scalerA } (yPos + 1) mask).map
            fun (p, mask, k) => (p, mask, k + 1)
    else some (p, mask, 0)

/-- `ExportAlpha` and `ExportAlphaRGBA4444`. -/
def exportAlpha (p : WebPDecParams) (yPos maxLinesOut : ℕ) : Option (WebPDecParams × ℕ) :=
  let full := fullMask p.output.colorspace
  (exportAlphaLoop maxLinesOut p yPos full).map fun (q, mask, numLinesOut) =>
    if webPIsPremultipliedMode p.output.colorspace ∧ mask ≠ full then
      let mem := applyAlphaMultiplyRows p.output.colorspace p.scalerA.dstWidth p.output.u.stride (p.rowPtr yPos) q.mem
        numLinesOut
      ({ q with mem }, numLinesOut)
    else (q, numLinesOut)

/-- The loop of `EmitRescaledAlphaRGB`; at most `n` turns. -/
def emitRescaledAlphaRGBLoop (io : VP8Io) (plane : Buf) (a : ℤ) (yEnd : ℕ) :
    ℕ → WebPDecParams → ℕ → Option WebPDecParams
  | n, p, linesLeft =>
    if 0 < linesLeft then
      match n with
      | 0 => none
      | n + 1 =>
        let rowOffset := (p.scalerA.srcY : ℤ) - io.mbY
        match webPRescalerImport p.scalerA plane (io.mbH + io.mbY - p.scalerA.srcY)
          (a + rowOffset * io.width) io.width with
        | none => none
        | some (scalerA, _) =>
          match exportAlpha { p with scalerA } (yEnd - linesLeft) linesLeft with
          | none => none
          | some (p, k) => emitRescaledAlphaRGBLoop io plane a yEnd n p (linesLeft - k)
    else some p

/-- `EmitRescaledAlphaRGB`. -/
def emitRescaledAlphaRGB (io : VP8Io) (s : Samples) (p : WebPDecParams) (expectedNumOutLines : ℕ) :
    Option WebPDecParams :=
  match s.a with
  | some (plane, a) =>
    emitRescaledAlphaRGBLoop io plane a (p.lastY + expectedNumOutLines) expectedNumOutLines p expectedNumOutLines
  | none => some p

/-! ### Upsampling -/

/-- `LOAD_UV`: the two samples of a pixel in one word. -/
def loadUV (u v : ℕ) : ℕ := u ||| (v <<< 16)

/-- What the first and the last pixel of a row take of the samples next to them. -/
def edgeUV (near far : ℕ) : ℕ := (3 * near + far + 0x00020002) >>> 2

/-- The loop of `UPSAMPLE_FUNC` over `n` pairs of samples from `x` on: the words of the
top and of the bottom row, and the last two words loaded. -/
def upsampleLoop (topU topV curU curV : ℕ → ℕ) :
    ℕ → ℕ → ℕ → ℕ → List ℕ × List ℕ × ℕ × ℕ
  | 0, _, tlUV, lUV => ([], [], tlUV, lUV)
  | n + 1, x, tlUV, lUV =>
    let tUV := loadUV (topU x) (topV x) -- top sample
    let uv := loadUV (curU x) (curV x) -- sample
    -- precompute invariant values associated with first and second diagonals
    let avg := tlUV + tUV + lUV + uv + 0x00080008
    let diag12 := (avg + 2 * (tUV + lUV)) >>> 3
    let diag03 := (avg + 2 * (tlUV + uv)) >>> 3
    let (top, bottom, last) := upsampleLoop topU topV curU curV n (x + 1) tUV uv
    (((diag12 + tlUV) >>> 1) :: ((diag03 + tUV) >>> 1) :: top,
      ((diag03 + lUV) >>> 1) :: ((diag12 + uv) >>> 1) :: bottom, last)

/-- The words of the top and of the bottom row in `UPSAMPLE_FUNC`, for `len` pixels. -/
def upsampleUV (topU topV curU curV : ℕ → ℕ) (len : ℕ) : List ℕ × List ℕ :=
  let tlUV := loadUV (topU 0) (topV 0) -- top-left sample
  let lUV := loadUV (curU 0) (curV 0) -- left-sample
  let (top, bottom, tl, l) := upsampleLoop topU topV curU curV ((len - 1) / 2) 1 tlUV lUV
  (edgeUV tlUV lUV :: top ++ (if len % 2 = 0 then [edgeUV tl l] else []),
    edgeUV lUV tlUV :: bottom ++ (if len % 2 = 0 then [edgeUV l tl] else []))

/-- A row of pixels from its luma and the words of its chroma. -/
def upsampledByte (colorspace : WebPCspMode) (y : ℕ → ℕ) (uv : List ℕ) : ℕ → UInt8 :=
  yuvByte colorspace y (fun x => uv.getD x 0 &&& 0xff) (fun x => uv.getD x 0 >>> 16)

/-- `WebPUpsamplers[colorspace]`. -/
def upsample (colorspace : WebPCspMode) (topY : ℕ → ℕ) (bottomY : Option (ℕ → ℕ))
    (topU topV curU curV : ℕ → ℕ) (mem : Buf) (topDst bottomDst : ℤ) (len : ℕ) : Buf :=
  let uv := upsampleUV topU topV curU curV len
  let mem := mem.writeRow topDst (len * kModeBpp colorspace) (upsampledByte colorspace topY uv.1)
  match bottomY with
  | none => mem
  | some bottomY => mem.writeRow bottomDst (len * kModeBpp colorspace) (upsampledByte colorspace bottomY uv.2)

/-- Where the loop of `EmitFancyRGB` is. -/
structure FancyAt where
  y : ℕ
  curY : ℤ
  curU : ℤ
  curV : ℤ
  dst : ℤ
  mem : Buf

/-- The loop of `EmitFancyRGB` over each output pair of rows; at most `n` turns. -/
def emitFancyRGBLoop (colorspace : WebPCspMode) (stride : ℤ) (s : Samples) (mbW yEnd : ℕ) :
    ℕ → FancyAt → FancyAt
  | 0, f => f
  | n + 1, f =>
    if f.y + 2 < yEnd then
      let curU := f.curU + s.uvStride
      let curV := f.curV + s.uvStride
      let dst := f.dst + 2 * stride
      let curY := f.curY + 2 * s.yStride
      let row := sourceRow s.cache
      let mem := upsample colorspace (row (curY - s.yStride)) (some (row curY)) (row f.curU) (row f.curV) (row curU)
        (row curV) f.mem (dst - stride) dst mbW
      emitFancyRGBLoop colorspace stride s mbW yEnd n ⟨f.y + 2, curY, curU, curV, dst, mem⟩
    else f

/-- `EmitFancyRGB`: `tmp_y`, `tmp_u` and `tmp_v` lie one behind the other. -/
def emitFancyRGB (io : VP8Io) (s : Samples) (p : WebPDecParams) : WebPDecParams × ℕ :=
  let colorspace := p.output.colorspace
  let stride := p.output.u.stride
  let dst := p.rowPtr io.mbY
  let yEnd := io.mbY + io.mbH
  let uvW := (io.mbW + 1) / 2
  let row := sourceRow s.cache
  let mem :=
    if io.mbY = 0 then
      -- First line is special cased. We mirror the u/v samples at boundary.
      upsample colorspace (row s.y) none (row s.u) (row s.v) (row s.u) (row s.v) p.mem dst dst io.mbW
    else
      -- We can finish the left-over line from previous call.
      upsample colorspace (sourceRow p.tmp 0) (some (row s.y)) (sourceRow p.tmp io.mbW)
        (sourceRow p.tmp (io.mbW + uvW : ℕ)) (row s.u) (row s.v) p.mem (dst - stride) dst io.mbW
  let numLinesOut := if io.mbY = 0 then io.mbH else io.mbH + 1
  let f := emitFancyRGBLoop colorspace stride s io.mbW yEnd io.mbH ⟨io.mbY, s.y, s.u, s.v, dst, mem⟩
  -- move to last row
  let curY := f.curY + s.yStride
  if io.cropTop + yEnd < io.cropBottom then
    -- Save the unfinished samples for next call (as we're not done yet).
    let tmp := p.tmp.writeRow 0 io.mbW fun x => s.cache.get (curY + x)
    let tmp := tmp.writeRow io.mbW uvW fun x => s.cache.get (f.curU + x)
    let tmp := tmp.writeRow (io.mbW + uvW : ℕ) uvW fun x => s.cache.get (f.curV + x)
    ({ p with mem := f.mem, tmp }, numLinesOut - 1)
  else if yEnd % 2 = 0 then
    -- Process the very last row of even-sized picture
    let mem := upsample colorspace (row curY) none (row f.curU) (row f.curV) (row f.curU) (row f.curV) f.mem
      (f.dst + stride) (f.dst + stride) io.mbW
    ({ p with mem }, numLinesOut)
  else ({ p with mem := f.mem }, numLinesOut)

/-- `GetAlphaSourceRow`: the first row, where its alpha starts, and the number of rows. -/
def getAlphaSourceRow (io : VP8Io) (alpha : ℤ) : ℕ × ℤ × ℕ :=
  if io.fancyUpsampling then
    -- Compensate for the 1-line delay of the fancy upscaler.
    let (startY, alpha, numRows) :=
      if io.mbY = 0 then (0, alpha, io.mbH - 1) else (io.mbY - 1, alpha - io.width, io.mbH)
    -- If it's the very last call, we process all the remaining rows!
    (startY, alpha,
      if io.cropTop + io.mbY + io.mbH = io.cropBottom then io.cropBottom - io.cropTop - startY else numRows)
  else (io.mbY, alpha, io.mbH)

/-- The loop over rows of alpha in `EmitAlphaRGB` and `EmitAlphaRGBA4444`, with the mask of the samples. -/
def putAlphaRows (colorspace : WebPCspMode) (plane : Buf) (alpha : ℤ) (alphaStride width : ℕ) (base stride : ℤ)
    (mem : Buf) : ℕ → Buf × ℕ
  | 0 => (mem, fullMask colorspace)
  | h + 1 =>
    let (mem, mask) := putAlphaRows colorspace plane alpha alphaStride width base stride mem h
    let row := sourceRow plane (alpha + h * alphaStride)
    (putAlphaRow colorspace row width mem (base + h * stride), rowMask colorspace row mask width)

/-- `EmitAlphaRGB` and `EmitAlphaRGBA4444`. -/
def emitAlphaRGB (io : VP8Io) (s : Samples) (p : WebPDecParams) (expectedNumLinesOut : ℕ) : Option WebPDecParams :=
  match s.a with
  | none => some p
  | some (plane, alpha) =>
    let colorspace := p.output.colorspace
    let stride := p.output.u.stride
    let (startY, alpha, numRows) := getAlphaSourceRow io alpha
    let base := p.rowPtr startY
    let (mem, mask) := putAlphaRows colorspace plane alpha io.width io.mbW base stride p.mem numRows
    if expectedNumLinesOut ≠ numRows then none
    else if webPIsPremultipliedMode colorspace ∧ mask ≠ fullMask colorspace then
      some { p with mem := applyAlphaMultiplyRows colorspace io.mbW stride base mem numRows }
    else some { p with mem }

/-! ### Bands -/

/-- `CustomPut`. -/
def customPut (io : VP8Io) (s : Samples) (p : WebPDecParams) : Option WebPDecParams :=
  if io.mbY % 2 ≠ 0 ∨ io.mbW = 0 ∨ io.mbH = 0 then none
  else
    let emitted := match p.emit with
      | .rescaledRGB => emitRescaledRGB io s p
      | .fancyRGB => some (emitFancyRGB io s p)
    match emitted with
    | none => none
    | some (p, numLinesOut) =>
      let p := if !webPIsAlphaMode p.output.colorspace then some p
        else match p.emit with
          | .rescaledRGB => emitRescaledAlphaRGB io s p numLinesOut
          | .fancyRGB => emitAlphaRGB io s p numLinesOut
      p.map fun p => { p with lastY := p.lastY + numLinesOut }

/-- `kFilterExtraRows`. -/
def kFilterExtraRows (filterType : Fin 3) : ℕ := [0, 2, 8].getD filterType 0

/-- `br_mb_y` of `VP8EnterCritical`, for a picture of `height` rows. -/
def brMbY (io : VP8Io) (extraPixels : ℕ) : ℕ :=
  min ((io.cropBottom + 15 + extraPixels) / 16) ((io.height + 15) / 16)

/-- The rows of the picture that `FinishRow` emits after macroblock row `mbY`: from the first up to the second. -/
def rowsOf (io : VP8Io) (extraYRows mbY : ℕ) : ℕ × ℕ :=
  let yStart := if mbY ≠ 0 then 16 * mbY - extraYRows else 16 * mbY
  let yEnd := if ¬ mbY ≥ brMbY io extraYRows - 1 then 16 * (mbY + 1) - extraYRows else 16 * (mbY + 1)
  -- make sure we don't overflow on last row.
  (yStart, min yEnd io.cropBottom)

/-- The planes of a band, from the first row and column of the window on. -/
def Samples.crop (s : Samples) (io : VP8Io) (yStart : ℕ) : Samples :=
  let deltaY := io.cropTop - yStart
  { s with
    y := s.y + s.yStride * deltaY + io.cropLeft
    u := s.u + s.uvStride * (deltaY / 2) + (io.cropLeft / 2 : ℕ)
    v := s.v + s.uvStride * (deltaY / 2) + (io.cropLeft / 2 : ℕ)
    a := s.a.map fun (plane, a) => (plane, a + yStart * io.width + io.width * deltaY + io.cropLeft) }

/-- The output of `FinishRow`: the planes of `s` start at the first row, its alpha plane at the picture's. -/
def finishRow (extraYRows mbY : ℕ) (io : VP8Io) (s : Samples) (p : WebPDecParams) : Option WebPDecParams :=
  let (yStart, yEnd) := rowsOf io extraYRows mbY
  let deltaY := io.cropTop - yStart
  if deltaY % 2 ≠ 0 then none
  else
    let first := max yStart io.cropTop
    if first < yEnd then
      customPut { io with mbY := first - io.cropTop, mbW := io.cropRight - io.cropLeft, mbH := yEnd - first }
        (s.crop io yStart) p
    else some p

/-- The size in bytes of what `InitRGBRescaler` allocates: work areas, rows, rescalers and their alignment. -/
def rgbRescalerMemorySize (numRescalers outWidth : ℕ) : ℕ :=
  numRescalers * (2 * outWidth) * 4 + numRescalers * outWidth + numRescalers * 84 + 31

theorem tmpRows_fit {numRescalers outWidth : ℕ}
    (h : checkSizeArgumentsOverflow 1 (rgbRescalerMemorySize numRescalers outWidth)) :
    numRescalers * outWidth < 4294967296 := by
  have := lt_of_check h
  unfold rgbRescalerMemorySize at this
  omega

/-- `InitRGBRescaler`; false is `none`. -/
def initRGBRescaler (io : VP8Io) (garbage : ℕ → UInt8) (p : WebPDecParams) : Option WebPDecParams :=
  let hasAlpha := webPIsAlphaMode p.output.colorspace
  let outWidth := io.scaledWidth
  let outHeight := io.scaledHeight
  let uvInWidth := (io.mbW + 1) / 2
  let uvInHeight := (io.mbH + 1) / 2
  let numRescalers := if hasAlpha then 4 else 3
  if h : checkSizeArgumentsOverflow 1 (rgbRescalerMemorySize numRescalers outWidth) then
    match webPRescalerInit p.scalerY io.mbW io.mbH 0 outWidth outHeight 0 1,
      webPRescalerInit p.scalerU uvInWidth uvInHeight outWidth outWidth outHeight 0 1,
      webPRescalerInit p.scalerV uvInWidth uvInHeight (2 * outWidth : ℕ) outWidth outHeight 0 1 with
    | some scalerY, some scalerU, some scalerV =>
      let p :=
        { p with
          tmp := ⟨numRescalers * outWidth, garbage, tmpRows_fit h⟩
          emit := .rescaledRGB
          scalerY
          scalerU
          scalerV }
      if hasAlpha then
        (webPRescalerInit p.scalerA io.mbW io.mbH (3 * outWidth : ℕ) outWidth outHeight 0 1).map fun scalerA =>
          { p with scalerA }
      else some p
    | _, _, _ => none
  else none

theorem fancyRows_fit {width : ℕ} (h : checkSizeArgumentsOverflow 1 width) : width < 4294967296 := by
  have := lt_of_check h
  omega

/-- `CustomSetup`, with the fancy upsampler on where nothing is scaled; 0 is `none`. -/
def customSetup (options : WebPDecoderOptions) (width height : ℕ) (garbage : ℕ → UInt8) (p : WebPDecParams) :
    Option (VP8Io × WebPDecParams) :=
  match webPIoInitFromOptions options width height false with
  | none => none
  | some io =>
    if io.useScaling then (initRGBRescaler io garbage p).map fun p => (io, p)
    else if h : checkSizeArgumentsOverflow 1 (io.mbW + 2 * ((io.mbW + 1) / 2)) then
      some (io, { p with tmp := ⟨_, garbage, fancyRows_fit h⟩, emit := .fancyRGB })
    else none

end WebPlugin
