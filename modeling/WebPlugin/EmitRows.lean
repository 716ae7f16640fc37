/-
# How lossless pictures are emitted

The row output of `src/codec/libwebp/src/dec/vp8l_dec.c`: a band of decoded rows
is cut to the crop window and then either converted row by row (`EmitRows`) or
premultiplied, rescaled and un-premultiplied on the way (`EmitRescaledRowsRGBA`).
With it `WebPIoInitFromOptions` of `webp_dec.c`, `WebPMultARGBRow` of
`src/codec/libwebp/src/dsp/alpha_processing.c` and `VP8LConvertFromBGRA` of
`lossless.c`, on a little-endian target. The pixels of a band stand in
`argb_cache`, where the inverse transforms leave them; an `assert` that fails is
`none`.
-/
import WebPlugin.Rescaler
import WebPlugin.DecBuffer
import WebPlugin.Blend

namespace WebPlugin

open Memory Words

/-! ### Alpha -/

/-- `GetScale`. -/
def getScale (a : ℕ) (inverse : Bool) : ℕ := if inverse then 255 <<< 24 / a else a * ((1 <<< 24) / 255)

/-- `Mult`: a 32-bit word shifted right by 24 is at most 255. -/
def mult (x mult : ℕ) : ℕ := ((x * mult + (1 <<< 24) / 2) % 2 ^ 32) >>> 24

/-- What `WebPMultARGBRow` makes of a pixel. -/
def multARGB (argb : ℕ) (inverse : Bool) : ℕ :=
  if argb < 0xff000000 then -- alpha < 255
    if argb ≤ 0x00ffffff then 0 -- alpha == 0
    else
      let scale := getScale (channel argb 3) inverse
      (argb &&& 0xff000000) ||| mult (channel argb 0) scale ||| mult (channel argb 1) scale <<< 8 |||
        mult (channel argb 2) scale <<< 16
  else argb

/-- `WebPMultARGBRow_C`. -/
def webPMultARGBRow (b : Buf) (ptr : ℕ) (inverse : Bool) : ℕ → Buf
  | 0 => b
  | n + 1 =>
    let b := webPMultARGBRow b ptr inverse n
    b.store32 (ptr + 4 * n) (multARGB (b.load32 (ptr + 4 * n)) inverse)

/-- `WebPMultARGBRows`. -/
def webPMultARGBRows (b : Buf) (ptr stride width : ℕ) (inverse : Bool) : ℕ → Buf
  | 0 => b
  | n + 1 => webPMultARGBRow (webPMultARGBRows b ptr stride width inverse n) (ptr + n * stride) inverse width

/-! ### Colorspaces -/

/-- `PREMULTIPLY` with `MULTIPLIER` of the alpha, of an alpha that is not full. -/
def premultiply (x a : ℕ) : ℕ := if a ≠ 0xff then (x * (a * 32897)) >>> 23 else x

/-- `dither_hi`. -/
def ditherHi (x : ℕ) : ℕ := (x &&& 0xf0) ||| (x >>> 4)

/-- `dither_lo`. -/
def ditherLo (x : ℕ) : ℕ := (x &&& 0x0f) ||| (x <<< 4) % 256

/-- The two bytes of `VP8LConvertBGRAToRGBA4444`. -/
def rgba4444 (argb : ℕ) : ℕ × ℕ :=
  (((argb >>> 16) &&& 0xf0) ||| ((argb >>> 12) &&& 0xf), (argb &&& 0xf0) ||| ((argb >>> 28) &&& 0xf))

/-- What `ApplyAlphaMultiply4444` makes of the two bytes of a pixel. -/
def applyAlphaMultiply4444 (rg ba : ℕ) : ℕ × ℕ :=
  let a := ba &&& 0x0f
  let multiply := fun x => ((x * (a * 0x1111)) >>> 16) % 256
  let r := multiply (ditherHi rg)
  let g := multiply (ditherLo rg)
  let b := multiply (ditherHi ba)
  ((r &&& 0xf0) ||| ((g >>> 4) &&& 0x0f), (b &&& 0xf0) ||| a)

/-- The bytes `VP8LConvertFromBGRA` makes of a pixel. -/
def convertFromBGRA (outColorspace : WebPCspMode) (argb : ℕ) : List ℕ :=
  let b := channel argb 0
  let g := channel argb 1
  let r := channel argb 2
  let a := channel argb 3
  match outColorspace with
  | .RGB => [r, g, b]
  | .RGBA => [r, g, b, a]
  | .rgbA => [premultiply r a, premultiply g a, premultiply b a, a]
  | .BGR => [b, g, r]
  | .BGRA => [b, g, r, a]
  | .bgrA => [premultiply b a, premultiply g a, premultiply r a, a]
  | .ARGB => [a, r, g, b]
  | .Argb => [a, premultiply r a, premultiply g a, premultiply b a]
  | .RGBA_4444 => [(rgba4444 argb).1, (rgba4444 argb).2]
  | .rgbA_4444 =>
    let rgba := applyAlphaMultiply4444 (rgba4444 argb).1 (rgba4444 argb).2
    [rgba.1, rgba.2]
  | .RGB_565 =>
    [((argb >>> 16) &&& 0xf8) ||| ((argb >>> 13) &&& 0x7), ((argb >>> 5) &&& 0xe0) ||| ((argb >>> 3) &&& 0x1f)]

/-- Byte `c` of a converted row: `inData` are its pixels. -/
def convertedByte (outColorspace : WebPCspMode) (inData : ℕ → ℕ) (c : ℕ) : UInt8 :=
  UInt8.ofNat ((convertFromBGRA outColorspace (inData (c / kModeBpp outColorspace))).getD
    (c % kModeBpp outColorspace) 0)

/-- `VP8LConvertFromBGRA`. -/
def vp8lConvertFromBGRA (inData : ℕ → ℕ) (numPixels : ℕ) (outColorspace : WebPCspMode) (mem : Buf)
    (rgba : ℤ) : Buf :=
  mem.writeRow rgba (numPixels * kModeBpp outColorspace) (convertedByte outColorspace inData)

/-- The pixels at `ptr`. -/
def pixelsAt (b : Buf) (ptr : ℕ) (x : ℕ) : ℕ := b.load32 (ptr + 4 * x)

/-! ### Emission -/

/-- `EmitRows`. -/
def emitRows (colorspace : WebPCspMode) (cache : Buf) (rowIn inStride mbW : ℕ) (mem : Buf)
    (out outStride : ℤ) : ℕ → Buf
  | 0 => mem
  | n + 1 =>
    vp8lConvertFromBGRA (pixelsAt cache (rowIn + n * inStride)) mbW colorspace
      (emitRows colorspace cache rowIn inStride mbW mem out outStride n) (out + n * outStride)

/-- The rescaler of a decoder with `scaled_data`, its output row, and the memory
the picture goes to. -/
structure Scaling where
  rescaler : WebPRescaler
  scaledData : Buf
  mem : Buf

/-- The loop of `Export`: at most `n` turns; with the number of lines out. -/
def exportRowsLoop (colorspace : WebPCspMode) (src dstWidth : ℕ) (rgbaStride : ℤ) :
    ℕ → Scaling → ℤ → Option (Scaling × ℕ)
  | n, s, dst =>
    if webPRescalerHasPendingOutput s.rescaler then
      match n with
      | 0 => none
      | n + 1 =>
        match webPRescalerExportRow s.rescaler s.scaledData with
        | none => none
        | some (rescaler, scaledData) =>
          let scaledData := webPMultARGBRow scaledData src true dstWidth
          let mem := vp8lConvertFromBGRA (pixelsAt scaledData src) dstWidth colorspace s.mem dst
          (exportRowsLoop colorspace src dstWidth rgbaStride n ⟨rescaler, scaledData, mem⟩ (dst + rgbaStride)).map
            fun (s, k) => (s, k + 1)
    else some (s, 0)

/-- `Export`. -/
def exportRows (s : Scaling) (colorspace : WebPCspMode) (rgbaStride rgba : ℤ) : Option (Scaling × ℕ) :=
  exportRowsLoop colorspace s.rescaler.dst.toNat s.rescaler.dstWidth rgbaStride s.rescaler.dstHeight s rgba

/-- The loop of `EmitRescaledRowsRGBA`: at most `n` turns; with the number of
lines out. `lineIn` and `rowOut` are the pointers moved on, `linesLeft` are the
lines not yet in. -/
def emitRescaledRowsLoop (colorspace : WebPCspMode) (inStride : ℕ) (outStride : ℤ) :
    ℕ → Scaling → Buf → ℕ → ℕ → ℤ → Option (Scaling × ℕ)
  | n, s, cache, linesLeft, rowIn, rowOut =>
    if linesLeft = 0 then some (s, 0)
    else
      match n with
      | 0 => none
      | n + 1 =>
        let neededLines := webPRescaleNeededLines s.rescaler linesLeft
        if ¬ (0 < neededLines ∧ neededLines ≤ linesLeft) then none
        else
          let cache := webPMultARGBRows cache rowIn inStride s.rescaler.srcWidth false neededLines.toNat
          match webPRescalerImport s.rescaler cache linesLeft rowIn inStride with
          | none => none
          | some (rescaler, linesImported) =>
            if (linesImported : ℤ) ≠ neededLines then none
            else
              match exportRows { s with rescaler } colorspace outStride rowOut with
              | none => none
              | some (s, linesOut) =>
                (emitRescaledRowsLoop colorspace inStride outStride n s cache (linesLeft - linesImported)
                  (rowIn + linesImported * inStride) (rowOut + linesOut * outStride)).map
                  fun (s, k) => (s, linesOut + k)

/-- `EmitRescaledRowsRGBA`. -/
def emitRescaledRowsRGBA (colorspace : WebPCspMode) (s : Scaling) (cache : Buf) (rowIn inStride mbH : ℕ)
    (out outStride : ℤ) : Option (Scaling × ℕ) :=
  emitRescaledRowsLoop colorspace inStride outStride mbH s cache mbH rowIn out

/-! ### Bands -/

/-- `VP8Io`: the picture, the window of it that is wanted, and the current band. -/
structure VP8Io where
  width : ℕ
  height : ℕ
  cropLeft : ℕ
  cropTop : ℕ
  cropRight : ℕ
  cropBottom : ℕ
  mbY : ℕ
  mbW : ℕ
  mbH : ℕ
  useScaling : Bool
  scaledWidth : ℕ
  scaledHeight : ℕ
  fancyUpsampling : Bool

/-- `WebPIoInitFromOptions`, of a source in an RGB mode or a subsampled one; `none` is
false. `no_fancy_upsampling` is never set here. -/
def webPIoInitFromOptions (options : WebPDecoderOptions) (width height : ℕ) (rgb : Bool) : Option VP8Io :=
  let (x, y, w, h) :=
    if options.useCropping then
      -- only snap for YUV420
      (if rgb then options.cropLeft else 2 * (options.cropLeft / 2),
        if rgb then options.cropTop else 2 * (options.cropTop / 2), options.cropWidth, options.cropHeight)
    else (0, 0, (width : ℤ), (height : ℤ))
  if options.useCropping && !webPCheckCropDimensions width height x y w h then none
  else
    let io : VP8Io :=
      { width, height, cropLeft := x.toNat, cropTop := y.toNat, cropRight := (x + w).toNat, cropBottom := (y + h).toNat
        mbY := 0, mbW := w.toNat, mbH := h.toNat, useScaling := options.useScaling
        scaledWidth := 0, scaledHeight := 0, fancyUpsampling := !options.useScaling }
    if options.useScaling then
      (webPRescalerGetScaledDimensions w h options.scaledWidth options.scaledHeight).map fun (w, h) =>
        { io with scaledWidth := w.toNat, scaledHeight := h.toNat }
    else some io

/-- `SetCropWindow` of a band that is not empty: the band `y_start .. y_end` cut to the window, with the
offset of its first pixel; nothing where the band misses the window. -/
def setCropWindow (io : VP8Io) (yStart yEnd pixelStride : ℕ) : Option (VP8Io × ℕ) :=
  let yEnd := min yEnd io.cropBottom
  let inData := if yStart < io.cropTop then (io.cropTop - yStart) * pixelStride else 0
  let yStart := max yStart io.cropTop
  if yStart ≥ yEnd then none
  else
    some ({ io with mbY := yStart - io.cropTop, mbW := io.cropRight - io.cropLeft, mbH := yEnd - yStart },
      inData + io.cropLeft * 4)

/-- `NUM_ARGB_CACHE_ROWS`. -/
def numArgbCacheRows : ℕ := 16

/-- `VP8LDecoder`, what the emission of rows uses. `height` is the picture's. -/
structure VP8LDecoder where
  io : VP8Io
  output : WebPDecBuffer
  height : ℕ
  lastRow : ℕ
  lastOutRow : ℕ
  scaling : Scaling

/-- The output of the rows `last_row .. row` in `ProcessRows`. -/
def emitBand (dec : VP8LDecoder) (cache : Buf) (row : ℕ) : Option VP8LDecoder :=
  let inStride := dec.io.width * 4
  if ¬ dec.io.cropLeft < dec.io.cropRight then none
  else
    match setCropWindow dec.io dec.lastRow row inStride with
    | none => some dec -- Nothing to output (this time).
    | some (io, rowsData) =>
      let colorspace := dec.output.colorspace
      let stride := dec.output.u.stride
      let rgba := dec.output.u.rgba.getD 0 + dec.lastOutRow * stride
      let out :=
        if io.useScaling then emitRescaledRowsRGBA colorspace dec.scaling cache rowsData inStride io.mbH rgba stride
        else
          let mem := emitRows colorspace cache rowsData inStride io.mbW dec.scaling.mem rgba stride io.mbH
          some (⟨dec.scaling.rescaler, dec.scaling.scaledData, mem⟩, io.mbH)
      match out with
      | none => none
      | some (scaling, numRowsOut) =>
        -- Update 'last_out_row'.
        let lastOutRow := dec.lastOutRow + numRowsOut
        if (lastOutRow : ℤ) ≤ dec.output.height then some { dec with io, scaling, lastOutRow } else none

/-- `ProcessRows`, with the transformed rows from `last_row` on in `cache`. -/
def processRows (dec : VP8LDecoder) (cache : Buf) (row : ℕ) : Option VP8LDecoder :=
  let numRows := (row : ℤ) - dec.lastRow
  if ¬ (row ≤ dec.io.cropBottom ∧ numRows ≤ numArgbCacheRows) then none
  else
    match (if numRows > 0 then emitBand dec cache row else some dec) with
    | none => none
    | some dec => if row ≤ dec.height then some { dec with lastRow := row } else none

/-- The size in bytes of what `AllocateAndInitRescaler` allocates: the rescaler,
its work area and the row of pixels. -/
def rescalerMemorySize (outWidth : ℕ) : ℕ := 84 + 2 * 4 * outWidth * 4 + outWidth * 4

theorem scaledData_fits {outWidth : ℕ} (h : checkSizeArgumentsOverflow (rescalerMemorySize outWidth) 1) :
    outWidth * 4 < 4294967296 := by
  have := lt_of_check h
  unfold rescalerMemorySize at this
  omega

/-- `AllocateAndInitRescaler`: the rescaler and its `scaled_data`, of what the
fresh memory holds. -/
def allocateAndInitRescaler (rescaler : WebPRescaler) (garbage : ℕ → UInt8) (io : VP8Io) :
    Option (WebPRescaler × Buf) :=
  if h : checkSizeArgumentsOverflow (rescalerMemorySize io.scaledWidth) 1 then
    (webPRescalerInit rescaler io.mbW io.mbH 0 io.scaledWidth io.scaledHeight 0 4).map fun rescaler =>
      (rescaler, ⟨io.scaledWidth * 4, garbage, scaledData_fits h⟩)
  else none

/-- The initialization of `VP8LDecodeImage`, of a picture that goes to `mem`. -/
def vp8lDecodeImageInit (options : WebPDecoderOptions) (width height : ℕ) (output : WebPDecBuffer) (mem : Buf)
    (rescaler : WebPRescaler) (garbage : ℕ → UInt8) : Option VP8LDecoder :=
  match webPIoInitFromOptions options width height true with
  | none => none
  | some io =>
    if io.useScaling then
      (allocateAndInitRescaler rescaler garbage io).map fun (rescaler, scaledData) =>
        { io, output, height, lastRow := 0, lastOutRow := 0, scaling := ⟨rescaler, scaledData, mem⟩ }
    else some { io, output, height, lastRow := 0, lastOutRow := 0, scaling := ⟨rescaler, mem, mem⟩ }

end WebPlugin
