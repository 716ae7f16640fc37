/-
# The rescaler

`src/codec/libwebp/src/utils/rescaler_utils.h` and `rescaler_utils.c`, with the
plain C row functions of `src/codec/libwebp/src/dsp/rescaler.c`. Sizes and
increments are natural numbers, the two accumulators integers; `irow` and `frow`
hold 32-bit words. A source row is what its bytes read as (`row`); exported rows
are written to memory at `dst`. An `assert` that fails is `none`.
-/
import WebPlugin.Utils

namespace WebPlugin

open Memory Words

/-- `WEBP_RESCALER_FRAC`. -/
def webPRescalerFrac (x y : ℕ) : ℕ := x * 2 ^ 32 / y % 2 ^ 32

/-- `MULT_FIX`, of 32-bit words: nothing wraps. -/
def multFix (x y : ℕ) : ℕ := (x * y + 2 ^ 31) / 2 ^ 32

/-- `MULT_FIX_FLOOR`. -/
def multFixFloor (x y : ℕ) : ℕ := x * y / 2 ^ 32

/-- `(v > 255) ? 255u : (uint8_t)v` of a word cast to `int`. -/
def clip255 (v : ℕ) : UInt8 := if 255 < i32 v then 255 else UInt8.ofNat v

/-- `WebPRescaler`. -/
structure WebPRescaler where
  xExpand : Bool
  yExpand : Bool
  numChannels : ℕ
  fxScale : ℕ
  fyScale : ℕ
  fxyScale : ℕ
  yAccum : ℤ
  yAdd : ℕ
  ySub : ℕ
  xAdd : ℕ
  xSub : ℕ
  srcWidth : ℕ
  srcHeight : ℕ
  dstWidth : ℕ
  dstHeight : ℕ
  srcY : ℕ
  dstY : ℕ
  dst : ℤ
  dstStride : ℤ
  irow : ℕ → ℕ
  frow : ℕ → ℕ

/-- `WebPRescalerInit`: false leaves the rescaler as it was. `num_channels` is 1
or 4, so the size of the work area is a 64-bit word. -/
def webPRescalerInit (rescaler : WebPRescaler) (srcWidth srcHeight : ℕ) (dst : ℤ) (dstWidth dstHeight : ℕ)
    (dstStride : ℤ) (numChannels : ℕ) : Option WebPRescaler :=
  let xAdd := srcWidth
  let xSub := dstWidth
  let yAdd := srcHeight
  let ySub := dstHeight
  let totalSize := 2 * dstWidth * numChannels * 4
  if !checkSizeOverflow totalSize then none
  else
    let xExpand := decide (srcWidth < dstWidth)
    let yExpand := decide (srcHeight < dstHeight)
    -- for 'x_expand', we use bilinear interpolation
    let xAdd' := if xExpand then xSub - 1 else xAdd
    let xSub' := if xExpand then xAdd - 1 else xSub
    -- vertical scaling parameters
    let yAdd' := if yExpand then yAdd - 1 else yAdd
    let ySub' := if yExpand then ySub - 1 else ySub
    let ratio := dstHeight * 2 ^ 32 / (xAdd' * yAdd')
    some
      { xExpand
        yExpand
        numChannels
        -- fx_scale and fxy_scale are not set where they are not used
        fxScale := if xExpand then rescaler.fxScale else webPRescalerFrac 1 xSub'
        fyScale := if yExpand then webPRescalerFrac 1 xAdd' else webPRescalerFrac 1 ySub'
        fxyScale := if yExpand then rescaler.fxyScale else if ratio ≠ ratio % 2 ^ 32 then 0 else ratio
        yAccum := if yExpand then ySub' else yAdd'
        yAdd := yAdd'
        ySub := ySub'
        xAdd := xAdd'
        xSub := xSub'
        srcWidth
        srcHeight
        dstWidth
        dstHeight
        srcY := 0
        dstY := 0
        dst
        dstStride
        irow := fun _ => 0
        frow := fun _ => 0 }

/-- `WebPRescalerInputDone`. -/
def webPRescalerInputDone (rescaler : WebPRescaler) : Bool := rescaler.srcHeight ≤ rescaler.srcY

/-- `WebPRescalerOutputDone`. -/
def webPRescalerOutputDone (rescaler : WebPRescaler) : Bool := rescaler.dstHeight ≤ rescaler.dstY

/-- `WebPRescalerHasPendingOutput`. -/
def webPRescalerHasPendingOutput (rescaler : WebPRescaler) : Bool :=
  !webPRescalerOutputDone rescaler && rescaler.yAccum ≤ 0

/-- `WebPRescaleNeededLines`. -/
def webPRescaleNeededLines (rescaler : WebPRescaler) (maxNumLines : ℤ) : ℤ :=
  let numLines := Int.tdiv (rescaler.yAccum + rescaler.ySub - 1) rescaler.ySub
  if numLines > maxNumLines then maxNumLines else numLines

/-! ### Row import -/

namespace WebPRescaler

/-- The number of entries of a row: `x_out_max`. -/
def rowLength (wrk : WebPRescaler) : ℕ := wrk.dstWidth * wrk.numChannels

/-- The `while (1)` loop of `WebPRescalerImportRowExpand_C`; at most `n` turns. -/
def expandLoop (wrk : WebPRescaler) (row : ℕ → ℕ) :
    ℕ → ℕ → ℕ → ℤ → ℕ → ℕ → (ℕ → ℕ) → Option (ℕ → ℕ)
  | 0, _, _, _, _, _, _ => none
  | n + 1, xIn, xOut, accum, left, right, frow =>
    let frow := Function.update frow xOut (u32 (right * wrk.xAdd + (left - right) * accum))
    let xOut := xOut + wrk.numChannels
    if xOut ≥ wrk.rowLength then
      -- x_sub is 0 where the source is one pixel wide
      if wrk.xSub = 0 ∨ accum = 0 then some frow else none
    else
      let accum := accum - wrk.xSub
      if accum < 0 then
        let xIn := xIn + wrk.numChannels
        if xIn < wrk.srcWidth * wrk.numChannels then
          wrk.expandLoop row n xIn xOut (accum + wrk.xAdd) right (row xIn) frow
        else none
      else wrk.expandLoop row n xIn xOut accum left right frow

/-- One channel of `WebPRescalerImportRowExpand_C`. -/
def expandChannel (wrk : WebPRescaler) (row : ℕ → ℕ) (frow : ℕ → ℕ) (channel : ℕ) :
    Option (ℕ → ℕ) :=
  let left := row channel
  let right := if wrk.srcWidth > 1 then row (channel + wrk.numChannels) else left
  wrk.expandLoop row wrk.dstWidth (channel + wrk.numChannels) channel wrk.xAdd left right frow

/-- What the source pixels of an output leave behind. -/
structure Taken where
  xIn : ℕ
  sum : ℕ
  base : ℕ
  accum : ℤ

/-- The `while (accum > 0)` loop of `WebPRescalerImportRowShrink_C`; at most `n` turns. -/
def shrinkTake (wrk : WebPRescaler) (row : ℕ → ℕ) : ℕ → Taken → Option Taken
  | n, t =>
    if t.accum > 0 then
      match n with
      | 0 => none
      | n + 1 =>
        if t.xIn < wrk.srcWidth * wrk.numChannels then
          wrk.shrinkTake row n
            { xIn := t.xIn + wrk.numChannels, sum := u32 (t.sum + row t.xIn), base := row t.xIn,
              accum := t.accum - wrk.xSub }
        else none
    else some t

/-- The `while (x_out < x_out_max)` loop of `WebPRescalerImportRowShrink_C`; at
most `n` turns. -/
def shrinkLoop (wrk : WebPRescaler) (row : ℕ → ℕ) :
    ℕ → ℕ → ℕ → ℕ → ℤ → (ℕ → ℕ) → Option (ℕ → ℕ)
  | n, xIn, xOut, sum, accum, frow =>
    if xOut < wrk.rowLength then
      match n with
      | 0 => none
      | n + 1 =>
        match wrk.shrinkTake row wrk.xAdd { xIn, sum, base := 0, accum := accum + wrk.xAdd } with
        | none => none
        | some t =>
          -- Emit next horizontal pixel.
          let frac := u32 (t.base * -t.accum)
          wrk.shrinkLoop row n t.xIn (xOut + wrk.numChannels) (multFix frac wrk.fxScale) t.accum
            (Function.update frow xOut (u32 (t.sum * wrk.xSub - frac)))
    else if accum = 0 then some frow else none

/-- One channel of `WebPRescalerImportRowShrink_C`. -/
def shrinkChannel (wrk : WebPRescaler) (row : ℕ → ℕ) (frow : ℕ → ℕ) (channel : ℕ) :
    Option (ℕ → ℕ) :=
  wrk.shrinkLoop row wrk.dstWidth channel channel 0 0 frow

end WebPRescaler

/-- `WebPRescalerImportRowExpand_C`. -/
def webPRescalerImportRowExpand (wrk : WebPRescaler) (row : ℕ → ℕ) : Option WebPRescaler :=
  if webPRescalerInputDone wrk || !wrk.xExpand then none
  else ((List.range wrk.numChannels).foldlM (wrk.expandChannel row) wrk.frow).map fun frow => { wrk with frow }

/-- `WebPRescalerImportRowShrink_C`. -/
def webPRescalerImportRowShrink (wrk : WebPRescaler) (row : ℕ → ℕ) : Option WebPRescaler :=
  if webPRescalerInputDone wrk || wrk.xExpand then none
  else ((List.range wrk.numChannels).foldlM (wrk.shrinkChannel row) wrk.frow).map fun frow => { wrk with frow }

/-- `WebPRescalerImportRow`. -/
def webPRescalerImportRow (wrk : WebPRescaler) (row : ℕ → ℕ) : Option WebPRescaler :=
  if webPRescalerInputDone wrk then none
  else if !wrk.xExpand then webPRescalerImportRowShrink wrk row
  else webPRescalerImportRowExpand wrk row

/-! ### Row export -/

/-- `WebPRescalerExportRowExpand_C`. `A * frow[x] + B * irow[x]` is a 64-bit word:
`A + B` is `WEBP_RESCALER_ONE`. -/
def webPRescalerExportRowExpand (wrk : WebPRescaler) (mem : Buf) : Option Buf :=
  if webPRescalerOutputDone wrk || 0 < wrk.yAccum || !wrk.yExpand || wrk.ySub = 0 then none
  else if wrk.yAccum = 0 then
    some (mem.writeRow wrk.dst wrk.rowLength fun x => clip255 (multFix (wrk.frow x) wrk.fyScale))
  else
    let b := webPRescalerFrac (-wrk.yAccum).toNat wrk.ySub
    let a := (2 ^ 32 - b) % 2 ^ 32
    some (mem.writeRow wrk.dst wrk.rowLength fun x =>
      let i := a * wrk.frow x + b * wrk.irow x
      let j := (i + 2 ^ 31) / 2 ^ 32 % 2 ^ 32
      clip255 (multFix j wrk.fyScale))

/-- `WebPRescalerExportRowShrink_C`. -/
def webPRescalerExportRowShrink (wrk : WebPRescaler) (mem : Buf) : Option (WebPRescaler × Buf) :=
  let yscale := u32 (wrk.fyScale * -wrk.yAccum)
  if webPRescalerOutputDone wrk || 0 < wrk.yAccum || wrk.yExpand then none
  else if yscale ≠ 0 then
    let frac := fun x => multFixFloor (wrk.frow x) yscale
    some
      ({ wrk with irow := fun x => if x < wrk.rowLength then frac x else wrk.irow x },
        mem.writeRow wrk.dst wrk.rowLength fun x =>
          clip255 (multFix (u32 (wrk.irow x - frac x)) wrk.fxyScale))
  else
    some
      ({ wrk with irow := fun x => if x < wrk.rowLength then 0 else wrk.irow x },
        mem.writeRow wrk.dst wrk.rowLength fun x => clip255 (multFix (wrk.irow x) wrk.fxyScale))

/-- The special case of `WebPRescalerExportRow`, where `fxy_scale` would be
`WEBP_RESCALER_ONE`. -/
def webPRescalerExportRowCopy (wrk : WebPRescaler) (mem : Buf) : Option (WebPRescaler × Buf) :=
  if wrk.srcHeight = wrk.dstHeight ∧ wrk.xAdd = 1 ∧ wrk.srcWidth = 1 ∧ wrk.dstWidth ≤ 2 then
    some
      ({ wrk with irow := fun x => if x < wrk.rowLength then 0 else wrk.irow x },
        mem.writeRow wrk.dst wrk.rowLength fun x => UInt8.ofNat (wrk.irow x))
  else none

/-- `WebPRescalerExportRow`. -/
def webPRescalerExportRow (wrk : WebPRescaler) (mem : Buf) : Option (WebPRescaler × Buf) :=
  if wrk.yAccum ≤ 0 then
    if webPRescalerOutputDone wrk then none
    else
      let exported :=
        if wrk.yExpand then (webPRescalerExportRowExpand wrk mem).map fun mem => (wrk, mem)
        else if wrk.fxyScale ≠ 0 then webPRescalerExportRowShrink wrk mem
        else webPRescalerExportRowCopy wrk mem
      exported.map fun (wrk, mem) =>
        ({ wrk with yAccum := wrk.yAccum + wrk.yAdd, dst := wrk.dst + wrk.dstStride, dstY := wrk.dstY + 1 }, mem)
  else some (wrk, mem)

/-! ### All-in-one calls -/

/-- What the source row at `src` reads as. -/
def sourceRow (mem : Buf) (src : ℤ) (x : ℕ) : ℕ := (mem.get (src + x)).toNat

/-- One turn of the loop of `WebPRescalerImport`. -/
def webPRescalerImportLine (rescaler : WebPRescaler) (row : ℕ → ℕ) : Option WebPRescaler :=
  let rescaler :=
    if rescaler.yExpand then { rescaler with irow := rescaler.frow, frow := rescaler.irow } else rescaler
  (webPRescalerImportRow rescaler row).map fun rescaler =>
    let rescaler :=
      if !rescaler.yExpand then
        -- Accumulate the contribution of the new row.
        { rescaler with irow := fun x =>
            if x < rescaler.rowLength then u32 (rescaler.irow x + rescaler.frow x) else rescaler.irow x }
      else rescaler
    { rescaler with srcY := rescaler.srcY + 1, yAccum := rescaler.yAccum - rescaler.ySub }

/-- `WebPRescalerImport`: with the number of lines imported. -/
def webPRescalerImport (rescaler : WebPRescaler) (mem : Buf) : ℕ → ℤ → ℤ → Option (WebPRescaler × ℕ)
  | 0, _, _ => some (rescaler, 0)
  | n + 1, src, srcStride =>
    if webPRescalerHasPendingOutput rescaler then some (rescaler, 0)
    else
      match webPRescalerImportLine rescaler (sourceRow mem src) with
      | none => none
      | some rescaler =>
        (webPRescalerImport rescaler mem n (src + srcStride) srcStride).map fun (rescaler, k) => (rescaler, k + 1)

end WebPlugin
