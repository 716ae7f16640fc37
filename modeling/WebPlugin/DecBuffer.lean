/-
# Output buffers and their sizes

`src/codec/libwebp/src/dec/buffer_dec.c` and `WebPRescalerGetScaledDimensions`
(`src/codec/libwebp/src/utils/rescaler_utils.c`). Only the RGB modes are
modelled: the planes of the YUV modes are not used by this program. The pointer
`rgba` is an offset into a block of memory, which is passed along with the
buffer; memory that `AllocateBuffer` allocates is a block of its own.
-/
import WebPlugin.Utils
import WebPlugin.Features

namespace WebPlugin

open Memory Ledger Words

/-! ### Data -/

/-- `WEBP_CSP_MODE`, the RGB modes. -/
inductive WebPCspMode
  | RGB | RGBA | BGR | BGRA | ARGB | RGBA_4444 | RGB_565 | rgbA | bgrA | Argb | rgbA_4444
  deriving DecidableEq, Repr

/-- `kModeBpp`: bytes per pixel. -/
def kModeBpp : WebPCspMode → ℕ
  | .RGB | .BGR => 3
  | .RGBA_4444 | .RGB_565 | .rgbA_4444 => 2
  | .RGBA | .BGRA | .ARGB | .rgbA | .bgrA | .Argb => 4

/-- `WebPRGBABuffer`. -/
structure WebPRGBABuffer where
  rgba : Option ℤ := none
  stride : ℤ := 0
  size : ℕ := 0
  deriving DecidableEq, Repr

/-- `WebPDecBuffer`. `isExternalMemory` is 0 or 1: the value 2 for slow memory
is not used. -/
structure WebPDecBuffer where
  colorspace : WebPCspMode := .RGB
  width : ℤ := 0
  height : ℤ := 0
  isExternalMemory : Bool := false
  u : WebPRGBABuffer := {}
  privateMemory : Option ℕ := none
  deriving DecidableEq, Repr

/-- `WebPDecoderOptions`, the fields that decide sizes. -/
structure WebPDecoderOptions where
  useCropping : Bool := false
  cropLeft : ℤ := 0
  cropTop : ℤ := 0
  cropWidth : ℤ := 0
  cropHeight : ℤ := 0
  useScaling : Bool := false
  scaledWidth : ℤ := 0
  scaledHeight : ℤ := 0
  useThreads : Bool := false
  flip : Bool := false
  deriving DecidableEq, Repr

/-- The rows of the picture in memory. -/
def WebPDecBuffer.rows (buffer : WebPDecBuffer) : Rows :=
  ⟨buffer.u.rgba.getD 0, buffer.u.stride, buffer.width.toNat * kModeBpp buffer.colorspace,
    buffer.height.toNat⟩

namespace WebPDecBuffer

/-- The buffer for a picture of `w × h`. -/
def sized (o : WebPDecBuffer) (w h : ℤ) : WebPDecBuffer := { o with width := w, height := h }

section

variable {o : WebPDecBuffer} {w h : ℤ}

@[simp] theorem sized_colorspace : (o.sized w h).colorspace = o.colorspace := by simp only [sized]
@[simp] theorem sized_width : (o.sized w h).width = w := by simp only [sized]
@[simp] theorem sized_height : (o.sized w h).height = h := by simp only [sized]
@[simp] theorem sized_isExternalMemory : (o.sized w h).isExternalMemory = o.isExternalMemory := by
  simp only [sized]
@[simp] theorem sized_u : (o.sized w h).u = o.u := by simp only [sized]
@[simp] theorem sized_privateMemory : (o.sized w h).privateMemory = o.privateMemory := by
  simp only [sized]

end

end WebPDecBuffer

/-! ### Sizes -/

/-- The side `WebPRescalerGetScaledDimensions` computes for one left at 0: the
source's `side`, in proportion to how the `other` side is scaled. -/
def guessSide (side other scaledOther : ℤ) : ℤ :=
  i32 ((u64 (u64 side * u64 scaledOther + u64 other - 1) / u64 other : ℕ))

/-- `WebPRescalerGetScaledDimensions`. -/
def webPRescalerGetScaledDimensions (srcWidth srcHeight scaledWidth scaledHeight : ℤ) :
    Option (ℤ × ℤ) :=
  let maxSize : ℤ := (2 ^ 31 - 1) / 2
  -- if width is unspecified, scale original proportionally to height ratio.
  let width := if scaledWidth = 0 ∧ 0 < srcHeight then guessSide srcWidth srcHeight scaledHeight
    else scaledWidth
  -- if height is unspecified, scale original proportionally to width ratio.
  let height := if scaledHeight = 0 ∧ 0 < srcWidth then guessSide srcHeight srcWidth width
    else scaledHeight
  if width ≤ 0 ∨ height ≤ 0 ∨ maxSize < width ∨ maxSize < height then none
  else some (width, height)

/-- `WebPCheckCropDimensions`. -/
def webPCheckCropDimensions (imageWidth imageHeight x y w h : ℤ) : Bool :=
  ¬ (x < 0 ∨ y < 0 ∨ w ≤ 0 ∨ h ≤ 0) ∧
    ¬ (imageWidth ≤ x ∨ imageWidth < w ∨ imageWidth - x < w ∨
      imageHeight ≤ y ∨ imageHeight < h ∨ imageHeight - y < h)

/-! ### Buffers -/

/-- `MIN_BUFFER_SIZE`: the last row needs no padding. -/
def minBufferSize (width : ℕ) (height stride : ℤ) : ℕ :=
  (u64 stride * u64 (height - 1) + width) % 2 ^ 64

/-- `CheckDecBuffer`. -/
def checkDecBuffer (buffer : WebPDecBuffer) : VP8StatusCode :=
  let stride := i32 |buffer.u.stride|
  let rowSize := u64 buffer.width * kModeBpp buffer.colorspace % 2 ^ 64
  if minBufferSize rowSize buffer.height stride ≤ buffer.u.size ∧
      i32 (buffer.width * kModeBpp buffer.colorspace) ≤ stride ∧ buffer.u.rgba.isSome then .ok
  else .invalidParam

/-- `AllocateBuffer`: the buffer, the memory its `rgba` points into, the heap. -/
def allocateBuffer (grants : Grants) (garbage : ℕ → UInt8) (buffer : WebPDecBuffer) (mem : Buf)
    (heap : Heap ObjectKind) : VP8StatusCode × WebPDecBuffer × Buf × Heap ObjectKind :=
  let w := buffer.width
  let h := buffer.height
  let bpp := kModeBpp buffer.colorspace
  if w ≤ 0 ∨ h ≤ 0 then (.invalidParam, buffer, mem, heap)
  else if !buffer.isExternalMemory ∧ buffer.privateMemory.isNone then
    -- We need memory and it hasn't been allocated yet.
    if 2 ^ 31 ≤ u64 w * bpp then (.invalidParam, buffer, mem, heap)
    else
      let stride := i32 (w * bpp)
      let size := u64 stride * u64 h % 2 ^ 64
      match webPSafeMalloc grants garbage .decodeBuffer size 1 heap with
      | (none, heap) => (.outOfMemory, buffer, mem, heap)
      | (some output, heap) =>
        let buffer := { buffer with
          privateMemory := some output.id
          u := { rgba := some 0, stride := stride, size := u32 size } }
        (checkDecBuffer buffer, buffer, output.buf, heap)
  else (checkDecBuffer buffer, buffer, mem, heap)

/-- `WebPFlipBuffer`. -/
def webPFlipBuffer (buffer : WebPDecBuffer) : WebPDecBuffer :=
  { buffer with u := { buffer.u with
      rgba := buffer.u.rgba.map (· + (buffer.height - 1) * buffer.u.stride)
      stride := -buffer.u.stride } }

/-- The picture size after the options, or nothing when they do not fit it. -/
def applyOptions (width height : ℤ) (options : WebPDecoderOptions) : Option (ℤ × ℤ) :=
  let cropped := if options.useCropping then
      -- the offsets are snapped to even values
      if webPCheckCropDimensions width height (2 * (options.cropLeft / 2)) (2 * (options.cropTop / 2))
        options.cropWidth options.cropHeight then some (options.cropWidth, options.cropHeight)
      else none
    else some (width, height)
  match cropped with
  | none => none
  | some (width, height) =>
    if options.useScaling then webPRescalerGetScaledDimensions width height options.scaledWidth
      options.scaledHeight
    else some (width, height)

/-- `WebPAllocateDecBuffer`. -/
def webPAllocateDecBuffer (grants : Grants) (garbage : ℕ → UInt8) (width height : ℤ)
    (options : WebPDecoderOptions) (buffer : WebPDecBuffer) (mem : Buf) (heap : Heap ObjectKind) :
    VP8StatusCode × WebPDecBuffer × Buf × Heap ObjectKind :=
  if width ≤ 0 ∨ height ≤ 0 then (.invalidParam, buffer, mem, heap)
  else match applyOptions width height options with
    | none => (.invalidParam, buffer, mem, heap)
    | some (width, height) =>
      match allocateBuffer grants garbage (buffer.sized width height) mem heap with
      | (.ok, buffer, mem, heap) =>
        -- Use the stride trick if vertical flip is needed.
        (.ok, if options.flip then webPFlipBuffer buffer else buffer, mem, heap)
      | failed => failed

/-- `WebPFreeDecBuffer`. -/
def webPFreeDecBuffer (buffer : WebPDecBuffer) (heap : Heap ObjectKind) :
    WebPDecBuffer × Heap ObjectKind :=
  ({ buffer with privateMemory := none },
    if buffer.isExternalMemory then heap else heap.release? buffer.privateMemory)

end WebPlugin
