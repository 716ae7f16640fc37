/-
# Compositing onto the checkerboard

`WebPDecoder::compositeBGRAtoBGR` (`src/codec/WebPDecoder.cpp`): a BGRA picture
onto a light and dark checkerboard, into the rows of a bottom-up 24-bit DIB.
Pixels are read and written through moving pointers, here offsets into the two
blocks; the result also says whether a read left the picture's block and
whether a write left the block from `dst_buffer` on.
-/
import WebPlugin.Memory
import WebPlugin.Rounding

namespace WebPlugin

open Memory Words

def kCheckerCell : ℕ := 8
def kCheckerLight : ℕ := 224
def kCheckerDark : ℕ := 192

/-- The color of the checkerboard at column `x` in the row of cells `cellY`. -/
def checkerColor (x cellY : ℕ) : ℕ :=
  if (x / kCheckerCell + cellY) &&& 1 ≠ 0 then kCheckerDark else kCheckerLight

/-- Alpha-blend with rounding. -/
def blendChannel (s a bg : ℕ) : ℕ :=
  let inv := 255 - a
  let b := s * a + bg * inv
  ((b + 128 + (b >>> 8)) >>> 8) % 256

/-- One byte of the pixel at column `x`, from its channel `s` and alpha `a`. -/
def compositeChannel (s a : UInt8) (x cellY : ℕ) : UInt8 :=
  if a.toNat = 255 then s
  else
    let bg := checkerColor x cellY
    if a.toNat = 0 then UInt8.ofNat bg
    else UInt8.ofNat (blendChannel s.toNat a.toNat bg)

/-- The destination and what was touched outside the two blocks. -/
structure Composited where
  dst : Buf
  strayRead : Bool := false
  strayWrite : Bool := false

/-- The first `x` pixels of a row: `sp` and `dp` are where it starts in the two
blocks, `lo` is the start of the destination. -/
def compositeRow (src : Buf) (lo sp dp : ℤ) (cellY : ℕ) (out : Composited) : ℕ → Composited
  | 0 => out
  | x + 1 =>
    let out := compositeRow src lo sp dp cellY out x
    let sp := sp + 4 * x
    let dp := dp + 3 * x
    { dst := out.dst.writeRow dp 3 fun c =>
        compositeChannel (src.get (sp + c)) (src.get (sp + 3)) x cellY
      strayRead := out.strayRead || !(src.Has sp ∧ src.Has (sp + 3))
      strayWrite := out.strayWrite || dp < lo || !(out.dst.Has dp ∧ out.dst.Has (dp + 2)) }

/-- The first `y` rows, from the bottom row of the destination upward. -/
def compositeRows (src : Buf) (dstBuffer stride w h : ℤ) (out : Composited) : ℕ → Composited
  | 0 => out
  | y + 1 =>
    compositeRow src dstBuffer (u32 (y * w * 4)) (dstBuffer + u32 ((h - 1) * stride) - y * stride)
      (y / kCheckerCell) (compositeRows src dstBuffer stride w h out y) w.toNat

/-- `compositeBGRAtoBGR`, from a picture at the start of its block to
`dst_buffer` in the block `dst`. -/
def compositeBGRAtoBGR (src dst : Buf) (dstBuffer stride w h : ℤ) : Composited :=
  compositeRows src dstBuffer stride w h { dst := dst } h.toNat

end WebPlugin
