/-
# Picture files

Files written chunk by chunk, the other way round from the parsers: a still
picture, or a list of frames on a canvas, each a lossless picture of one opaque
colour.
-/
import WebPlugin.Format

namespace WebPlugin.Files

/-- The low `n` bytes of a word, least significant first. -/
def le (n v : ℕ) : List UInt8 := (List.range n).map fun i => UInt8.ofNat (v / 256 ^ i)

/-- A chunk, padded to an even size. -/
def chunk (tag : ℕ) (payload : List UInt8) : List UInt8 :=
  le 4 tag ++ le 4 payload.length ++ payload ++ if payload.length % 2 = 1 then [0] else []

/-- A VP8L stream without transforms whose five prefix codes have one symbol
each: 0 for the colours, 255 for alpha. -/
def solid (w h : ℕ) : List UInt8 :=
  0x2f :: le 4 ((w - 1) ||| (h - 1) <<< 14 ||| 1 <<< 28) ++ [0x88, 0x88, 0xfe, 0x07, 0]

/-- A file with one picture. -/
def still (w h : ℕ) : WebPData :=
  let body := le 4 tagWEBP ++ chunk tagVP8L (solid w h)
  .ofList (le 4 tagRIFF ++ le 4 body.length ++ body)

/-- The header of an ANMF chunk. -/
structure FrameHeader where
  x : ℕ
  y : ℕ
  w : ℕ
  h : ℕ
  duration : ℕ := 100
  background : Bool := false
  noBlend : Bool := false

/-- A frame: an ANMF chunk with its picture. -/
def anmf (f : FrameHeader) : List UInt8 :=
  chunk tagANMF (le 3 (f.x / 2) ++ le 3 (f.y / 2) ++ le 3 (f.w - 1) ++ le 3 (f.h - 1) ++
    le 3 f.duration ++ [(if f.background then 1 else 0) + if f.noBlend then 2 else 0] ++
    chunk tagVP8L (solid f.w f.h))

/-- A file with a VP8X and an ANIM chunk and these frames. -/
def animation (canvasW canvasH : ℕ) (frames : List FrameHeader) : WebPData :=
  let body := le 4 tagWEBP ++
    chunk tagVP8X (le 4 (animationFlag ||| alphaFlag) ++ le 3 (canvasW - 1) ++ le 3 (canvasH - 1)) ++
    chunk tagANIM (le 4 0xffffffff ++ le 2 0) ++ frames.flatMap anmf
  .ofList (le 4 tagRIFF ++ le 4 body.length ++ body)

end WebPlugin.Files
