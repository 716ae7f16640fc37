/-
# The container format: bytes, tags and constants

`src/codec/libwebp/src/webp/format_constants.h`, and the little-endian readers
of `src/codec/libwebp/src/utils/utils.h`. A byte string is a pointer with a
size (`WebPData`); a sub-string shares its bytes.
-/
import WebPlugin.Words

namespace WebPlugin

/-- `WebPData`: a pointer into bytes, and a size. -/
structure WebPData where
  bytes : ℕ → UInt8
  size : ℕ

/-- The bytes of a list, as a file. -/
def WebPData.ofList (l : List UInt8) : WebPData := ⟨fun i => l.getD i 0, l.length⟩

/-- `data + n`, with the size left. -/
def WebPData.skip (d : WebPData) (n : ℕ) : WebPData := ⟨fun i => d.bytes (n + i), d.size - n⟩

@[simp] theorem WebPData.skip_size (d : WebPData) (n : ℕ) : (d.skip n).size = d.size - n := rfl

@[simp] theorem WebPData.skip_bytes (d : WebPData) (n i : ℕ) :
    (d.skip n).bytes i = d.bytes (n + i) := rfl

/-! ### Little-endian readers -/

def getLE16 (b : ℕ → UInt8) (i : ℕ) : ℕ := (b i).toNat ||| (b (i + 1)).toNat <<< 8

def getLE24 (b : ℕ → UInt8) (i : ℕ) : ℕ := getLE16 b i ||| (b (i + 2)).toNat <<< 16

def getLE32 (b : ℕ → UInt8) (i : ℕ) : ℕ := getLE16 b i ||| getLE16 b (i + 2) <<< 16

theorem getLE16_lt (b : ℕ → UInt8) (i : ℕ) : getLE16 b i < 2 ^ 16 := by
  refine Nat.or_lt_two_pow ((UInt8.toNat_lt _).trans (by norm_num)) ?_
  have := UInt8.toNat_lt (b (i + 1))
  rw [Nat.shiftLeft_eq]
  omega

theorem getLE24_lt (b : ℕ → UInt8) (i : ℕ) : getLE24 b i < 2 ^ 24 := by
  refine Nat.or_lt_two_pow ((getLE16_lt b i).trans (by norm_num)) ?_
  have := UInt8.toNat_lt (b (i + 2))
  rw [Nat.shiftLeft_eq]
  omega

/-! ### Tags -/

/-- `MKFOURCC`: the chunk tag as a little-endian word. -/
def mkFourcc (a b c d : Char) : ℕ := a.toNat ||| b.toNat <<< 8 ||| c.toNat <<< 16 ||| d.toNat <<< 24

/-- Four bytes at an offset, compared as `memcmp` does: by their word. -/
def isTag (b : ℕ → UInt8) (i : ℕ) (tag : ℕ) : Bool := getLE32 b i == tag

def tagRIFF : ℕ := mkFourcc 'R' 'I' 'F' 'F'
def tagWEBP : ℕ := mkFourcc 'W' 'E' 'B' 'P'
def tagVP8 : ℕ := mkFourcc 'V' 'P' '8' ' '
def tagVP8L : ℕ := mkFourcc 'V' 'P' '8' 'L'
def tagVP8X : ℕ := mkFourcc 'V' 'P' '8' 'X'
def tagALPH : ℕ := mkFourcc 'A' 'L' 'P' 'H'
def tagANIM : ℕ := mkFourcc 'A' 'N' 'I' 'M'
def tagANMF : ℕ := mkFourcc 'A' 'N' 'M' 'F'

/-! ### Sizes -/

def tagSize : ℕ := 4
def chunkHeaderSize : ℕ := 8
def riffHeaderSize : ℕ := 12
def anmfChunkSize : ℕ := 16
def animChunkSize : ℕ := 6
def vp8xChunkSize : ℕ := 10
def vp8FrameHeaderSize : ℕ := 10
def vp8lFrameHeaderSize : ℕ := 5
def vp8lMagicByte : ℕ := 0x2f

/-- `MAX_IMAGE_AREA`: 32-bit max for width x height. -/
def maxImageArea : ℕ := 2 ^ 32

/-- `MAX_CHUNK_PAYLOAD`: adding the header and padding does not overflow. -/
def maxChunkPayload : ℕ := 2 ^ 32 - 1 - 8 - 1

/-! ### VP8X feature flags -/

def animationFlag : ℕ := 0x00000002
def alphaFlag : ℕ := 0x00000010
def allValidFlags : ℕ := 0x0000003e

/-- `!!(flags & flag)`. -/
def hasFlag (flags flag : ℕ) : Bool := flags &&& flag != 0

end WebPlugin
