/-
# Allocation

`src/codec/libwebp/src/utils/utils.h` and `utils.c`: the size checks in front of
`malloc` and `calloc` on a target with a 32-bit `size_t`. The objects of the
program are kept in a ledger by kind; an object whose size does not depend on
the picture counts no bytes. Which requests are granted is left open (`Grants`).
-/
import WebPlugin.Memory
import WebPlugin.Ledger

namespace WebPlugin

open Memory Ledger

/-- The heap objects: the plug-in, the `WebPDecoder` of a handle, its
`frame_delays_`, a `WebPDemuxer`, a `WebPAnimDecoder` with its two canvases, the
buffer `WebPDecode` allocates, and the DIB handed to the host. -/
inductive ObjectKind
  | plugin | decoder | frameDelays | demuxer | animDecoder | canvas | decodeBuffer | dib
  deriving DecidableEq, Repr

/-- Which requests the allocators grant. -/
abbrev Grants := ObjectKind → Heap ObjectKind → ℕ → Bool

/-- `WEBP_MAX_ALLOCABLE_MEMORY` on a 32-bit target. -/
def maxAllocableMemory : ℕ := 2 ^ 31 - 2 ^ 16

/-- `CheckSizeOverflow`: the size is a `size_t`. -/
def checkSizeOverflow (size : ℕ) : Bool := size < 2 ^ 32

/-- `CheckSizeArgumentsOverflow`. -/
def checkSizeArgumentsOverflow (nmemb size : ℕ) : Bool :=
  if nmemb = 0 then true
  else if maxAllocableMemory / nmemb < size then false
  else checkSizeOverflow (nmemb * size % 2 ^ 64)

/-- What passes the check is allocable. -/
theorem mul_le_of_check {nmemb size : ℕ} (h : checkSizeArgumentsOverflow nmemb size) :
    nmemb * size ≤ maxAllocableMemory := by
  unfold checkSizeArgumentsOverflow at h
  split_ifs at h with h0 h1
  · simp [h0]
  · rw [mul_comm]
    exact (Nat.le_div_iff_mul_le (Nat.pos_of_ne_zero h0)).mp (not_lt.mp h1)

theorem lt_of_check {nmemb size : ℕ} (h : checkSizeArgumentsOverflow nmemb size) :
    nmemb * size < 4294967296 :=
  (mul_le_of_check h).trans_lt (by decide)

/-- A block of memory under its name in the ledger. -/
structure Block where
  id : ℕ
  buf : Buf

/-- `WebPSafeMalloc`, with what the fresh memory holds. -/
def webPSafeMalloc (grants : Grants) (garbage : ℕ → UInt8) (k : ObjectKind) (nmemb size : ℕ)
    (heap : Heap ObjectKind) : Option Block × Heap ObjectKind :=
  if h : checkSizeArgumentsOverflow nmemb size then
    match heap.alloc (grants k) k (nmemb * size) with
    | (some id, heap) => (some ⟨id, ⟨nmemb * size, garbage, lt_of_check h⟩⟩, heap)
    | (none, heap) => (none, heap)
  else (none, heap)

/-- `WebPSafeCalloc`. -/
def webPSafeCalloc (grants : Grants) (k : ObjectKind) (nmemb size : ℕ) (heap : Heap ObjectKind) :
    Option Block × Heap ObjectKind :=
  webPSafeMalloc grants (fun _ => 0) k nmemb size heap

end WebPlugin
