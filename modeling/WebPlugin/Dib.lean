/-
# The size of a DIB

`PageDecode` computes the row length, the size of the pixels and the size of
the block in 32 bits. They are the sizes of the picture just when the picture
is small enough (`dib_sizes_exact_iff`).
-/
import WebPlugin.Pictures
import WebPlugin.Plugin
import WebPlugin.Files

namespace WebPlugin

open Memory Ledger Words

/-- A row of `w` pixels of three bytes, padded to a multiple of four. -/
def paddedRow (w : ℤ) : ℤ := 4 * ((3 * w + 3) / 4)

/-- It is the least multiple of four that holds the row. -/
theorem paddedRow_spec (w : ℤ) :
    4 ∣ paddedRow w ∧ 3 * w ≤ paddedRow w ∧ ∀ m, 4 ∣ m → 3 * w ≤ m → paddedRow w ≤ m := by
  refine ⟨⟨_, rfl⟩, ?_, ?_⟩
  · unfold paddedRow
    omega
  · rintro m ⟨k, rfl⟩ hm
    unfold paddedRow
    omega

section

variable {w h : ℤ}

theorem dstStride_iff (hw : 0 < w) (hw' : w < 2147483648) :
    dstStride w = paddedRow w ↔ 3 * w + 3 < 2147483648 := by
  constructor
  · intro he
    by_contra hge
    have hlt : dstStride w < 2147483648 := i32_lt _
    have hrow : 2147483648 ≤ paddedRow w := by
      unfold paddedRow
      omega
    omega
  · intro hlt
    have h1 : i32 (w * 3 + 3) = w * 3 + 3 := i32_of_range (by omega) (by omega)
    have h2 : (w * 3 + 3).tdiv 4 = (3 * w + 3) / 4 := by
      rw [Int.tdiv_eq_ediv_of_nonneg (by omega), mul_comm]
    rw [dstStride, h1, h2, paddedRow, mul_comm]
    exact i32_of_range (by omega) (by omega)

theorem paddedRow_pos (hw : 0 < w) : 0 < paddedRow w := by
  unfold paddedRow
  omega

/-- The two sizes, once the row length is exact. -/
theorem sizes_iff (hw : 0 < w) (hh : 0 < h) (hstride : dstStride w = paddedRow w) :
    ((imageSize w h : ℤ) = paddedRow w * h ∧ (dibSize w h : ℤ) = 40 + paddedRow w * h) ↔
      40 + paddedRow w * h < 4294967296 := by
  have hpos : 0 < paddedRow w * h := mul_pos (paddedRow_pos hw) hh
  constructor
  · rintro ⟨-, hd⟩
    have : dibSize w h < 4294967296 := Nat.mod_lt _ (by norm_num)
    omega
  · intro hlt
    have hi : (imageSize w h : ℤ) = paddedRow w * h := by
      rw [imageSize, hstride]
      exact u32_of_range hpos.le (by omega)
    refine ⟨hi, ?_⟩
    rw [dibSize, bitmapInfoHeaderSize]
    omega

end

/-- The size `resolveOutputSize` settles on. -/
theorem resolveOutputSize_range {d : WebPDecoder} (reqW reqH : ℤ) (hs : PictureSize d.width d.height)
    (hw : reqW < 2147483648) (hh : reqH < 2147483648) :
    (0 < (d.resolveOutputSize reqW reqH).1 ∧ (d.resolveOutputSize reqW reqH).1 < 2147483648) ∧
      0 < (d.resolveOutputSize reqW reqH).2 ∧ (d.resolveOutputSize reqW reqH).2 < 2147483648 := by
  have h1 := hs.width
  have h2 := hs.height
  unfold WebPDecoder.resolveOutputSize
  split_ifs <;> dsimp only <;> omega

/-- The sizes `PageDecode` computes are those of the picture, and a picture
whose size is not granted is too big. -/
structure SizesExact (d : WebPDecoder) (nWidth nHeight : ℤ) (w h : ℤ) : Prop where
  stride : dstStride w = paddedRow w ∧ 0 < dstStride w
  image : (imageSize w h : ℤ) = paddedRow w * h
  dib : (dibSize w h : ℤ) = 40 + paddedRow w * h
  refused : ∀ codec env nPage pio heap, env.grants .dib heap (40 + paddedRow w * h).toNat = false →
    (pageDecodeInto codec env d ⟨nPage, nWidth, nHeight⟩ pio heap).code = .tooBig

/-- For a handle that `OpenImage` has made and any size the host asks for, the
sizes are exact just when neither the row length nor the size of the DIB
overflows. -/
theorem dib_sizes_exact_iff {grants : Grants} {d₀ d : WebPDecoder} {bytes : WebPData}
    {heap heap' : Heap ObjectKind} {nWidth nHeight w h : ℤ}
    (hdecode : d₀.decode grants bytes heap = (.returned true, d, heap')) (hw : nWidth < 2 ^ 31)
    (hh : nHeight < 2 ^ 31) (hsize : d.resolveOutputSize nWidth nHeight = (w, h)) :
    SizesExact d nWidth nHeight w h ↔ 3 * w + 3 < 2 ^ 31 ∧ 40 + paddedRow w * h < 2 ^ 32 := by
  obtain ⟨⟨hw0, hw1⟩, hh0, -⟩ := resolveOutputSize_range nWidth nHeight
    (decode_facts hdecode).1.size (by omega) (by omega)
  rw [hsize] at hw0 hw1 hh0
  dsimp only at hw0 hw1 hh0
  constructor
  · rintro ⟨⟨hstride, -⟩, himage, hdib, -⟩
    exact ⟨(dstStride_iff hw0 hw1).mp hstride, (sizes_iff hw0 hh0 hstride).mp ⟨himage, hdib⟩⟩
  · rintro ⟨hrow, htotal⟩
    have hstride := (dstStride_iff hw0 hw1).mpr hrow
    obtain ⟨himage, hdib⟩ := (sizes_iff hw0 hh0 hstride).mpr htotal
    refine ⟨⟨hstride, hstride ▸ paddedRow_pos hw0⟩, himage, hdib, fun codec env nPage pio heap hno => ?_⟩
    rw [show (40 + paddedRow w * h).toNat = dibSize w h by omega] at hno
    simp [pageDecodeInto, hsize, Heap.alloc, hno]

/-- A decoded file with a property that can be evaluated. -/
theorem decode_any (grants : Grants) (d₀ : WebPDecoder) (bytes : WebPData) (heap : Heap ObjectKind)
    (p : WebPDecoder → Bool) (h : (d₀.decode grants bytes heap).1 = .returned true)
    (hp : p (d₀.decode grants bytes heap).2.1) :
    ∃ d heap', d₀.decode grants bytes heap = (.returned true, d, heap') ∧ p d :=
  ⟨_, _, Prod.ext h rfl, hp⟩

/-- Every allocation succeeds. -/
def Grants.all : Grants := fun _ _ _ => true

/-- An animation on a canvas of 64 × 48. -/
def stamp : WebPData := Files.animation 64 48 [{ x := 0, y := 0, w := 64, h := 48 }]

theorem stamp_sizes_exact :
    ∃ d heap, WebPDecoder.decode .all { id := 0 } stamp Heap.empty = (.returned true, d, heap) ∧
    SizesExact d 30 30 30 30 := by
  obtain ⟨d, heap, hdecode, hsize⟩ := decode_any .all { id := 0 } stamp Heap.empty
    (fun d => d.resolveOutputSize 30 30 = (30, 30)) (by decide +kernel)
    (by decide +kernel)
  exact ⟨d, heap, hdecode, (dib_sizes_exact_iff hdecode (by decide) (by decide) (of_decide_eq_true hsize)).mpr
    ⟨by decide, by decide⟩⟩

/-- A canvas of 65536 × 21846, with a small frame. -/
def poster : WebPData := Files.animation 65536 21846 [{ x := 0, y := 0, w := 16, h := 16 }]

/-- Its pixels take 4 GB and 128 KB; the DIB has room for the 128 KB. -/
theorem poster_wraps : ∃ d heap,
    WebPDecoder.decode .all { id := 0 } poster Heap.empty = (.returned true, d, heap) ∧
    d.resolveOutputSize 0 0 = (65536, 21846) ∧ paddedRow 65536 * 21846 = 4295098368 ∧
    dibSize 65536 21846 = 131112 ∧ ¬ SizesExact d 0 0 65536 21846 := by
  obtain ⟨d, heap, hdecode, hsize⟩ := decode_any .all { id := 0 } poster Heap.empty
    (fun d => d.resolveOutputSize 0 0 = (65536, 21846)) (by decide +kernel)
    (by decide +kernel)
  have hdib : dibSize 65536 21846 = 131112 := by decide +kernel
  refine ⟨d, heap, hdecode, of_decide_eq_true hsize, by decide, hdib, fun h => ?_⟩
  have hd := h.dib
  rw [hdib] at hd
  exact absurd hd (by decide)

end WebPlugin
