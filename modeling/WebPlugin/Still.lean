/-
# Still pictures

`getFrame` decodes a still picture with one call of `WebPDecode`: into the DIB
itself when it has no alpha, else into memory that `WebPDecode` allocates and
from there onto the checkerboard. Memory of its own fits the picture
(`allocateBuffer_own`), so the call goes one of four ways (`DecodedOwn`). An
opaque picture comes out the same on both paths (`static_paths_agree`).
-/
import WebPlugin.Block
import WebPlugin.Checkerboard
import WebPlugin.Dib

namespace WebPlugin

open Memory Ledger Words WebPDecBuffer

/-! ### WebPDecode into memory of its own -/

/-- The buffer with the memory `AllocateBuffer` gives it. -/
def WebPDecBuffer.owning (o : WebPDecBuffer) (id : ℕ) : WebPDecBuffer :=
  { o with
    privateMemory := some id
    u := ⟨some 0, o.width * kModeBpp o.colorspace,
      (o.width * kModeBpp o.colorspace * o.height).toNat⟩ }

theorem kModeBpp_pos (mode : WebPCspMode) : 1 ≤ kModeBpp mode ∧ kModeBpp mode ≤ 4 := by
  cases mode <;> decide

section

variable {o : WebPDecBuffer} (id : ℕ)

theorem owning_rows : (o.owning id).rows =
    ⟨0, o.width * kModeBpp o.colorspace, o.width.toNat * kModeBpp o.colorspace, o.height.toNat⟩ := rfl

/-- The rows fill the block. -/
theorem owning_inside {n : ℕ} (hw : 0 < o.width)
    (hn : (n : ℤ) = o.width * kModeBpp o.colorspace * o.height) : (o.owning id).rows.Inside n := by
  intro j hj
  rw [owning_rows] at hj ⊢
  have hrow : 0 ≤ o.width * (kModeBpp o.colorspace : ℤ) := by positivity
  have hlast : (j + 1 : ℤ) * (o.width * kModeBpp o.colorspace) ≤
      o.height * (o.width * kModeBpp o.colorspace) := mul_le_mul_of_nonneg_right (by simp only at hj; omega) hrow
  have hj0 : 0 ≤ (j : ℤ) * (o.width * kModeBpp o.colorspace) := by positivity
  right
  simp only [Rows.start]
  push_cast
  rw [Int.toNat_of_nonneg hw.le, hn]
  constructor <;> linarith

/-- Memory of its own has the size that is checked. -/
theorem checkDecBuffer_owning (hw : 0 < o.width) (hh : 0 < o.height)
    (hrow : o.width * kModeBpp o.colorspace < 2147483648)
    (hall : o.width * kModeBpp o.colorspace * o.height < 4294967296) :
    checkDecBuffer (o.owning id) = .ok := by
  have hb : (1 : ℤ) ≤ kModeBpp o.colorspace := by exact_mod_cast (kModeBpp_pos o.colorspace).1
  have hpos : 0 < o.width * (kModeBpp o.colorspace : ℤ) := by positivity
  have hwle : o.width ≤ o.width * kModeBpp o.colorspace := le_mul_of_one_le_right hw.le hb
  have hhle : o.height ≤ o.width * kModeBpp o.colorspace * o.height := le_mul_of_one_le_left hh.le hpos
  generalize hr : o.width * (kModeBpp o.colorspace : ℤ) = r at *
  have hstride : i32 |r| = r := by
    rw [abs_of_pos hpos]
    exact i32_of_range (by omega) hrow
  have hint : i32 r = r := i32_of_range (by omega) hrow
  have hsize : ((u64 o.width * kModeBpp o.colorspace % 2 ^ 64 : ℕ) : ℤ) = r := by
    have := u64_of_range hw.le (by omega)
    push_cast
    rw [this, hr]
    exact Int.emod_eq_of_lt hpos.le (by omega)
  have hmin : (minBufferSize (u64 o.width * kModeBpp o.colorspace % 2 ^ 64) o.height r : ℤ) =
      r * o.height := by
    have h1 := u64_of_range hpos.le (by omega)
    have h2 := u64_of_range (show 0 ≤ o.height - 1 by omega) (by omega)
    have h3 : r * (o.height - 1) + r = r * o.height := by ring
    rw [minBufferSize]
    push_cast at hsize ⊢
    rw [h1, h2, hsize, h3]
    exact Int.emod_eq_of_lt (by positivity) (by omega)
  unfold checkDecBuffer
  simp only [WebPDecBuffer.owning, hr, hstride, hint, le_refl, Option.isSome_some, and_true]
  rw [if_pos (by omega)]

end

section

variable {grants : Grants} {garbage : ℕ → UInt8} {o : WebPDecBuffer} {mem : Buf} {heap : Heap ObjectKind}

variable (grants garbage o mem heap) in
/-- Memory of its own: refused, or a block that fits the picture. -/
theorem allocateBuffer_own (hext : o.isExternalMemory = false) (hpriv : o.privateMemory = none)
    (hwlt : o.width < 4294967296) (hhlt : o.height < 4294967296) :
    (∃ status heap', status ≠ .ok ∧ heap.Keeps heap' ∧
      allocateBuffer grants garbage o mem heap = (status, o, mem, heap')) ∨
    ∃ id buf heap', 0 < o.width ∧ 0 < o.height ∧
      (buf.size : ℤ) = o.width * kModeBpp o.colorspace * o.height ∧ buf.size ≤ maxAllocableMemory ∧
      heap.alloc (grants .decodeBuffer) .decodeBuffer buf.size = (some id, heap') ∧
      checkDecBuffer (o.owning id) = .ok ∧
      allocateBuffer grants garbage o mem heap = (.ok, o.owning id, buf, heap') := by
  unfold allocateBuffer
  simp only [hext, hpriv, Bool.not_false, Option.isNone_none, and_self, if_true]
  split_ifs with hpos hrow
  · exact .inl ⟨_, _, by decide, .refl heap, rfl⟩
  · exact .inl ⟨_, _, by decide, .refl heap, rfl⟩
  · have hb := kModeBpp_pos o.colorspace
    have hw : 0 < o.width := by omega
    have hh0 : 0 < o.height := by omega
    have hb1 : (1 : ℤ) ≤ kModeBpp o.colorspace := by exact_mod_cast hb.1
    have hlt : o.width * (kModeBpp o.colorspace : ℤ) < 2147483648 := by
      have := u64_of_range hw.le (by omega)
      rw [← this]
      exact_mod_cast not_le.mp hrow
    have hpos' : 0 < o.width * (kModeBpp o.colorspace : ℤ) := by positivity
    have hsize : ((u64 (i32 (o.width * kModeBpp o.colorspace)) * u64 o.height % 2 ^ 64 : ℕ) : ℤ) =
        o.width * kModeBpp o.colorspace * o.height := by
      have hle : o.width * kModeBpp o.colorspace * o.height ≤ 2147483648 * 4294967296 :=
        mul_le_mul hlt.le hhlt.le hh0.le (by norm_num)
      rw [i32_of_range (by omega) hlt]
      push_cast
      rw [u64_of_range hpos'.le (by omega), u64_of_range hh0.le (by omega)]
      exact Int.emod_eq_of_lt (by positivity) (by omega)
    have hstride := i32_of_range (by omega) hlt
    split
    · rename_i heap' hm
      exact .inl ⟨_, _, by decide, webPSafeMalloc_none hm, rfl⟩
    · rename_i block heap' hm
      obtain ⟨hn, -, hmax, ha⟩ := webPSafeMalloc_some hm
      rw [mul_one] at hn hmax ha
      have hn' : (block.buf.size : ℤ) = o.width * kModeBpp o.colorspace * o.height := by rw [hn, hsize]
      have hle : o.width * kModeBpp o.colorspace * o.height < 4294967296 := by
        rw [← hn']
        exact_mod_cast (hn ▸ hmax : block.buf.size ≤ maxAllocableMemory).trans_lt (by decide)
      have hcheck := checkDecBuffer_owning block.id hw hh0 hlt hle
      have hown : ({ o with
          privateMemory := some block.id
          u := ⟨some 0, i32 (o.width * kModeBpp o.colorspace),
            u32 (u64 (i32 (o.width * kModeBpp o.colorspace)) * u64 o.height % 2 ^ 64 : ℕ)⟩ } :
          WebPDecBuffer) = o.owning block.id := by
        rw [hsize, hstride, u32_toNat (by positivity) hle]
        rfl
      refine .inr ⟨block.id, block.buf, heap', hw, hh0, hn', hn ▸ hmax, hn ▸ ha, hcheck, ?_⟩
      simp only [hext] at hown
      rw [hown, hcheck]

end

/-- The ways a call of `WebPDecode` goes that allocates its own memory:
refused before the codec writes, broken off while it writes, or done. -/
inductive DecodedOwn (codec : Codec) (env : Env) (data : WebPData) (w h : ℤ) (config : WebPDecoderConfig)
    (heap : Heap ObjectKind) : Decoded → Prop
  | refused {status : VP8StatusCode} {output : WebPDecBuffer} {mem : Buf} {heap' : Heap ObjectKind}
      (bad : status ≠ .ok) (free : output.privateMemory = none) (kept : heap.Keeps heap') :
      DecodedOwn codec env data w h config heap ⟨status, output, mem, heap', none⟩
  | broken {w' h' : ℤ} {id : ℕ} {buf : Buf} {heap' : Heap ObjectKind} {write : Rows → ℕ → Option UInt8}
      (size : applyOptions w h config.options = some (w', h')) (width : 0 < w')
      (fits : (buf.size : ℤ) = w' * kModeBpp config.output.colorspace * h')
      (alloc : heap.alloc (env.grants .decodeBuffer) .decodeBuffer buf.size = (some id, heap'))
      (image : env.run.image = some write) :
      DecodedOwn codec env data w h config heap ⟨.bitstreamError,
        { (config.output.sized w' h').owning id with privateMemory := none },
        buf.overlay (write ((config.output.sized w' h').owning id).rows), heap'.release id,
        some ((config.output.sized w' h').owning id).rows⟩
  | done {w' h' : ℤ} {id : ℕ} {buf : Buf} {heap' : Heap ObjectKind} (header : env.run.header = true)
      (image : env.run.image = none) (size : applyOptions w h config.options = some (w', h'))
      (width : 0 < w') (height : 0 < h')
      (fits : (buf.size : ℤ) = w' * kModeBpp config.output.colorspace * h')
      (small : buf.size ≤ maxAllocableMemory)
      (alloc : heap.alloc (env.grants .decodeBuffer) .decodeBuffer buf.size = (some id, heap')) :
      DecodedOwn codec env data w h config heap ⟨.ok, (config.output.sized w' h').owning id,
        buf.writeRows ((config.output.sized w' h').owning id).rows
          (codec.sample data config.options config.output.colorspace), heap',
        some ((config.output.sized w' h').owning id).rows⟩

section

variable {codec : Codec} {env : Env} {data : WebPData} {w h : ℤ} {config : WebPDecoderConfig} {mem : Buf}
  {heap : Heap ObjectKind}

/-- Sizes of at most an `int`. -/
theorem applyOptions_lt {w' h' : ℤ} (hw : w < 4294967296) (hh : h < 4294967296)
    (hcrop : config.options.useCropping = false)
    (ha : applyOptions w h config.options = some (w', h')) : w' < 4294967296 ∧ h' < 4294967296 := by
  unfold applyOptions at ha
  simp only [hcrop, Bool.false_eq_true, if_false] at ha
  split_ifs at ha
  · obtain ⟨-, -, h1, h2⟩ := webPRescaler_some ha
    omega
  · cases ha
    exact ⟨hw, hh⟩

/-- A failed call with no memory of its own. -/
theorem failed_free {o : WebPDecBuffer} {status : VP8StatusCode} {heap' : Heap ObjectKind}
    (hbad : status ≠ .ok) (hpriv : o.privateMemory = none) (hk : heap.Keeps heap') :
    DecodedOwn codec env data w h config heap (.failed status o mem heap') := by
  refine .refused hbad rfl ?_
  rw [hpriv]
  split_ifs
  · exact hk
  · exact hk

/-- A failed call releases its memory. -/
theorem failed_own {o : WebPDecBuffer} (hext : o.isExternalMemory = false) (status : VP8StatusCode)
    (id : ℕ) (rows : Option Rows) : Decoded.failed status (o.owning id) mem heap rows =
      ⟨status, { o.owning id with privateMemory := none }, mem, heap.release id, rows⟩ := by
  have h : (o.owning id).isExternalMemory = false := hext
  simp only [Decoded.failed, webPFreeDecBuffer, h, Bool.false_eq_true, if_false]
  rfl

variable (codec env config mem heap) in
theorem webPDecode_own (hsize : ∀ g, webPParseHeaders data = (.ok, g) → g.width = w ∧ g.height = h)
    (hw : w < 4294967296) (hh : h < 4294967296) (hcrop : config.options.useCropping = false)
    (hflip : config.options.flip = false) (hext : config.output.isExternalMemory = false)
    (hpriv : config.output.privateMemory = none) :
    DecodedOwn codec env data w h config heap (webPDecode codec env data config mem heap) := by
  unfold webPDecode
  rcases hf : webPGetFeatures data with ⟨status, f⟩
  have bad : ∀ {status}, status ≠ .ok →
      DecodedOwn codec env data w h config heap ⟨status, config.output, mem, heap, none⟩ :=
    fun hbad => .refused hbad hpriv (.refl heap)
  cases status
  case ok =>
    dsimp only
    unfold decodeInto
    rcases hg : webPParseHeaders data with ⟨status, g⟩
    cases status
    case ok =>
      obtain ⟨rfl, rfl⟩ := hsize g hg
      dsimp only
      cases hrun : env.run.header
      · exact failed_free (by decide) hpriv (.refl heap)
      · unfold webPAllocateDecBuffer
        simp only [Bool.not_true, Bool.false_eq_true, if_false, hflip]
        split_ifs with hpos
        · exact failed_free (by decide) hpriv (.refl heap)
        cases ha : applyOptions g.width g.height config.options with
        | none => exact failed_free (by decide) hpriv (.refl heap)
        | some size =>
          obtain ⟨w', h'⟩ := size
          obtain ⟨hw', hh'⟩ := applyOptions_lt hw hh hcrop ha
          dsimp only
          rcases allocateBuffer_own env.grants env.garbage (config.output.sized w' h') mem heap
              (by simpa using hext) (by simpa using hpriv) (by simpa using hw') (by simpa using hh') with
            ⟨status, heap', hbad, hk, he⟩ | ⟨id, buf, heap', hw0, hh0, hn, hmax, halloc, -, he⟩
          · rw [he]
            cases status
            case ok => exact absurd rfl hbad
            all_goals exact failed_free hbad (by simpa using hpriv) hk
          · rw [he]
            simp only [sized_width, sized_height, sized_colorspace] at hw0 hh0 hn
            cases himg : env.run.image with
            | some write =>
              dsimp only
              rw [failed_own (by simpa using hext)]
              exact .broken ha hw0 hn halloc himg
            | none => exact .done hrun himg ha hw0 hh0 hn hmax halloc
    all_goals exact bad (by decide)
  all_goals exact bad (by decide)

end

/-! ### getFrame for a still picture -/

namespace WebPDecoder

/-- The configuration of a still picture without alpha. -/
def directConfig (d : WebPDecoder) (dst stride outW outH : ℤ) : WebPDecoderConfig :=
  ⟨dibBuffer dst stride outH, staticOptions (outW ≠ d.width ∨ outH ≠ d.height) outW outH⟩

/-- The configuration of a still picture with alpha. -/
def alphaConfig (d : WebPDecoder) (outW outH : ℤ) : WebPDecoderConfig :=
  ⟨{ colorspace := .BGRA }, staticOptions (outW ≠ d.width ∨ outH ≠ d.height) outW outH⟩

/-- A decoder for a still picture, and what its data decodes to. -/
structure StillFacts (d : WebPDecoder) : Prop where
  size : PictureSize d.width d.height
  headers : ∀ g, webPParseHeaders d.srcBytes = (.ok, g) → g.width = d.width ∧ g.height = d.height

end WebPDecoder

theorem DecoderFacts.still_facts {d : WebPDecoder} {bytes : WebPData} (h : DecoderFacts d bytes) :
    d.StillFacts where
  size := h.size
  headers g hg := by
    obtain ⟨f, hf, hw, hh, -⟩ := h.features
    obtain ⟨h1, h2⟩ := headers_agree hf (h.source ▸ hg)
    exact ⟨by rw [hw, h1], by rw [hh, h2]⟩

section

variable {d : WebPDecoder} {outW outH : ℤ}

/-- A still picture is decoded to the size asked for. -/
theorem staticOptions_size {w' h' : ℤ} (hW : 0 < outW) (hH : 0 < outH)
    (ha : applyOptions d.width d.height
      (WebPDecoder.staticOptions (outW ≠ d.width ∨ outH ≠ d.height) outW outH) = some (w', h')) :
    w' = outW ∧ h' = outH := by
  unfold applyOptions WebPDecoder.staticOptions at ha
  by_cases hs : outW ≠ d.width ∨ outH ≠ d.height
  · simp only [hs, decide_true, Bool.false_eq_true, if_false, if_true, webPRescalerGetScaledDimensions] at ha
    rw [if_neg (show ¬ (outW = 0 ∧ 0 < d.height) by omega),
      if_neg (show ¬ (outH = 0 ∧ 0 < d.width) by omega)] at ha
    split_ifs at ha
    cases ha
    exact ⟨rfl, rfl⟩
  · simp only [hs, decide_false, Bool.false_eq_true, if_false] at ha
    cases ha
    simp only [not_or, not_not] at hs
    exact ⟨hs.1.symm, hs.2.symm⟩

end

/-- The pixels `WebPDecode` allocates and fills for a picture of `w × h`. -/
def ownPixels (buf : Buf) (w h : ℤ) (f : ℕ → ℕ → UInt8) : Buf :=
  buf.writeRows ⟨0, 4 * w, 4 * w.toNat, h.toNat⟩ f

section

variable {codec : Codec} {env : Env} {d : WebPDecoder} {mem : Buf} {dst stride outW outH : ℤ}
  {heap : Heap ObjectKind}

/-- A picture without alpha: the rows of the DIB, all of them when it
succeeds. -/
structure GotDirect (codec : Codec) (env : Env) (d : WebPDecoder) (mem : Buf) (dst stride outW outH : ℤ)
    (heap : Heap ObjectKind) (got : Got) : Prop where
  decoder : got.decoder = d
  heap : got.heap = heap
  size : got.dst.size = mem.size
  strays : got.strays = {} ∨ (∃ g, webPParseHeaders d.srcBytes = (.ok, g)) ∧
    got.strays = { dib := rowsLeave (dibRows dst stride outW outH) dst mem.size }
  done : got.ok → got.dst = mem.writeRows (dibRows dst stride outW outH)
    (codec.sample d.srcBytes (d.directConfig dst stride outW outH).options .BGR)

/-- The rows accepted for a picture without alpha are those of the DIB. -/
theorem directConfig_accepted {o : WebPDecBuffer} (hW : 0 < outW) (hH : 0 < outH)
    (ha : acceptedBuffer d.width d.height (d.directConfig dst stride outW outH) = some o) :
    o.rows = dibRows dst stride outW outH ∧ o.colorspace = .BGR ∧ o.isExternalMemory = true := by
  unfold acceptedBuffer at ha
  split at ha
  · cases ha
  · rename_i w' h' hsize
    obtain ⟨rfl, rfl⟩ := staticOptions_size hW hH hsize
    split_ifs at ha
    cases ha
    refine ⟨?_, rfl, rfl⟩
    rw [dibRows, Nat.mul_comm]
    rfl

variable (codec env mem heap) in
/-- Data whose headers do not parse is not decoded. -/
theorem webPDecode_unparsed {data : WebPData} (config : WebPDecoderConfig)
    (hg : ∀ g, webPParseHeaders data ≠ (.ok, g)) : ∃ status, status ≠ .ok ∧
      webPDecode codec env data config mem heap = ⟨status, config.output, mem, heap, none⟩ := by
  unfold webPDecode decodeInto
  rcases hf : webPGetFeatures data with ⟨status, f⟩
  rcases hp : webPParseHeaders data with ⟨status', g⟩
  cases status
  case ok =>
    cases status'
    case ok => exact absurd hp (hg g)
    all_goals exact ⟨_, by decide, rfl⟩
  all_goals exact ⟨_, by decide, rfl⟩

variable (codec env mem dst stride heap) in
theorem getStatic_direct (hd : d.StillFacts) (hfeat : (webPGetFeatures d.srcBytes).1 = .ok)
    (halpha : d.hasAlpha = false) (hW : 0 < outW) (hH : 0 < outH) :
    GotDirect codec env d mem dst stride outW outH heap
      (d.getStatic codec env mem dst stride outW outH heap) := by
  have hget : d.getStatic codec env mem dst stride outW outH heap =
      let r := webPDecode codec env d.srcBytes (d.directConfig dst stride outW outH) mem heap
      ⟨r.status = .ok, d, r.mem, (webPFreeDecBuffer r.output r.heap).2,
        { dib := r.rows.any fun rows => rowsLeave rows dst mem.size }⟩ := by
    rw [WebPDecoder.getStatic, halpha]
    rfl
  have hfree : ∀ {o : WebPDecBuffer}, o.isExternalMemory = true → (webPFreeDecBuffer o heap).2 = heap :=
    fun he => by rw [webPFreeDecBuffer, if_pos he]
  rw [hget]
  dsimp only
  by_cases hg : ∃ g, webPParseHeaders d.srcBytes = (.ok, g)
  · obtain ⟨g, hg'⟩ := hg
    obtain ⟨hw, hh⟩ := hd.headers g hg'
    have hr := webPDecode_external codec env (d.directConfig dst stride outW outH) mem heap ⟨hfeat, g, hg', hw, hh⟩
      hd.size.width.1 hd.size.height.1 rfl rfl rfl rfl
    generalize webPDecode codec env d.srcBytes (d.directConfig dst stride outW outH) mem heap = r at hr
    cases hr with
    | refused why bad kind =>
      exact ⟨rfl, hfree (kind.2.1.trans rfl), rfl, .inl (by simp), fun hok => absurd (of_decide_eq_true hok) bad⟩
    | broken header accepted image =>
      obtain ⟨hrows, -, hext⟩ := directConfig_accepted hW hH accepted
      exact ⟨rfl, hfree hext, by simp, .inr ⟨⟨g, hg'⟩, by simp [hrows]⟩, fun hok => by simp at hok⟩
    | done header accepted image =>
      obtain ⟨hrows, hmode, hext⟩ := directConfig_accepted hW hH accepted
      exact ⟨rfl, hfree hext, by simp, .inr ⟨⟨g, hg'⟩, by simp [hrows]⟩, fun _ => by rw [hrows, hmode]⟩
  · obtain ⟨status, hbad, he⟩ := webPDecode_unparsed codec env mem heap
      (d.directConfig dst stride outW outH) (not_exists.mp hg)
    rw [he]
    exact ⟨rfl, @hfree (d.directConfig dst stride outW outH).output rfl, rfl, .inl (by simp),
      fun hok => absurd (of_decide_eq_true hok) hbad⟩

/-- A picture with alpha: composited from a block of its own. -/
structure GotComposited (codec : Codec) (env : Env) (d : WebPDecoder) (mem : Buf)
    (dst stride outW outH : ℤ) (heap : Heap ObjectKind) (got : Got) : Prop where
  decoder : got.decoder = d
  kept : heap.Keeps got.heap
  failed : got.ok = false → got.dst = mem ∧ got.strays = {}
  done : got.ok → ∃ buf g, webPParseHeaders d.srcBytes = (.ok, g) ∧ (buf.size : ℤ) = 4 * outW * outH ∧
    buf.size ≤ maxAllocableMemory ∧
    applyOptions d.width d.height (d.alphaConfig outW outH).options = some (outW, outH) ∧
    got.dst = (compositeBGRAtoBGR (ownPixels buf outW outH
      (codec.sample d.srcBytes (d.alphaConfig outW outH).options .BGRA)) mem dst stride outW outH).dst ∧
    got.strays = { dib := (compositeBGRAtoBGR (ownPixels buf outW outH
      (codec.sample d.srcBytes (d.alphaConfig outW outH).options .BGRA)) mem dst stride outW outH).strayWrite }

variable (codec env mem dst stride heap) in
theorem getStatic_composited (hd : d.StillFacts) (halpha : d.hasAlpha = true) (hW : 0 < outW)
    (hH : 0 < outH) : GotComposited codec env d mem dst stride outW outH heap
      (d.getStatic codec env mem dst stride outW outH heap) := by
  have hget : d.getStatic codec env mem dst stride outW outH heap =
      (fun r : Decoded =>
        if r.status = .ok then
          ⟨true, d, (compositeBGRAtoBGR r.mem mem dst stride outW outH).dst,
            (webPFreeDecBuffer r.output r.heap).2,
            { read := (compositeBGRAtoBGR r.mem mem dst stride outW outH).strayRead
              dib := (compositeBGRAtoBGR r.mem mem dst stride outW outH).strayWrite
              canvas := r.stray }⟩
        else ⟨false, d, mem, (webPFreeDecBuffer r.output r.heap).2, { canvas := r.stray }⟩)
      (webPDecode codec env d.srcBytes (d.alphaConfig outW outH) mem heap) := by
    rw [WebPDecoder.getStatic, halpha]
    rfl
  rw [hget]
  have hw := hd.size.width
  have hh := hd.size.height
  by_cases hg : ∃ g, webPParseHeaders d.srcBytes = (.ok, g)
  · obtain ⟨g, hg⟩ := hg
    have hr :=
      webPDecode_own codec env (d.alphaConfig outW outH) mem heap hd.headers (by omega) (by omega) rfl rfl rfl rfl
    generalize webPDecode codec env d.srcBytes (d.alphaConfig outW outH) mem heap = r at hr
    cases hr with
    | @refused status output _ heap' bad free kept =>
      have hfree : heap.Keeps (webPFreeDecBuffer output heap').2 := by
        rw [webPFreeDecBuffer, free]
        split_ifs <;> exact kept
      dsimp only
      rw [if_neg bad]
      exact ⟨rfl, hfree, fun _ => ⟨rfl, by simp [Decoded.stray]⟩, fun hok => by cases hok⟩
    | @broken w' h' id buf heap' write size width fits alloc image =>
      have hin : (((d.alphaConfig outW outH).output.sized w' h').owning id).rows.Inside buf.size :=
        owning_inside id width (by simpa using fits)
      have hstray : Decoded.stray ⟨.bitstreamError,
          { ((d.alphaConfig outW outH).output.sized w' h').owning id with privateMemory := none },
          buf.overlay (write (((d.alphaConfig outW outH).output.sized w' h').owning id).rows),
          heap'.release id, some (((d.alphaConfig outW outH).output.sized w' h').owning id).rows⟩ = false :=
        Decoded.stray_eq_false rfl hin
      dsimp only
      rw [if_neg (by decide), hstray]
      exact ⟨rfl, .of_granted alloc, fun _ => ⟨rfl, rfl⟩, fun hok => by cases hok⟩
    | @done w' h' id buf heap' header image size width height fits small alloc =>
      obtain ⟨rfl, rfl⟩ := staticOptions_size hW hH size
      have hin : (((d.alphaConfig w' h').output.sized w' h').owning id).rows.Inside buf.size :=
        owning_inside id width (by simpa using fits)
      have hrows : (((d.alphaConfig w' h').output.sized w' h').owning id).rows =
          ⟨0, 4 * w', 4 * w'.toNat, h'.toNat⟩ := by
        rw [owning_rows, Int.mul_comm 4, Nat.mul_comm 4]
        rfl
      have hn : (buf.size : ℤ) = 4 * w' * h' := by
        rw [fits, mul_comm 4]
        rfl
      rw [hrows] at hin ⊢
      dsimp only
      rw [if_pos rfl]
      refine ⟨rfl, .of_granted alloc, fun hok => (by cases hok),
        fun _ => ⟨buf, g, hg, hn, small, size, rfl, ?_⟩⟩
      rw [Strays.mk.injEq]
      refine ⟨rfl, rfl, composite_strayRead width.le (by simp [hn]), ?_⟩
      exact Decoded.stray_eq_false rfl (by simpa using hin)
  · obtain ⟨status, hbad, he⟩ := webPDecode_unparsed codec env mem heap
      (d.alphaConfig outW outH) (not_exists.mp hg)
    rw [he]
    dsimp only
    rw [if_neg hbad]
    exact ⟨rfl, .refl heap, fun _ => ⟨rfl, rfl⟩, fun hok => by cases hok⟩

/-- The rows of a DIB are accepted. -/
theorem checkDecBuffer_dib {w h : ℤ} (hw : 0 < w) (hh : 0 < h) (hstride : 3 * w ≤ stride)
    (hs : stride < 2147483648) (hall : stride * h < 4294967296) :
    checkDecBuffer ((WebPDecoder.dibBuffer dst stride h).sized w h) = .ok := by
  have habs : i32 |-stride| = stride := by
    rw [abs_neg, abs_of_nonneg (by omega)]
    exact i32_of_range (by omega) hs
  have hint : i32 (w * 3) = w * 3 := i32_of_range (by omega) (by omega)
  have hpos : 0 ≤ stride * (h - 1) := mul_nonneg (by omega) (by omega)
  have hlast : stride * (h - 1) = stride * h - stride := by ring
  have hhle : h ≤ stride * h := le_mul_of_one_le_left hh.le (by omega)
  have h1 := u64_of_range (show 0 ≤ stride by omega) (by omega)
  have h2 := u64_of_range (show 0 ≤ h - 1 by omega) (by omega)
  have hsize : (u32 (stride * h) : ℤ) = stride * h := u32_of_range (by omega) hall
  have hrow : ((u64 w * 3 % 2 ^ 64 : ℕ) : ℤ) = 3 * w := by
    have := u64_of_range hw.le (by omega)
    omega
  have hmin : (minBufferSize (u64 w * 3 % 2 ^ 64) h stride : ℤ) = stride * (h - 1) + 3 * w := by
    rw [minBufferSize]
    push_cast at hrow ⊢
    rw [h1, h2, hrow]
    clear hrow hsize
    exact Int.emod_eq_of_lt (by omega) (by omega)
  clear hrow h1 h2
  unfold checkDecBuffer
  simp only [sized_u, sized_width, sized_height, sized_colorspace, WebPDecoder.dibBuffer, kModeBpp, habs]
  rw [if_pos]
  refine ⟨by omega, ?_, rfl⟩
  push_cast
  omega

variable (codec mem heap) in
/-- A picture without alpha is decoded when its data is and the rows fit. -/
theorem getStatic_direct_ok (hd : d.StillFacts) (hfeat : (webPGetFeatures d.srcBytes).1 = .ok)
    {g : WebPBitstreamFeatures} (hg : webPParseHeaders d.srcBytes = (.ok, g)) (halpha : d.hasAlpha = false)
    (hheader : env.run.header = true) (himage : env.run.image = none)
    (hacc : acceptedBuffer d.width d.height (d.directConfig dst stride outW outH) ≠ none) :
    (d.getStatic codec env mem dst stride outW outH heap).ok = true := by
  obtain ⟨hw, hh⟩ := hd.headers g hg
  have hr := webPDecode_external codec env (d.directConfig dst stride outW outH) mem heap ⟨hfeat, g, hg, hw, hh⟩
    hd.size.width.1 hd.size.height.1 rfl rfl rfl rfl
  have hget : (d.getStatic codec env mem dst stride outW outH heap).ok =
      decide ((webPDecode codec env d.srcBytes (d.directConfig dst stride outW outH) mem heap).status = .ok) := by
    rw [WebPDecoder.getStatic, halpha]
    rfl
  rw [hget]
  generalize webPDecode codec env d.srcBytes (d.directConfig dst stride outW outH) mem heap = r at hr
  cases hr with
  | refused why bad kind => exact absurd why (not_or.mpr ⟨by simp [hheader], hacc⟩)
  | broken header accepted image => cases himage.symm.trans image
  | done header accepted image => rfl

end

/-! ### The two paths agree -/

/-- The bytes of an opaque picture are the same on the checkerboard. -/
theorem rowByte_solid {buf : Buf} {w h : ℤ} {f g : ℕ → ℕ → UInt8} (hn : (buf.size : ℤ) = 4 * w * h)
    (hsolid : ∀ y x : ℕ, y < h → x < w → f y (4 * x + 3) = 255)
    (hsame : ∀ y x c : ℕ, y < h → x < w → c < 3 → g y (3 * x + c) = f y (4 * x + c)) {y i : ℕ} (hy : y < h)
    (hi : (i : ℤ) < 3 * w) :
    rowByte (ownPixels buf w h f) (u32 (y * w * 4)) (y / kCheckerCell) i = g y i := by
  have hw : 0 ≤ w := by omega
  obtain ⟨x, c, hx, hc, rfl⟩ : ∃ x c : ℕ, (x : ℤ) < w ∧ c < 3 ∧ i = 3 * x + c :=
    ⟨i / 3, i % 3, by omega, by omega, (Nat.div_add_mod i 3).symm⟩
  have hbyte : ∀ k < 4, (ownPixels buf w h f).byte (4 * (y * w.toNat + x) + k) = f y (4 * x + k) := by
    intro k hk
    have hrow : (y + 1 : ℤ) * w ≤ h * w := mul_le_mul_of_nonneg_right (by omega) hw
    have hwn : (w.toNat : ℤ) = w := Int.toNat_of_nonneg hw
    refine Buf.writeRows_in (j := y) (c := 4 * x + k) ?_ ?_ ?_ ?_ ?_
    · dsimp only
      rw [abs_of_nonneg (by omega)]
      push_cast
      omega
    · dsimp only
      omega
    · dsimp only
      omega
    · simp only [Rows.start]
      push_cast
      rw [hwn]
      ring
    · zify
      rw [hwn, hn]
      have h1 : (y + 1 : ℤ) * w = y * w + w := by ring
      have h2 : 4 * w * h = 4 * (h * w) := by ring
      omega
  rw [rowByte_eq hw (by simp [ownPixels, hn]) hy hc, compositeByte, hbyte c (by omega), hbyte 3 (by norm_num),
    hsolid y x hy hx, hsame y x c hy hx hc]
  rfl

/-- An opaque still picture leaves the same bytes on both paths. -/
theorem static_paths_agree {codec : Codec} {env env' : Env} {grants : Grants} {d₀ d : WebPDecoder}
    {bytes : WebPData} {heap₀ heap₁ heap heap' : Heap ObjectKind} {mem : Buf} {dst stride outW outH : ℤ}
    (hdecode : d₀.decode grants bytes heap₀ = (.returned true, d, heap₁)) (hstill : d.hasAnimation = false)
    (hW : 1 ≤ outW) (hH : 1 ≤ outH) (hstride : stride = 4 * ((3 * outW + 3) / 4)) (hdst : 0 ≤ dst)
    (hmem : dst + outH * stride ≤ mem.size)
    (hsolid : ∀ y x : ℕ, y < outH → x < outW →
      codec.sample bytes (d.alphaConfig outW outH).options .BGRA y (4 * x + 3) = 255)
    (hsame : ∀ y x c : ℕ, y < outH → x < outW → c < 3 →
      codec.sample bytes (d.alphaConfig outW outH).options .BGR y (3 * x + c) =
        codec.sample bytes (d.alphaConfig outW outH).options .BGRA y (4 * x + c))
    (hheader : env.run.header = true) (himage : env.run.image = none) :
    let direct := { d with hasAlpha := false }.getFrame codec env 0 mem dst stride outW outH heap
    let composited := { d with hasAlpha := true }.getFrame codec env' 0 mem dst stride outW outH heap'
    composited.ok = true → direct.ok = true ∧ direct.dst = composited.dst := by
  intro direct composited halpha
  obtain ⟨hfacts, -⟩ := decode_facts hdecode
  have hd := hfacts.still_facts
  have hd' : ∀ a, WebPDecoder.StillFacts { d with hasAlpha := a } := fun _ => ⟨hd.size, hd.headers⟩
  obtain ⟨f, hfeat, -⟩ := hfacts.features
  have hsrc := hfacts.source
  have htotal := hfacts.still hstill
  have hget : ∀ a env heap, { d with hasAlpha := a }.getFrame codec env 0 mem dst stride outW outH heap =
      { d with hasAlpha := a }.getStatic codec env mem dst stride outW outH heap :=
    fun a env heap => by
      rw [WebPDecoder.getFrame, if_neg (by simp [htotal]), if_pos (by simp [hstill])]
  have hc := getStatic_composited codec env' mem dst stride heap' (hd' true) rfl hW hH
  rw [← hget] at hc
  obtain ⟨buf, g, hg, hn, hsmall, hsize, hdst', -⟩ := hc.done halpha
  -- The block decoded into bounds the size of the picture, hence its rows.
  have hstride' : stride < 2147483648 := by
    have hle : 4 * outW ≤ 4 * outW * outH := le_mul_of_one_le_right (by omega) hH
    unfold maxAllocableMemory at hsmall
    omega
  have hall : stride * outH < 4294967296 := by
    have := mem.fits
    rw [mul_comm]
    omega
  have hcheck : checkDecBuffer ((d.directConfig dst stride outW outH).output.sized outW outH) = .ok :=
    checkDecBuffer_dib (by omega) (by omega) (by omega) hstride' hall
  have hsize' : applyOptions d.width d.height (d.directConfig dst stride outW outH).options =
      some (outW, outH) := hsize
  have hacc : acceptedBuffer d.width d.height (d.directConfig dst stride outW outH) ≠ none := by
    unfold acceptedBuffer
    rw [hsize']
    dsimp only
    rw [if_pos hcheck]
    exact Option.some_ne_none _
  have hfeat' : (webPGetFeatures d.srcBytes).1 = .ok := by rw [hsrc, hfeat]
  have hok := getStatic_direct_ok codec mem heap (hd' false) hfeat' hg rfl hheader
    himage hacc
  have hdirect := getStatic_direct codec env mem dst stride heap (hd' false) hfeat' rfl hW hH
  rw [← hget] at hok hdirect
  refine ⟨hok, ?_⟩
  rw [hdirect.done hok, hdst', composite_dst]
  refine Buf.writeRows_congr fun y hy i hi => ?_
  simp only [dibRows] at hy hi
  rw [← hsrc] at hsolid hsame
  exact (rowByte_solid hn hsolid hsame (by omega) (by omega)).symm

/-- A still picture of 3 × 2. -/
def tile : WebPData := Files.still 3 2

/-- An opaque picture whose samples tell row, column and channel apart. -/
def Codec.ruled : Codec := ⟨fun _ _ mode y i =>
  if kModeBpp mode = 4 then if i % 4 = 3 then 255 else .ofNat (17 * y + 5 * (i / 4) + i % 4 + 1)
  else .ofNat (17 * y + 5 * (i / 3) + i % 3 + 1)⟩

/-- The DIB memory it is decoded to at its own size. -/
def tileDib : Buf := ⟨24, fun _ => 170, by norm_num⟩

/-- The picture, taken to be opaque or not. -/
def tileGot (alpha : Bool) (d : WebPDecoder) : Got :=
  { d with hasAlpha := alpha }.getFrame .ruled .fine 0 tileDib 0 12 3 2 Heap.empty

/-- The first row comes last, and the padding stays. -/
theorem tile_paths_agree :
    ∃ d heap, WebPDecoder.decode .all { id := 0 } tile Heap.empty = (.returned true, d, heap) ∧
    (tileGot false d).dst = (tileGot true d).dst ∧ (tileGot false d).dst.get 17 = 8 ∧
    (tileGot false d).dst.get 2 = 20 ∧ (tileGot false d).dst.get 22 = 170 := by
  obtain ⟨d, heap, hdecode, hd⟩ := decode_any .all { id := 0 } tile Heap.empty
    (fun d => !d.hasAnimation && (tileGot true d).ok && decide ((tileGot false d).dst.get 17 = 8 ∧
      (tileGot false d).dst.get 2 = 20 ∧ (tileGot false d).dst.get 22 = 170))
    (by decide +kernel) (by decide +kernel)
  simp only [Bool.and_eq_true, Bool.not_eq_true', decide_eq_true_eq] at hd
  obtain ⟨⟨hstill, hok⟩, hbytes⟩ := hd
  refine ⟨d, heap, hdecode, (static_paths_agree hdecode hstill (by norm_num) (by norm_num) (by norm_num)
    le_rfl (by decide) (fun y x _ _ => ?_) (fun y x c _ _ hc => ?_) rfl rfl hok).2, hbytes⟩
  · have hx : (4 * x + 3) % 4 = 3 := by omega
    simp only [Codec.ruled, kModeBpp, hx, if_true]
  · have h3 : (4 * x + c) % 4 = c := by omega
    have h4 : (4 * x + c) / 4 = x := by omega
    have h5 : (3 * x + c) / 3 = x := by omega
    have h6 : (3 * x + c) % 3 = c := by omega
    have hne : c ≠ 3 := by omega
    simp [Codec.ruled, kModeBpp, h3, h4, h5, h6, hne]

end WebPlugin
