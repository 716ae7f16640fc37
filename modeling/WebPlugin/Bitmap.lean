/-
# The DIB of a page

`PageDecode` computes the size of the DIB in 32 bits without a check. What
protects it is the other memory a page needs: an animation is composited from a
canvas of four bytes a pixel that has been allocated, and a still picture is
only decoded when its frame header has sides of 14 bits (`webPParseHeaders_small`).
A page that is decoded therefore has a DIB of the exact size, with a header that
says so, and no pixel is read or written outside it; what a page can overrun is
the header of a DIB whose size does not fit, and the canvas of an animation with
a frame whose width is guessed (`session_dib_safe`).
-/
import WebPlugin.Pages

namespace WebPlugin

open Memory Ledger Words

/-! ### Pictures that are decoded -/

section

variable {d : WebPData} {f g : WebPBitstreamFeatures} {w h : ℤ} {alpha : Bool}

theorem vp8GetInfo_small {n : ℕ} (he : vp8GetInfo d n = some (w, h)) : w ≤ 16384 ∧ h ≤ 16384 := by
  unfold vp8GetInfo at he
  have hw : getLE16 d.bytes 6 &&& 0x3fff < 2 ^ 14 := Nat.and_lt_two_pow _ (by norm_num)
  have hh : getLE16 d.bytes 8 &&& 0x3fff < 2 ^ 14 := Nat.and_lt_two_pow _ (by norm_num)
  dsimp only at he
  split_ifs at he
  obtain ⟨rfl, rfl⟩ := Prod.mk.inj (Option.some.inj he)
  omega

theorem vp8lGetInfo_small (he : vp8lGetInfo d = some (w, h, alpha)) : w ≤ 16384 ∧ h ≤ 16384 := by
  unfold vp8lGetInfo at he
  have hw : getLE32 d.bytes 1 &&& 0x3fff < 2 ^ 14 := Nat.and_lt_two_pow _ (by norm_num)
  have hh : (getLE32 d.bytes 1 >>> 14) &&& 0x3fff < 2 ^ 14 := Nat.and_lt_two_pow _ (by norm_num)
  dsimp only at he
  split_ifs at he
  obtain ⟨rfl, he'⟩ := Prod.mk.inj (Option.some.inj he)
  obtain ⟨rfl, -⟩ := Prod.mk.inj he'
  omega

/-- With headers to fill in, the parser does not stop early. -/
theorem returnWidthHeight_full {status : VP8StatusCode} {vp8x all : Bool}
    (he : returnWidthHeight status vp8x (some all) w h f alpha = (.ok, g)) :
    status = .ok ∧ g.width = w ∧ g.height = h := by
  obtain ⟨⟨hw, hh, -⟩, -⟩ := returnWidthHeight_ok he
  refine ⟨?_, hw, hh⟩
  unfold returnWidthHeight at he
  split_ifs at he with hs
  · exact hs.resolve_right fun hno => by simp at hno
  · exact (Prod.mk.inj he).1

theorem parseImageHeader_small {all all' : Bool} {n : ℕ} {vp8x : Option VP8XChunk}
    (he : parseImageHeader d all n vp8x (some all') f alpha = (.ok, g)) : g.width ≤ 16384 ∧ g.height ≤ 16384 := by
  unfold parseImageHeader at he
  split at he
  · rename_i status hv
    exact absurd (returnWidthHeight_full he).1 (parseVP8Header_error hv)
  · dsimp only at he
    have read : ∀ {w h a}, w ≤ 16384 ∧ h ≤ 16384 →
        (if vp8x.isSome ∧ (vp8x.elim 0 VP8XChunk.width ≠ w ∨ vp8x.elim 0 VP8XChunk.height ≠ h) then
            (VP8StatusCode.bitstreamError, { f with hasAlpha := a })
          else returnWidthHeight .ok vp8x.isSome (some all') w h { f with hasAlpha := a } alpha) = (.ok, g) →
        g.width ≤ 16384 ∧ g.height ≤ 16384 := fun {w h a} hsmall he => by
      split_ifs at he
      · cases (Prod.mk.inj he).1
      · obtain ⟨-, hw, hh⟩ := returnWidthHeight_full he
        rw [hw, hh]
        exact hsmall
    split_ifs at he
    · cases (Prod.mk.inj he).1
    · cases (returnWidthHeight_full he).1
    · split at he
      · cases (Prod.mk.inj he).1
      · rename_i himage
        exact read (vp8lGetInfo_small himage) he
    · cases (returnWidthHeight_full he).1
    · split at he
      · cases (Prod.mk.inj he).1
      · rename_i himage
        obtain ⟨p, hp, hpe⟩ := Option.map_eq_some_iff.mp himage
        cases hpe
        exact read (vp8GetInfo_small hp) he

theorem parseHeadersInternal_small {data : WebPData} {all : Bool}
    (he : parseHeadersInternal data (some all) = (.ok, g)) : g.width ≤ 16384 ∧ g.height ≤ 16384 := by
  unfold parseHeadersInternal at he
  dsimp only at he
  split_ifs at he with hsmall
  · cases (Prod.mk.inj he).1
  split at he
  · rename_i status hriff
    exact absurd (Prod.mk.inj he).1 (parseRIFF_error hriff)
  · split at he
    · rename_i status hx
      exact absurd (Prod.mk.inj he).1 (parseVP8X_error hx)
    · split_ifs at he with h1 h2 h3 h4
      · cases (Prod.mk.inj he).1
      · exact absurd h2.2.2 (by simp)
      · cases (returnWidthHeight_full he).1
      · split at he
        · exact parseImageHeader_small he
        · rename_i status _ alpha hbad _
          exact absurd (returnWidthHeight_full he).1 hbad
      · exact parseImageHeader_small he

/-- A picture that is decoded has sides of 14 bits. -/
theorem webPParseHeaders_small {data : WebPData} (he : webPParseHeaders data = (.ok, g)) :
    g.width ≤ 16384 ∧ g.height ≤ 16384 := by
  unfold webPParseHeaders at he
  split at he
  rename_i status f hf
  split_ifs at he with hanim
  · cases (Prod.mk.inj he).1
  · obtain ⟨rfl, rfl⟩ := Prod.mk.inj he
    exact parseHeadersInternal_small hf

end

/-! ### Sizes -/

section

variable {w h : ℤ}

/-- The DIB of a picture whose pixels take less than 2 GB at four bytes each. -/
theorem small_fits (hw : 0 < w) (hh : 0 < h) (hsmall : 4 * w * h ≤ 2147483648) :
    3 * w + 3 < 2147483648 ∧ 40 + paddedRow w * h < 4294967296 := by
  have hpad : paddedRow w ≤ 6 * w := by
    unfold paddedRow
    omega
  have hall : paddedRow w * h ≤ 6 * w * h := mul_le_mul_of_nonneg_right hpad hh.le
  have hwle : w ≤ w * h := le_mul_of_one_le_right hw.le hh
  have h4 : 4 * w * h = 4 * (w * h) := by ring
  have h6 : 6 * w * h = 6 * (w * h) := by ring
  omega

/-- `resolveOutputSize` asks for no more pixels than the picture has. -/
theorem resolveOutputSize_area (d : WebPDecoder) (hs : PictureSize d.width d.height) (reqW reqH : ℤ) :
    (d.resolveOutputSize reqW reqH).1 * (d.resolveOutputSize reqW reqH).2 ≤ d.width * d.height := by
  have harea : 0 < d.width * d.height := mul_pos hs.width.1 hs.height.1
  unfold WebPDecoder.resolveOutputSize
  split_ifs with hzero hlarge
  · exact le_rfl
  · exact le_rfl
  · have htdiv : (d.width * d.height * 55).tdiv 100 = d.width * d.height * 55 / 100 :=
      Int.tdiv_eq_ediv_of_nonneg (by omega)
    dsimp only
    omega

/-- The DIB `PageDecode` allocates and fills in, when its size is exact. -/
theorem dib_fits (hw : 0 < w) (hh : 0 < h) (hw' : w < 2147483648) (hrow : 3 * w + 3 < 2147483648)
    (hall : 40 + paddedRow w * h < 4294967296) :
    DibFits (fillHeader (newDib w h) w h) bitmapInfoHeaderSize (dstStride w) w h := by
  have hstride := (dstStride_iff hw hw').mpr hrow
  obtain ⟨-, hdib⟩ := (sizes_iff hw hh hstride).mpr hall
  have hsize : ((fillHeader (newDib w h) w h).size : ℤ) = 40 + paddedRow w * h := hdib
  refine ⟨by decide, by omega, by omega, ?_, ?_⟩
  · rw [hstride]
    exact (paddedRow_spec w).2.1
  · rw [hsize, hstride, mul_comm h]
    rfl

/-- Rows of pixels leave the header alone. -/
theorem DibFits.header {dst : Buf} {lo stride : ℤ} (hf : DibFits dst lo stride w h)
    (f : ℕ → ℕ → UInt8) {k : ℕ} (hk : (k : ℤ) < lo) :
    (dst.writeRows (dibRows lo stride w h) f).byte k = dst.byte k := by
  refine Buf.writeRows_out fun j hj hm => ?_
  have hjh : (j : ℤ) < h := by
    simp only [dibRows] at hj
    omega
  have hstart := hm.1
  rw [hf.start_eq] at hstart
  have h0 : 0 ≤ (h - 1 - j) * stride := mul_nonneg (by omega) hf.stride_nonneg
  omega

theorem DibFits.rowsLeave_eq {dst : Buf} {lo stride : ℤ} (hf : DibFits dst lo stride w h) :
    rowsLeave (dibRows lo stride w h) lo dst.size = false := by
  have hstay : Rows.Inside { dibRows lo stride w h with base := (dibRows lo stride w h).base - lo }
      (dst.size - lo).toNat := by
    intro j hj
    have hjh : (j : ℤ) < h := by
      simp only [dibRows] at hj
      omega
    have hw := hf.width
    have h0 := hf.addr_bounds (x := 0) (c := 0) (by omega) hjh (by omega)
    have h1 := hf.addr_bounds (x := w.toNat - 1) (c := 2) (by omega) hjh (by omega)
    have hstart := hf.start_eq j
    simp only [dibRows, Rows.start, dibAddr] at hstart h0 h1 ⊢
    push_cast at h0 h1 ⊢
    right
    omega
  unfold rowsLeave
  simp only [hstay, decide_true, Bool.not_true]

end

/-! ### What a call of getFrame touches -/

/-- Scaled to `w × h`, the animation has a frame that is decoded past the end of
its row: one whose width is guessed. -/
structure WebPDecoder.Overruns (d : WebPDecoder) (w h : ℤ) : Prop where
  animated : d.hasAnimation
  scaled : w ≠ d.width ∨ h ≠ d.height
  fits : 4 * w * h < 4294967296
  frame : ∃ dmux n iter, Accepted d.srcBytes dmux ∧ webPDemuxGetFrame dmux n = some iter ∧
    Guessed iter.width iter.height dmux.canvasWidth dmux.canvasHeight w h

/-- A call of `getFrame` into the DIB of `PageDecode`: it stays inside, the
canvas is overrun by a guessed frame only, and when the call succeeds the size
of the DIB is exact and its header is still there. -/
structure Painted (d : WebPDecoder) (w h : ℤ) (got : Got) : Prop where
  reads : got.strays.read = false
  writes : got.strays.dib = false
  canvas : got.strays.canvas = true → d.Overruns w h
  done : got.ok → (3 * w + 3 < 2147483648 ∧ 40 + paddedRow w * h < 4294967296) ∧
    got.dst.size = (fillHeader (newDib w h) w h).size ∧
    ∀ k < 40, got.dst.byte k = (fillHeader (newDib w h) w h).byte k

section

variable {codec : Codec} {env : Env} {d : WebPDecoder} {w h : ℤ} {heap : Heap ObjectKind} {got : Got}

/-- Compositing a picture of four bytes a pixel, less than 2 GB in all. -/
theorem painted_composited {src : Buf} {d' : WebPDecoder} {heap' : Heap ObjectKind} {canvas : Bool} (hw : 0 < w)
    (hh : 0 < h) (hw' : w < 2147483648) (hn : (src.size : ℤ) = 4 * w * h) (hmax : src.size ≤ maxAllocableMemory)
    (hcanvas : canvas = true → d.Overruns w h) :
    Painted d w h ⟨true, d', (compositeBGRAtoBGR src (fillHeader (newDib w h) w h) bitmapInfoHeaderSize
        (dstStride w) w h).dst, heap',
      { read := (compositeBGRAtoBGR src (fillHeader (newDib w h) w h) bitmapInfoHeaderSize (dstStride w) w h).strayRead
        dib := (compositeBGRAtoBGR src (fillHeader (newDib w h) w h) bitmapInfoHeaderSize (dstStride w) w h).strayWrite
        canvas := canvas }⟩ := by
  have hle : (maxAllocableMemory : ℤ) ≤ 2147483648 := by decide
  have hfits := small_fits hw hh (by omega)
  have hdib := dib_fits hw hh hw' hfits.1 hfits.2
  refine ⟨composite_strayRead hw.le hn.ge, composite_strayWrite hdib, hcanvas,
    fun _ => ⟨hfits, ?_, fun k hk => ?_⟩⟩
  · dsimp only
    rw [composite_dst, Buf.writeRows_size]
  · dsimp only
    rw [composite_dst]
    exact hdib.header _ (by exact_mod_cast hk)

/-- A call that does not get to the DIB. -/
theorem painted_failed {d' : WebPDecoder} {dst : Buf} {heap' : Heap ObjectKind} {canvas : Bool}
    (hcanvas : canvas = true → d.Overruns w h) : Painted d w h ⟨false, d', dst, heap', { canvas := canvas }⟩ :=
  ⟨rfl, rfl, hcanvas, fun hok => by cases hok⟩

/-- A still picture is decoded only when its frame header has been read. -/
theorem getStatic_parsed {mem : Buf} {dst stride : ℤ} (halpha : d.hasAlpha = false)
    (hok : (d.getStatic codec env mem dst stride w h heap).ok = true) :
    ∃ g, webPParseHeaders d.srcBytes = (.ok, g) := by
  by_contra hno
  obtain ⟨status, hbad, he⟩ := webPDecode_unparsed codec env mem heap (d.directConfig dst stride w h)
    (not_exists.mp hno)
  have hget : (d.getStatic codec env mem dst stride w h heap).ok =
      decide ((webPDecode codec env d.srcBytes (d.directConfig dst stride w h) mem heap).status = .ok) := by
    rw [WebPDecoder.getStatic, halpha]
    rfl
  rw [hget, he] at hok
  exact hbad (of_decide_eq_true hok)

theorem painted_still (hopen : d.Open codec) (hw : 0 < w) (hh : 0 < h) (hw' : w < 2147483648)
    (harea : w * h ≤ d.width * d.height) :
    Painted d w h
      (d.getStatic codec env (fillHeader (newDib w h) w h) bitmapInfoHeaderSize (dstStride w) w h heap) := by
  have hfacts := hopen.facts.still_facts
  have hdecoded : ∀ g, webPParseHeaders d.srcBytes = (.ok, g) →
      (3 * w + 3 < 2147483648 ∧ 40 + paddedRow w * h < 4294967296) ∧
        DibFits (fillHeader (newDib w h) w h) bitmapInfoHeaderSize (dstStride w) w h := fun g hg => by
    obtain ⟨hgw, hgh⟩ := hfacts.headers g hg
    obtain ⟨hsw, hsh⟩ := webPParseHeaders_small hg
    have hle : d.width * d.height ≤ 16384 * 16384 :=
      mul_le_mul (hgw ▸ hsw) (hgh ▸ hsh) hopen.facts.size.height.1.le (by norm_num)
    have h4 : 4 * w * h = 4 * (w * h) := by ring
    have hfits := small_fits hw hh (by omega)
    exact ⟨hfits, dib_fits hw hh hw' hfits.1 hfits.2⟩
  cases halpha : d.hasAlpha with
  | false =>
    obtain ⟨f, hf, -⟩ := hopen.facts.features
    have hg := getStatic_direct codec env (fillHeader (newDib w h) w h) bitmapInfoHeaderSize (dstStride w) heap
      hfacts (by rw [hf]) halpha hw hh
    have hparsed := @getStatic_parsed codec env d w h heap (fillHeader (newDib w h) w h) bitmapInfoHeaderSize
      (dstStride w) halpha
    generalize d.getStatic codec env (fillHeader (newDib w h) w h) bitmapInfoHeaderSize (dstStride w) w h heap = got
      at hg hparsed
    refine ⟨?_, ?_, fun hno => ?_, fun hok => ?_⟩
    · rcases hg.strays with hnone | ⟨-, hrows⟩
      · rw [hnone]
      · rw [hrows]
    · rcases hg.strays with hnone | ⟨⟨g, hparse⟩, hrows⟩
      · rw [hnone]
      · rw [hrows]
        exact (hdecoded g hparse).2.rowsLeave_eq
    · rcases hg.strays with hnone | ⟨-, hrows⟩
      · rw [hnone] at hno
        cases hno
      · rw [hrows] at hno
        cases hno
    · obtain ⟨g, hparse⟩ := hparsed hok
      obtain ⟨hfits, hdib⟩ := hdecoded g hparse
      refine ⟨hfits, hg.size, fun k hk => ?_⟩
      rw [hg.done hok]
      exact hdib.header _ (by exact_mod_cast hk)
  | true =>
    have hg := getStatic_composited codec env (fillHeader (newDib w h) w h) bitmapInfoHeaderSize (dstStride w) heap
      hfacts halpha hw hh
    generalize d.getStatic codec env (fillHeader (newDib w h) w h) bitmapInfoHeaderSize (dstStride w) w h heap = got
      at hg
    by_cases hok : got.ok = true
    · obtain ⟨buf, g, hparse, hn, hmax, -, hdst, hstrays⟩ := hg.done hok
      obtain ⟨hfits, hdib⟩ := hdecoded g hparse
      refine ⟨by rw [hstrays], by rw [hstrays]; exact composite_strayWrite hdib, fun hno => ?_, fun _ =>
        ⟨hfits, ?_, fun k hk => ?_⟩⟩
      · rw [hstrays] at hno
        cases hno
      · rw [hdst, composite_dst, Buf.writeRows_size]
      · rw [hdst, composite_dst]
        exact hdib.header _ (by exact_mod_cast hk)
    · obtain ⟨-, hstrays⟩ := hg.failed (by simpa using hok)
      refine ⟨by rw [hstrays], by rw [hstrays], fun hno => ?_, fun hyes => absurd hyes hok⟩
      rw [hstrays] at hno
      cases hno

/-- The anim decoder a frame is read from. -/
theorem start_facts {index : ℤ} {d' : WebPDecoder} {dec : WebPAnimDecoder} {heap' : Heap ObjectKind}
    (hopen : d.Open codec) (hanim : d.hasAnimation) (hw : 0 < w ∧ w < 2147483648) (hh : 0 < h ∧ h < 2147483648)
    (he : WebPDecoder.Ensured env.grants d (d.scaleW w h) (d.scaleH w h) heap (some dec, d', heap')) :
    ∃ dmux, Accepted d.srcBytes dmux ∧ Ready (WebPDecoder.startAt dec index) ∧
      (WebPDecoder.startAt dec index).demux = dmux ∧ (WebPDecoder.startAt dec index).outW = w ∧
      (WebPDecoder.startAt dec index).outH = h ∧
      (0 < (WebPDecoder.startAt dec index).outCanvasW ↔ w ≠ d.width ∨ h ≠ d.height) := by
  obtain ⟨-, k, hk⟩ := hopen.ensured hw.2 hh.2 he
  obtain ⟨k', hk'⟩ := hk.startAt index
  obtain ⟨-, -, hsrc, hwidth, hheight⟩ := WebPDecoder.fields_of_bare he.bare
  obtain ⟨dmux, ha, -, hcw, hch⟩ := hopen.anim hanim
  have hout := hk'.out (hsrc ▸ ha) ⟨hwidth ▸ hcw, hheight ▸ hch⟩ hw hh he.scale
  rw [hwidth, hheight] at hout
  exact ⟨dmux, ha, hout⟩

/-- What `GetNext` overruns. -/
theorem next_overruns {index : ℤ} {d' : WebPDecoder} {dec : WebPAnimDecoder} {heap' : Heap ObjectKind} {next : Next}
    (hopen : d.Open codec) (hanim : d.hasAnimation) (hw : 0 < w ∧ w < 2147483648) (hh : 0 < h ∧ h < 2147483648)
    (he : WebPDecoder.Ensured env.grants d (d.scaleW w h) (d.scaleH w h) heap (some dec, d', heap'))
    (hcall : webPAnimDecoderGetNext codec env (WebPDecoder.startAt dec index) heap' = next)
    (hstray : next.stray = true) : d.Overruns w h := by
  obtain ⟨dmux, ha, hready, hdmux, hW, hH, hscaled⟩ := @start_facts codec env d w h heap index d' dec heap' hopen
    hanim hw hh he
  obtain ⟨hfits, -, hpos, iter, hframe, ⟨hguess, -, -⟩⟩ :=
    (@Ready.next_stray_iff _ codec env heap' hready).mp (by rw [hcall]; exact hstray)
  rw [WebPAnimDecoder.Fits, hW, hH] at hfits
  rw [hready.width, hready.height, hdmux, hW, hH] at hguess
  exact ⟨hanim, hscaled.mp hpos, hfits, dmux, _, iter, ha, hdmux ▸ hframe.2, hguess⟩

/-- The canvas a call of `GetNext` returns has four bytes for each of its
pixels. -/
theorem canvas_exact {index : ℤ} {d' : WebPDecoder} {dec : WebPAnimDecoder} {heap' : Heap ObjectKind} {next : Next}
    {t : ℤ} (hopen : d.Open codec) (hanim : d.hasAnimation) (hw : 0 < w ∧ w < 2147483648)
    (hh : 0 < h ∧ h < 2147483648)
    (he : WebPDecoder.Ensured env.grants d (d.scaleW w h) (d.scaleH w h) heap (some dec, d', heap'))
    (hcall : webPAnimDecoderGetNext codec env (WebPDecoder.startAt dec index) heap' = next)
    (hgood : next.timestamp = some t) :
    (next.dec.currFrame.size : ℤ) = 4 * w * h ∧ next.dec.currFrame.size ≤ maxAllocableMemory := by
  obtain ⟨-, -, hstart, -, hW, hH, -⟩ := @start_facts codec env d w h heap index d' dec heap' hopen hanim hw hh he
  have hsame := hstart.next_same codec env heap'
  have hready := hstart.next_dec codec env heap'
  subst hcall
  have hfits := hsame.fits.mpr (hstart.next_composed hgood).1
  exact ⟨by rw [hready.curr_size hfits, hsame.outW, hsame.outH, hW, hH], hready.alloc⟩

theorem painted_animated {index : ℤ} (hopen : d.Open codec) (hanim : d.hasAnimation) (hw : 0 < w ∧ w < 2147483648)
    (hh : 0 < h ∧ h < 2147483648)
    (hg : WebPDecoder.GotAnimated (webPAnimDecoderGetNext codec env) env.grants d index (fillHeader (newDib w h) w h)
      bitmapInfoHeaderSize (dstStride w) w h heap got) : Painted d w h got := by
  cases hg with
  | unmade ensured => exact painted_failed fun hno => by cases hno
  | failed ensured call bad => exact painted_failed (next_overruns hopen hanim hw hh ensured call)
  | shown ensured call good =>
    obtain ⟨hn, hmax⟩ := canvas_exact hopen hanim hw hh ensured call good
    exact painted_composited hw.1 hh.1 hw.2 hn hmax (next_overruns hopen hanim hw hh ensured call)

theorem painted_getFrame {index : ℤ} (hopen : d.Open codec) (hw : 0 < w ∧ w < 2147483648)
    (hh : 0 < h ∧ h < 2147483648) (harea : w * h ≤ d.width * d.height) :
    Painted d w h (d.getFrame codec env index (fillHeader (newDib w h) w h) bitmapInfoHeaderSize (dstStride w) w h
      heap) := by
  unfold WebPDecoder.getFrame
  split_ifs with hrange hstill
  · exact painted_failed fun hno => by cases hno
  · exact painted_still hopen hw.1 hh.1 hw.2 harea
  · exact painted_animated hopen (by simpa using hstill) hw hh (WebPDecoder.getAnimated_cases _ _ _ _ _ _ _ _ _ _)

end

/-! ### The header -/

/-- `BITMAPINFOHEADER`, the fields `PageDecode` fills in. -/
structure BitmapInfoHeader where
  biSize : ℕ
  biWidth : ℕ
  biHeight : ℕ
  biPlanes : ℕ
  biBitCount : ℕ
  biCompression : ℕ
  biSizeImage : ℕ
  deriving DecidableEq, Repr

/-- A 16-bit field. -/
def load16 (b : Buf) (i : ℕ) : ℕ := (b.byte i).toNat + (b.byte (i + 1)).toNat * 256

/-- The header as the host reads it. -/
def infoHeader (dib : Buf) : BitmapInfoHeader where
  biSize := dib.load32 0
  biWidth := dib.load32 4
  biHeight := dib.load32 8
  biPlanes := load16 dib 12
  biBitCount := load16 dib 14
  biCompression := dib.load32 16
  biSizeImage := dib.load32 20

theorem load16_congr {b c : Buf} {i : ℕ} (h : ∀ k, i ≤ k → k < i + 2 → b.byte k = c.byte k) :
    load16 b i = load16 c i := by
  simp only [load16, h i (by omega) (by omega), h (i + 1) (by omega) (by omega)]

theorem infoHeader_congr {b c : Buf} (h : ∀ k < 40, b.byte k = c.byte k) : infoHeader b = infoHeader c := by
  have h32 : ∀ i, i + 4 ≤ 40 → b.load32 i = c.load32 i :=
    fun i hi => Buf.load32_congr fun k _ hk => h k (by omega)
  have h16 : ∀ i, i + 2 ≤ 40 → load16 b i = load16 c i := fun i hi => load16_congr fun k _ hk => h k (by omega)
  simp only [infoHeader, h32 0 (by norm_num), h32 4 (by norm_num), h32 8 (by norm_num), h32 16 (by norm_num),
    h32 20 (by norm_num), h16 12 (by norm_num), h16 14 (by norm_num)]

section

variable {b : Buf} {i k v n : ℕ} {base : ℤ} {f : ℕ → UInt8}

/-- A row elsewhere leaves a field. -/
theorem load32_writeRow_of_ne (h : (k : ℤ) + 4 ≤ base ∨ base + n ≤ k) :
    (b.writeRow base n f).load32 k = b.load32 k := by
  refine Buf.load32_congr fun a h1 h2 => Buf.writeRow_out ?_
  omega

theorem load16_writeRow_of_ne (h : (k : ℤ) + 2 ≤ base ∨ base + n ≤ k) :
    load16 (b.writeRow base n f) k = load16 b k := by
  refine load16_congr fun a h1 h2 => Buf.writeRow_out ?_
  omega

theorem load16_writeRow (hv : v < 65536) (hbase : base = i) (hi : i + 2 ≤ b.size) :
    load16 (b.writeRow base 2 (Buf.byteOf v)) i = v := by
  have h : ∀ c < 2, (b.writeRow base 2 (Buf.byteOf v)).byte (i + c) = Buf.byteOf v c := fun c hc =>
    Buf.writeRow_in hc (by push_cast; omega) (by omega)
  have h0 := h 0 (by norm_num)
  rw [Nat.add_zero] at h0
  simp only [load16, h0, h 1 (by norm_num), Buf.byteOf, UInt8.toNat_ofNat']
  omega

end

/-- The header that is filled in is the one that is read. -/
theorem infoHeader_fillHeader {dib : Buf} {w h : ℤ} (hn : 24 ≤ dib.size) :
    infoHeader (fillHeader dib w h) = ⟨40, u32 w, u32 h, 1, 24, 0, imageSize w h⟩ := by
  have hw : u32 w < 4294967296 := u32_lt w
  have hh : u32 h < 4294967296 := u32_lt h
  have himage : imageSize w h < 4294967296 := u32_lt _
  -- The fields before the 16-bit ones.
  have hfirst : ∀ {b : Buf} {k}, k + 4 ≤ 12 →
      ((((b.writeRow 12 2 (Buf.byteOf 1)).writeRow 14 2 (Buf.byteOf 24)).store32 16 0).store32 20
        (imageSize w h)).load32 k = b.load32 k := fun hk => by
    rw [Buf.load32_store32_of_ne (by omega), Buf.load32_store32_of_ne (by omega),
      load32_writeRow_of_ne (by omega), load32_writeRow_of_ne (by omega)]
  rw [infoHeader, BitmapInfoHeader.mk.injEq]
  unfold fillHeader
  dsimp only
  refine ⟨?_, ?_, ?_, ?_, ?_, ?_, ?_⟩
  · rw [hfirst (by norm_num), Buf.load32_store32_of_ne (by norm_num), Buf.load32_store32_of_ne (by norm_num),
      Buf.load32_store32 (by decide) (by omega)]
    rfl
  · rw [hfirst (by norm_num), Buf.load32_store32_of_ne (by norm_num), Buf.load32_store32 hw (by simp; omega)]
  · rw [hfirst (by norm_num), Buf.load32_store32 hh (by simp; omega)]
  · rw [Buf.store32, load16_writeRow_of_ne (by norm_num), Buf.store32, load16_writeRow_of_ne (by norm_num),
      load16_writeRow_of_ne (by norm_num)]
    exact load16_writeRow (by norm_num) rfl (by simp; omega)
  · rw [Buf.store32, load16_writeRow_of_ne (by norm_num), Buf.store32, load16_writeRow_of_ne (by norm_num)]
    exact load16_writeRow (by norm_num) rfl (by simp; omega)
  · rw [Buf.load32_store32_of_ne (by norm_num), Buf.load32_store32 (by decide) (by simp; omega)]
  · exact Buf.load32_store32 himage (by simp; omega)

/-! ### PageDecode -/

/-- The DIB of a page of `w × h` pixels: its size, and a header that says so. -/
structure BitmapOf (dib : Buf) (w h : ℤ) : Prop where
  size : (dib.size : ℤ) = 40 + paddedRow w * h
  header : infoHeader dib = ⟨40, w.toNat, h.toNat, 1, 24, 0, (paddedRow w * h).toNat⟩

theorem bitmapOf_painted {d : WebPDecoder} {w h : ℤ} {got : Got} (hw : 0 < w ∧ w < 2147483648)
    (hh : 0 < h ∧ h < 2147483648) (hp : Painted d w h got) (hok : got.ok = true) : BitmapOf got.dst w h := by
  obtain ⟨⟨hrow, hall⟩, hsize, hbytes⟩ := hp.done hok
  have hstride := (dstStride_iff hw.1 hw.2).mpr hrow
  obtain ⟨himage, hdib⟩ := (sizes_iff hw.1 hh.1 hstride).mpr hall
  have hlen : got.dst.size = dibSize w h := hsize
  have hpos : 0 < paddedRow w * h := mul_pos (paddedRow_pos hw.1) hh.1
  refine ⟨by rw [hlen, hdib], ?_⟩
  rw [infoHeader_congr hbytes, infoHeader_fillHeader
    (show 24 ≤ (newDib w h).size from show 24 ≤ dibSize w h by omega), u32_toNat hw.1.le (by omega),
    u32_toNat hh.1.le (by omega), ← himage, Int.toNat_natCast]

/-- The size a request comes to. -/
def WebPDecoder.outW (d : WebPDecoder) (pdp : IDDecodeParam) : ℤ := (d.resolveOutputSize pdp.nWidth pdp.nHeight).1

def WebPDecoder.outH (d : WebPDecoder) (pdp : IDDecodeParam) : ℤ := (d.resolveOutputSize pdp.nWidth pdp.nHeight).2

theorem WebPDecoder.out_range {d : WebPDecoder} {pdp : IDDecodeParam} (hs : PictureSize d.width d.height)
    (hint : pdp.nWidth < 2147483648 ∧ pdp.nHeight < 2147483648) :
    (0 < d.outW pdp ∧ d.outW pdp < 2147483648) ∧ 0 < d.outH pdp ∧ d.outH pdp < 2147483648 :=
  resolveOutputSize_range pdp.nWidth pdp.nHeight hs hint.1 hint.2

/-- What a call of `PageDecode` touches, and the DIB it hands out. -/
structure PageSafe (d : WebPDecoder) (pdp : IDDecodeParam) (r : Paged) : Prop where
  reads : r.strays.read = false
  writes : r.strays.dib = false
  header : r.strays.header = true →
    2147483648 ≤ 3 * d.outW pdp + 3 ∨ 4294967296 ≤ 40 + paddedRow (d.outW pdp) * d.outH pdp
  canvas : r.strays.canvas = true → d.Overruns (d.outW pdp) (d.outH pdp)
  done : r.code = .ok → r.strays.header = false ∧
    ∃ block, r.pio = some { hdib := some block, right := d.outW pdp, bottom := d.outH pdp } ∧
      BitmapOf block.buf (d.outW pdp) (d.outH pdp)

/-- A call that does not get to a page. -/
theorem pageSafe_failed {d : WebPDecoder} {pdp : IDDecodeParam} {code : IDECode} {pio : Option IDImageOut}
    {d' : Option WebPDecoder} {heap : Heap ObjectKind} (hbad : code ≠ .ok) :
    PageSafe d pdp ⟨code, pio, d', heap, {}⟩ :=
  ⟨rfl, rfl, fun hno => (by cases hno), fun hno => (by cases hno), fun hok => absurd hok hbad⟩

/-- The header fits into a DIB whose size does. -/
theorem header_strays {w h : ℤ} (hw : 0 < w ∧ w < 2147483648) (hh : 0 < h)
    (hsmall : (fillHeader (newDib w h) w h).size < headerFilled) :
    2147483648 ≤ 3 * w + 3 ∨ 4294967296 ≤ 40 + paddedRow w * h := by
  by_contra hno
  rw [not_or, not_le, not_le] at hno
  have hdib := dib_fits hw.1 hh hw.2 hno.1 hno.2
  have hfit := hdib.size
  have h0 : 0 ≤ h * dstStride w := mul_nonneg hh.le hdib.stride_nonneg
  unfold headerFilled at hsmall
  unfold bitmapInfoHeaderSize at hfit
  omega

theorem pageDecode_safe {codec : Codec} {env : Env} {d : WebPDecoder} {pdp : IDDecodeParam} {pio : IDImageOut}
    {heap : Heap ObjectKind} (hopen : d.Open codec) (hint : pdp.nWidth < 2147483648 ∧ pdp.nHeight < 2147483648) :
    PageSafe d pdp (pageDecode codec env (some d) (some pdp) (some pio) heap) := by
  unfold pageDecode
  dsimp only
  split_ifs with hrange
  · exact pageSafe_failed (by decide)
  · unfold pageDecodeInto
    obtain ⟨hW, hH⟩ := d.out_range hopen.facts.size hint
    have harea := resolveOutputSize_area d hopen.facts.size pdp.nWidth pdp.nHeight
    have hsize : d.resolveOutputSize pdp.nWidth pdp.nHeight = (d.outW pdp, d.outH pdp) := rfl
    rw [hsize] at harea ⊢
    dsimp only at harea ⊢
    rcases ha : heap.alloc (env.grants .dib) .dib (dibSize (d.outW pdp) (d.outH pdp)) with ⟨_ | hDIB, heap'⟩
    · exact pageSafe_failed (by decide)
    · dsimp only
      have hgot := @painted_getFrame codec env d _ _ heap' pdp.nPage hopen hW hH harea
      have hstrays := @header_strays (d.outW pdp) (d.outH pdp) hW hH.1
      generalize d.getFrame codec env pdp.nPage (fillHeader (newDib (d.outW pdp) (d.outH pdp)) (d.outW pdp)
        (d.outH pdp)) bitmapInfoHeaderSize (dstStride (d.outW pdp)) (d.outW pdp) (d.outH pdp) heap' = got at hgot
      split_ifs with hok
      · refine ⟨hgot.reads, hgot.writes, fun hno => hstrays (of_decide_eq_true hno), hgot.canvas, fun _ =>
          ⟨decide_eq_false fun hno => ?_, ⟨hDIB, got.dst⟩, rfl, bitmapOf_painted hW hH hgot hok⟩⟩
        have hexact := (hgot.done hok).1
        have hover := hstrays hno
        omega
      · exact ⟨hgot.reads, hgot.writes, fun hno => hstrays (of_decide_eq_true hno), hgot.canvas, fun hno => by
          cases hno⟩

/-- A DIB handed out for a page of a handle: new, of the size the request comes
to, and exact. -/
structure HandedOut (p : Process) (hs : Option ℕ) (pdp : Option IDDecodeParam) (pio : Option IDImageOut) : Prop where
  page : ∃ d ∈ p.handles, ∃ req ∈ pdp, ∃ block, hs = some d.id ∧
    pio = some { hdib := some block, right := d.outW req, bottom := d.outH req } ∧
    BitmapOf block.buf (d.outW req) (d.outH req) ∧ block.id ∉ p.dibs

section

variable {codec : Codec} {env : Env} {b : Book} {p : Process}

/-- The DIB a call returns is none of those the host already has. -/
theorem Sound.dib_new (h : Sound codec b p) {hs : Option ℕ} {pdp : Option IDDecodeParam} {pio : Option IDImageOut}
    {block : Block} {right bottom : ℤ} (hv : b.Valid (.call (.pageDecode hs pdp pio)))
    (hok : (p.answer codec env (.call (.pageDecode hs pdp pio))).code = .returned .ok)
    (hpio : (p.answer codec env (.call (.pageDecode hs pdp pio))).pio =
      some { hdib := some block, right := right, bottom := bottom }) : block.id ∉ p.dibs := by
  have hcall : CallSound codec env b p _ (p.answer codec env (.call (.pageDecode hs pdp pio))) :=
    h.pageDecode pio hv.1 hv.2
  have hsound := hcall.sound
  have hbook : (b.after (.call (.pageDecode hs pdp pio)) (p.answer codec env (.call (.pageDecode hs pdp pio)))).dibs =
      block.id :: b.dibs := by
    unfold Book.after
    rw [if_pos hok, hpio]
    rfl
  have hn := hsound.dibs_nodup
  rw [hsound.dibs, hbook, List.nodup_cons] at hn
  rw [h.dibs]
  exact hn.1

/-- A call of `PageDecode` is refused without touching a page, or decodes one of
a handle. -/
theorem Sound.pageAnswer (h : Sound codec b p) {hs : Option ℕ} {pdp : Option IDDecodeParam} {pio : Option IDImageOut}
    (hv : b.Valid (.call (.pageDecode hs pdp pio))) {a : Process.Answer}
    (ha : p.answer codec env (.call (.pageDecode hs pdp pio)) = a) :
    (a.code ≠ .returned .ok ∧ a.strays = {}) ∨
      ∃ d ∈ p.handles, ∃ req ∈ pdp, ∃ out ∈ pio, ∃ r, hs = some d.id ∧ d.Open codec ∧
        (req.nWidth < 2147483648 ∧ req.nHeight < 2147483648) ∧
        WebPlugin.pageDecode codec env (some d) (some req) (some out) p.heap = r ∧
        a.code = .returned r.code ∧ a.pio = r.pio ∧ a.strays = r.strays := by
  simp only [Process.answer, Process.call] at ha
  have quiet : ∀ {code : IDECode}, code ≠ .ok → a.code = .returned code → a.strays = {} →
      a.code ≠ .returned .ok ∧ a.strays = {} := fun hbad hcode hnone =>
    ⟨fun hok => hbad (by rw [hcode] at hok; cases hok; rfl), hnone⟩
  have hinvalid : IDECode.invalidParam ≠ .ok := by decide
  by_cases hp : p.plugin = none
  · rw [if_pos hp] at ha
    exact .inl (@quiet .error (by decide) (by rw [← ha]) (by rw [← ha]))
  · rw [if_neg hp] at ha
    rcases h.decoderOf hv.1 with ⟨rfl, hnone⟩ | ⟨d, hd, rfl, hsome⟩
    · rw [hnone] at ha
      exact .inl (quiet hinvalid (by rw [← ha]; rfl) (by rw [← ha]; rfl))
    · rw [hsome] at ha
      rcases pdp with _ | req
      · exact .inl (quiet hinvalid (by rw [← ha]; rfl) (by rw [← ha]; rfl))
      rcases pio with _ | out
      · exact .inl (quiet hinvalid (by rw [← ha]; rfl) (by rw [← ha]; rfl))
      refine .inr ⟨d, hd, req, rfl, out, rfl, WebPlugin.pageDecode codec env (some d) (some req) (some out) p.heap,
        rfl, h.opened d hd, hv.2 req rfl, rfl, ?_, ?_, ?_⟩ <;>
      · rw [← ha]

/-- The DIB of a page that is decoded. -/
theorem Sound.handedOut (h : Sound codec b p) {hs : Option ℕ} {pdp : Option IDDecodeParam} {pio : Option IDImageOut}
    (hv : b.Valid (.call (.pageDecode hs pdp pio)))
    (hok : (p.answer codec env (.call (.pageDecode hs pdp pio))).code = .returned .ok) :
    HandedOut p hs pdp (p.answer codec env (.call (.pageDecode hs pdp pio))).pio := by
  rcases @Sound.pageAnswer codec env b p h hs pdp pio hv _ rfl with ⟨hbad, -⟩ |
    ⟨d, hd, req, hreq, out, -, r, hid, hopen, hint, hr, hcode, hpio, -⟩
  · exact absurd hok hbad
  · have hsafe := @pageDecode_safe codec env d req out p.heap hopen hint
    rw [hr] at hsafe
    rw [hcode] at hok
    obtain ⟨-, block, hdib, hbitmap⟩ := hsafe.done (by simpa using hok)
    refine ⟨d, hd, req, hreq, block, hid, hpio.trans hdib, hbitmap, ?_⟩
    exact @Sound.dib_new codec env b p h hs pdp pio block _ _ hv (by rw [hcode, hok]) (by rw [hpio, hdib])

/-- A call of `PageDecode`, whatever the file, the request and the failures. It
composites pixels it has and writes the pixels of the DIB it has allocated, and
when it returns `IDE_OK` that DIB is as large as its header says. Two writes can
go astray: the header of a DIB whose size does not fit in 32 bits, and the
canvas of an animation scaled so that the width of one of its frames is
guessed. -/
theorem session_dib_safe (h : Session codec b p) {hs : Option ℕ} {pdp : Option IDDecodeParam}
    {pio : Option IDImageOut} (hv : b.Valid (.call (.pageDecode hs pdp pio))) {a : Process.Answer}
    (ha : p.answer codec env (.call (.pageDecode hs pdp pio)) = a) :
    (a.strays.read = false ∧ a.strays.dib = false) ∧
      (a.strays.header = true → ∃ d ∈ p.handles, ∃ req ∈ pdp, hs = some d.id ∧
        (2147483648 ≤ 3 * d.outW req + 3 ∨ 4294967296 ≤ 40 + paddedRow (d.outW req) * d.outH req)) ∧
      (a.strays.canvas = true → ∃ d ∈ p.handles, ∃ req ∈ pdp, hs = some d.id ∧
        d.Overruns (d.outW req) (d.outH req)) ∧
      (a.code = .returned .ok → a.strays.header = false ∧ HandedOut p hs pdp a.pio) := by
  rcases h.sound.pageAnswer hv ha with ⟨hbad, hnone⟩ |
    ⟨d, hd, req, hreq, out, hout, r, hid, hopen, hint, hr, hcode, hpio, hstrays⟩
  · rw [hnone]
    exact ⟨⟨rfl, rfl⟩, fun hno => (by cases hno), fun hno => (by cases hno), fun hok => absurd hok hbad⟩
  · have hsafe := @pageDecode_safe codec env d req out p.heap hopen hint
    rw [hr] at hsafe
    rw [hstrays]
    refine ⟨⟨hsafe.reads, hsafe.writes⟩,
      fun hstray => ⟨d, hd, req, hreq, hid, hsafe.header hstray⟩, fun hstray =>
      ⟨d, hd, req, hreq, hid, hsafe.canvas hstray⟩, fun hok => ?_⟩
    have hout := @Sound.handedOut codec env b p h.sound hs pdp pio hv (by rw [ha, hok])
    rw [ha] at hout
    rw [hcode] at hok
    exact ⟨(hsafe.done (by simpa using hok)).1, hout⟩

end

/-- A host has opened the animation whose frame is at the right end. -/
def narrowProcess : Process := (Process.init.answer .black .fine (opening narrowFrame)).process

theorem narrow_session : Session .black ⟨[1], [], 0⟩ narrowProcess :=
  Session.ready.next trivial (by decide +kernel)

/-- The first page of the one is handed out, exact; the first page of the other,
ten pixels wide, overruns the canvas and is returned with `IDE_OK`. -/
theorem badge_dib_safe :
    HandedOut badgeProcess (some 1) (some ⟨0, 0, 0⟩)
      (badgeProcess.answer .black .fine (pageCall 1 ⟨0, 0, 0⟩ {})).pio ∧
    (narrowProcess.answer .black .fine (pageCall 1 ⟨0, 10, 100⟩ {})).code = .returned .ok ∧
    ∃ d ∈ narrowProcess.handles, d.Overruns (d.outW ⟨0, 10, 100⟩) (d.outH ⟨0, 10, 100⟩) := by
  have hvalid : Book.Valid ⟨[1], [], 0⟩ (pageCall 1 ⟨0, 10, 100⟩ {}) :=
    Book.valid_page List.mem_cons_self ⟨by norm_num, by norm_num⟩
  obtain ⟨d, hd, req, hreq, -, hover⟩ := (@session_dib_safe _ .fine _ _ narrow_session _ _ _ hvalid _ rfl).2.2.1
    (by decide +kernel)
  obtain rfl := Option.some.inj hreq
  exact ⟨((session_dib_safe badge_session badge_request rfl).2.2.2 (by decide +kernel)).2, by decide +kernel, d, hd,
    hover⟩

end WebPlugin
