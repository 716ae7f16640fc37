/-
# Pages that stay inside

Two pages leave their buffers. `PageDecode` fills in the `BITMAPINFOHEADER`
whether or not the block it has allocated, whose size is computed in 32 bits,
holds one; and `GetNext` hands `WebPDecode` rows that start at the frame's place
on the canvas but may be as wide as a guess. `Process.Exceeds` says in numbers
which requests these are, in a process that never holds more than `2 ^ 31`
bytes. All others touch their buffers only, whatever fails (`pages_inside_iff`).
-/
import WebPlugin.Paging
import WebPlugin.Extents

namespace WebPlugin

open Memory Ledger Words

/-! ### The memory of a process -/

/-- `GlobalAlloc` and `calloc` return NULL once the process would hold more than
`2 ^ 31` bytes. -/
structure Env.Limited (env : Env) : Prop where
  globalAlloc : ∀ heap n, env.grants .dib heap n = true → heap.bytes + n ≤ 2147483648
  calloc : ∀ k ∈ [ObjectKind.animDecoder, .demuxer, .canvas], ∀ heap n, env.grants k heap n = true →
    heap.bytes + n ≤ 2147483648

/-- Up to there everything is granted, and every frame decodes. -/
def Env.ample : Env := ⟨fun _ heap n => heap.bytes + n ≤ 2147483648, fun _ => 0, ⟨true, none⟩⟩

theorem Env.ample_iff {k : ObjectKind} {heap : Heap ObjectKind} {n : ℕ} :
    Env.ample.grants k heap n = true ↔ heap.bytes + n ≤ 2147483648 := decide_eq_true_iff

theorem Env.ample_limited : Env.ample.Limited :=
  ⟨fun _ _ => ample_iff.mp, fun _ _ _ _ => ample_iff.mp⟩

/-- A decoder takes its two canvases. -/
theorem NewGranted.room {env : Env} (hl : env.Limited) {heap : Heap ObjectKind} {n : ℕ}
    (hg : NewGranted env.grants heap n) : heap.bytes + 2 * n ≤ 2147483648 := by
  have h := hl.calloc .canvas (by decide) _ _ hg.prevFrame
  rw [Heap.bytes_grown, Heap.bytes_grown, Heap.bytes_grown] at h
  omega

theorem ample_newGranted {heap : Heap ObjectKind} {n : ℕ} (h : heap.bytes + 2 * n ≤ 2147483648) :
    NewGranted Env.ample.grants heap n := by
  constructor <;> simp only [Env.ample_iff, Heap.bytes_grown] <;> omega

/-! ### The frame a page is decoded from -/

namespace WebPDecoder

/-- The anim decoder kept has the scale of this output size. -/
def KeptFor (d : WebPDecoder) (w h : ℤ) : Prop :=
  d.animDecoder.isSome ∧ d.animScaleW = d.scaleW w h ∧ d.animScaleH = d.scaleH w h

instance (d : WebPDecoder) (w h : ℤ) : Decidable (d.KeptFor w h) := by unfold KeptFor; infer_instance

/-- The number of the frame that page `index` is decoded from. -/
def upNext (d : WebPDecoder) (index w h : ℤ) : ℤ :=
  if index ≠ 0 ∧ d.KeptFor w h then d.animDecoder.elim 1 WebPAnimDecoder.nextFrame else 1

/-- Page `index`, decoded at this size with these objects live, overruns the
canvas: there is room for the anim decoder, and the frame spills. -/
structure Leaves (d : WebPDecoder) (index w h : ℤ) (heap : Heap ObjectKind) : Prop where
  animated : d.hasAnimation
  scaled : w ≠ d.width ∨ h ≠ d.height
  fits : 4 * w * h < 4294967296
  room : d.KeptFor w h ∨ (d.forget heap).bytes + 8 * w * h ≤ 2147483648
  frame : ∃ dmux iter, Accepted d.srcBytes dmux ∧ webPDemuxGetFrame dmux (d.upNext index w h) = some iter ∧
    Spills iter dmux.canvasWidth dmux.canvasHeight w h

end WebPDecoder

section

variable {codec : Codec} {env : Env} {d d' : WebPDecoder} {w h index : ℤ} {heap heap' : Heap ObjectKind}
  {dec : WebPAnimDecoder}

theorem WebPDecoder.Ensured.upNext
    (he : WebPDecoder.Ensured env.grants d (d.scaleW w h) (d.scaleH w h) heap (some dec, d', heap')) :
    (WebPDecoder.startAt dec index).nextFrame = d.upNext index w h := by
  unfold WebPDecoder.startAt WebPDecoder.upNext
  cases he with
  | kept live size =>
    have hkept : d.KeptFor w h := ⟨by rw [live]; rfl, size⟩
    by_cases hzero : index = 0
    · rw [if_pos hzero, if_neg fun hno => hno.1 hzero]
      rfl
    · rw [if_neg hzero, if_pos ⟨hzero, hkept⟩, live, Option.elim_some]
  | made stale new =>
    obtain ⟨-, -, -, -, -, -, hreset⟩ := webPAnimDecoderNew_some new
    have hfirst : dec.nextFrame = 1 := by
      rw [hreset]
      rfl
    have hstale : ¬ d.KeptFor w h := fun hkept => by
      rcases stale with stale | stale
      · rw [WebPDecoder.KeptFor, stale] at hkept
        cases hkept.1
      · exact stale hkept.2
    rw [if_neg (show ¬ (index ≠ 0 ∧ d.KeptFor w h) from fun hno => hstale hno.2)]
    split_ifs
    · rfl
    · exact hfirst

/-- A kept anim decoder knows the frames of the file. -/
theorem WebPDecoder.KeptAt.frame_iff {dmux : WebPDemuxer} {k : ℕ} {iter : WebPIterator}
    (hk : WebPDecoder.KeptAt codec d k dec) (ha : Accepted d.srcBytes dmux)
    (ho : IntOptions (WebPDecoder.animOptions d.animScaleW d.animScaleH)) :
    dec.Frame iter ↔ webPDemuxGetFrame dmux dec.nextFrame = some iter := by
  obtain ⟨grants, heap, heap', dec₀, hnew, hrun⟩ := hk
  obtain ⟨h₀, hdmux⟩ := ready_of_new ha ho hnew
  obtain ⟨-, hinfo, -⟩ := webPAnimDecoderNew_some hnew
  have hsame := hrun.reach.same h₀
  obtain ⟨h0, hlt⟩ := ha.count_lt
  have hcount : i32 dec.info.frameCount = dmux.numFrames := by
    rw [hsame.info, hinfo, hdmux, animInfo, u32_of_range h0 (by omega)]
    exact i32_of_range (by omega) hlt
  rw [WebPAnimDecoder.Frame, hsame.demux, hdmux]
  refine ⟨fun hf => hf.2, fun hget => ⟨?_, hget⟩⟩
  rw [WebPAnimDecoder.hasMoreFrames, hcount]
  refine decide_eq_true (not_lt.mp fun hpast => ?_)
  rw [webPDemuxGetFrame, if_pos (.inr hpast)] at hget
  cases hget

/-- The call of `GetNext` for a page writes outside the canvas just when the
frame that is next spills. -/
theorem next_leaves_iff (hopen : d.Open codec) (hanim : d.hasAnimation) (hw : 0 < w ∧ w < 2147483648)
    (hh : 0 < h ∧ h < 2147483648)
    (he : WebPDecoder.Ensured env.grants d (d.scaleW w h) (d.scaleH w h) heap (some dec, d', heap')) :
    (webPAnimDecoderGetNext codec env (WebPDecoder.startAt dec index) heap').stray = true ↔
      env.run.header = true ∧ (w ≠ d.width ∨ h ≠ d.height) ∧ 4 * w * h < 4294967296 ∧
        ∃ dmux iter, Accepted d.srcBytes dmux ∧ webPDemuxGetFrame dmux (d.upNext index w h) = some iter ∧
          Spills iter dmux.canvasWidth dmux.canvasHeight w h := by
  obtain ⟨-, k, hk⟩ := hopen.ensured hw.2 hh.2 he
  obtain ⟨k', hk'⟩ := hk.startAt index
  obtain ⟨-, -, hsrc, hwidth, hheight⟩ := WebPDecoder.fields_of_bare he.bare
  obtain ⟨dmux, ha, -, hcw, hch⟩ := hopen.anim hanim
  have hi := WebPDecoder.intOptions_scale hw.2 hh.2 he.scale
  obtain ⟨hready, hdmux, hW, hH, hscaled⟩ :=
    hk'.out (hsrc ▸ ha) ⟨hwidth ▸ hcw, hheight ▸ hch⟩ hw hh he.scale
  have hframe : ∀ iter, (WebPDecoder.startAt dec index).Frame iter ↔
      webPDemuxGetFrame dmux (d.upNext index w h) = some iter := fun iter => by
    rw [← he.upNext]
    exact hk'.frame_iff (hsrc ▸ ha) hi
  rw [hwidth, hheight] at hscaled
  rw [hready.next_stray_iff, WebPAnimDecoder.Fits, hW, hH, hready.width, hready.height, hdmux, hscaled]
  constructor
  · rintro ⟨hfits, hheader, hsize, iter, hf, hspill⟩
    exact ⟨hheader, hsize, hfits, dmux, iter, ha, (hframe iter).mp hf, hspill⟩
  · rintro ⟨hheader, hsize, hfits, dmux', iter, ha', hget, hspill⟩
    obtain rfl : dmux' = dmux := Option.some.inj (ha'.demux.symm.trans ha.demux)
    exact ⟨hfits, hheader, hsize, iter, (hframe iter).mpr hget, hspill⟩

/-- The canvas of an anim decoder that fits has its exact size. -/
theorem ensured_size (hopen : d.Open codec) (hanim : d.hasAnimation) (hw : 0 < w ∧ w < 2147483648)
    (hh : 0 < h ∧ h < 2147483648) (hfits : 4 * w * h < 4294967296)
    (he : WebPDecoder.Ensured env.grants d (d.scaleW w h) (d.scaleH w h) heap (some dec, d', heap')) :
    (dec.currFrame.size : ℤ) = 4 * w * h := by
  obtain ⟨-, k, hk⟩ := hopen.ensured hw.2 hh.2 he
  obtain ⟨-, -, hsrc, hwidth, hheight⟩ := WebPDecoder.fields_of_bare he.bare
  obtain ⟨dmux, ha, -, hcw, hch⟩ := hopen.anim hanim
  obtain ⟨hready, -, hW, hH, -⟩ := hk.out (hsrc ▸ ha) ⟨hwidth ▸ hcw, hheight ▸ hch⟩ hw hh he.scale
  rw [hready.curr_size (by rwa [WebPAnimDecoder.Fits, hW, hH]), hW, hH]

/-- What the canvas flag of a page says of it. -/
theorem leaves_of_got {mem : Buf} {dst stride : ℤ} {got : Got} (hopen : d.Open codec) (hanim : d.hasAnimation)
    (hw : 0 < w ∧ w < 2147483648) (hh : 0 < h ∧ h < 2147483648) (hl : env.Limited)
    (hg : WebPDecoder.GotAnimated (webPAnimDecoderGetNext codec env) env.grants d index mem dst stride w h heap got)
    (hstray : got.strays.canvas = true) : d.Leaves index w h heap := by
  have leaves : ∀ {dec d' heap'}, WebPDecoder.Ensured env.grants d (d.scaleW w h) (d.scaleH w h) heap
      (some dec, d', heap') →
      (webPAnimDecoderGetNext codec env (WebPDecoder.startAt dec index) heap').stray = true →
      d.Leaves index w h heap := fun {dec d' heap'} he hs => by
    obtain ⟨-, hscaled, hfits, hframe⟩ := (next_leaves_iff hopen hanim hw hh he).mp hs
    have hsize := ensured_size hopen hanim hw hh hfits he
    refine ⟨hanim, hscaled, hfits, ?_, hframe⟩
    cases he with
    | kept live size => exact .inl ⟨by rw [live]; rfl, size⟩
    | made stale new =>
      have hroom := (newGranted_of_new new).2.room hl
      have h8 : 8 * w * h = 2 * (4 * w * h) := by ring
      exact .inr (by rw [h8, ← hsize]; exact_mod_cast hroom)
  cases hg with
  | unmade ensured => cases hstray
  | failed ensured call bad => exact leaves ensured (by rw [call]; exact hstray)
  | shown ensured call good => exact leaves ensured (by rw [call]; exact hstray)

/-- With room for its canvases, an anim decoder is made. -/
theorem new_of_room (hopen : d.Open codec) (hanim : d.hasAnimation) (hw : 0 < w) (hh : 0 < h)
    (hroom : (heap.bytes : ℤ) + 8 * w * h ≤ 2147483648) :
    ∃ dec, (webPAnimDecoderNew Env.ample.grants d.srcBytes (WebPDecoder.animOptions w h) heap).1 = some dec := by
  obtain ⟨f, hfeatures, -⟩ := hopen.facts.features
  obtain ⟨dmux, ha, -⟩ := hopen.anim hanim
  have h8 : 8 * w * h = 2 * (4 * (w * h)) := by ring
  have hwle : w ≤ w * h := le_mul_of_one_le_right hw.le hh
  have hhle : h ≤ w * h := le_mul_of_one_le_left hh.le hw
  have hn : u64 (i32 (w * numChannels)) = (4 * w).toNat := by
    rw [i32_of_range (by unfold numChannels; push_cast; omega) (by unfold numChannels; push_cast; omega)]
    unfold u64 numChannels
    omega
  have hm : u32 h = h.toNat := u32_toNat hh.le (by omega)
  have hprod : (((4 * w).toNat * h.toNat : ℕ) : ℤ) = 4 * (w * h) := by
    rw [Nat.cast_mul, Int.toNat_of_nonneg (by omega), Int.toNat_of_nonneg hh.le]
    ring
  have hcheck : checkSizeArgumentsOverflow (4 * w).toNat h.toNat = true := by
    have hdiv : h.toNat ≤ maxAllocableMemory / (4 * w).toNat := by
      rw [Nat.le_div_iff_mul_le (by omega), mul_comm]
      unfold maxAllocableMemory
      omega
    unfold checkSizeArgumentsOverflow
    rw [if_neg (by omega), if_neg (by omega), checkSizeOverflow, decide_eq_true_eq]
    omega
  have hscaled : 0 < (WebPDecoder.animOptions w h).scaledWidth ∧ 0 < (WebPDecoder.animOptions w h).scaledHeight :=
    ⟨hw, hh⟩
  obtain ⟨f, config, happly⟩ := applyDecoderOptions_scaled (.inr (.inl rfl)) hscaled
  exact new_of_newGranted (by rw [hfeatures]) ha.demux happly (by rw [if_pos hscaled.1]; exact hn)
    (by rw [if_pos hscaled.2]; exact hm) hcheck (ample_newGranted (by omega))

/-- With memory to spare, a page that can overrun the canvas does. -/
theorem got_of_leaves {mem : Buf} {dst stride : ℤ} {got : Got} (hopen : d.Open codec)
    (hw : 0 < w ∧ w < 2147483648) (hh : 0 < h ∧ h < 2147483648) (hleaves : d.Leaves index w h heap)
    (hg : WebPDecoder.GotAnimated (webPAnimDecoderGetNext codec .ample) Env.ample.grants d index mem dst stride w h
      heap got) : got.strays.canvas = true := by
  have strays : ∀ {dec d' heap'}, WebPDecoder.Ensured Env.ample.grants d (d.scaleW w h) (d.scaleH w h) heap
      (some dec, d', heap') →
      (webPAnimDecoderGetNext codec .ample (WebPDecoder.startAt dec index) heap').stray = true :=
    fun {dec d' heap'} he => (next_leaves_iff hopen hleaves.animated hw hh he).mpr
      ⟨rfl, hleaves.scaled, hleaves.fits, hleaves.frame⟩
  cases hg with
  | unmade ensured =>
    cases ensured with
    | none stale refused =>
      exfalso
      rcases hleaves.room with hkept | hroom
      · rcases stale with stale | stale
        · rw [WebPDecoder.KeptFor, stale] at hkept
          cases hkept.1
        · exact stale hkept.2
      · rw [WebPDecoder.scaleW, WebPDecoder.scaleH, if_pos hleaves.scaled, if_pos hleaves.scaled] at refused
        obtain ⟨dec, hnew⟩ := new_of_room hopen hleaves.animated hw.1 hh.1 hroom
        rw [refused] at hnew
        cases hnew
  | failed ensured call bad => exact (congrArg Next.stray call).symm.trans (strays ensured)
  | shown ensured call good => exact (congrArg Next.stray call).symm.trans (strays ensured)

end

/-! ### The DIB -/

/-- The bytes of a DIB of `w × h` pixels, `40 + 4 * ceil(3 w / 4) * h`, in 32 bits
and with a row that may have wrapped. -/
def dibBytes (w h : ℤ) : ℤ := (40 + (i32 (3 * w + 3)).tdiv 4 * 4 * h) % 4294967296

theorem dibSize_eq (w h : ℤ) : (dibSize w h : ℤ) = dibBytes w h := by
  have hrow : i32 (w * 3 + 3) = i32 (3 * w + 3) := by rw [mul_comm]
  rw [dibSize, imageSize, dstStride, hrow, dibBytes, bitmapInfoHeaderSize]
  generalize (i32 (3 * w + 3)).tdiv 4 * 4 = s
  obtain ⟨k, hk⟩ : ∃ k, i32 s = s + k * 4294967296 := by
    refine ⟨(i32 s - s) / 4294967296, ?_⟩
    unfold i32
    omega
  have hword : (u32 (i32 s * h) : ℤ) = s * h % 4294967296 := by
    rw [hk, show (s + k * 4294967296) * h = s * h + k * h * 4294967296 by ring]
    unfold u32
    omega
  push_cast
  rw [hword]
  omega

section

variable {codec : Codec} {env : Env} {d : WebPDecoder} {req : IDDecodeParam} {out : IDImageOut}
  {heap : Heap ObjectKind}

/-- The call of `getFrame` for a page, into its DIB. -/
def WebPDecoder.gotPage (codec : Codec) (env : Env) (d : WebPDecoder) (req : IDDecodeParam)
    (heap : Heap ObjectKind) : Got :=
  d.getFrame codec env req.nPage (fillHeader (newDib (d.outW req) (d.outH req)) (d.outW req) (d.outH req))
    bitmapInfoHeaderSize (dstStride (d.outW req)) (d.outW req) (d.outH req)
    (heap.grown .dib (dibSize (d.outW req) (d.outH req)))

theorem gotPage_animated (hanim : d.hasAnimation = true) (hpage : 0 ≤ req.nPage ∧ req.nPage < d.getFrameCount) :
    WebPDecoder.GotAnimated (webPAnimDecoderGetNext codec env) env.grants d req.nPage
      (fillHeader (newDib (d.outW req) (d.outH req)) (d.outW req) (d.outH req)) bitmapInfoHeaderSize
      (dstStride (d.outW req)) (d.outW req) (d.outH req) (heap.grown .dib (dibSize (d.outW req) (d.outH req)))
      (d.gotPage codec env req heap) := by
  rw [WebPDecoder.gotPage, WebPDecoder.getFrame_animated hanim (by omega)]
  exact WebPDecoder.getAnimated_cases _ _ _ _ _ _ _ _ _ _

/-- What a call of `PageDecode` touches outside its buffers, once the page is
there and the DIB is granted. -/
theorem pageDecode_strays :
    (pageDecode codec env (some d) (some req) (some out) heap).strays =
      if (0 ≤ req.nPage ∧ req.nPage < d.getFrameCount) ∧
          env.grants .dib heap (dibSize (d.outW req) (d.outH req)) = true then
        { (d.gotPage codec env req heap).strays with
          header := decide (dibSize (d.outW req) (d.outH req) < headerFilled) }
      else {} := by
  unfold pageDecode
  dsimp only
  by_cases hrange : req.nPage < 0 ∨ d.getFrameCount ≤ req.nPage
  · rw [if_pos hrange, if_neg (by omega)]
  · rw [if_neg hrange]
    unfold pageDecodeInto
    have hsize : d.resolveOutputSize req.nWidth req.nHeight = (d.outW req, d.outH req) := rfl
    rw [hsize]
    dsimp only
    by_cases hg : env.grants .dib heap (dibSize (d.outW req) (d.outH req)) = true
    · rw [if_pos ⟨by omega, hg⟩, Heap.alloc_granted hg]
      dsimp only
      split_ifs <;> rfl
    · rw [if_neg fun hno => hg hno.2, Heap.alloc, if_neg hg]

/-- The request overruns the DIB or the canvas, if the memory is there. -/
structure WebPDecoder.Exceeds (d : WebPDecoder) (req : IDDecodeParam) (heap : Heap ObjectKind) : Prop where
  page : 0 ≤ req.nPage ∧ req.nPage < d.getFrameCount
  room : heap.bytes + dibBytes (d.outW req) (d.outH req) ≤ 2147483648
  stray : dibBytes (d.outW req) (d.outH req) < 24 ∨
    d.Leaves req.nPage (d.outW req) (d.outH req) (heap.grown .dib (dibBytes (d.outW req) (d.outH req)).toNat)

variable (codec) in
/-- A call of `PageDecode` can touch what is not in its buffers just when the
request overruns them. -/
theorem pageDecode_strays_iff (hopen : d.Open codec) (hint : req.nWidth < 2147483648 ∧ req.nHeight < 2147483648) :
    (∃ env : Env, env.Limited ∧ (pageDecode codec env (some d) (some req) (some out) heap).strays ≠ {}) ↔
      d.Exceeds req heap := by
  obtain ⟨hW, hH⟩ := d.out_range hopen.facts.size hint
  have hsize := dibSize_eq (d.outW req) (d.outH req)
  have hgrown : (dibBytes (d.outW req) (d.outH req)).toNat = dibSize (d.outW req) (d.outH req) := by omega
  constructor
  · rintro ⟨env, hl, hstrays⟩
    have hsafe := @pageDecode_safe codec env d req out heap hopen hint
    obtain ⟨hpage, hg⟩ : (0 ≤ req.nPage ∧ req.nPage < d.getFrameCount) ∧
        env.grants .dib heap (dibSize (d.outW req) (d.outH req)) = true := by
      by_contra hno
      exact hstrays (by rw [pageDecode_strays, if_neg hno])
    have hroom := hl.globalAlloc _ _ hg
    refine ⟨hpage, by omega, ?_⟩
    by_contra hno
    rw [not_or, not_lt, hgrown] at hno
    refine hstrays ?_
    have hreads := hsafe.reads
    have hwrites := hsafe.writes
    rw [pageDecode_strays, if_pos ⟨hpage, hg⟩] at hreads hwrites ⊢
    rw [Strays.mk.injEq]
    refine ⟨decide_eq_false (by unfold headerFilled; omega), hwrites, hreads, ?_⟩
    have hpainted : Painted d (d.outW req) (d.outH req) (d.gotPage codec env req heap) :=
      painted_getFrame hopen hW hH (resolveOutputSize_area d hopen.facts.size _ _)
    refine eq_false_of_ne_true fun hcanvas => hno.2 ?_
    have hanim := (hpainted.canvas hcanvas).animated
    exact leaves_of_got hopen hanim hW hH hl (gotPage_animated hanim hpage) hcanvas
  · rintro ⟨hpage, hroom, hover⟩
    have hg : Env.ample.grants .dib heap (dibSize (d.outW req) (d.outH req)) = true := Env.ample_iff.mpr (by omega)
    refine ⟨.ample, Env.ample_limited, fun hnone => ?_⟩
    rw [pageDecode_strays, if_pos ⟨hpage, hg⟩, Strays.mk.injEq] at hnone
    obtain ⟨hheader, -, -, hcanvas⟩ := hnone
    rw [hgrown] at hover
    rcases hover with hshort | hleaves
    · exact absurd (of_decide_eq_false hheader) (not_not.mpr (by unfold headerFilled; omega))
    · rw [got_of_leaves hopen hW hH hleaves (gotPage_animated hleaves.animated hpage)] at hcanvas
      cases hcanvas

end

/-! ### Runs -/

/-- The call asks for a page of a handle that overruns a buffer. -/
def Process.Exceeds (p : Process) : Process.HostCall → Prop
  | .call (.pageDecode hs pdp pio) =>
    ∃ d ∈ p.handles, ∃ req ∈ pdp, hs = some d.id ∧ pio.isSome ∧ d.Exceeds req p.heap
  | _ => False

/-- A session, in a process of at most `2 ^ 31` bytes, in which no page overruns
a buffer. -/
inductive Contained (codec : Codec) : Book → Process → Prop
  | load : Contained codec ⟨[], [], 0⟩ Process.loaded
  | step {b : Book} {p : Process} (run : Contained codec b p) (env : Env) (limited : env.Limited)
      (c : Process.HostCall) (valid : b.Valid c) (inside : ¬ p.Exceeds c) :
      Contained codec (b.after c (p.answer codec env c)) (p.answer codec env c).process

/-- A call of `PageDecode` that touches its buffers only: what it reads, the
canvas or the pixels `WebPDecode` returns, and what it writes, the DIB after its
header and the header. A page that is decoded has an exact DIB and, when it is
one of an animation, has been read from a canvas of exactly four bytes a pixel. -/
structure PageInside (p : Process) (hs : Option ℕ) (pdp : Option IDDecodeParam) (a : Process.Answer) : Prop where
  strays : a.strays = {}
  dib : a.code = .returned .ok → HandedOut p hs pdp a.pio
  canvas : a.code = .returned .ok → ∀ d ∈ p.handles, hs = some d.id → d.hasAnimation → ∀ req ∈ pdp,
    ∃ d' ∈ a.process.handles, d'.id = d.id ∧ ∃ dec ∈ d'.animDecoder,
      (dec.currFrame.size : ℤ) = 4 * d.outW req * d.outH req

section

variable {codec : Codec} {env : Env} {b : Book} {p : Process} {hs : Option ℕ} {pdp : Option IDDecodeParam}
  {pio : Option IDImageOut}

theorem Contained.session (h : Contained codec b p) : Session codec b p := by
  induction h with
  | load => exact .load
  | step run env limited c valid inside ih => exact ih.step env c valid

theorem Contained.next {b' : Book} (h : Contained codec b p) (env : Env) (limited : env.Limited) {c : Process.HostCall}
    (valid : b.Valid c) (inside : ¬ p.Exceeds c) (hbook : b.after c (p.answer codec env c) = b') :
    Contained codec b' (p.answer codec env c).process :=
  hbook ▸ h.step env limited c valid inside

/-- The canvas a page has been read from. -/
theorem Session.canvas (h : Session codec b p) (hv : b.Valid (.call (.pageDecode hs pdp pio)))
    (hok : (p.answer codec env (.call (.pageDecode hs pdp pio))).code = .returned .ok) {d : WebPDecoder}
    (hd : d ∈ p.handles) (hid : hs = some d.id) (hanim : d.hasAnimation = true) {req : IDDecodeParam}
    (hreq : req ∈ pdp) :
    ∃ d' ∈ (p.answer codec env (.call (.pageDecode hs pdp pio))).process.handles, d'.id = d.id ∧
      ∃ dec ∈ d'.animDecoder, (dec.currFrame.size : ℤ) = 4 * d.outW req * d.outH req := by
  rcases @Sound.pageAnswer codec env b p h.sound hs pdp pio hv _ rfl with ⟨hbad, -⟩ |
    ⟨-, -, -, -, out, rfl, -⟩
  · exact absurd hok hbad
  obtain rfl := hreq
  subst hid
  obtain ⟨d₁, hd₁, hid₁, hopen, r, d', hr, hd', hbare, hcode, -, hhandles, -⟩ := h.pageCall hv env
  obtain rfl : d₁ = d := List.inj_on_of_nodup_map h.sound.handles_nodup hd₁ hd hid₁
  obtain ⟨hW, hH⟩ := d₁.out_range hopen.facts.size (hv.2 req rfl)
  have hbareId := congrArg WebPDecoder.id hbare
  rw [WebPlugin.pageCall] at hhandles hcode
  rw [hhandles]
  refine ⟨d', List.mem_map.mpr ⟨d₁, hd₁, if_pos (Eq.symm hbareId)⟩, hbareId, ?_⟩
  have htaken := pageTaken codec env req out p.heap hanim
  rw [hr] at htaken
  have hgood : r.code = .ok := by
    rw [hcode] at hok
    simpa using hok
  cases htaken with
  | early same bad => exact absurd hgood bad
  | asked heap' id got call kept code dib =>
    obtain rfl : got.decoder = d' := Option.some.inj (kept.symm.trans hd')
    have hgot := code.mp hgood
    cases call with
    | unmade ensured => cases hgot
    | failed ensured call bad => cases hgot
    | shown ensured call good => exact ⟨_, rfl, (canvas_exact hopen hanim hW hH ensured call good).1⟩

/-- **Pages stay inside their buffers** along a run in which none overruns one,
and the next page does so too, whatever fails, exactly when the request does not
overrun one either. -/
theorem pages_inside_iff (h : Contained codec b p) (hv : b.Valid (.call (.pageDecode hs pdp pio))) :
    (∀ env : Env, env.Limited → PageInside p hs pdp (p.answer codec env (.call (.pageDecode hs pdp pio)))) ↔
      ¬ p.Exceeds (.call (.pageDecode hs pdp pio)) := by
  constructor
  · rintro hall ⟨d, hd, req, hreq, rfl, hout, hover⟩
    obtain ⟨out, rfl⟩ := Option.isSome_iff_exists.mp hout
    obtain rfl := hreq
    have hopen := h.session.sound.opened d hd
    obtain ⟨env, hl, hstrays⟩ := (@pageDecode_strays_iff codec d req out p.heap hopen (hv.2 req rfl)).mpr hover
    obtain ⟨d₁, hd₁, hid₁, -, r, -, hr, -, -, -, -, -, hsame⟩ := h.session.pageCall hv env
    obtain rfl : d₁ = d := List.inj_on_of_nodup_map h.session.sound.handles_nodup hd₁ hd hid₁
    rw [hr] at hstrays
    exact hstrays (hsame.symm.trans (hall env hl).strays)
  · intro hno env hl
    refine ⟨?_, fun hok => h.session.sound.handedOut hv hok, fun hok d hd hid hanim req hreq =>
      h.session.canvas hv hok hd hid hanim hreq⟩
    rcases @Sound.pageAnswer codec env b p h.session.sound hs pdp pio hv _ rfl with ⟨-, hnone⟩ |
      ⟨d, hd, req, rfl, out, rfl, r, hid, hopen, hint, hr, -, -, hsame⟩
    · exact hnone
    · rw [hsame]
      by_contra hstrays
      refine hno ⟨d, hd, req, rfl, hid, rfl, (@pageDecode_strays_iff codec d req out p.heap hopen hint).mp
        ⟨env, hl, ?_⟩⟩
      rw [hr]
      exact hstrays

end

/-! A badge shown at half its size, one page after the other. -/

theorem contained_ready : Contained .black ⟨[], [], 0⟩ Process.init :=
  .step .load .ample Env.ample_limited .init trivial not_false

def badgeAmple : Process := (Process.init.answer .black .ample (opening badge)).process
def badgeHalf : Process := (badgeAmple.answer .black .ample (pageCall 1 ⟨0, 32, 32⟩ {})).process

theorem badge_ample : Contained .black ⟨[1], [], 0⟩ badgeAmple :=
  contained_ready.next .ample Env.ample_limited trivial not_false (by decide +kernel)

theorem badge_half_request {index : ℤ} {dibs : List ℕ} :
    Book.Valid ⟨[1], dibs, 0⟩ (pageCall 1 ⟨index, 32, 32⟩ {}) :=
  Book.valid_page List.mem_cons_self ⟨by norm_num, by norm_num⟩

/-- No frame of the badge loses its width at half the size. -/
theorem badge_half_inside {p : Process} {index : ℤ} {pio : IDImageOut} (hhandles : p.handles.all fun d =>
      decide (d.outW ⟨index, 32, 32⟩ = 32 ∧ d.outH ⟨index, 32, 32⟩ = 32) &&
      (webPDemux d.srcBytes).all fun dmux => decide (dmux.canvasWidth = 64) &&
        (webPDemuxGetFrame dmux (d.upNext index 32 32)).all fun iter => decide (64 ≤ iter.width * 32 % 4294967296)) :
    ¬ p.Exceeds (pageCall 1 ⟨index, 32, 32⟩ pio) := by
  rintro ⟨d, hd, req, hreq, -, -, -, -, hover⟩
  obtain rfl := Option.some.inj hreq
  have hall := List.all_eq_true.mp hhandles d hd
  rw [Bool.and_eq_true] at hall
  obtain ⟨hW, hH⟩ := of_decide_eq_true hall.1
  rw [hW, hH] at hover
  rcases hover with hshort | hleaves
  · exact absurd hshort (by decide +kernel)
  · obtain ⟨dmux, iter, ha, hget, hspill⟩ := hleaves.frame
    have hframe := hall.2
    rw [ha.demux, Option.all_some, hget, Option.all_some, Bool.and_eq_true] at hframe
    have hcanvas := of_decide_eq_true hframe.1
    have hwidth := of_decide_eq_true hframe.2
    have hlost := hspill.guessed.lost
    rw [hcanvas] at hlost
    omega

theorem badge_half : Contained .black ⟨[1], [4], 0⟩ badgeHalf :=
  badge_ample.next .ample Env.ample_limited badge_half_request (badge_half_inside (by decide +kernel))
    (by decide +kernel)

/-- Its second page, whatever fails. -/
theorem badge_pages_inside : (badgeHalf.answer .black .ample (pageCall 1 ⟨1, 32, 32⟩ {})).code = .returned .ok ∧
    ∀ env : Env, env.Limited → PageInside badgeHalf (some 1) (some ⟨1, 32, 32⟩)
      (badgeHalf.answer .black env (pageCall 1 ⟨1, 32, 32⟩ {})) :=
  ⟨by decide +kernel, (pages_inside_iff badge_half badge_half_request).mpr (badge_half_inside (by decide +kernel))⟩

/-! Two pages that do not stay inside: of the animation with a frame at the
right end, ten pixels wide, and of a canvas of `10000 × 300000`, at a size whose
DIB has `2 ^ 32 + 8` bytes. -/

def vast : WebPData := Files.animation 10000 300000 [{ x := 0, y := 0, w := 64, h := 64 }]

def narrowAmple : Process := (Process.init.answer .black .ample (opening narrowFrame)).process
def vastAmple : Process := (Process.init.answer .black .ample (opening vast)).process

theorem narrow_pages_exceed :
    (Contained .black ⟨[1], [], 0⟩ narrowAmple ∧
      (narrowAmple.answer .black .ample (pageCall 1 ⟨0, 10, 100⟩ {})).code = .returned .ok ∧
      ¬ ∀ env : Env, env.Limited → PageInside narrowAmple (some 1) (some ⟨0, 10, 100⟩)
        (narrowAmple.answer .black env (pageCall 1 ⟨0, 10, 100⟩ {}))) ∧
    Contained .black ⟨[1], [], 0⟩ vastAmple ∧ dibSize 5450 262657 = 8 ∧
      (vastAmple.answer .black .ample (pageCall 1 ⟨0, 5450, 262657⟩ {})).code = .returned .corruptData ∧
      ¬ ∀ env : Env, env.Limited → PageInside vastAmple (some 1) (some ⟨0, 5450, 262657⟩)
        (vastAmple.answer .black env (pageCall 1 ⟨0, 5450, 262657⟩ {})) := by
  have hnarrow : (narrowAmple.answer .black .ample (pageCall 1 ⟨0, 10, 100⟩ {})).strays = { canvas := true } := by
    decide +kernel
  have hvast : (vastAmple.answer .black .ample (pageCall 1 ⟨0, 5450, 262657⟩ {})).strays = { header := true } := by
    decide +kernel
  refine ⟨⟨contained_ready.next .ample Env.ample_limited trivial not_false (by decide +kernel), by decide +kernel,
    fun hall => ?_⟩, contained_ready.next .ample Env.ample_limited trivial not_false (by decide +kernel),
    by decide +kernel, by decide +kernel, fun hall => ?_⟩
  · cases hnarrow.symm.trans (hall .ample Env.ample_limited).strays
  · cases hvast.symm.trans (hall .ample Env.ample_limited).strays

end WebPlugin
