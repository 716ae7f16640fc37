/-
# Lossless pictures in their buffers

From the buffer that `WebPAllocateDecBuffer` sets up to the last band of
`ProcessRows`. The scales that `WebPRescalerInit` leaves unset are never read
(`feedAll_scales`), a decoder from `VP8LDecodeImage` on a fresh buffer is `Fresh`,
and so every run over a picture fills the rows of the buffer with the same bytes,
`losslessSample`: in the terms of `Codec`, the lossless decoder has a sample.
-/
import WebPlugin.EmitFacts
import WebPlugin.Still

namespace WebPlugin

open Memory Words Ledger

/-! ### Scales that are not set -/

namespace WebPRescaler

variable {wrk : WebPRescaler} {fx fxy : ℕ}

/-- A rescaler with other horizontal and shrinking scales. -/
def scales (wrk : WebPRescaler) (fx fxy : ℕ) : WebPRescaler := { wrk with fxScale := fx, fxyScale := fxy }

/-- The scales differ at most where they are not used. -/
structure Unused (wrk : WebPRescaler) (fx fxy : ℕ) : Prop where
  fx : wrk.xExpand = false → fx = wrk.fxScale
  fxy : wrk.yExpand = false → fxy = wrk.fxyScale

theorem Unused.imported (h : Unused wrk fx fxy) (row : ℕ → ℕ) (x : ℕ) :
    (wrk.scales fx fxy).imported row x = wrk.imported row x := by
  by_cases he : wrk.xExpand = true
  · unfold WebPRescaler.imported
    rw [if_pos he, if_pos (show (wrk.scales fx fxy).xExpand = true from he)]
    rfl
  · rw [scales, h.fx (by simpa using he)]
    rfl

theorem Unused.lineIn (h : Unused wrk fx fxy) (row : ℕ → ℕ) :
    (wrk.scales fx fxy).lineIn row = (wrk.lineIn row).scales fx fxy ∧ Unused (wrk.lineIn row) fx fxy := by
  have himp : (wrk.scales fx fxy).imported row = wrk.imported row := funext (h.imported row)
  obtain ⟨irow, frow, heq⟩ := wrk.lineIn_eq row
  constructor
  · unfold WebPRescaler.lineIn
    rw [himp]
    by_cases he : wrk.yExpand = true
    · rw [if_pos he, if_pos (show (wrk.scales fx fxy).yExpand = true from he)]
      rfl
    · rw [if_neg he, if_neg (show ¬ (wrk.scales fx fxy).yExpand = true from he)]
      rfl
  · rw [heq]
    exact ⟨h.fx, h.fxy⟩

theorem Unused.rowOut (h : Unused wrk fx fxy) : (wrk.scales fx fxy).exported = wrk.exported ∧
    (wrk.scales fx fxy).rowOut = wrk.rowOut.scales fx fxy ∧ Unused wrk.rowOut fx fxy := by
  by_cases he : wrk.yExpand = true
  · refine ⟨?_, ?_, h.fx, h.fxy⟩
    · funext x
      unfold exported
      rw [if_pos he, if_pos (show (wrk.scales fx fxy).yExpand = true from he)]
      rfl
    · have hleft : (wrk.scales fx fxy).leftover = wrk.leftover := by
        funext x
        unfold leftover
        rw [if_pos he, if_pos (show (wrk.scales fx fxy).yExpand = true from he)]
        rfl
      rw [WebPRescaler.rowOut, hleft]
      rfl
  · have hfxy := h.fxy (by simpa using he)
    refine ⟨?_, ?_, h.fx, h.fxy⟩
    · rw [scales, hfxy]
      rfl
    · rw [scales, hfxy]
      rfl

theorem Unused.drained (n : ℕ) (h : Unused wrk fx fxy) : (wrk.scales fx fxy).drained n =
    ((wrk.drained n).1.scales fx fxy, (wrk.drained n).2) ∧ Unused (wrk.drained n).1 fx fxy := by
  induction n generalizing wrk with
  | zero => exact ⟨rfl, h⟩
  | succ n ih =>
    obtain ⟨hexp, hout, hthen⟩ := h.rowOut
    obtain ⟨heq, hlast⟩ := ih hthen
    by_cases hp : webPRescalerHasPendingOutput wrk = true
    · rw [WebPRescaler.drained, WebPRescaler.drained, if_pos hp,
        if_pos (show webPRescalerHasPendingOutput (wrk.scales fx fxy) = true from hp), hexp, hout, heq]
      exact ⟨rfl, hlast⟩
    · rw [WebPRescaler.drained, WebPRescaler.drained, if_neg hp,
        if_neg (show ¬ webPRescalerHasPendingOutput (wrk.scales fx fxy) = true from hp)]
      exact ⟨rfl, h⟩

/-- **The scales left unset are never read.** -/
theorem Unused.feedAll (rows : List (ℕ → ℕ)) (h : Unused wrk fx fxy) :
    ((wrk.scales fx fxy).feedAll rows).2 = (wrk.feedAll rows).2 := by
  induction rows generalizing wrk with
  | nil => rfl
  | cons row rows ih =>
    obtain ⟨hline, hthen⟩ := h.lineIn row
    obtain ⟨hdrain, hlast⟩ := hthen.drained ((wrk.lineIn row).dstHeight - (wrk.lineIn row).dstY)
    have hfeed : (wrk.scales fx fxy).feed row = ((wrk.feed row).1.scales fx fxy, (wrk.feed row).2) := by
      rw [WebPRescaler.feed, hline]
      exact hdrain
    simp only [WebPRescaler.feedAll, hfeed]
    exact congrArg _ (ih hlast)

theorem init_scales {rescaler rescaler' wrk wrk' : WebPRescaler}
    {srcWidth srcHeight dstWidth dstHeight numChannels : ℕ} {dst dstStride : ℤ}
    (h : webPRescalerInit rescaler srcWidth srcHeight dst dstWidth dstHeight dstStride numChannels = some wrk)
    (h' : webPRescalerInit rescaler' srcWidth srcHeight dst dstWidth dstHeight dstStride numChannels = some wrk') :
    wrk' = wrk.scales wrk'.fxScale wrk'.fxyScale ∧ Unused wrk wrk'.fxScale wrk'.fxyScale := by
  unfold webPRescalerInit at h h'
  dsimp only at h h'
  by_cases hc : (!checkSizeOverflow (2 * dstWidth * numChannels * 4)) = true
  · rw [if_pos hc] at h
    cases h
  · rw [if_neg hc, Option.some.injEq] at h h'
    subst h h'
    refine ⟨rfl, fun he => ?_, fun he => ?_⟩
    · dsimp only at he ⊢
      rw [he]
      rfl
    · dsimp only at he ⊢
      rw [he]
      rfl

end WebPRescaler

/-! ### A fresh decoder -/

/-- The window and the sizes of a picture under its options. -/
structure Window (options : WebPDecoderOptions) (width height : ℕ) (io : VP8Io) : Prop where
  source : io.width = width
  columns : io.cropLeft < io.cropRight ∧ io.cropRight ≤ width
  lines : io.cropTop < io.cropBottom ∧ io.cropBottom ≤ height
  band : io.mbW = io.cropRight - io.cropLeft ∧ io.mbH = io.cropBottom - io.cropTop
  useScaling : io.useScaling = options.useScaling
  plain : io.useScaling = false → ∀ size, applyOptions width height options = some size →
    size = ((io.mbW : ℤ), (io.mbH : ℤ))
  scaled : io.useScaling = true → 0 < io.scaledWidth ∧ 0 < io.scaledHeight ∧
    ∀ size, applyOptions width height options = some size → size = ((io.scaledWidth : ℤ), (io.scaledHeight : ℤ))

theorem scaledDimensions_pos {w h sw sh w' h' : ℤ} (hs : webPRescalerGetScaledDimensions w h sw sh = some (w', h')) :
    0 < w' ∧ 0 < h' := by
  unfold webPRescalerGetScaledDimensions at hs
  dsimp only at hs
  generalize (if sw = 0 ∧ 0 < h then guessSide w h sh else sw) = width at hs
  generalize (if sh = 0 ∧ 0 < w then guessSide h w width else sh) = height at hs
  by_cases hbad : width ≤ 0 ∨ height ≤ 0 ∨ (2 ^ 31 - 1) / 2 < width ∨ (2 ^ 31 - 1) / 2 < height
  · rw [if_pos hbad] at hs
    cases hs
  · rw [if_neg hbad] at hs
    cases hs
    omega

/-- The window `WebPCheckCropDimensions` accepts, wherever the crop is snapped to. -/
theorem crop_facts {options : WebPDecoderOptions} {width height : ℕ} {left top x y w h : ℤ} (hw : 0 < width)
    (hh : 0 < height)
    (heq : (if options.useCropping = true then (left, top, options.cropWidth, options.cropHeight)
      else (0, 0, (width : ℤ), (height : ℤ))) = (x, y, w, h))
    (hcheck : ¬ (options.useCropping && !webPCheckCropDimensions width height x y w h) = true) :
    0 ≤ x ∧ 0 < w ∧ x + w ≤ width ∧ 0 ≤ y ∧ 0 < h ∧ y + h ≤ height ∧
      ∀ size, applyOptions width height options = some size →
        (if options.useScaling then webPRescalerGetScaledDimensions w h options.scaledWidth options.scaledHeight
          else some (w, h)) = some size := by
  by_cases hcrop : options.useCropping = true
  · rw [if_pos hcrop] at heq
    cases heq
    rw [hcrop] at hcheck
    unfold webPCheckCropDimensions at hcheck
    simp only [Bool.true_and, Bool.not_eq_true', Bool.not_eq_false, decide_eq_true_eq] at hcheck
    refine ⟨by omega, by omega, by omega, by omega, by omega, by omega, fun size happ => ?_⟩
    unfold applyOptions at happ
    rw [if_pos hcrop] at happ
    by_cases heven : webPCheckCropDimensions width height (2 * (options.cropLeft / 2)) (2 * (options.cropTop / 2))
        options.cropWidth options.cropHeight = true
    · rw [if_pos heven] at happ
      exact happ
    · rw [if_neg heven] at happ
      cases happ
  · rw [if_neg hcrop] at heq
    cases heq
    refine ⟨le_refl _, by omega, by omega, le_refl _, by omega, by omega, fun size happ => ?_⟩
    unfold applyOptions at happ
    rw [if_neg hcrop] at happ
    exact happ

/-- What `WebPIoInitFromOptions` accepts is a window of the picture. -/
theorem ioInit_window {options : WebPDecoderOptions} {width height : ℕ} {rgb : Bool} {io : VP8Io} (hw : 0 < width)
    (hh : 0 < height) (h : webPIoInitFromOptions options width height rgb = some io) :
    Window options width height io := by
  unfold webPIoInitFromOptions at h
  generalize (if rgb = true then options.cropLeft else 2 * (options.cropLeft / 2)) = left at h
  generalize (if rgb = true then options.cropTop else 2 * (options.cropTop / 2)) = top at h
  generalize hwin : (if options.useCropping = true then (left, top, options.cropWidth, options.cropHeight)
    else (0, 0, (width : ℤ), (height : ℤ))) = window at h
  obtain ⟨x, y, w, h'⟩ := window
  dsimp only at h
  by_cases hcheck : (options.useCropping && !webPCheckCropDimensions width height x y w h') = true
  · rw [if_pos hcheck] at h
    cases h
  · rw [if_neg hcheck] at h
    obtain ⟨hx0, hw0, hxw, hy0, hh0, hyh, hsame⟩ := crop_facts hw hh hwin hcheck
    have hcols : x.toNat < (x + w).toNat ∧ (x + w).toNat ≤ width := by omega
    have hlines : y.toNat < (y + h').toNat ∧ (y + h').toNat ≤ height := by omega
    have hband : w.toNat = (x + w).toNat - x.toNat ∧ h'.toNat = (y + h').toNat - y.toNat := by omega
    by_cases hu : options.useScaling = true
    · rw [if_pos hu] at h
      cases hd : webPRescalerGetScaledDimensions w h' options.scaledWidth options.scaledHeight with
      | none =>
        rw [hd] at h
        cases h
      | some size =>
        obtain ⟨sw, sh⟩ := size
        obtain ⟨hsw, hsh⟩ := scaledDimensions_pos hd
        rw [hd, Option.map_some, Option.some.injEq] at h
        subst h
        refine ⟨rfl, hcols, hlines, hband, rfl, fun hno => absurd hno (by dsimp only; rw [hu]; decide), fun _ =>
          ⟨by dsimp only; omega, by dsimp only; omega, fun size happ => ?_⟩⟩
        have hs := hsame size happ
        rw [if_pos hu, hd, Option.some.injEq] at hs
        rw [← hs, Int.toNat_of_nonneg hsw.le, Int.toNat_of_nonneg hsh.le]
    · rw [if_neg hu, Option.some.injEq] at h
      subst h
      refine ⟨rfl, hcols, hlines, hband, rfl, fun _ size happ => ?_, fun hyes => absurd hyes hu⟩
      have hs := hsame size happ
      rw [if_neg hu, Option.some.injEq] at hs
      rw [← hs, Int.toNat_of_nonneg hw0.le, Int.toNat_of_nonneg hh0.le]

theorem allocateBuffer_size {grants : Grants} {garbage : ℕ → UInt8} {buffer output : WebPDecBuffer} {mem out : Buf}
    {heap heap' : Heap ObjectKind} {status : VP8StatusCode}
    (h : allocateBuffer grants garbage buffer mem heap = (status, output, out, heap')) :
    output.width = buffer.width ∧ output.height = buffer.height ∧ output.colorspace = buffer.colorspace := by
  unfold allocateBuffer at h
  dsimp only at h
  split_ifs at h
  · cases h
    exact ⟨rfl, rfl, rfl⟩
  · cases h
    exact ⟨rfl, rfl, rfl⟩
  · split at h
    · cases h
      exact ⟨rfl, rfl, rfl⟩
    · cases h
      exact ⟨rfl, rfl, rfl⟩
  · cases h
    exact ⟨rfl, rfl, rfl⟩

/-- A buffer that is set up has the size the options ask for. -/
theorem allocate_size {grants : Grants} {garbage : ℕ → UInt8} {width height : ℤ} {options : WebPDecoderOptions}
    {buffer output : WebPDecBuffer} {mem out : Buf} {heap heap' : Heap ObjectKind}
    (h : webPAllocateDecBuffer grants garbage width height options buffer mem heap = (.ok, output, out, heap')) :
    0 < width ∧ 0 < height ∧ applyOptions width height options = some (output.width, output.height) ∧
      output.colorspace = buffer.colorspace := by
  unfold webPAllocateDecBuffer at h
  by_cases hpos : width ≤ 0 ∨ height ≤ 0
  · rw [if_pos hpos] at h
    cases h
  rw [if_neg hpos] at h
  refine ⟨by omega, by omega, ?_⟩
  cases happ : applyOptions width height options with
  | none =>
    rw [happ] at h
    cases h
  | some size =>
    obtain ⟨w, h'⟩ := size
    rw [happ] at h
    dsimp only at h
    rcases halloc : allocateBuffer grants garbage (buffer.sized w h') mem heap with ⟨status, o, out', heap''⟩
    obtain ⟨hw, hh, hc⟩ := allocateBuffer_size halloc
    rw [halloc] at h
    cases status
    case ok =>
      cases h
      rw [WebPDecBuffer.sized_width] at hw
      rw [WebPDecBuffer.sized_height] at hh
      rw [WebPDecBuffer.sized_colorspace] at hc
      by_cases hflip : options.flip = true
      · rw [if_pos hflip]
        exact ⟨by rw [← hw, ← hh]; rfl, hc⟩
      · rw [if_neg hflip]
        exact ⟨by rw [← hw, ← hh], hc⟩
    all_goals cases h

/-- What keeps the rescaler of a picture in range: the share of a source pixel
in an output one is a 32-bit fraction. -/
def ShareFits (io : VP8Io) : Prop :=
  io.useScaling = true → max io.mbW io.scaledWidth * io.mbH ≤ io.scaledHeight * 2 ^ 32

theorem init_fresh {options : WebPDecoderOptions} {width height : ℕ} {output : WebPDecBuffer} {mem : Buf}
    {rescaler : WebPRescaler} {garbage : ℕ → UInt8} {dec : VP8LDecoder} (hw : 0 < width) (hh : 0 < height)
    (happ : applyOptions width height options = some (output.width, output.height))
    (hinit : vp8lDecodeImageInit options width height output mem rescaler garbage = some dec)
    (hshare : ShareFits dec.io) : Fresh dec ∧ dec.output = output ∧ dec.scaling.mem = mem ∧
      webPIoInitFromOptions options width height true = some dec.io ∧
      (dec.io.useScaling = true → webPRescalerInit rescaler dec.io.mbW dec.io.mbH 0 dec.io.scaledWidth
        dec.io.scaledHeight 0 4 = some dec.scaling.rescaler) := by
  unfold vp8lDecodeImageInit at hinit
  cases hio : webPIoInitFromOptions options width height true with
  | none =>
    rw [hio] at hinit
    cases hinit
  | some io =>
    rw [hio] at hinit
    dsimp only at hinit
    have win := ioInit_window hw hh hio
    by_cases hu : io.useScaling = true
    · rw [if_pos hu] at hinit
      unfold allocateAndInitRescaler at hinit
      by_cases hcheck : checkSizeArgumentsOverflow (rescalerMemorySize io.scaledWidth) 1
      · rw [dif_pos hcheck] at hinit
        obtain ⟨hsw, hsh, hsize⟩ := win.scaled hu
        obtain ⟨hmbW, hmbH⟩ := win.band
        have hcols := win.columns
        have hlines := win.lines
        have hlt := lt_of_check hcheck
        cases hwrk : webPRescalerInit rescaler io.mbW io.mbH 0 io.scaledWidth io.scaledHeight 0 4 with
        | none =>
          rw [hwrk] at hinit
          cases hinit
        | some wrk =>
          rw [hwrk, Option.map_some, Option.map_some, Option.some.injEq] at hinit
          subst hinit
          obtain ⟨wrk', hwrk', hidle, hsrcY, hdstY, hdst, hsrcW, hsrcH, hdstW, hdstH, hnum, hstride⟩ :=
            @WebPRescaler.init_idle io.mbW io.mbH io.scaledWidth io.scaledHeight 4
              ⟨by omega, by omega, hsw, hsh, by norm_num, by unfold rescalerMemorySize at hlt; omega, hshare hu⟩
              rescaler 0 0
          rw [hwrk] at hwrk'
          cases hwrk'
          have hout := hsize _ happ
          rw [Prod.mk.injEq] at hout
          refine ⟨⟨by rw [win.source]; exact hcols, hlines, rfl, rfl, fun hno => absurd hu (by rw [hno]; decide),
            fun _ => hidle, fun _ => ⟨by rw [hdst]; rfl, hstride, hnum, ?_⟩,
            fun _ => ⟨hsrcY, hdstY⟩, fun _ => ?_,
            fun _ => ?_⟩, rfl, rfl, rfl, fun _ => hwrk⟩
          · dsimp only
            rw [hdstW]
            omega
          · dsimp only
            rw [hsrcW, hsrcH]
            exact ⟨hmbW, hmbH⟩
          · dsimp only
            rw [hdstW, hdstH]
            exact hout
      · rw [dif_neg hcheck] at hinit
        cases hinit
    · rw [if_neg hu, Option.some.injEq] at hinit
      subst hinit
      have hout := win.plain (by simpa using hu) _ happ
      rw [Prod.mk.injEq, win.band.1, win.band.2] at hout
      exact ⟨⟨by rw [win.source]; exact win.columns, win.lines, rfl, rfl, fun _ => hout, fun hyes => absurd hyes hu,
        fun hyes => absurd hyes hu, fun hyes => absurd hyes hu, fun hyes => absurd hyes hu,
        fun hyes => absurd hyes hu⟩, rfl, rfl, rfl, fun hyes => absurd hyes hu⟩

/-! ### Whole pictures -/

/-- A rescaler that nothing is known of. -/
def WebPRescaler.unset : WebPRescaler where
  xExpand := false
  yExpand := false
  numChannels := 0
  fxScale := 0
  fyScale := 0
  fxyScale := 0
  yAccum := 0
  yAdd := 0
  ySub := 0
  xAdd := 0
  xSub := 0
  srcWidth := 0
  srcHeight := 0
  dstWidth := 0
  dstHeight := 0
  srcY := 0
  dstY := 0
  dst := 0
  dstStride := 0
  irow := fun _ => 0
  frow := fun _ => 0

/-- Byte `x` of row `y` of what a lossless picture gives. -/
def losslessSample (options : WebPDecoderOptions) (width height : ℕ) (colorspace : WebPCspMode)
    (pic : ℕ → ℕ → ℕ) (y x : ℕ) : UInt8 :=
  match webPIoInitFromOptions options width height true with
  | none => 0
  | some io =>
    if io.useScaling then
      match webPRescalerInit .unset io.mbW io.mbH 0 io.scaledWidth io.scaledHeight 0 4 with
      | none => 0
      | some rescaler =>
        exportedRow colorspace
          ((rescaler.feedAll ((windowLines pic io io.mbH).map premultipliedLine)).2.getD y fun _ => 0) x
    else convertedByte colorspace (fun x => pic (io.cropTop + y) (io.cropLeft + x)) x

section
variable {pic : ℕ → ℕ → ℕ} {dec₀ dec : VP8LDecoder}

/-- A run has emitted the lines it was given. -/
theorem Emission.emitted (h : Fresh dec₀) (run : Emission pic dec₀ dec) :
    Emitted pic dec₀ dec (dec.lastRow - dec₀.io.cropTop) := by
  induction run with
  | start =>
    have he := @Fresh.emitted pic dec₀ h
    rw [h.lastRow, Nat.zero_sub]
    exact he
  | rows run le few last holds ok ih =>
    obtain ⟨dec', hok, hrow, he⟩ := ih.step h le few last holds
    rw [ok, Option.some.injEq] at hok
    rw [hok, hrow]
    exact he

/-- The rows of the whole window are the sample. -/
theorem emittedRows_sample {options : WebPDecoderOptions} {width height : ℕ} (h : Fresh dec₀)
    (hio : webPIoInitFromOptions options width height true = some dec₀.io) {rescaler : WebPRescaler}
    (hwrk : dec₀.io.useScaling = true → webPRescalerInit rescaler dec₀.io.mbW dec₀.io.mbH 0
      dec₀.io.scaledWidth dec₀.io.scaledHeight 0 4 = some dec₀.scaling.rescaler)
    (hband : dec₀.io.mbH = dec₀.io.cropBottom - dec₀.io.cropTop) {j : ℕ}
    (hj : (j : ℤ) < dec₀.output.height) (c : ℕ) :
    (emittedRows dec₀ pic dec₀.io.mbH).getD j (fun _ => 0) c =
      losslessSample options width height dec₀.output.colorspace pic j c := by
  obtain ⟨-, hall⟩ := @Fresh.rows pic dec₀ h dec₀.io.mbH hband.le
  have hlen := hall hband
  have hjlen : j < (emittedRows dec₀ pic dec₀.io.mbH).length := by omega
  unfold losslessSample
  rw [hio]
  dsimp only
  unfold emittedRows at hjlen ⊢
  by_cases hu : dec₀.io.useScaling = true
  · rw [if_pos hu] at hjlen ⊢
    rw [if_pos hu]
    cases hunset :
        webPRescalerInit .unset dec₀.io.mbW dec₀.io.mbH 0 dec₀.io.scaledWidth dec₀.io.scaledHeight 0 4 with
    | none =>
      have hnone := hwrk hu
      unfold webPRescalerInit at hunset hnone
      dsimp only at hunset hnone
      by_cases hc : (!checkSizeOverflow (2 * dec₀.io.scaledWidth * 4 * 4)) = true
      · rw [if_pos hc] at hnone
        cases hnone
      · rw [if_neg hc] at hunset
        cases hunset
    | some wrk =>
      obtain ⟨heq, hunused⟩ := WebPRescaler.init_scales hunset (hwrk hu)
      have hfeed := hunused.feedAll ((windowLines pic dec₀.io dec₀.io.mbH).map premultipliedLine)
      rw [← heq] at hfeed
      dsimp only
      rw [← hfeed]
      rw [List.length_map] at hjlen
      simp only [List.getD_eq_getElem?_getD, List.getElem?_map, List.getElem?_eq_getElem hjlen, Option.map_some,
        Option.getD_some]
  · rw [if_neg hu] at hjlen ⊢
    rw [List.length_map, length_windowLines] at hjlen
    rw [if_neg hu]
    simp [List.getD_eq_getElem?_getD, windowLines, hjlen]

/-- **A lossless picture lands in its buffer.** On a buffer that was set up,
no call of `ProcessRows` fails whatever the bands are, no row is emitted below
the buffer's last, and at the end of the window the buffer holds the sample:
the bands and what the fresh memory held do not matter. -/
theorem lossless_placed {grants : Grants} {garbage garbage' : ℕ → UInt8} {options : WebPDecoderOptions}
    {width height : ℕ} {buffer output : WebPDecBuffer} {mem out : Buf} {heap heap' : Heap ObjectKind}
    {rescaler : WebPRescaler}
    (alloc : webPAllocateDecBuffer grants garbage width height options buffer mem heap = (.ok, output, out, heap'))
    (init : vp8lDecodeImageInit options width height output out rescaler garbage' = some dec₀)
    (share : ShareFits dec₀.io) (run : Emission pic dec₀ dec) :
    (∀ row cache, dec.lastRow ≤ row → row ≤ dec.lastRow + numArgbCacheRows → row ≤ dec₀.io.cropBottom →
      CacheOf pic width dec.lastRow (row - dec.lastRow) cache →
      ∃ dec', processRows dec cache row = some dec' ∧ dec'.lastRow = row) ∧
    (dec.lastOutRow : ℤ) ≤ output.height ∧
    (dec.lastRow = dec₀.io.cropBottom → dec.scaling.mem =
      out.writeRows output.rows (losslessSample options width height output.colorspace pic)) := by
  obtain ⟨hw, hh, happ, -⟩ := allocate_size alloc
  have hw' : 0 < width := by omega
  have hh' : 0 < height := by omega
  obtain ⟨hfresh, hout, hmem, hio, hwrk⟩ := init_fresh hw' hh' happ init share
  have win := ioInit_window hw' hh' hio
  have hband := win.band.2
  have he := run.emitted hfresh
  refine ⟨fun row cache le few last holds => ?_, ?_, fun hend => ?_⟩
  · obtain ⟨dec', hok, hrow, -⟩ := he.step hfresh le few last (by rw [win.source]; exact holds)
    exact ⟨dec', hok, hrow⟩
  · have hle := (@Fresh.rows pic dec₀ hfresh (dec.lastRow - dec₀.io.cropTop)
      (Nat.sub_le_sub_right he.last _)).1
    rw [he.count, ← hout]
    exact hle
  · rw [hend, ← hband] at he
    have hlen := (@Fresh.rows pic dec₀ hfresh dec₀.io.mbH hband.le).2 hband
    rw [he.mem, putRows_eq, hmem, hout]
    have hrows : (⟨output.u.rgba.getD 0, output.u.stride, output.width.toNat * kModeBpp output.colorspace,
        (emittedRows dec₀ pic dec₀.io.mbH).length⟩ : Rows) = output.rows := by
      unfold WebPDecBuffer.rows
      rw [hout] at hlen
      congr 1
      omega
    rw [hrows]
    apply Buf.writeRows_congr
    intro j hj c _
    have hj' : (j : ℤ) < dec₀.output.height := by
      unfold WebPDecBuffer.rows at hj
      dsimp only at hj
      rw [hout]
      omega
    rw [emittedRows_sample hfresh hio hwrk hband hj' c, hout]

/-- A stamp of 3 × 3, its rows from `start` on. -/
def stampRows (start : ℕ) : Buf := ⟨36, fun i => UInt8.ofNat ((start * 12 + i) * 7), by norm_num⟩

def stampPixels (y x : ℕ) : ℕ := (stampRows y).load32 (4 * x)

theorem stampRows_hold {start num : ℕ} (hn : num ≤ 3) : CacheOf stampPixels 3 start num (stampRows start) := by
  refine ⟨by change num * (3 * 4) ≤ 36; omega, fun j _ x _ => ?_⟩
  have hbyte : ∀ k, (stampRows start).byte (j * (3 * 4) + 4 * x + k) = (stampRows (start + j)).byte (4 * x + k) :=
    fun k => by
      change UInt8.ofNat _ = UInt8.ofNat _
      congr 2
      ring
  have h0 := hbyte 0
  simp only [add_zero] at h0
  simp only [stampPixels, Buf.load32, h0, hbyte]

/-- Its lower right corner, narrower and taller. -/
def stampOptions : WebPDecoderOptions where
  useCropping := true
  cropLeft := 1
  cropTop := 1
  cropWidth := 2
  cropHeight := 2
  useScaling := true
  scaledWidth := 1
  scaledHeight := 3

theorem stamp_placed : ∃ output out dec₀ dec heap, webPAllocateDecBuffer (fun _ _ _ => true) (fun _ => 7) (3 : ℕ)
      (3 : ℕ) stampOptions { colorspace := .BGRA } (stampRows 0) Heap.empty = (.ok, output, out, heap) ∧
    vp8lDecodeImageInit stampOptions 3 3 output out .unset (fun _ => 9) = some dec₀ ∧
      Emission stampPixels dec₀ dec ∧
    (dec.lastOutRow : ℤ) ≤ output.height ∧ dec.scaling.mem =
      out.writeRows output.rows (losslessSample stampOptions 3 3 output.colorspace stampPixels) := by
  rcases halloc : webPAllocateDecBuffer (fun _ _ _ => true) (fun _ => 7) (3 : ℕ) (3 : ℕ) stampOptions
    { colorspace := .BGRA } (stampRows 0) Heap.empty with ⟨status, output, out, heap⟩
  have hok : status = .ok := by
    have h : (webPAllocateDecBuffer (fun _ _ _ => true) (fun _ => 7) (3 : ℕ) (3 : ℕ) stampOptions
      { colorspace := .BGRA } (stampRows 0) Heap.empty).1 = .ok := by decide +kernel
    rwa [halloc] at h
  subst hok
  obtain ⟨dec₀, hinit⟩ :
      ∃ dec₀, vp8lDecodeImageInit stampOptions 3 3 output out .unset (fun _ => 9) = some dec₀ :=
    ⟨_, rfl⟩
  have hio : dec₀.io = ⟨3, 3, 1, 1, 3, 3, 0, 2, 2, true, 1, 3, false⟩ ∧ dec₀.lastRow = 0 := by
    cases hinit
    exact ⟨rfl, rfl⟩
  have hshare : ShareFits dec₀.io := fun _ => by
    rw [hio.1]
    norm_num
  -- two rows first, then the last
  have hrun := @Emission.start stampPixels dec₀
  obtain ⟨hgo, -, -⟩ := lossless_placed halloc hinit hshare hrun
  obtain ⟨dec, hok, hrow⟩ := hgo 2 (stampRows 0) (by rw [hio.2]; norm_num) (by rw [hio.2]; decide)
    (by rw [hio.1]; norm_num) (by rw [hio.2]; exact stampRows_hold (by norm_num))
  have hrun' := hrun.rows (by rw [hio.2]; norm_num) (by rw [hio.2]; decide) (by rw [hio.1]; norm_num)
    (by rw [hio.1, hio.2]; exact stampRows_hold (by norm_num)) hok
  obtain ⟨hgo', -, -⟩ := lossless_placed halloc hinit hshare hrun'
  obtain ⟨dec', hok', hrow'⟩ := hgo' 3 (stampRows 2) (by rw [hrow]; norm_num) (by rw [hrow]; decide)
    (by rw [hio.1]) (by rw [hrow]; exact stampRows_hold (by norm_num))
  have hrun'' := hrun'.rows (by rw [hrow]; norm_num) (by rw [hrow]; decide) (by rw [hio.1])
    (by rw [hio.1, hrow]; exact stampRows_hold (by norm_num)) hok'
  obtain ⟨-, hle, hdone⟩ := lossless_placed halloc hinit hshare hrun''
  exact ⟨output, out, dec₀, dec', heap, rfl, hinit, hrun'', hle, hdone (by rw [hrow', hio.1])⟩

end

end WebPlugin
