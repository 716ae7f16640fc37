/-
# Rescaled lossy pictures in their buffers

A band of a rescaled picture goes through `EmitRescaledRGB` and its alpha through
`EmitRescaledAlphaRGB` (`Scaled.put`). Over all the bands, whatever filter delays
them, the rows of the buffer get the bytes that the four planes give when each is
rescaled on its own (`scaledSample`).
-/
import WebPlugin.LossyBands

namespace WebPlugin

open Memory Words Pacing Ledger WebPRescaler

/-! ### Rows -/

instance : Inhabited YuvRow := ⟨⟨fun _ => 0, fun _ => 0, fun _ => 0⟩⟩

/-- The bytes of a row with its alpha, where there is alpha to put in. -/
def pixelBytes (colorspace : WebPCspMode) (putsAlpha : Bool) (row : YuvRow) (alpha : ℕ → ℕ) : ℕ → UInt8 :=
  if putsAlpha then finalBytes colorspace alpha (row.bytes colorspace) else row.bytes colorspace

/-- The bytes of the rows given. -/
def givenBytes (colorspace : WebPCspMode) (putsAlpha : Bool) (rows : List YuvRow) (arows : List (ℕ → UInt8))
    (i : ℕ) : ℕ → UInt8 :=
  pixelBytes colorspace putsAlpha (rows.getD i default) (alphaOf arows i)

theorem givenBytes_append {colorspace : WebPCspMode} {putsAlpha : Bool} {rows : List YuvRow}
    {arows : List (ℕ → UInt8)} (new : List YuvRow) (anew : List (ℕ → UInt8)) {i : ℕ}
    (hi : i < rows.length) (ha : putsAlpha = true → arows.length = rows.length) :
    givenBytes colorspace putsAlpha (rows ++ new) (arows ++ anew) i = givenBytes colorspace putsAlpha rows arows i := by
  unfold givenBytes pixelBytes
  rw [List.getD_append _ _ _ _ hi]
  by_cases hp : putsAlpha = true
  · rw [if_pos hp, if_pos hp, alphaOf_append anew (by rw [ha hp]; exact hi)]
  · rw [if_neg hp, if_neg hp]

/-- Rows put below rows. -/
theorem putRows_go {out : Buf} {r : Rows} {f g : ℕ → ℕ → UInt8} {n : ℕ} {new : List (ℕ → UInt8)}
    (hold : ∀ i < n, ∀ c < r.width, f i c = g i c)
    (hnew : ∀ k < new.length, ∀ c < r.width, g (n + k) c = new.getD k (fun _ => 0) c) :
    putRows (Buf.writeRows.go out r f n) (r.start n) r.stride r.width new =
      Buf.writeRows.go out r g (n + new.length) := by
  induction new generalizing n f with
  | nil =>
    rw [putRows, List.length_nil, add_zero]
    exact Buf.go_congr n hold
  | cons row new ih =>
    have hrow : (Buf.writeRows.go out r f n).writeRow (r.start n) r.width row = Buf.writeRows.go out r g (n + 1) := by
      rw [Buf.writeRows.go, Buf.go_congr n hold]
      apply Buf.writeRow_congr
      intro c hc
      have h0 := hnew 0 (Nat.succ_pos _) c hc
      rw [add_zero, List.getD_cons_zero] at h0
      exact h0.symm
    have hnext : r.start n + r.stride = r.start (n + 1) := by
      unfold Rows.start
      push_cast
      ring
    rw [putRows, hrow, hnext, ih (fun _ _ _ _ => rfl) fun k hk c hc => ?_, List.length_cons]
    · congr 1
      omega
    · have hk' := hnew (k + 1) (Nat.succ_lt_succ hk) c hc
      rw [List.getD_cons_succ] at hk'
      rw [← hk']
      congr 1
      omega

/-! ### A band -/

/-- The alpha scaler has the sizes of the luma scaler. -/
structure Likewise (y a : WebPRescaler) : Prop where
  src : a.srcWidth = y.srcWidth ∧ a.srcHeight = y.srcHeight
  dst : a.dstWidth = y.dstWidth ∧ a.dstHeight = y.dstHeight

/-- Whether alpha is put into the pixels. -/
def putsAlpha (colorspace : WebPCspMode) (hasAlpha : Bool) : Bool := webPIsAlphaMode colorspace && hasAlpha

/-- What has been done with the first `e` lines of the window. -/
structure Scaled (L : Planes) (t : Trio) (a₀ : WebPRescaler) (out : Buf) (hasAlpha : Bool) (p : WebPDecParams)
    (rows : List YuvRow) (arows : List (ℕ → UInt8)) (e : ℕ) : Prop where
  abreast : Abreast L t p rows
  srcY : p.scalerY.srcY = e ∧ p.scalerU.srcY = (e + 1) / 2
  stopped : ¬ (webPRescalerHasPendingOutput p.scalerY = true ∧ webPRescalerHasPendingOutput p.scalerU = true)
  lastY : p.lastY = rows.length
  emit : p.emit = .rescaledRGB
  width : p.output.width.toNat = t.y.dstWidth
  likewise : putsAlpha p.output.colorspace hasAlpha = true → Likewise t.y a₀
  alpha : putsAlpha p.output.colorspace hasAlpha = true → AlphaAt L a₀ p arows ∧ arows.length = rows.length ∧
    p.scalerA.srcY ≤ e
  mem : p.mem = Buf.writeRows.go out p.output.rows
    (givenBytes p.output.colorspace (putsAlpha p.output.colorspace hasAlpha) rows arows) rows.length

section
variable {L : Planes} {t : Trio} {a₀ : WebPRescaler} {p q : WebPDecParams} {rows : List YuvRow}
  {arows : List (ℕ → UInt8)}

theorem AlphaAt.sameCall (h : AlphaAt L a₀ p arows) (hs : SameCall p q) : AlphaAt L a₀ q arows := by
  obtain ⟨hmid, hch, hdst, hroom, hheight, hwidth, hmode⟩ := h
  obtain ⟨hout, -, -, hA, htmp⟩ := hs
  exact ⟨by rw [hA]; exact hmid, hch, hdst, by rw [htmp]; exact hroom, by rw [hout]; exact hheight,
    by rw [hout]; exact hwidth, by rw [hout]; exact hmode⟩

theorem Abreast.sameColour (h : Abreast L t p rows) (hs : SameColour p q) : Abreast L t q rows := by
  obtain ⟨hapt, hy, hu, hv, hchroma, hroom, hheight⟩ := h
  obtain ⟨hout, -, -, ⟨hY, hU, hV⟩, htmp⟩ := hs
  exact ⟨hapt, by rw [hY]; exact hy, by rw [hU]; exact hu, by rw [hV]; exact hv, by rw [hU, hV]; exact hchroma,
    by rw [htmp]; exact hroom, by rw [hout]; exact hheight⟩

theorem Likewise.shaped (h : Likewise t.y a₀) (hy : t.y.Shaped) (ha : a₀.Shaped) (i o : ℤ) :
    (yPace ha).level i o = (yPace hy).level i o := by
  rw [yPace_eq, yPace_eq]
  simp only [Pace.level, Pace.resize, h.src.2, h.dst.2]

/-- Rows that were given took no line past `e`. -/
theorem Abreast.took (h : Abreast L t p rows) {e : ℕ} (he : p.scalerY.srcY = e) {o : ℕ} (ho : o < rows.length) :
    o < t.y.dstHeight ∧ (yPace h.y.shaped).level e o ≤ 0 := by
  have hlen := h.y.steady.dstY_le
  rw [h.counts.1, h.heights.1] at hlen
  have hgiven := h.y.steady.due.given (by rw [h.counts.1]; omega)
  rw [h.y.steady.level_of h.y.shaped h.y.same, he, h.counts.1] at hgiven
  exact ⟨by omega, ((yPace h.y.shaped).level_mono e (show (o : ℤ) ≤ rows.length - 1 by omega)).trans hgiven⟩

/-- The bytes of the rows when the colour of a band is in and its alpha is not. -/
def colouredBytes (colorspace : WebPCspMode) (putsAlpha : Bool) (rows new : List YuvRow) (arows : List (ℕ → UInt8))
    (i : ℕ) : ℕ → UInt8 :=
  if i < rows.length then givenBytes colorspace putsAlpha rows arows i
  else ((rows ++ new).getD i default).bytes colorspace

/-- The colour of a band. -/
theorem Scaled.colour {out : Buf} {hasAlpha : Bool} {base : ℕ} (h : Scaled L t a₀ out hasAlpha p rows arows base)
    {io : VP8Io} {s : Samples} (hr : Reads L t.y.srcWidth s base io.mbH) (hbase : base % 2 = 0) (hpos : 0 < io.mbH)
    (hend : base + io.mbH ≤ t.y.srcHeight) :
    ∃ q new, emitRescaledRGB io s p = some (q, new.length) ∧ Abreast.BandOut L t p q rows new (base + io.mbH) ∧
      q.mem = Buf.writeRows.go out p.output.rows (colouredBytes p.output.colorspace
        (putsAlpha p.output.colorspace hasAlpha) rows new arows) (rows.length + new.length) := by
  obtain ⟨q, new, hloop, hband⟩ := @Abreast.emitRescaledRGBLoop_eq L t p rows s base io.mbH hr hbase hend
    (io.mbH + p.scalerY.dstHeight) 0 0 0 h.abreast (by rw [h.srcY.1, add_zero]) (by rw [h.srcY.2]; omega)
    (Nat.zero_le _) (Nat.zero_le _) (fun h0 => absurd h0 hpos.ne) (by rw [h.lastY, add_zero])
    (by rw [h.abreast.heights.1]; omega)
  rw [zero_add] at hloop
  refine ⟨q, new, hloop, hband, ?_⟩
  have hwidth : t.y.dstWidth * kModeBpp p.output.colorspace = p.output.rows.width := by
    unfold WebPDecBuffer.rows
    rw [h.width]
  rw [hband.mem, WebPDecParams.put, h.mem, hwidth]
  have hrows := @putRows_go out p.output.rows
    (givenBytes p.output.colorspace (putsAlpha p.output.colorspace hasAlpha) rows arows)
    (colouredBytes p.output.colorspace (putsAlpha p.output.colorspace hasAlpha) rows new arows) rows.length
    (new.map (YuvRow.bytes p.output.colorspace)) (fun i hi c _ => by rw [colouredBytes, if_pos hi]) fun k hk c _ => by
      rw [List.length_map] at hk
      rw [colouredBytes, if_neg (by omega), List.getD_append_right _ _ _ _ (by omega), Nat.add_sub_cancel_left]
      simp only [List.getD_eq_getElem?_getD, List.getElem?_map, List.getElem?_eq_getElem hk, Option.map_some,
        Option.getD_some]
  rw [List.length_map] at hrows
  exact hrows

theorem Abreast.length_le (h : Abreast L t p rows) : rows.length ≤ t.y.dstHeight := by
  rw [← h.counts.1, ← h.heights.1]
  exact h.y.steady.dstY_le

theorem Abreast.lastY (h : Abreast L t p rows) (n : ℕ) : Abreast L t { p with lastY := n } rows :=
  ⟨h.apt, h.y, h.u, h.v, h.chroma, h.room, h.height⟩

theorem AlphaAt.lastY (h : AlphaAt L a₀ p arows) (n : ℕ) : AlphaAt L a₀ { p with lastY := n } arows :=
  ⟨h.mid, h.channels, h.dst, h.room, h.height, h.width, h.mode⟩

/-- The coloured rows with the alpha of the new ones are the rows given. -/
theorem between_coloured {colorspace : WebPCspMode} {new : List YuvRow} {anew : List (ℕ → UInt8)}
    (hlen : arows.length = rows.length) {i : ℕ} (hi : i < rows.length + new.length) :
    between arows.length new.length (fun i => finalBytes colorspace (alphaOf (arows ++ anew) i)
      (colouredBytes colorspace true rows new arows i)) (colouredBytes colorspace true rows new arows) i =
      givenBytes colorspace true (rows ++ new) (arows ++ anew) i := by
  rw [hlen]
  unfold between colouredBytes
  by_cases hold : i < rows.length
  · rw [if_neg (by omega), if_pos hold, givenBytes_append new anew hold fun _ => hlen]
  · rw [if_pos (by omega)]
    dsimp only
    rw [if_neg hold]
    rfl

/-- What a band has made of the state. -/
structure Put (L : Planes) (t : Trio) (a₀ : WebPRescaler) (out : Buf) (hasAlpha : Bool) (p q : WebPDecParams)
    (e : ℕ) : Prop where
  scaled : ∃ rows arows, Scaled L t a₀ out hasAlpha q rows arows e
  output : q.output = p.output

/-- **A band is put.** Its rows come out with their alpha, whatever rows the planes were left at. -/
theorem Scaled.put {out : Buf} {hasAlpha : Bool} {base : ℕ} (h : Scaled L t a₀ out hasAlpha p rows arows base)
    (hfit : RowsFit p.output.rows out.size) {io : VP8Io} {s : Samples} (hat : io.mbY = base)
    (hr : Reads L t.y.srcWidth s base io.mbH) (hbase : base % 2 = 0) (hpos : 0 < io.mbW ∧ 0 < io.mbH)
    (hend : base + io.mbH ≤ t.y.srcHeight)
    (ha : hasAlpha = true → ∃ plane a, s.a = some (plane, a) ∧ ∀ j < base + io.mbH, ∀ x < t.y.srcWidth,
      sourceRow plane (a + ((j : ℤ) - base) * io.width) x = L.a j x)
    (hno : hasAlpha = false → s.a = none) :
    ∃ q, customPut io s p = some q ∧ Put L t a₀ out hasAlpha p q (base + io.mbH) := by
  obtain ⟨q, new, hemit, hband, hmem⟩ := h.colour hr hbase hpos.2 hend
  have hout := hband.same.output
  have hlast : p.lastY + new.length = (rows ++ new).length := by rw [h.lastY, List.length_append]
  have hroom := hband.abreast.length_le
  unfold customPut
  rw [if_neg (by omega), h.emit]
  dsimp only
  rw [hemit]
  dsimp only
  rw [hout]
  by_cases hputs : putsAlpha p.output.colorspace hasAlpha = true
  · obtain ⟨hmode, hhas⟩ := Bool.and_eq_true_iff.mp hputs
    obtain ⟨hA, hlen, hsrcA⟩ := h.alpha hputs
    obtain ⟨plane, a, hsome, hread⟩ := ha hhas
    have hlike := h.likewise hputs
    have hready : ∀ o < p.lastY + new.length,
        o < a₀.dstHeight ∧ (yPace hA.mid.shaped).level (base + io.mbH : ℕ) o ≤ 0 :=
      fun o ho => by
        obtain ⟨hlt, hl⟩ :=
          hband.abreast.took hband.srcY.1 (show o < (rows ++ new).length by rw [← hlast]; exact ho)
        rw [hlike.shaped h.abreast.y.shaped, hlike.dst.2]
        exact ⟨hlt, hl⟩
    have hlines : ∀ j < base + io.mbH, ∀ x < a₀.srcWidth,
        sourceRow plane (a + ((j : ℤ) - io.mbY) * io.width) x = L.a j x := fun j hj x hx => by
      rw [hat]
      exact hread j hj x (by rw [← hlike.src.1]; exact hx)
    obtain ⟨r, anew, hloop, halen, hao, hrmem⟩ := (hA.sameCall hband.same).emitRescaledAlphaRGBLoop_eq
      (show io.mbH + io.mbY = base + io.mbH by omega) hlines (by rw [hlike.src.2]; exact hend) hA.mid.shaped hready
      new.length (by rw [hout]; exact hfit)
      (by rw [hout, hmem, h.lastY]) (by rw [hout, hA.count, hlike.dst.2, hlast]; exact hroom)
      (by rw [hband.same.scalerA]; omega) (by rw [hlen, h.lastY]) (le_refl _)
    rw [hmode, hband.same.emit, h.emit, if_neg (by decide)]
    dsimp only
    unfold emitRescaledAlphaRGB
    rw [hsome]
    dsimp only
    rw [hband.same.lastY, hloop]
    have hrout : r.output = p.output := hao.same.output.trans hout
    have hemitr : r.emit = .rescaledRGB := (hao.same.emit.trans hband.same.emit).trans h.emit
    have hlastr : r.lastY + new.length = (rows ++ new).length := by
      rw [hao.same.lastY, hband.same.lastY, hlast]
    have halen' : (arows ++ anew).length = (rows ++ new).length := by
      rw [List.length_append, List.length_append, hlen, halen]
    refine ⟨_, rfl,
      ⟨rows ++ new, arows ++ anew, (hband.abreast.sameColour hao.same).lastY _, ?_, ?_, hlastr, hemitr, ?_,
      fun _ => hlike, fun _ => ⟨hao.alphaAt.lastY _, halen', hao.srcY⟩, ?_⟩, hrout⟩
    · dsimp only
      rw [hao.same.scalers.1, hao.same.scalers.2.1]
      exact hband.srcY
    · dsimp only
      rw [hao.same.scalers.1, hao.same.scalers.2.1]
      exact hband.stopped
    · dsimp only
      rw [hrout]
      exact h.width
    · dsimp only
      rw [hrmem, hrout, hout, hputs, hlast]
      apply Buf.go_congr
      intro i hi c _
      rw [List.length_append] at hi
      rw [between_coloured hlen hi]
  · have hnone : (if (!webPIsAlphaMode p.output.colorspace) = true then some q
        else emitRescaledAlphaRGB io s q new.length) = some q := by
      by_cases hmode : webPIsAlphaMode p.output.colorspace = true
      · have hhas : hasAlpha = false := by
          by_contra hne
          exact hputs (Bool.and_eq_true_iff.mpr ⟨hmode, by simpa using hne⟩)
        rw [hmode, if_neg (by decide)]
        unfold emitRescaledAlphaRGB
        rw [hno hhas]
      · rw [if_pos (by simpa using hmode)]
    rw [hband.same.emit, h.emit]
    dsimp only
    rw [hnone]
    refine ⟨_, rfl,
      ⟨rows ++ new, arows, hband.abreast.lastY _, hband.srcY, hband.stopped, ?_, ?_, ?_, ?_, ?_, ?_⟩, hout⟩
    · exact (congrArg (· + new.length) hband.same.lastY).trans hlast
    · exact hband.same.emit.trans h.emit
    · dsimp only
      rw [hout]
      exact h.width
    · dsimp only
      rw [hout]
      exact fun hyes => absurd hyes hputs
    · dsimp only
      rw [hout]
      exact fun hyes => absurd hyes hputs
    · dsimp only
      rw [hmem, hout, List.length_append]
      apply Buf.go_congr
      intro i hi c _
      unfold colouredBytes
      by_cases hold : i < rows.length
      · have happ := @givenBytes_append p.output.colorspace (putsAlpha p.output.colorspace hasAlpha) rows arows new []
          i hold fun hyes => absurd hyes hputs
        rw [List.append_nil] at happ
        rw [if_pos hold, happ]
      · rw [if_neg hold, givenBytes, pixelBytes, if_neg hputs]

/-! ### All the bands -/

/-- With every line in, every row is out, and the planes' rows are those of rescalers that work alone. -/
theorem Scaled.all {out : Buf} {hasAlpha : Bool} (h : Scaled L t a₀ out hasAlpha p rows arows t.y.srcHeight) :
    rows.length = t.y.dstHeight ∧
      rows.map YuvRow.y = (t.y.feedAll ((List.range t.y.srcHeight).map L.y)).2 ∧
      rows.map YuvRow.u = (t.u.feedAll ((List.range t.u.srcHeight).map L.u)).2 ∧
      rows.map YuvRow.v = (t.v.feedAll ((List.range t.v.srcHeight).map L.v)).2 ∧
      (putsAlpha p.output.colorspace hasAlpha = true →
        arows = (a₀.feedAll ((List.range a₀.srcHeight).map L.a)).2) := by
  have hs := h.abreast
  obtain ⟨hsrcY, hsrcU⟩ := h.srcY
  rw [← hs.apt.lines.1] at hsrcU
  have hlen : rows.length = t.y.dstHeight := by
    refine le_antisymm hs.length_le (not_lt.mp fun hlt => h.stopped ⟨?_, ?_⟩)
    · rw [hs.y.pending_iff, hsrcY, List.length_map]
      exact ⟨hlt, (yPace hs.y.shaped).ready_of_all (by rw [yPace_outs]; exact_mod_cast hlt)⟩
    · rw [hs.u.pending_iff, hsrcU, List.length_map, hs.apt.rows.1]
      exact ⟨hlt, (yPace hs.u.shaped).ready_of_all (by rw [yPace_outs, hs.apt.rows.1]; exact_mod_cast hlt)⟩
  obtain ⟨cY, cU, cV⟩ := hs.counts
  obtain ⟨hY, hU, hV⟩ := hs.heights
  refine ⟨hlen, hs.y.all (hsrcY.trans hs.y.same.srcHeight.symm) (by omega),
    hs.u.all (hsrcU.trans hs.u.same.srcHeight.symm) (by omega),
    hs.v.all (by rw [hs.chroma, hsrcU, hs.v.same.srcHeight, hs.apt.lines.2]) (by omega), fun hputs => ?_⟩
  obtain ⟨hA, halen, -⟩ := h.alpha hputs
  have hdst : p.scalerA.dstY = p.scalerA.dstHeight := by
    rw [hA.mid.dstY, hA.mid.same.dstHeight, (h.likewise hputs).dst.2, halen, hlen]
  refine hA.mid.all (le_antisymm hA.mid.steady.srcY_le (not_lt.mp fun hlt => ?_)) hdst
  have := hA.mid.steady.lt_dstHeight hlt
  omega

/-- **Every band goes through**, and the state is what the lines reached make it. -/
theorem finishRows_scaled {pic : Planes} {io : VP8Io} {out : Buf} {hasAlpha : Bool} {extraYRows : ℕ}
    {s : ℕ → Samples} (hb : BandsOf io extraYRows)
    (hcols : io.cropLeft < io.cropRight ∧ io.cropRight ≤ io.width)
    (hw : t.y.srcWidth = io.cropRight - io.cropLeft) (hh : t.y.srcHeight = io.cropBottom - io.cropTop)
    (h : Scaled (pic.window io) t a₀ out hasAlpha p [] [] 0) (hfit : RowsFit p.output.rows out.size)
    (hs : ∀ n < brMbY io extraYRows,
      SamplesOf pic hasAlpha io.width (reached io extraYRows n) (reached io extraYRows (n + 1)) (s n)) (n : ℕ)
    (hn : n ≤ brMbY io extraYRows) :
    ∃ q, finishRows extraYRows io s n p = some q ∧
      Put (pic.window io) t a₀ out hasAlpha p q (reached io extraYRows n - io.cropTop) := by
  refine finishRows_run (P := fun e q => Put (pic.window io) t a₀ out hasAlpha p q e) hb hcols hs
    ⟨⟨[], [], h⟩, rfl⟩ (fun io' s' q hband hq => ?_) n hn
  obtain ⟨⟨rows, arows, hq⟩, hout⟩ := hq
  have hreads := hband.reads
  have hlines := hband.lines
  have hlast := hband.last
  rw [← hw] at hreads
  obtain ⟨r, hput, hr⟩ := hq.put (by rw [hout]; exact hfit) rfl hreads hband.even (by rw [hband.columns]; omega)
    (by omega) (by rw [hw]; exact hband.alpha) hband.noAlpha
  exact ⟨r, hput, hr.scaled, hr.output.trans hout⟩

end

/-! ### The setup -/

/-- A scaler of one plane that has just been set up. -/
structure Started (w h : ℕ) (dst : ℤ) (dw dh : ℕ) (wrk : WebPRescaler) : Prop where
  idle : Idle wrk
  counts : wrk.srcY = 0 ∧ wrk.dstY = 0
  src : wrk.srcWidth = w ∧ wrk.srcHeight = h
  dims : wrk.dstWidth = dw ∧ wrk.dstHeight = dh
  dst : wrk.dst = dst
  single : wrk.numChannels = 1 ∧ wrk.dstStride = 0

theorem init_started {w h dw dh : ℕ} (hs : Sizes w h dw dh 1) (rescaler : WebPRescaler) (dst : ℤ) :
    ∃ wrk, webPRescalerInit rescaler w h dst dw dh 0 1 = some wrk ∧ Started w h dst dw dh wrk := by
  obtain ⟨wrk, hinit, hidle, h1, h2, h3, h4, h5, h6, h7, h8, h9⟩ := init_idle hs rescaler dst 0
  exact ⟨wrk, hinit, hidle, ⟨h1, h2⟩, ⟨h4, h5⟩, ⟨h6, h7⟩, h3, ⟨h8, h9⟩⟩

theorem Started.fresh {w h dw dh : ℕ} {dst : ℤ} {wrk : WebPRescaler} (hs : Started w h dst dw dh wrk)
    (lines : ℕ → ℕ → ℕ) : Midway wrk wrk lines [] :=
  .fresh hs.idle hs.counts.1 hs.counts.2 hs.single.2

/-- The rescalers of a window are in range, chroma included. -/
theorem share_sizes {w h dw dh : ℕ} (hw : 0 < w) (hh : 0 < h) (hdw : 0 < dw) (hdh : 0 < dh)
    (hshare : max w dw * h ≤ dh * 2 ^ 32) (hwork : 2 * dw * 4 < 2 ^ 32) :
    Sizes w h dw dh 1 ∧ Sizes ((w + 1) / 2) ((h + 1) / 2) dw dh 1 := by
  refine ⟨⟨hw, hh, hdw, hdh, Nat.one_pos, by omega, hshare⟩,
    ⟨by omega, by omega, hdw, hdh, Nat.one_pos, by omega, ?_⟩⟩
  exact (Nat.mul_le_mul (max_le_max (by omega) (le_refl _)) (by omega)).trans hshare

/-- The four scalers as `InitRGBRescaler` sets them up. -/
structure Inits (io : VP8Io) (p : WebPDecParams) (t : Trio) (a₀ : WebPRescaler) : Prop where
  y : webPRescalerInit p.scalerY io.mbW io.mbH 0 io.scaledWidth io.scaledHeight 0 1 = some t.y
  u : webPRescalerInit p.scalerU ((io.mbW + 1) / 2) ((io.mbH + 1) / 2) io.scaledWidth io.scaledWidth
    io.scaledHeight 0 1 = some t.u
  v : webPRescalerInit p.scalerV ((io.mbW + 1) / 2) ((io.mbH + 1) / 2) (2 * io.scaledWidth : ℕ) io.scaledWidth
    io.scaledHeight 0 1 = some t.v
  a : webPIsAlphaMode p.output.colorspace = true →
    webPRescalerInit p.scalerA io.mbW io.mbH (3 * io.scaledWidth : ℕ) io.scaledWidth io.scaledHeight 0 1 = some a₀

/-- Three scalers just set up for a picture are in step. -/
theorem abreast_start {L : Planes} {w h dw dh : ℕ} {y u v : WebPRescaler} {p : WebPDecParams}
    (hy : Started w h 0 dw dh y) (hu : Started ((w + 1) / 2) ((h + 1) / 2) dw dw dh u)
    (hv : Started ((w + 1) / 2) ((h + 1) / 2) (2 * dw : ℕ) dw dh v)
    (hp : p.scalerY = y ∧ p.scalerU = u ∧ p.scalerV = v) (hroom : 3 * dw ≤ p.tmp.size)
    (hheight : p.output.height = dh) :
    Abreast L ⟨y, u, v⟩ p [] := by
  obtain ⟨hpY, hpU, hpV⟩ := hp
  refine ⟨⟨⟨?_, ?_⟩, ⟨?_, ?_⟩, ⟨?_, ?_⟩, ⟨?_, ?_⟩, ⟨hy.single.1, hu.single.1, hv.single.1⟩,
    ⟨hy.dst, ?_, ?_⟩⟩,
    by rw [hpY]; exact hy.fresh L.y, by rw [hpU]; exact hu.fresh L.u, by rw [hpV]; exact hv.fresh L.v, ?_, ?_, ?_⟩
  · exact hu.src.2.trans (by rw [hy.src.2])
  · exact hv.src.2.trans hu.src.2.symm
  · exact hu.src.1.trans (by rw [hy.src.1])
  · exact hv.src.1.trans hu.src.1.symm
  · exact hu.dims.2.trans hy.dims.2.symm
  · exact hv.dims.2.trans hy.dims.2.symm
  · exact hu.dims.1.trans hy.dims.1.symm
  · exact hv.dims.1.trans hy.dims.1.symm
  · exact hu.dst.trans (by rw [hy.dims.1])
  · exact hv.dst.trans (by rw [hy.dims.1]; push_cast; rfl)
  · rw [hpU, hpV, hu.counts.1, hv.counts.1]
  · exact (congrArg (3 * ·) hy.dims.1).le.trans hroom
  · exact hheight.trans (by rw [hy.dims.2])

/-- **The setup of the rescalers** leaves them in step at the first line. -/
theorem initRGBRescaler_scaled {L : Planes} {options : WebPDecoderOptions} {width height : ℕ} {io : VP8Io}
    {garbage : ℕ → UInt8} {p p₀ : WebPDecParams} (hasAlpha : Bool) (win : Window options width height io)
    (happ : applyOptions width height options = some (p.output.width, p.output.height)) (hlast : p.lastY = 0)
    (hu : io.useScaling = true) (hshare : ShareFits io) (hinit : initRGBRescaler io garbage p = some p₀) :
    ∃ t a₀, Scaled L t a₀ p.mem hasAlpha p₀ [] [] 0 ∧ p₀.output = p.output ∧ Inits io p t a₀ ∧
      t.y.srcWidth = io.mbW ∧ t.y.srcHeight = io.mbH ∧ t.y.dstHeight = io.scaledHeight := by
  obtain ⟨hsw, hsh, hsize⟩ := win.scaled hu
  have hout := hsize _ happ
  rw [Prod.mk.injEq] at hout
  obtain ⟨hmbW, hmbH⟩ := win.band
  have hcols := win.columns
  have hlines := win.lines
  unfold initRGBRescaler at hinit
  dsimp only at hinit
  generalize hn : (if webPIsAlphaMode p.output.colorspace = true then 4 else 3) = numRescalers at hinit
  by_cases hcheck : checkSizeArgumentsOverflow 1 (rgbRescalerMemorySize numRescalers io.scaledWidth)
  · rw [dif_pos hcheck] at hinit
    have hlt := lt_of_check hcheck
    have hthree : 3 ≤ numRescalers := by
      rw [← hn]
      split_ifs <;> norm_num
    have hwork : 2 * io.scaledWidth * 4 < 2 ^ 32 := by
      unfold rgbRescalerMemorySize at hlt
      nlinarith
    obtain ⟨hsizes, hsizes'⟩ := share_sizes (by omega) (by omega) hsw hsh (hshare hu) hwork
    obtain ⟨y, hy, sy⟩ := init_started hsizes p.scalerY 0
    obtain ⟨u, hu', su⟩ := init_started hsizes' p.scalerU io.scaledWidth
    obtain ⟨v, hv, sv⟩ := init_started hsizes' p.scalerV (2 * io.scaledWidth : ℕ)
    obtain ⟨a, ha, sa⟩ := init_started hsizes p.scalerA (3 * io.scaledWidth : ℕ)
    rw [hy, hu', hv, ha] at hinit
    dsimp only [Option.map_some] at hinit
    have hwidth : p.output.width.toNat = y.dstWidth := by
      rw [sy.dims.1]
      omega
    have hquiet : ¬ (webPRescalerHasPendingOutput y = true ∧ webPRescalerHasPendingOutput u = true) := fun hp => by
      rw [sy.idle.quiet] at hp
      exact absurd hp.1 (by decide)
    by_cases hmode : webPIsAlphaMode p.output.colorspace = true
    · rw [if_pos hmode] at hn hinit
      subst hn
      cases hinit
      refine ⟨⟨y, u, v⟩, a,
        ⟨abreast_start sy su sv ⟨rfl, rfl, rfl⟩ (by dsimp only; omega) hout.2, ⟨sy.counts.1, su.counts.1⟩,
        hquiet, hlast, rfl, hwidth, fun _ => ⟨⟨?_, ?_⟩, ⟨?_, ?_⟩⟩,
        fun _ => ⟨⟨sa.fresh L.a, sa.single.1, ?_, ?_, ?_, ?_,
        hmode⟩, rfl, sa.counts.1.le⟩, rfl⟩, rfl, ⟨hy, hu', hv, fun _ => ha⟩, sy.src.1, sy.src.2, sy.dims.2⟩
      · exact sa.src.1.trans sy.src.1.symm
      · exact sa.src.2.trans sy.src.2.symm
      · exact sa.dims.1.trans sy.dims.1.symm
      · exact sa.dims.2.trans sy.dims.2.symm
      · rw [sa.dst, sa.dims.1]
        push_cast
        rfl
      · exact (congrArg (4 * ·) sa.dims.1).le
      · exact hout.2.trans (by rw [sa.dims.2])
      · exact hwidth.trans (sy.dims.1.trans sa.dims.1.symm)
    · rw [if_neg hmode] at hn hinit
      subst hn
      cases hinit
      have hnone : ∀ h, putsAlpha p.output.colorspace h = true → False := fun h hputs =>
        hmode (Bool.and_eq_true_iff.mp hputs).1
      exact ⟨⟨y, u, v⟩, a,
        ⟨abreast_start sy su sv ⟨rfl, rfl, rfl⟩ (le_refl _) hout.2, ⟨sy.counts.1, su.counts.1⟩,
        hquiet, hlast, rfl, hwidth, fun hputs => (hnone _ hputs).elim, fun hputs => (hnone _ hputs).elim, rfl⟩, rfl,
        ⟨hy, hu', hv, fun hyes => absurd hyes hmode⟩, sy.src.1, sy.src.2, sy.dims.2⟩
  · rw [dif_neg hcheck] at hinit
    cases hinit

/-! ### The picture -/

/-- The rows of one plane of `w × h` samples when it is rescaled on its own. -/
def scaledPlane (io : VP8Io) (w h : ℕ) (dst : ℤ) (plane : ℕ → ℕ → ℕ) : List (ℕ → UInt8) :=
  match webPRescalerInit .unset w h dst io.scaledWidth io.scaledHeight 0 1 with
  | none => []
  | some wrk => (wrk.feedAll ((List.range h).map plane)).2

/-- Byte `x` of row `y` of what a lossy picture gives that is rescaled. -/
def scaledSample (io : VP8Io) (colorspace : WebPCspMode) (hasAlpha : Bool) (pic : Planes) (y : ℕ) : ℕ → UInt8 :=
  let L := pic.window io
  let row (rows : List (ℕ → UInt8)) := rows.getD y fun _ => 0
  pixelBytes colorspace (putsAlpha colorspace hasAlpha)
    ⟨row (scaledPlane io io.mbW io.mbH 0 L.y),
      row (scaledPlane io ((io.mbW + 1) / 2) ((io.mbH + 1) / 2) io.scaledWidth L.u),
      row (scaledPlane io ((io.mbW + 1) / 2) ((io.mbH + 1) / 2) (2 * io.scaledWidth : ℕ) L.v)⟩
    (alphaOf (scaledPlane io io.mbW io.mbH (3 * io.scaledWidth : ℕ) L.a) y)

/-- What the memory of a scaler held before its setup does not matter. -/
theorem scaledPlane_eq {io : VP8Io} {w h : ℕ} {dst : ℤ} {rescaler wrk : WebPRescaler} (plane : ℕ → ℕ → ℕ)
    (hinit : webPRescalerInit rescaler w h dst io.scaledWidth io.scaledHeight 0 1 = some wrk) :
    scaledPlane io w h dst plane = (wrk.feedAll ((List.range h).map plane)).2 := by
  unfold scaledPlane
  cases hunset : webPRescalerInit .unset w h dst io.scaledWidth io.scaledHeight 0 1 with
  | none =>
    unfold webPRescalerInit at hunset hinit
    dsimp only at hunset hinit
    by_cases hc : (!checkSizeOverflow (2 * io.scaledWidth * 1 * 4)) = true
    · rw [if_pos hc] at hinit
      cases hinit
    · rw [if_neg hc] at hunset
      cases hunset
  | some wrk' =>
    obtain ⟨heq, hunused⟩ := init_scales hunset hinit
    rw [heq]
    exact (hunused.feedAll _).symm

/-- Options do not scale to sides of more than 30 bits. -/
theorem scaledSize_lt {width height w h : ℤ} {options : WebPDecoderOptions}
    (happ : applyOptions width height options = some (w, h)) (hu : options.useScaling = true) :
    w < 4294967296 ∧ h < 4294967296 := by
  unfold applyOptions at happ
  dsimp only at happ
  split at happ
  · cases happ
  · rw [if_pos hu] at happ
    unfold webPRescalerGetScaledDimensions at happ
    dsimp only at happ
    split_ifs at happ with hbad
    all_goals
      cases happ
      omega

/-- Rows of memory that fits them exactly, from the first down or, flipped, from the last up. -/
theorem rowsFit_own {w h bpp size : ℕ} (hsize : size = w * bpp * h) (flip : Bool) :
    RowsFit (if flip then ⟨(((h : ℤ) - 1) * (w * bpp : ℕ)), -((w * bpp : ℕ) : ℤ), w * bpp, h⟩
      else ⟨0, (w * bpp : ℕ), w * bpp, h⟩) size := by
  have hrow : ∀ k < h, 0 ≤ (k : ℤ) * (w * bpp : ℕ) ∧ (k : ℤ) * (w * bpp : ℕ) + (w * bpp : ℕ) ≤ size :=
    fun k hk => by
    have hle : (k + 1) * (w * bpp) ≤ h * (w * bpp) := Nat.mul_le_mul_right _ hk
    refine ⟨by positivity, ?_⟩
    rw [hsize, mul_comm (w * bpp) h]
    exact_mod_cast (by rw [← Nat.succ_mul]; exact hle : k * (w * bpp) + w * bpp ≤ h * (w * bpp))
  cases flip
  · refine ⟨le_abs_self _, fun j hj => ?_⟩
    have := hrow j hj
    simp only [Bool.false_eq_true, if_false, Rows.start, zero_add]
    exact this
  · refine ⟨by simp, fun j hj => ?_⟩
    simp only [if_true] at hj
    have := hrow (h - 1 - j) (by omega)
    simp only [if_true, Rows.start]
    rw [show ((h : ℤ) - 1) * (w * bpp : ℕ) + j * -((w * bpp : ℕ) : ℤ) =
        ((h - 1 - j : ℕ) : ℤ) * (w * bpp : ℕ) by
      rw [show ((h - 1 - j : ℕ) : ℤ) = h - 1 - j by omega]; ring]
    exact this

/-- Memory that is allocated for a picture fits its rows. -/
theorem allocate_fits {grants : Grants} {garbage : ℕ → UInt8} {width height : ℤ} {options : WebPDecoderOptions}
    {buffer output : WebPDecBuffer} {mem out : Buf} {heap heap' : Heap ObjectKind}
    (h : webPAllocateDecBuffer grants garbage width height options buffer mem heap = (.ok, output, out, heap'))
    (hown : buffer.isExternalMemory = false ∧ buffer.privateMemory = none)
    (hlt : output.width < 4294967296 ∧ output.height < 4294967296) : RowsFit output.rows out.size := by
  obtain ⟨hpos, hpos', happ, -⟩ := allocate_size h
  unfold webPAllocateDecBuffer at h
  rw [if_neg (by omega), happ] at h
  generalize output.width = w at h hlt
  generalize output.height = k at h hlt
  dsimp only at h
  rcases allocateBuffer_own grants garbage (buffer.sized w k) mem heap
    (by rw [WebPDecBuffer.sized_isExternalMemory]; exact hown.1)
    (by rw [WebPDecBuffer.sized_privateMemory]; exact hown.2) (by rw [WebPDecBuffer.sized_width]; exact hlt.1)
    (by rw [WebPDecBuffer.sized_height]; exact hlt.2) with
    ⟨status, heap₁, hbad, -, hfail⟩ | ⟨id, buf, heap₁, hw, hk, hsize, -, -, -, hok⟩
  · rw [hfail] at h
    cases status
    · exact absurd rfl hbad
    all_goals cases h
  · rw [hok] at h
    dsimp only at h
    rw [WebPDecBuffer.sized_width, WebPDecBuffer.sized_height, WebPDecBuffer.sized_colorspace] at hsize
    rw [WebPDecBuffer.sized_width] at hw
    rw [WebPDecBuffer.sized_height] at hk
    obtain ⟨w, rfl⟩ := Int.eq_ofNat_of_zero_le hw.le
    obtain ⟨k, rfl⟩ := Int.eq_ofNat_of_zero_le hk.le
    rw [Prod.mk.injEq, Prod.mk.injEq, Prod.mk.injEq] at h
    obtain ⟨-, rfl, rfl, -⟩ := h
    have hfit := rowsFit_own (show buf.size = w * kModeBpp buffer.colorspace * k by exact_mod_cast hsize) options.flip
    convert hfit using 1
    cases options.flip
    · simp [WebPDecBuffer.rows, WebPDecBuffer.owning, WebPDecBuffer.sized]
    · simp [WebPDecBuffer.rows, WebPDecBuffer.owning, WebPDecBuffer.sized, webPFlipBuffer]

/-- A row of the whole picture is the sample. -/
theorem Scaled.sample {io : VP8Io} {t : Trio} {a₀ : WebPRescaler} {out : Buf} {hasAlpha : Bool} {p q : WebPDecParams}
    {rows : List YuvRow} {arows : List (ℕ → UInt8)} {pic : Planes}
    (h : Scaled (pic.window io) t a₀ out hasAlpha q rows arows t.y.srcHeight) (hout : q.output = p.output)
    (hinits : Inits io p t a₀) (hmbH : t.y.srcHeight = io.mbH) {y : ℕ} (hy : y < rows.length) :
    givenBytes p.output.colorspace (putsAlpha p.output.colorspace hasAlpha) rows arows y =
      scaledSample io p.output.colorspace hasAlpha pic y := by
  obtain ⟨-, hallY, hallU, hallV, hallA⟩ := h.all
  have hlineU : t.u.srcHeight = (io.mbH + 1) / 2 := by rw [h.abreast.apt.lines.1, hmbH]
  have hlineV : t.v.srcHeight = (io.mbH + 1) / 2 := by rw [h.abreast.apt.lines.2, hlineU]
  rw [hmbH] at hallY
  rw [hlineU] at hallU
  rw [hlineV] at hallV
  have hfield : ∀ f : YuvRow → ℕ → UInt8, f (rows.getD y default) = (rows.map f).getD y fun _ => 0 :=
    fun f => by
    simp [List.getD_eq_getElem?_getD, hy]
  have hrow : rows.getD y default = ⟨(rows.map YuvRow.y).getD y fun _ => 0, (rows.map YuvRow.u).getD y fun _ => 0,
      (rows.map YuvRow.v).getD y fun _ => 0⟩ := by
    rw [← hfield YuvRow.y, ← hfield YuvRow.u, ← hfield YuvRow.v]
  unfold givenBytes scaledSample
  dsimp only
  rw [scaledPlane_eq _ hinits.y, scaledPlane_eq _ hinits.u, scaledPlane_eq _ hinits.v, ← hallY, ← hallU,
    ← hallV, ← hrow]
  unfold pixelBytes
  by_cases hputs : putsAlpha p.output.colorspace hasAlpha = true
  · have ha := hallA (by rw [hout]; exact hputs)
    have hlike := h.likewise (by rw [hout]; exact hputs)
    rw [hlike.src.2, hmbH] at ha
    rw [if_pos hputs, if_pos hputs, scaledPlane_eq _ (hinits.a (Bool.and_eq_true_iff.mp hputs).1), ← ha]
  · rw [if_neg hputs, if_neg hputs]

/-- **A rescaled lossy picture lands in its buffer.** Whatever in-loop filter delays the rows, every band goes
through: no `assert` fails, the loops over lines and rows end, no row is emitted below the last, and at the
bottom of the window each row of the buffer holds what the planes give when each is rescaled on its own. -/
theorem lossyScaled_placed {grants : Grants} {garbage garbage' : ℕ → UInt8} {options : WebPDecoderOptions}
    {width height : ℕ} {buffer output : WebPDecBuffer} {mem out : Buf} {heap heap' : Heap ObjectKind} {io : VP8Io}
    {p p₀ : WebPDecParams} {pic : Planes} {hasAlpha : Bool} {s : ℕ → Samples} (filterType : Fin 3)
    (alloc : webPAllocateDecBuffer grants garbage width height options buffer mem heap = (.ok, output, out, heap'))
    (params : p.output = output ∧ p.mem = out ∧ p.lastY = 0)
    (setup : customSetup options width height garbage' p = some (io, p₀)) (scaling : options.useScaling = true)
    (share : ShareFits io)
    (fits : buffer.isExternalMemory = false ∧ buffer.privateMemory = none ∨ RowsFit output.rows out.size)
    (samples : ∀ n < brMbY io (kFilterExtraRows filterType), SamplesOf pic hasAlpha width
      (reached io (kFilterExtraRows filterType) n) (reached io (kFilterExtraRows filterType) (n + 1)) (s n)) :
    (∀ n ≤ brMbY io (kFilterExtraRows filterType), ∃ q,
      finishRows (kFilterExtraRows filterType) io s n p₀ = some q ∧ (q.lastY : ℤ) ≤ output.height) ∧
    ∃ q, finishRows (kFilterExtraRows filterType) io s (brMbY io (kFilterExtraRows filterType)) p₀ = some q ∧
      (q.lastY : ℤ) = output.height ∧
      q.mem = out.writeRows output.rows (scaledSample io output.colorspace hasAlpha pic) := by
  obtain ⟨rfl, rfl, hlast⟩ := params
  obtain ⟨hw, hh, happ, -⟩ := allocate_size alloc
  have hfit := fits.elim (fun hown => allocate_fits alloc hown (scaledSize_lt happ scaling)) id
  unfold customSetup at setup
  cases hio : webPIoInitFromOptions options width height false with
  | none =>
    rw [hio] at setup
    cases setup
  | some io' =>
    have win := ioInit_window (by omega) (by omega) hio
    have hu : io'.useScaling = true := by rw [win.useScaling, scaling]
    rw [hio] at setup
    dsimp only at setup
    rw [if_pos hu] at setup
    obtain ⟨p₁, hinit, heq⟩ := Option.map_eq_some_iff.mp setup
    cases heq
    obtain ⟨hheight, htop, hleft, -⟩ := ioInit_snapped hio
    obtain ⟨t, a₀, hstart, hout, hinits, hsrcW, hsrcH, hdstH⟩ :=
      @initRGBRescaler_scaled (pic.window io) _ _ _ _ _ _ _ hasAlpha win happ hlast hu share hinit
    obtain ⟨heven, hfew⟩ := kFilterExtraRows_even filterType
    have hb : BandsOf io (kFilterExtraRows filterType) :=
      ⟨heven, hfew, ⟨win.lines.1, by rw [hheight]; exact win.lines.2⟩, htop, hleft⟩
    have hrun := finishRows_scaled hb ⟨win.columns.1, by rw [win.source]; exact win.columns.2⟩
      (hsrcW.trans win.band.1) (hsrcH.trans win.band.2) hstart (by rw [hout]; exact hfit)
      (by rw [win.source]; exact samples)
    have hrows : ∀ {q rows arows e}, Scaled (pic.window io) t a₀ p.mem hasAlpha q rows arows e →
        (t.y.dstHeight : ℤ) = p.output.height ∧ rows.length ≤ t.y.dstHeight := fun {q rows arows e} hq =>
      ⟨by rw [← hout]; exact hstart.abreast.height.symm, hq.abreast.length_le⟩
    refine ⟨fun n hn => ?_, ?_⟩
    · obtain ⟨q, hq, ⟨rows, arows, hs⟩, -⟩ := hrun n hn
      obtain ⟨hH, hle⟩ := hrows hs
      exact ⟨q, hq, by rw [hs.lastY]; omega⟩
    · obtain ⟨q, hq, ⟨rows, arows, hs⟩, hqout⟩ := hrun _ (le_refl _)
      obtain ⟨hH, -⟩ := hrows hs
      rw [hb.last.2, ← win.band.2, ← hsrcH] at hs
      obtain ⟨hlen, -⟩ := hs.all
      refine ⟨q, hq, by rw [hs.lastY, hlen]; exact hH, ?_⟩
      have hcount : p.output.rows.count = rows.length := by
        unfold WebPDecBuffer.rows
        dsimp only
        omega
      rw [hs.mem, hqout, hout, Buf.writeRows, hcount]
      apply Buf.go_congr
      intro y hy c _
      rw [hs.sample (hqout.trans hout) hinits hsrcH hy]

/-- A picture whose samples are the number of their column. -/
def rampPlanes : Planes := ⟨fun _ x => x, fun _ x => x, fun _ x => x, fun _ x => x⟩

/-- Its samples, whatever the band. -/
def rampSamples : Samples where
  cache := ⟨1024, fun i => UInt8.ofNat (i % 32), by norm_num⟩
  y := 0
  u := 0
  v := 0
  yStride := 32
  uvStride := 32
  a := some (⟨120, fun i => UInt8.ofNat (i % 6), by norm_num⟩, 0)

theorem rampSamples_hold (yStart yEnd : ℕ) : SamplesOf rampPlanes true 6 yStart yEnd rampSamples := by
  have hrow : ∀ j x : ℕ, x < 6 → sourceRow rampSamples.cache (0 + j * (32 : ℕ)) x = x := fun j x hx => by
    have hat : (0 + (j : ℤ) * (32 : ℕ) + x).toNat = j * 32 + x := by omega
    unfold sourceRow Buf.get
    rw [hat]
    change (UInt8.ofNat ((j * 32 + x) % 32)).toNat = x
    rw [show (j * 32 + x) % 32 = x by omega, UInt8.toNat_ofNat']
    omega
  refine ⟨fun j _ x hx => hrow j x hx, fun j _ x hx => hrow j x (by omega), fun j _ x hx => hrow j x (by omega),
    fun _ => ⟨_, _, rfl, fun j _ x hx => ?_⟩, fun h => absurd h (by decide)⟩
  have hat : (0 + (j : ℤ) * (6 : ℕ) + x).toNat = j * 6 + x := by omega
  unfold sourceRow Buf.get
  rw [hat]
  change (UInt8.ofNat ((j * 6 + x) % 6)).toNat = x
  rw [show (j * 6 + x) % 6 = x by omega, UInt8.toNat_ofNat']
  omega

/-- A window of it, wider and shorter and from the bottom up. -/
def rampOptions : WebPDecoderOptions where
  useCropping := true
  cropLeft := 3
  cropTop := 3
  cropWidth := 3
  cropHeight := 17
  useScaling := true
  scaledWidth := 4
  scaledHeight := 5
  flip := true

/-- Parameters that are not set up yet. -/
def WebPDecParams.reset (output : WebPDecBuffer) (mem : Buf) : WebPDecParams :=
  ⟨output, mem, mem, 0, .fancyRGB, .unset, .unset, .unset, .unset⟩

theorem ramp_placed :
    ∃ output out io p₀ heap q, webPAllocateDecBuffer (fun _ _ _ => true) (fun _ => 7) (6 : ℕ) (20 : ℕ)
      rampOptions { colorspace := .rgbA } rampSamples.cache Heap.empty = (.ok, output, out, heap) ∧
    customSetup rampOptions 6 20 (fun _ => 9) (.reset output out) = some (io, p₀) ∧
    finishRows (kFilterExtraRows 2) io (fun _ => rampSamples) (brMbY io (kFilterExtraRows 2)) p₀ = some q ∧
    (q.lastY : ℤ) = output.height ∧
    q.mem = out.writeRows output.rows (scaledSample io output.colorspace true rampPlanes) := by
  rcases halloc : webPAllocateDecBuffer (fun _ _ _ => true) (fun _ => 7) (6 : ℕ) (20 : ℕ) rampOptions
    { colorspace := .rgbA } rampSamples.cache Heap.empty with ⟨status, output, out, heap⟩
  have hok : status = .ok := by
    have h : (webPAllocateDecBuffer (fun _ _ _ => true) (fun _ => 7) (6 : ℕ) (20 : ℕ) rampOptions
      { colorspace := .rgbA } rampSamples.cache Heap.empty).1 = .ok := by decide +kernel
    rwa [halloc] at h
  subst hok
  have hcolour : output.colorspace = .rgbA := (allocate_size halloc).2.2.2
  have hmode : webPIsAlphaMode (WebPDecParams.reset output out).output.colorspace = true :=
    congrArg webPIsAlphaMode hcolour
  obtain ⟨p₀, hinit⟩ :
      ∃ p₀, initRGBRescaler ⟨6, 20, 2, 2, 5, 19, 0, 3, 17, true, 4, 5, false⟩ (fun _ => 9)
      (.reset output out) = some p₀ := by
    unfold initRGBRescaler
    dsimp only
    rw [hmode, if_pos rfl, dif_pos (by decide)]
    exact ⟨_, rfl⟩
  have hsetup : customSetup rampOptions 6 20 (fun _ => 9) (.reset output out) =
      some (⟨6, 20, 2, 2, 5, 19, 0, 3, 17, true, 4, 5, false⟩, p₀) := by
    have hio : webPIoInitFromOptions rampOptions 6 20 false =
        some ⟨6, 20, 2, 2, 5, 19, 0, 3, 17, true, 4, 5, false⟩ := rfl
    unfold customSetup
    rw [hio]
    dsimp only
    rw [if_pos rfl, hinit]
    rfl
  obtain ⟨-, q, hrun, hlast, hmem⟩ := lossyScaled_placed 2 halloc ⟨rfl, rfl, rfl⟩ hsetup rfl
    (fun _ => by norm_num) (.inl ⟨rfl, rfl⟩) fun n _ => rampSamples_hold _ _
  exact ⟨output, out, _, p₀, heap, q, rfl, hsetup, hrun, hlast, hmem⟩

end WebPlugin
