/-
# Three scalers in lock-step

Chroma has half the lines of luma, rounded up, and both are scaled to the same
rows. `EmitRescaledRGB` drives the three scalers by what is pending in each. The
rates of the two heights keep them together (`Pace.resize_ahead`,
`Pace.resize_behind`): the chroma a row wants is there whenever its luma is, and
the last luma line of a band is only taken once the chroma of the band is wanted.
So the loop ends with every line of the band taken, and its rows are those of
three scalers that work on their own.
-/
import WebPlugin.EmitPlanes
import WebPlugin.Midway

namespace WebPlugin

open Memory Words Pacing WebPRescaler

/-! ### States -/

/-- The planes of a picture, from the first row and column of its window on. -/
structure Planes where
  y : ℕ → ℕ → ℕ
  u : ℕ → ℕ → ℕ
  v : ℕ → ℕ → ℕ
  a : ℕ → ℕ → ℕ

/-- The cache holds `mbH` lines of luma, of `w` samples each, from line `base` on, and the chroma lines that
belong to them. -/
structure Reads (L : Planes) (w : ℕ) (s : Samples) (base mbH : ℕ) : Prop where
  y : ∀ j < mbH, ∀ x < w, sourceRow s.cache (s.y + j * s.yStride) x = L.y (base + j) x
  u : ∀ j < (mbH + 1) / 2, ∀ x < (w + 1) / 2, sourceRow s.cache (s.u + j * s.uvStride) x = L.u (base / 2 + j) x
  v : ∀ j < (mbH + 1) / 2, ∀ x < (w + 1) / 2, sourceRow s.cache (s.v + j * s.uvStride) x = L.v (base / 2 + j) x

/-- A row of the three scalers. -/
structure YuvRow where
  y : ℕ → UInt8
  u : ℕ → UInt8
  v : ℕ → UInt8

/-- The bytes of a row of pixels. -/
def YuvRow.bytes (colorspace : WebPCspMode) (row : YuvRow) : ℕ → UInt8 :=
  yuvByte colorspace (fun x => (row.y x).toNat) (fun x => (row.u x).toNat) fun x => (row.v x).toNat

/-- Three scalers of one picture, at its start. -/
structure Trio where
  y : WebPRescaler
  u : WebPRescaler
  v : WebPRescaler

/-- They scale a picture and its halved chroma to one size, into three rows of memory. -/
structure Trio.Apt (t : Trio) : Prop where
  lines : t.u.srcHeight = (t.y.srcHeight + 1) / 2 ∧ t.v.srcHeight = t.u.srcHeight
  columns : t.u.srcWidth = (t.y.srcWidth + 1) / 2 ∧ t.v.srcWidth = t.u.srcWidth
  rows : t.u.dstHeight = t.y.dstHeight ∧ t.v.dstHeight = t.y.dstHeight
  width : t.u.dstWidth = t.y.dstWidth ∧ t.v.dstWidth = t.y.dstWidth
  channels : t.y.numChannels = 1 ∧ t.u.numChannels = 1 ∧ t.v.numChannels = 1
  dst : t.y.dst = 0 ∧ t.u.dst = t.y.dstWidth ∧ t.v.dst = 2 * t.y.dstWidth

section
variable {t : Trio} {i o : ℤ}

/-- A row that has its luma wants no chroma but half of it and one line more. -/
theorem Trio.Apt.ahead (h : t.Apt) (hy : t.y.Shaped) (hu : t.u.Shaped) (ho : 0 ≤ o) (ho' : o < t.y.dstHeight)
    (hl : (yPace hy).level i o ≤ 0) : (yPace hu).level (i / 2 + 1) o ≤ 0 := by
  rw [yPace_eq] at hl
  have hahead := @Pace.resize_ahead _ _ _ _ _ _ t.u.srcHeight hu.srcHeight (by have := h.lines.1; omega) ho ho' hl
  rw [yPace_eq]
  simpa only [Pace.level, Pace.resize, h.rows.1] using hahead

/-- A row that has its chroma wants no more luma than twice as much. -/
theorem Trio.Apt.behind (h : t.Apt) (hy : t.y.Shaped) (hu : t.u.Shaped) (ho : 0 ≤ o) (ho' : o < t.y.dstHeight)
    (hl : (yPace hu).level i o ≤ 0) : (yPace hy).level (2 * i) o ≤ 0 := by
  rw [yPace_eq] at hl ⊢
  simp only [Pace.level, Pace.resize, h.rows.1] at hl
  refine @Pace.resize_behind _ _ _ _ o t.u.srcHeight hu.srcHeight (by have := h.lines.1; omega) ho ho' i ?_
  simpa only [Pace.level, Pace.resize] using hl

end

/-- The scalers of a decoder that has given `rows`. -/
structure Abreast (L : Planes) (t : Trio) (p : WebPDecParams) (rows : List YuvRow) : Prop where
  apt : t.Apt
  y : Midway t.y p.scalerY L.y (rows.map YuvRow.y)
  u : Midway t.u p.scalerU L.u (rows.map YuvRow.u)
  v : Midway t.v p.scalerV L.v (rows.map YuvRow.v)
  chroma : p.scalerV.srcY = p.scalerU.srcY
  room : 3 * t.y.dstWidth ≤ p.tmp.size
  height : p.output.height = t.y.dstHeight

/-- Nothing has changed but the three scalers and the memory. -/
structure SameCall (p p' : WebPDecParams) : Prop where
  output : p'.output = p.output
  lastY : p'.lastY = p.lastY
  emit : p'.emit = p.emit
  scalerA : p'.scalerA = p.scalerA
  tmp : p'.tmp.size = p.tmp.size

theorem SameCall.refl (p : WebPDecParams) : SameCall p p := ⟨rfl, rfl, rfl, rfl, rfl⟩

theorem SameCall.trans {p q r : WebPDecParams} (h : SameCall p q) (h' : SameCall q r) : SameCall p r :=
  ⟨h'.output.trans h.output, h'.lastY.trans h.lastY, h'.emit.trans h.emit, h'.scalerA.trans h.scalerA,
    h'.tmp.trans h.tmp⟩

theorem SameCall.rowPtr {p p' : WebPDecParams} (h : SameCall p p') (y : ℤ) : p'.rowPtr y = p.rowPtr y := by
  unfold WebPDecParams.rowPtr
  rw [h.output]

namespace Abreast

variable {L : Planes} {t : Trio} {p : WebPDecParams} {rows : List YuvRow}

theorem counts (h : Abreast L t p rows) : p.scalerY.dstY = rows.length ∧ p.scalerU.dstY = rows.length ∧
    p.scalerV.dstY = rows.length := by
  refine ⟨?_, ?_, ?_⟩
  · rw [h.y.dstY, List.length_map]
  · rw [h.u.dstY, List.length_map]
  · rw [h.v.dstY, List.length_map]

theorem heights (h : Abreast L t p rows) : p.scalerY.dstHeight = t.y.dstHeight ∧
    p.scalerU.dstHeight = t.y.dstHeight ∧ p.scalerV.dstHeight = t.y.dstHeight :=
  ⟨h.y.same.dstHeight, h.u.same.dstHeight.trans h.apt.rows.1, h.v.same.dstHeight.trans h.apt.rows.2⟩

/-- The two chroma scalers are at the same level. -/
theorem levels (h : Abreast L t p rows) : p.scalerU.yAccum = p.scalerV.yAccum ∧ p.scalerU.ySub = p.scalerV.ySub := by
  obtain ⟨-, hu, hv⟩ := h.counts
  obtain ⟨-, huH, hvH⟩ := h.heights
  have hsrc : p.scalerU.srcHeight = p.scalerV.srcHeight := by
    rw [h.u.same.srcHeight, h.v.same.srcHeight, h.apt.lines.2]
  have hsub : (p.scalerU.ySub : ℤ) = p.scalerV.ySub := by
    rw [← yPace_sub h.u.steady.shaped, ← yPace_sub h.v.steady.shaped, yPace_eq, yPace_eq]
    simp only [Pace.resize, hsrc, huH, hvH]
  refine ⟨?_, by exact_mod_cast hsub⟩
  rw [h.u.steady.level, h.v.steady.level, yPace_eq, yPace_eq]
  simp only [Pace.level, Pace.resize, hsrc, huH, hvH, hu, hv, h.chroma]

theorem pending_uv (h : Abreast L t p rows) :
    webPRescalerHasPendingOutput p.scalerV = webPRescalerHasPendingOutput p.scalerU := by
  obtain ⟨-, hu, hv⟩ := h.counts
  obtain ⟨-, huH, hvH⟩ := h.heights
  unfold webPRescalerHasPendingOutput webPRescalerOutputDone
  rw [hu, hv, huH, hvH, h.levels.1]

end Abreast

/-! ### Rows -/

/-- Three rows written one behind the other are read back. -/
theorem dstRow_three {tmp : Buf} {w : ℕ} (hroom : 3 * w ≤ tmp.size) (fy fu fv : ℕ → UInt8) {x : ℕ}
    (hx : x < w) :
    (((tmp.writeRow 0 w fy).writeRow w w fu).writeRow (2 * w) w fv).byte x = fy x ∧
    (((tmp.writeRow 0 w fy).writeRow w w fu).writeRow (2 * w) w fv).byte (w + x) = fu x ∧
    (((tmp.writeRow 0 w fy).writeRow w w fu).writeRow (2 * w) w fv).byte (2 * w + x) = fv x := by
  refine ⟨?_, ?_, ?_⟩
  · rw [Buf.writeRow_out (by omega), Buf.writeRow_out (by omega)]
    exact Buf.writeRow_in hx (by omega) (by omega)
  · rw [Buf.writeRow_out (by push_cast; omega)]
    exact Buf.writeRow_in hx (by push_cast; ring) (by rw [Buf.writeRow_size]; omega)
  · exact Buf.writeRow_in hx (by push_cast; ring) (by rw [Buf.writeRow_size, Buf.writeRow_size]; omega)

theorem yuvByte_congr {colorspace : WebPCspMode} {y u v y' u' v' : ℕ → ℕ} {n c : ℕ}
    (h : ∀ x < n, y x = y' x ∧ u x = u' x ∧ v x = v' x) (hc : c < n * kModeBpp colorspace) :
    yuvByte colorspace y u v c = yuvByte colorspace y' u' v' c := by
  obtain ⟨hy, hu, hv⟩ := h (c / kModeBpp colorspace) ((Nat.div_lt_iff_lt_mul (kModeBpp_pos' colorspace)).mpr hc)
  unfold yuvByte
  dsimp only
  rw [hy, hu, hv]

/-- The pixel width of a row and the bytes of new rows below the others. -/
def WebPDecParams.put (p : WebPDecParams) (width yPos : ℕ) (rows : List YuvRow) : Buf :=
  putRows p.mem (p.rowPtr yPos) p.output.u.stride (width * kModeBpp p.output.colorspace)
    (rows.map (YuvRow.bytes p.output.colorspace))

/-- Rows put below rows that were put. -/
theorem SameCall.put {p q : WebPDecParams} (h : SameCall p q) {width yPos : ℕ} {rows : List YuvRow}
    (hmem : q.mem = p.put width yPos rows) (rows' : List YuvRow) :
    q.put width (yPos + rows.length) rows' = p.put width yPos (rows ++ rows') := by
  rw [WebPDecParams.put, hmem, h.rowPtr, h.output, WebPDecParams.put, WebPDecParams.put, List.map_append,
    putRows_append, List.length_map]
  congr 1
  unfold WebPDecParams.rowPtr
  push_cast
  ring

namespace Abreast

variable {L : Planes} {t : Trio} {p : WebPDecParams} {rows : List YuvRow}

/-- The row that is pending in the three scalers. -/
def pendingRow (p : WebPDecParams) : YuvRow := ⟨p.scalerY.exported, p.scalerU.exported, p.scalerV.exported⟩

/-- The memory that a row is exported to, before it is converted. -/
def exportedTmp (t : Trio) (p : WebPDecParams) : Buf :=
  ((p.tmp.writeRow 0 t.y.dstWidth p.scalerY.exported).writeRow t.y.dstWidth t.y.dstWidth p.scalerU.exported).writeRow
    (2 * t.y.dstWidth) t.y.dstWidth p.scalerV.exported

/-- A turn of `ExportRGB`. -/
theorem turn (h : Abreast L t p rows) (hy : webPRescalerHasPendingOutput p.scalerY = true)
    (hu : webPRescalerHasPendingOutput p.scalerU = true) (n : ℕ) :
    ∃ q, Abreast L t q (rows ++ [pendingRow p]) ∧ SameCall p q ∧ q.scalerY.srcY = p.scalerY.srcY ∧
      q.scalerU.srcY = p.scalerU.srcY ∧ q.mem = p.put t.y.dstWidth rows.length [pendingRow p] ∧
      exportRGBLoop (n + 1) p rows.length = (exportRGBLoop n q (rows.length + 1)).map fun (p, k) => (p, k + 1) := by
  have hv : webPRescalerHasPendingOutput p.scalerV = true := by rw [h.pending_uv, hu]
  obtain ⟨hchY, hchU, hchV⟩ := h.apt.channels
  obtain ⟨hdY, hdU, hdV⟩ := h.apt.dst
  obtain ⟨hwU, hwV⟩ := h.apt.width
  have hlenY : p.scalerY.rowLength = t.y.dstWidth := by
    rw [WebPRescaler.rowLength, h.y.same.dstWidth, h.y.same.numChannels, hchY, mul_one]
  have hlenU : p.scalerU.rowLength = t.y.dstWidth := by
    rw [WebPRescaler.rowLength, h.u.same.dstWidth, h.u.same.numChannels, hchU, mul_one, hwU]
  have hlenV : p.scalerV.rowLength = t.y.dstWidth := by
    rw [WebPRescaler.rowLength, h.v.same.dstWidth, h.v.same.numChannels, hchV, mul_one, hwV]
  have hY := h.y.give hy
  have hU := h.u.give hu
  have hV := h.v.give hv
  have hsize : (exportedTmp t p).size = p.tmp.size := by
    unfold exportedTmp
    rw [Buf.writeRow_size, Buf.writeRow_size, Buf.writeRow_size]
  refine ⟨{ p with
      mem := p.put t.y.dstWidth rows.length [pendingRow p]
      tmp := exportedTmp t p
      scalerY := p.scalerY.rowOut
      scalerU := p.scalerU.rowOut
      scalerV := p.scalerV.rowOut }, ⟨h.apt, ?_, ?_, ?_, h.chroma, ?_, h.height⟩,
    ⟨rfl, rfl, rfl, rfl, hsize⟩, rfl, rfl, rfl, ?_⟩
  · rw [List.map_append]
    exact hY
  · rw [List.map_append]
    exact hU
  · rw [List.map_append]
    exact hV
  · rw [hsize]
    exact h.room
  · have hlt : ((rows.length : ℕ) : ℤ) < p.output.height := by
      have hlt := (WebPRescaler.pending_iff.mp hy).1
      rw [h.counts.1, h.heights.1] at hlt
      rw [h.height]
      exact_mod_cast hlt
    rw [exportRGBLoop, hy, hu, if_pos (by decide)]
    dsimp only
    rw [if_neg (not_not.mpr ⟨hlt, h.levels.1⟩), exportRow_eq h.y.steady hy]
    dsimp only
    rw [exportRow_eq h.u.steady hu]
    dsimp only
    rw [exportRow_eq h.v.steady hv]
    dsimp only
    rw [h.y.dst, h.u.dst, h.v.dst, hdY, hdU, hdV, hlenY, hlenU, hlenV]
    have hmem : p.mem.writeRow (p.rowPtr rows.length) (p.scalerY.rowOut.dstWidth * kModeBpp p.output.colorspace)
        (yuvByte p.output.colorspace (dstRow (exportedTmp t p) p.scalerY.rowOut)
          (dstRow (exportedTmp t p) p.scalerU.rowOut)
          (dstRow (exportedTmp t p) p.scalerV.rowOut)) = p.put t.y.dstWidth rows.length [pendingRow p] := by
      have hw : p.scalerY.rowOut.dstWidth = t.y.dstWidth := h.y.same.dstWidth
      have hrow : ∀ {wrk : WebPRescaler} {i : ℕ}, wrk.dst = i → ∀ x, dstRow (exportedTmp t p) wrk x =
          ((exportedTmp t p).byte (i + x)).toNat := fun {wrk i} hat x => by
        rw [dstRow, hat]
        rfl
      rw [hw, WebPDecParams.put, List.map_singleton, putRows, putRows]
      apply Buf.writeRow_congr
      intro c hc
      apply yuvByte_congr _ hc
      intro x hx
      obtain ⟨rY, rU, rV⟩ := dstRow_three h.room p.scalerY.exported p.scalerU.exported p.scalerV.exported hx
      refine ⟨?_, ?_, ?_⟩
      · rw [@hrow _ 0 (by rw [hY.dst, hdY]; rfl), zero_add]
        exact congrArg UInt8.toNat rY
      · rw [@hrow _ t.y.dstWidth (by rw [hU.dst, hdU])]
        exact congrArg UInt8.toNat rU
      · rw [@hrow _ (2 * t.y.dstWidth) (by rw [hV.dst, hdV]; push_cast; rfl)]
        exact congrArg UInt8.toNat rV
    rw [← hmem]
    rfl

/-- What a call has exported. -/
structure Exported (L : Planes) (t : Trio) (p q : WebPDecParams) (rows new : List YuvRow) : Prop where
  abreast : Abreast L t q (rows ++ new)
  same : SameCall p q
  srcY : q.scalerY.srcY = p.scalerY.srcY ∧ q.scalerU.srcY = p.scalerU.srcY
  mem : q.mem = p.put t.y.dstWidth rows.length new
  stopped : ¬ (webPRescalerHasPendingOutput q.scalerY = true ∧ webPRescalerHasPendingOutput q.scalerU = true)
  some : webPRescalerHasPendingOutput p.scalerY = true → webPRescalerHasPendingOutput p.scalerU = true →
    0 < new.length

/-- **Rows are exported** as long as luma and chroma have one, and no `assert` on
the way fails. -/
theorem exportRGBLoop_eq (n : ℕ) (h : Abreast L t p rows) (hn : t.y.dstHeight ≤ rows.length + n) :
    ∃ q new, exportRGBLoop n p rows.length = some (q, new.length) ∧ Exported L t p q rows new := by
  induction n generalizing p rows with
  | zero =>
    have hy : webPRescalerHasPendingOutput p.scalerY = false := by
      rw [← Bool.not_eq_true, WebPRescaler.pending_iff, h.counts.1, h.heights.1]
      omega
    refine ⟨p, [], ?_, by rw [List.append_nil]; exact h, .refl p, ⟨rfl, rfl⟩, rfl, fun hp => ?_, fun hp => ?_⟩
    · rw [exportRGBLoop, hy, if_neg (by simp)]
      rfl
    · rw [hy] at hp
      exact absurd hp.1 (by decide)
    · rw [hy] at hp
      cases hp
  | succ n ih =>
    by_cases hp : webPRescalerHasPendingOutput p.scalerY = true ∧ webPRescalerHasPendingOutput p.scalerU = true
    · obtain ⟨q, hq, hsame, hsrcY, hsrcU, hmem, hturn⟩ := h.turn hp.1 hp.2 n
      obtain ⟨r, new, hloop, hr⟩ := ih hq (by rw [List.length_append, List.length_singleton]; omega)
      rw [List.length_append, List.length_singleton] at hloop
      refine ⟨r, pendingRow p :: new, ?_, ?_, hsame.trans hr.same,
        ⟨hr.srcY.1.trans hsrcY, hr.srcY.2.trans hsrcU⟩, ?_,
        hr.stopped, fun _ _ => Nat.succ_pos _⟩
      · rw [hturn, hloop]
        rfl
      · have hall := hr.abreast
        rw [List.append_assoc, List.singleton_append] at hall
        exact hall
      · rw [hr.mem, List.length_append]
        exact hsame.put hmem new
    · refine ⟨p, [], ?_, by rw [List.append_nil]; exact h, .refl p, ⟨rfl, rfl⟩, rfl, hp,
        fun hy hu => absurd ⟨hy, hu⟩ hp⟩
      rw [exportRGBLoop, if_neg (by rw [Bool.and_eq_true]; exact hp)]
      rfl

theorem exportRGB_eq (h : Abreast L t p rows) :
    ∃ q new, exportRGB p rows.length = some (q, new.length) ∧ Exported L t p q rows new := by
  unfold exportRGB
  refine h.exportRGBLoop_eq _ ?_
  rw [h.counts.1, h.heights.1]
  omega

/-! ### Lines -/

/-- What has become of the chroma scalers after an import. -/
structure Chroma (L : Planes) (t : Trio) (p q : WebPDecParams) (rows : List YuvRow) (k n : ℕ) : Prop where
  abreast : Abreast L t q rows
  same : SameCall p q
  mem : q.mem = p.mem
  scalerY : q.scalerY = p.scalerY
  srcY : q.scalerU.srcY = p.scalerU.srcY + k
  le : k ≤ n
  stopped : k = n ∨ webPRescalerHasPendingOutput q.scalerU = true

/-- **The two chroma scalers take the same lines**: up to a pending row, or all of
the band. -/
theorem importChroma_eq (h : Abreast L t p rows) {s : Samples} {base mbH uvJ : ℕ}
    (hr : Reads L t.y.srcWidth s base mbH) (hbase : base % 2 = 0) (hsrc : p.scalerU.srcY = base / 2 + uvJ)
    (hle : uvJ ≤ (mbH + 1) / 2) (hend : base + mbH ≤ t.y.srcHeight) :
    ∃ q k, importChroma s p ((mbH + 1) / 2) uvJ = some (q, k) ∧ Chroma L t p q rows k ((mbH + 1) / 2 - uvJ) := by
  have huH : p.scalerU.srcHeight = (t.y.srcHeight + 1) / 2 := by rw [h.u.same.srcHeight, h.apt.lines.1]
  have hvH : p.scalerV.srcHeight = (t.y.srcHeight + 1) / 2 := by
    rw [h.v.same.srcHeight, h.apt.lines.2, h.apt.lines.1]
  generalize hn : (mbH + 1) / 2 - uvJ = n
  have hcast : (((mbH + 1) / 2 : ℕ) : ℤ) - uvJ = n := by omega
  unfold importChroma
  rw [hcast, hn]
  by_cases hneed : webPRescaleNeededLines p.scalerU n ≠ 0
  · have hptr : ∀ (b : ℤ) (j : ℕ),
        b + uvJ * s.uvStride + j * s.uvStride = b + ((uvJ + j : ℕ) : ℤ) * s.uvStride :=
      fun b j => by
        push_cast
        ring
    obtain ⟨u, k, himpU, hu, tookU⟩ := h.u.importLines s.cache (s.u + uvJ * s.uvStride) s.uvStride n (by omega)
      fun j hj x hx => by
        rw [h.u.same.srcWidth, h.apt.columns.1, h.u.same.numChannels, h.apt.channels.2.1, mul_one] at hx
        rw [hptr, hr.u _ (by omega) x hx, hsrc, add_assoc]
    obtain ⟨v, k', himpV, hv, tookV⟩ := h.v.importLines s.cache (s.v + uvJ * s.uvStride) s.uvStride n
      (by rw [h.chroma]; omega) fun j hj x hx => by
        rw [h.v.same.srcWidth, h.apt.columns.2, h.apt.columns.1, h.v.same.numChannels, h.apt.channels.2.2,
          mul_one] at hx
        rw [hptr, hr.v _ (by omega) x hx, h.chroma, hsrc, add_assoc]
    have hk : k = k' := by
      by_cases hp : webPRescalerHasPendingOutput p.scalerU = true
      · rw [tookU.idle hp, tookV.idle (by rw [h.pending_uv, hp])]
      · have hq : webPRescalerHasPendingOutput p.scalerU = false := by simpa using hp
        rcases Nat.eq_zero_or_pos n with h0 | hpos
        · have := tookU.le
          have := tookV.le
          omega
        · have h1 := (tookU.needed hq hpos).1
          have h2 := (tookV.needed (by rw [h.pending_uv, hq]) hpos).1
          unfold webPRescaleNeededLines at h1 h2
          rw [← h.levels.1, ← h.levels.2] at h2
          omega
    subst hk
    rw [if_pos hneed, himpU, himpV]
    dsimp only
    rw [if_pos rfl]
    exact ⟨_, k, rfl,
      ⟨h.apt, h.y, hu, hv, by dsimp only; rw [tookU.srcY, tookV.srcY, h.chroma], h.room, h.height⟩,
      ⟨rfl, rfl, rfl, rfl, rfl⟩, rfl, rfl, tookU.srcY, tookU.le, tookU.stopped⟩
  · rw [if_neg hneed]
    refine ⟨p, 0, rfl, h, .refl p, rfl, rfl, rfl, Nat.zero_le _, ?_⟩
    by_contra hboth
    rw [not_or] at hboth
    have hlt : p.scalerU.srcY < p.scalerU.srcHeight := by omega
    have hacc := (h.u.steady.lt_srcHeight (h.u.steady.lt_dstHeight hlt) (by simpa using hboth.2)).1
    have hS := h.u.steady.ySub_pos
    have hone : 1 ≤ (p.scalerU.yAccum + p.scalerU.ySub - 1) / p.scalerU.ySub :=
      (Int.le_ediv_iff_mul_le (by omega)).mpr (by omega)
    rw [neededLines_eq hS hacc] at hneed
    omega

/-! ### A band -/

/-- Luma that is pending on a line before the last of the band has its chroma in the band. -/
theorem ready (h : Abreast L t p rows) {base mbH j : ℕ} (hj : p.scalerY.srcY = base + j) (hlt : j < mbH)
    (hy : webPRescalerHasPendingOutput p.scalerY = true) (hall : p.scalerU.srcY = (base + mbH + 1) / 2) :
    webPRescalerHasPendingOutput p.scalerU = true := by
  obtain ⟨ho, hl⟩ := h.y.pending_iff.mp hy
  rw [List.length_map] at ho hl
  have hahead := h.apt.ahead h.y.shaped h.u.shaped (by omega) (by exact_mod_cast ho) hl
  have hanti :=
    (yPace h.u.shaped).level_anti (rows.length : ℤ) (show (p.scalerY.srcY : ℤ) / 2 + 1 ≤ p.scalerU.srcY by omega)
  rw [h.u.pending_iff, List.length_map, h.apt.rows.1]
  exact ⟨ho, hanti.trans hahead⟩

/-- **The last luma line of a band is taken for rows that want all its chroma.** -/
theorem exhausted (h : Abreast L t p rows) {e : ℕ} (hpos : 0 < e) (hj : p.scalerY.srcY = e)
    (hu : webPRescalerHasPendingOutput p.scalerU = true) : (e + 1) / 2 ≤ p.scalerU.srcY := by
  by_contra hlt
  obtain ⟨ho, hl⟩ := h.u.pending_iff.mp hu
  rw [List.length_map] at ho hl
  rw [h.apt.rows.1] at ho
  have hbehind := h.apt.behind h.y.shaped h.u.shaped (by omega) (by exact_mod_cast ho) hl
  have hwanted := h.y.wanted (by omega)
  rw [List.length_map, hj] at hwanted
  have hanti := (yPace h.y.shaped).level_anti (rows.length : ℤ) (show 2 * (p.scalerU.srcY : ℤ) ≤ e - 1 by omega)
  linarith

/-- What a band has emitted. -/
structure BandOut (L : Planes) (t : Trio) (p q : WebPDecParams) (rows new : List YuvRow) (e : ℕ) : Prop where
  abreast : Abreast L t q (rows ++ new)
  same : SameCall p q
  mem : q.mem = p.put t.y.dstWidth rows.length new
  srcY : q.scalerY.srcY = e ∧ q.scalerU.srcY = (e + 1) / 2
  stopped : ¬ (webPRescalerHasPendingOutput q.scalerY = true ∧ webPRescalerHasPendingOutput q.scalerU = true)

/-- Luma lines are taken. -/
theorem importLuma (h : Abreast L t p rows) {s : Samples} {base mbH j : ℕ} (hr : Reads L t.y.srcWidth s base mbH)
    (hsrc : p.scalerY.srcY = base + j) (hj : j ≤ mbH) (hend : base + mbH ≤ t.y.srcHeight) :
    ∃ scalerY k, webPRescalerImport p.scalerY s.cache (mbH - j) (s.y + j * s.yStride) s.yStride =
        some (scalerY, k) ∧
      Abreast L t { p with scalerY } rows ∧ Took p.scalerY scalerY (mbH - j) k := by
  obtain ⟨scalerY, k, himp, hy, took⟩ := h.y.importLines s.cache (s.y + j * s.yStride) s.yStride (mbH - j)
    (by rw [h.y.same.srcHeight]; omega) fun i hi x hx => by
      rw [h.y.same.srcWidth, h.y.same.numChannels, h.apt.channels.1, mul_one] at hx
      have hread := hr.y (j + i) (by omega) x hx
      rw [show s.y + j * s.yStride + i * s.yStride = s.y + ((j + i : ℕ) : ℤ) * s.yStride by push_cast; ring, hread,
        hsrc, add_assoc]
  exact ⟨scalerY, k, himp, ⟨h.apt, hy, h.u, h.v, h.chroma, h.room, h.height⟩, took⟩

/-- **A band goes through.** `EmitRescaledRGB` ends, no `assert` on the way fails, and
every line of the band has been taken, chroma included. -/
theorem emitRescaledRGBLoop_eq {s : Samples} {base mbH : ℕ} (hr : Reads L t.y.srcWidth s base mbH)
    (hbase : base % 2 = 0) (hend : base + mbH ≤ t.y.srcHeight) (n : ℕ) {j uvJ numLinesOut : ℕ}
    (h : Abreast L t p rows) (hsrcY : p.scalerY.srcY = base + j) (hsrcU : p.scalerU.srcY = base / 2 + uvJ)
    (hj : j ≤ mbH) (huvJ : uvJ ≤ (mbH + 1) / 2)
    (hdone : j = mbH → uvJ = (mbH + 1) / 2 ∧
      ¬ (webPRescalerHasPendingOutput p.scalerY = true ∧ webPRescalerHasPendingOutput p.scalerU = true))
    (hout : p.lastY + numLinesOut = rows.length) (hn : mbH - j + (t.y.dstHeight - rows.length) ≤ n) :
    ∃ q new, emitRescaledRGBLoop s mbH ((mbH + 1) / 2) n p j uvJ numLinesOut = some (q, numLinesOut + new.length) ∧
      BandOut L t p q rows new (base + mbH) := by
  induction n generalizing p rows j uvJ numLinesOut with
  | zero =>
    have hlast : j = mbH := by omega
    obtain ⟨huv, hstop⟩ := hdone hlast
    refine ⟨p, [], ?_, by rw [List.append_nil]; exact h, .refl p, rfl, ⟨by rw [hsrcY, hlast], by omega⟩, hstop⟩
    rw [emitRescaledRGBLoop, if_neg (by omega)]
    rfl
  | succ n ih =>
    by_cases hlt : j < mbH
    · obtain ⟨scalerY, k, himp, hY, took⟩ := h.importLuma hr hsrcY hj hend
      obtain ⟨p₂, ku, hchroma, hc⟩ := hY.importChroma_eq hr hbase hsrcU huvJ hend
      obtain ⟨p₃, new, hexport, hx⟩ := hc.abreast.exportRGB_eq
      have hsame₂ : SameCall p p₂ := ⟨hc.same.output, hc.same.lastY, hc.same.emit, hc.same.scalerA, hc.same.tmp⟩
      have hlastY := hsame₂.lastY
      have hsrcY₂ : p₂.scalerY.srcY = base + (j + k) := by
        rw [hc.scalerY, took.srcY, hsrcY, add_assoc]
      have hsrcU₂ : p₂.scalerU.srcY = base / 2 + (uvJ + ku) := by
        rw [hc.srcY, hsrcU, add_assoc]
      have hle := took.le
      have hleU := hc.le
      have hlen : (rows ++ new).length ≤ t.y.dstHeight := by
        rw [← hx.abreast.counts.1, ← hx.abreast.heights.1]
        exact hx.abreast.y.steady.dstY_le
      rw [List.length_append] at hlen
      -- a line was taken, or luma and chroma are both pending
      have hprogress : 0 < k ∨ 0 < new.length := by
        rcases Nat.eq_zero_or_pos k with h0 | hk
        · right
          have hp : webPRescalerHasPendingOutput p₂.scalerY = true := by
            rw [hc.scalerY]
            exact took.stopped.resolve_left (by omega)
          refine hx.some hp ?_
          rcases hc.stopped with hall | hpu
          · exact hc.abreast.ready (hsrcY₂.trans (by rw [h0, add_zero])) hlt hp (by omega)
          · exact hpu
        · exact .inl hk
      have hdone' : j + k = mbH → uvJ + ku = (mbH + 1) / 2 ∧
          ¬ (webPRescalerHasPendingOutput p₃.scalerY = true ∧
            webPRescalerHasPendingOutput p₃.scalerU = true) := by
        intro hlast
        refine ⟨?_, hx.stopped⟩
        rcases hc.stopped with hall | hpu
        · omega
        · have hex := @exhausted L t p₂ rows hc.abreast (base + mbH) (by omega) (by rw [hsrcY₂, hlast]) hpu
          omega
      have hnum : p₃.lastY + (numLinesOut + new.length) = (rows ++ new).length := by
        rw [hx.same.lastY, hlastY, List.length_append]
        omega
      obtain ⟨q, rest, hloop, hband⟩ :=
        ih hx.abreast (by rw [hx.srcY.1, hsrcY₂]) (by rw [hx.srcY.2, hsrcU₂]) (by omega)
        (by omega) hdone' hnum (by rw [List.length_append]; omega)
      refine ⟨q, new ++ rest, ?_, ?_, hsame₂.trans (hx.same.trans hband.same), ?_, hband.srcY, hband.stopped⟩
      · rw [emitRescaledRGBLoop, if_pos hlt, himp]
        dsimp only
        rw [hchroma]
        dsimp only
        rw [hlastY, hout, hexport]
        dsimp only
        rw [hloop, List.length_append, add_assoc]
      · rw [← List.append_assoc]
        exact hband.abreast
      · have hmem : p₃.mem = p.put t.y.dstWidth rows.length new := by
          rw [hx.mem, WebPDecParams.put, WebPDecParams.put, hc.mem, hc.same.rowPtr, hc.same.output]
          rfl
        rw [hband.mem, List.length_append, (hsame₂.trans hx.same).put hmem]
    · have hlast : j = mbH := by omega
      obtain ⟨huv, hstop⟩ := hdone hlast
      refine ⟨p, [], ?_, by rw [List.append_nil]; exact h, .refl p, rfl,
        ⟨by rw [hsrcY, hlast], by omega⟩, hstop⟩
      rw [emitRescaledRGBLoop, if_neg hlt]
      rfl

end Abreast

end WebPlugin
