/-
# The bands of a lossy picture

`VP8ProcessRow` hands `FinishRow` one row of macroblocks after the other. The rows
that the in-loop filter may still change are held back, so a band ends a few rows
above its macroblocks, and the next one starts there (`reached`): the bands are
the rows of the picture up to the bottom of the window, each once and in order,
whatever the filter. `finishRows` is the whole run.
-/
import WebPlugin.LossyAlpha
import WebPlugin.Emission

namespace WebPlugin

open Memory Words

/-! ### Rows reached -/

/-- The row of the picture that `n` rows of macroblocks reach. -/
def reached (io : VP8Io) (extraYRows : ℕ) : ℕ → ℕ
  | 0 => 0
  | n + 1 => (rowsOf io extraYRows n).2

/-- The output of the first `n` rows of macroblocks, of which row `k` gives the samples `s k`. -/
def finishRows (extraYRows : ℕ) (io : VP8Io) (s : ℕ → Samples) : ℕ → WebPDecParams → Option WebPDecParams
  | 0, p => some p
  | n + 1, p =>
    match finishRows extraYRows io s n p with
    | none => none
    | some p => finishRow extraYRows n io (s n) p

section
variable {io : VP8Io} {extraYRows n : ℕ}

theorem kFilterExtraRows_even (filterType : Fin 3) :
    kFilterExtraRows filterType % 2 = 0 ∧ kFilterExtraRows filterType ≤ 8 := by
  revert filterType
  decide

/-- Where the bands of a picture start and end. -/
structure BandsOf (io : VP8Io) (extraYRows : ℕ) : Prop where
  even : extraYRows % 2 = 0
  few : extraYRows ≤ 8
  bottom : io.cropTop < io.cropBottom ∧ io.cropBottom ≤ io.height
  snapped : io.cropTop % 2 = 0 ∧ io.cropLeft % 2 = 0

/-- A band starts at the row reached before it, which is even. -/
theorem BandsOf.first (h : BandsOf io extraYRows) (hn : n < brMbY io extraYRows) :
    (rowsOf io extraYRows n).1 = reached io extraYRows n ∧ reached io extraYRows n % 2 = 0 := by
  obtain ⟨heven, hfew, ⟨-, hbottom⟩, -⟩ := h
  cases n with
  | zero => exact ⟨rfl, rfl⟩
  | succ n =>
    unfold brMbY at hn
    simp only [reached, rowsOf]
    rw [if_pos (Nat.succ_ne_zero n), if_pos (by unfold brMbY; omega)]
    omega

/-- It ends below, and the bottom of the window is reached by the last band only. -/
theorem BandsOf.next (h : BandsOf io extraYRows) (hn : n < brMbY io extraYRows) :
    reached io extraYRows n < reached io extraYRows (n + 1) ∧ reached io extraYRows (n + 1) ≤ io.cropBottom ∧
      (reached io extraYRows (n + 1) < io.cropBottom ↔ n + 1 < brMbY io extraYRows) := by
  have hfirst := h.first hn
  obtain ⟨heven, hfew, ⟨htop, hbottom⟩, -⟩ := h
  rw [← hfirst.1]
  simp only [reached, rowsOf]
  by_cases hlast : n ≥ brMbY io extraYRows - 1
  · rw [if_neg (not_not.mpr hlast)]
    unfold brMbY at *
    by_cases h0 : n = 0
    · rw [if_neg (not_not.mpr h0)]
      omega
    · rw [if_pos h0]
      omega
  · rw [if_pos hlast]
    unfold brMbY at *
    by_cases h0 : n = 0
    · rw [if_neg (not_not.mpr h0)]
      omega
    · rw [if_pos h0]
      omega

theorem BandsOf.last (h : BandsOf io extraYRows) : 0 < brMbY io extraYRows ∧
    reached io extraYRows (brMbY io extraYRows) = io.cropBottom := by
  have hpos : 0 < brMbY io extraYRows := by
    have := h.bottom
    unfold brMbY
    omega
  obtain ⟨n, hn⟩ : ∃ n, brMbY io extraYRows = n + 1 := ⟨_, (Nat.succ_pred_eq_of_pos hpos).symm⟩
  obtain ⟨-, hle, hiff⟩ := @BandsOf.next io extraYRows n h (by omega)
  exact ⟨hpos, by rw [hn]; omega⟩

theorem BandsOf.reached_le (h : BandsOf io extraYRows) (hn : n ≤ brMbY io extraYRows) :
    reached io extraYRows n ≤ io.cropBottom := by
  cases n with
  | zero => exact Nat.zero_le _
  | succ n => exact (h.next (by omega)).2.1

end

/-! ### Samples -/

/-- What `WebPIoInitFromOptions` snaps the window of a subsampled source to. -/
theorem ioInit_snapped {options : WebPDecoderOptions} {width height : ℕ} {io : VP8Io}
    (h : webPIoInitFromOptions options width height false = some io) :
    io.height = height ∧ io.cropTop % 2 = 0 ∧ io.cropLeft % 2 = 0 ∧ io.fancyUpsampling = !options.useScaling := by
  unfold webPIoInitFromOptions at h
  simp only [Bool.false_eq_true, if_false] at h
  generalize hwin : (if options.useCropping = true then (2 * (options.cropLeft / 2), 2 * (options.cropTop / 2),
    options.cropWidth, options.cropHeight) else (0, 0, (width : ℤ), (height : ℤ))) = window at h
  obtain ⟨x, y, w, h'⟩ := window
  have heven : y.toNat % 2 = 0 ∧ x.toNat % 2 = 0 := by
    by_cases hcrop : options.useCropping = true
    · rw [if_pos hcrop] at hwin
      cases hwin
      omega
    · rw [if_neg hcrop] at hwin
      cases hwin
      decide
  dsimp only at h
  split_ifs at h with hcheck hu
  · obtain ⟨size, -, rfl⟩ := Option.map_eq_some_iff.mp h
    exact ⟨rfl, heven.1, heven.2, rfl⟩
  · cases h
    exact ⟨rfl, heven.1, heven.2, rfl⟩

/-- The planes of a picture, from the first row and column of its window on. -/
def Planes.window (pic : Planes) (io : VP8Io) : Planes where
  y := fun j x => pic.y (io.cropTop + j) (io.cropLeft + x)
  u := fun j x => pic.u (io.cropTop / 2 + j) (io.cropLeft / 2 + x)
  v := fun j x => pic.v (io.cropTop / 2 + j) (io.cropLeft / 2 + x)
  a := fun j x => pic.a (io.cropTop + j) (io.cropLeft + x)

/-- The samples of rows `yStart .. yEnd`: those of the cache, and all of the alpha plane up to there. -/
structure SamplesOf (pic : Planes) (hasAlpha : Bool) (width yStart yEnd : ℕ) (s : Samples) : Prop where
  y : ∀ j, yStart + j < yEnd → ∀ x < width, sourceRow s.cache (s.y + j * s.yStride) x = pic.y (yStart + j) x
  u : ∀ j, yStart / 2 + j < (yEnd + 1) / 2 → ∀ x < (width + 1) / 2,
    sourceRow s.cache (s.u + j * s.uvStride) x = pic.u (yStart / 2 + j) x
  v : ∀ j, yStart / 2 + j < (yEnd + 1) / 2 → ∀ x < (width + 1) / 2,
    sourceRow s.cache (s.v + j * s.uvStride) x = pic.v (yStart / 2 + j) x
  a : hasAlpha = true → ∃ plane a, s.a = some (plane, a) ∧
    ∀ j < yEnd, ∀ x < width, sourceRow plane (a + j * width) x = pic.a j x
  noAlpha : hasAlpha = false → s.a = none

/-- A sample further on. -/
theorem sourceRow_add (b : Buf) (p : ℤ) (k x : ℕ) : sourceRow b (p + k) x = sourceRow b p (k + x) := by
  unfold sourceRow
  congr 2
  push_cast
  ring

section
variable {pic : Planes} {hasAlpha : Bool} {io : VP8Io} {yStart yEnd : ℕ} {s : Samples}

/-- **The cut band is the window's.** -/
theorem SamplesOf.reads (h : SamplesOf pic hasAlpha io.width yStart yEnd s) (hstart : yStart % 2 = 0)
    (hsnap : io.cropTop % 2 = 0 ∧ io.cropLeft % 2 = 0) (hright : io.cropRight ≤ io.width)
    (hleft : io.cropLeft < io.cropRight) (hfirst : max yStart io.cropTop < yEnd) :
    Reads (pic.window io) (io.cropRight - io.cropLeft) (s.crop io yStart) (max yStart io.cropTop - io.cropTop)
      (yEnd - max yStart io.cropTop) := by
  have hptr : ∀ (b : ℤ) (stride d j k : ℕ),
      b + stride * d + k + j * stride = b + ((d + j : ℕ) : ℤ) * stride + k :=
    fun b stride d j k => by
      push_cast
      ring
  have huv : yStart / 2 + (io.cropTop - yStart) / 2 = io.cropTop / 2 + (max yStart io.cropTop - io.cropTop) / 2  := by
    omega
  refine ⟨fun j hj x hx => ?_, fun j hj x hx => ?_, fun j hj x hx => ?_⟩
  · have hrow := h.y (io.cropTop - yStart + j) (by omega) (io.cropLeft + x) (by omega)
    have hline : yStart + (io.cropTop - yStart + j) = io.cropTop + (max yStart io.cropTop - io.cropTop + j) := by omega
    rw [hline] at hrow
    unfold Samples.crop
    dsimp only
    rw [hptr, sourceRow_add, hrow]
    rfl
  · have hrow := h.u ((io.cropTop - yStart) / 2 + j) (by omega) (io.cropLeft / 2 + x) (by omega)
    rw [← add_assoc, huv, add_assoc] at hrow
    unfold Samples.crop
    dsimp only
    rw [show ((io.cropTop - yStart : ℕ) : ℤ) / 2 = ((io.cropTop - yStart) / 2 : ℕ) by push_cast; rfl, hptr,
      sourceRow_add, hrow]
    rfl
  · have hrow := h.v ((io.cropTop - yStart) / 2 + j) (by omega) (io.cropLeft / 2 + x) (by omega)
    rw [← add_assoc, huv, add_assoc] at hrow
    unfold Samples.crop
    dsimp only
    rw [show ((io.cropTop - yStart : ℕ) : ℤ) / 2 = ((io.cropTop - yStart) / 2 : ℕ) by push_cast; rfl, hptr,
      sourceRow_add, hrow]
    rfl

/-- The alpha of the window, from the pointer of the cut band. -/
theorem SamplesOf.alpha (h : SamplesOf pic hasAlpha io.width yStart yEnd s) (ha : hasAlpha = true)
    (hright : io.cropRight ≤ io.width) : ∃ plane a, (s.crop io yStart).a = some (plane, a) ∧
      ∀ j < yEnd - io.cropTop, ∀ x < io.cropRight - io.cropLeft,
        sourceRow plane (a + ((j : ℤ) - (max yStart io.cropTop - io.cropTop : ℕ)) * io.width) x =
          (pic.window io).a j x := by
  obtain ⟨plane, a, hsome, hrow⟩ := h.a ha
  refine ⟨plane, a + yStart * io.width + io.width * (io.cropTop - yStart : ℕ) + io.cropLeft, ?_,
    fun j hj x hx => ?_⟩
  · unfold Samples.crop
    rw [hsome]
    rfl
  · have hat := hrow (io.cropTop + j) (by omega) (io.cropLeft + x) (by omega)
    rw [← sourceRow_add] at hat
    rw [Planes.window, ← hat]
    have hmax : ((max yStart io.cropTop - io.cropTop : ℕ) : ℤ) =
        yStart + (io.cropTop - yStart : ℕ) - io.cropTop := by omega
    rw [hmax]
    congr 1
    push_cast
    ring

theorem SamplesOf.alpha_none (h : SamplesOf pic hasAlpha io.width yStart yEnd s) (ha : hasAlpha = false) :
    (s.crop io yStart).a = none := by
  unfold Samples.crop
  rw [h.noAlpha ha]
  rfl

/-! ### Runs -/

/-- A band as it is put: an even line of the window to start at, an even one to end at or the last, and its samples. -/
structure Band (pic : Planes) (hasAlpha : Bool) (io io' : VP8Io) (s : Samples) : Prop where
  same : io'.width = io.width ∧ io'.cropTop = io.cropTop ∧ io'.cropBottom = io.cropBottom ∧
    io'.fancyUpsampling = io.fancyUpsampling
  columns : io'.mbW = io.cropRight - io.cropLeft
  even : io'.mbY % 2 = 0
  lines : 0 < io'.mbH
  last : io'.mbY + io'.mbH = io.cropBottom - io.cropTop ∨
    (io'.mbY + io'.mbH < io.cropBottom - io.cropTop ∧ (io'.mbY + io'.mbH) % 2 = 0)
  reads : Reads (pic.window io) (io.cropRight - io.cropLeft) s io'.mbY io'.mbH
  alpha : hasAlpha = true → ∃ plane a, s.a = some (plane, a) ∧ ∀ j < io'.mbY + io'.mbH,
    ∀ x < io.cropRight - io.cropLeft,
    sourceRow plane (a + ((j : ℤ) - io'.mbY) * io'.width) x = (pic.window io).a j x
  noAlpha : hasAlpha = false → s.a = none

variable {extraYRows n : ℕ}

/-- A row of macroblocks puts one band, or none while it is above the window. -/
theorem finishRow_eq (hb : BandsOf io extraYRows)
    (hcols : io.cropLeft < io.cropRight ∧ io.cropRight ≤ io.width) (hn : n < brMbY io extraYRows)
    (hs : SamplesOf pic hasAlpha io.width (reached io extraYRows n) (reached io extraYRows (n + 1)) s)
    (p : WebPDecParams) :
    (finishRow extraYRows n io s p = some p ∧ reached io extraYRows (n + 1) ≤ io.cropTop) ∨
    ∃ io' s', finishRow extraYRows n io s p = customPut io' s' p ∧ Band pic hasAlpha io io' s' ∧
      io'.mbY = reached io extraYRows n - io.cropTop ∧
      io'.mbY + io'.mbH = reached io extraYRows (n + 1) - io.cropTop := by
  obtain ⟨hfirst, heven⟩ := hb.first hn
  obtain ⟨hlt, hle, hnext⟩ := hb.next hn
  obtain ⟨htop, hleft⟩ := hb.snapped
  have hrows : rowsOf io extraYRows n = (reached io extraYRows n, reached io extraYRows (n + 1)) := by
    rw [← hfirst]
    rfl
  unfold finishRow
  rw [hrows]
  dsimp only
  rw [if_neg (by omega)]
  by_cases hband : max (reached io extraYRows n) io.cropTop < reached io extraYRows (n + 1)
  · have hbase : max (reached io extraYRows n) io.cropTop - io.cropTop = reached io extraYRows n - io.cropTop  := by
      omega
    have hcount : reached io extraYRows n - io.cropTop +
        (reached io extraYRows (n + 1) - max (reached io extraYRows n) io.cropTop) =
        reached io extraYRows (n + 1) - io.cropTop := by omega
    have hlast : reached io extraYRows (n + 1) - io.cropTop = io.cropBottom - io.cropTop ∨
        (reached io extraYRows (n + 1) - io.cropTop < io.cropBottom - io.cropTop ∧
          (reached io extraYRows (n + 1) - io.cropTop) % 2 = 0) := by
      by_cases hmore : n + 1 < brMbY io extraYRows
      · have heven' := (hb.first hmore).2
        have := hnext.mpr hmore
        omega
      · have := mt hnext.mp hmore
        omega
    have hreads := hs.reads heven hb.snapped hcols.2 hcols.1 hband
    rw [hbase] at hreads
    rw [if_pos hband]
    refine .inr ⟨_, _, rfl,
      ⟨⟨rfl, rfl, rfl, rfl⟩, rfl, ?_, ?_, ?_, ?_, fun ha => ?_, hs.alpha_none⟩, hbase, ?_⟩
    · dsimp only
      omega
    · dsimp only
      omega
    · dsimp only
      rw [hbase, hcount]
      exact hlast
    · dsimp only
      rw [hbase]
      exact hreads
    · obtain ⟨plane, a, hsome, hread⟩ := hs.alpha ha hcols.2
      refine ⟨plane, a, hsome, fun j hj x hx => hread j ?_ x hx⟩
      dsimp only at hj
      omega
    · dsimp only
      rw [hbase, hcount]
  · rw [if_neg hband]
    exact .inl ⟨rfl, by omega⟩

/-- **Every band of a run goes through**, when each keeps what holds of the lines before it. -/
theorem finishRows_run {P : ℕ → WebPDecParams → Prop} {s : ℕ → Samples} (hb : BandsOf io extraYRows)
    (hcols : io.cropLeft < io.cropRight ∧ io.cropRight ≤ io.width)
    (hs : ∀ n < brMbY io extraYRows,
      SamplesOf pic hasAlpha io.width (reached io extraYRows n) (reached io extraYRows (n + 1)) (s n))
    {p : WebPDecParams} (start : P 0 p)
    (step : ∀ io' s' q, Band pic hasAlpha io io' s' → P io'.mbY q →
      ∃ q', customPut io' s' q = some q' ∧ P (io'.mbY + io'.mbH) q')
    (n : ℕ) (hn : n ≤ brMbY io extraYRows) :
    ∃ q, finishRows extraYRows io s n p = some q ∧ P (reached io extraYRows n - io.cropTop) q := by
  induction n with
  | zero => exact ⟨p, rfl, by rw [reached, Nat.zero_sub]; exact start⟩
  | succ n ih =>
    obtain ⟨q, hrun, hq⟩ := ih (by omega)
    rw [finishRows, hrun]
    dsimp only
    rcases finishRow_eq hb hcols (show n < brMbY io extraYRows by omega) (hs n (by omega)) q with
      ⟨hrow, habove⟩ | ⟨io', s', hrow, hband, hfirst, hlast⟩
    · have hlt := (hb.next (show n < brMbY io extraYRows by omega)).1
      rw [show reached io extraYRows n - io.cropTop = reached io extraYRows (n + 1) - io.cropTop by omega] at hq
      exact ⟨q, hrow, hq⟩
    · rw [← hfirst] at hq
      obtain ⟨q', hput, hq'⟩ := step io' s' q hband hq
      rw [hlast] at hq'
      exact ⟨q', hrow.trans hput, hq'⟩

end

end WebPlugin
