/-
# The alpha of rescaled pictures

`EmitRescaledAlphaRGB` is told how many rows of colour are new, and puts their alpha
in. Its scaler has the heights of the luma scaler, so it always has a row for each of
them once the lines of the band are in, whatever rows earlier calls stopped at. The rows
it has passed hold their final bytes (`finalBytes`), however calls share them out.
-/
import WebPlugin.Lockstep
import WebPlugin.AlphaRows

namespace WebPlugin

open Memory Words Pacing WebPRescaler

/-! ### Rows in memory -/

/-- The rows of a picture lie apart from each other in a block of memory. -/
structure RowsFit (r : Rows) (size : ℕ) : Prop where
  apart : (r.width : ℤ) ≤ |r.stride|
  inside : ∀ j < r.count, 0 ≤ r.start j ∧ r.start j + r.width ≤ size

/-- The final bytes of a row of pixels with alpha. -/
def finalBytes (colorspace : WebPCspMode) (alpha : ℕ → ℕ) (row : ℕ → UInt8) : ℕ → UInt8 :=
  if webPIsPremultipliedMode colorspace then multipliedBytes colorspace (alphaBytes colorspace alpha row)
  else alphaBytes colorspace alpha row

/-- The samples of row `i`. -/
def alphaOf (rows : List (ℕ → UInt8)) (i x : ℕ) : ℕ := (rows.getD i (fun _ => 0) x).toNat

theorem alphaOf_append {rows : List (ℕ → UInt8)} (new : List (ℕ → UInt8)) {i : ℕ} (h : i < rows.length) :
    alphaOf (rows ++ new) i = alphaOf rows i := by
  funext x
  unfold alphaOf
  rw [List.getD_append _ _ _ _ h]

/-- Rows `from .. from + k` made anew. -/
def between (first k : ℕ) (g f : ℕ → ℕ → UInt8) (i : ℕ) : ℕ → UInt8 :=
  if first ≤ i ∧ i < first + k then g i else f i

theorem between_zero (first : ℕ) (g f : ℕ → ℕ → UInt8) : between first 0 g f = f := by
  funext i
  unfold between
  rw [if_neg (by omega)]

/-- One more row at the end. -/
theorem between_succ (first k : ℕ) (g f : ℕ → ℕ → UInt8) :
    between first (k + 1) g f = Function.update (between first k g f) (first + k) (g (first + k)) := by
  funext i
  by_cases hi : i = first + k
  · subst hi
    rw [Function.update_self, between, if_pos (by omega)]
  · rw [Function.update_of_ne hi]
    unfold between
    by_cases h : first ≤ i ∧ i < first + k
    · rw [if_pos h, if_pos (by omega)]
    · rw [if_neg h, if_neg (by omega)]

/-- The first row and those behind it. -/
theorem between_cons {first k : ℕ} {g g' : ℕ → ℕ → UInt8} (f : ℕ → ℕ → UInt8)
    (h : ∀ i, first < i → i < first + 1 + k → g' i = g i) :
    between (first + 1) k g' (Function.update f first (g first)) = between first (k + 1) g f := by
  funext i
  unfold between
  by_cases hi : i = first
  · subst hi
    rw [Function.update_self, if_neg (by omega), if_pos (by omega)]
  · rw [Function.update_of_ne hi]
    by_cases hin : first + 1 ≤ i ∧ i < first + 1 + k
    · rw [if_pos hin, if_pos (by omega), h i (by omega) hin.2]
    · rw [if_neg hin, if_neg (by omega)]

theorem between_congr {first k : ℕ} {g g' : ℕ → ℕ → UInt8} (f : ℕ → ℕ → UInt8)
    (h : ∀ i, first ≤ i → i < first + k → g i = g' i) : between first k g f = between first k g' f := by
  funext i
  unfold between
  by_cases hi : first ≤ i ∧ i < first + k
  · rw [if_pos hi, if_pos hi, h i hi.1 hi.2]
  · rw [if_neg hi, if_neg hi]

/-- Rows made anew behind rows made anew. -/
theorem between_append {first j k : ℕ} {g g' : ℕ → ℕ → UInt8} (f : ℕ → ℕ → UInt8)
    (h : ∀ i, first ≤ i → i < first + j → g i = g' i) :
    between (first + j) k g' (between first j g f) = between first (j + k) g' f := by
  funext i
  unfold between
  by_cases hlow : first ≤ i ∧ i < first + j
  · rw [if_neg (by omega), if_pos hlow, if_pos (by omega), h i hlow.1 hlow.2]
  · by_cases hhigh : first + j ≤ i ∧ i < first + j + k
    · rw [if_pos hhigh, if_pos (by omega)]
    · rw [if_neg hhigh, if_neg hlow, if_neg (by omega)]

section
variable {colorspace : WebPCspMode} {out : Buf} {r : Rows} {f : ℕ → ℕ → UInt8} {n w : ℕ}

/-- Rows premultiplied in memory. -/
theorem applyAlphaMultiplyRows_go (hfit : RowsFit r out.size) (hw : r.width = w * pixelSize colorspace) {first h : ℕ}
    (hn : first + h ≤ n) (hcount : n ≤ r.count) :
    applyAlphaMultiplyRows colorspace w r.stride (r.start first) (Buf.writeRows.go out r f n) h =
      Buf.writeRows.go out r (between first h (fun i => multipliedBytes colorspace (f i)) f) n := by
  induction h with
  | zero => rw [between_zero, applyAlphaMultiplyRows]
  | succ h ih =>
    have hstart : r.start first + h * r.stride = r.start (first + h) := by
      unfold Rows.start
      push_cast
      ring
    have hkeep : between first h (fun i => multipliedBytes colorspace (f i)) f (first + h) = f (first + h) := by
      rw [between, if_neg (by omega)]
    rw [applyAlphaMultiplyRows_succ, ih (by omega), hstart, ← hw,
      Buf.go_remade hfit.apart (by omega) (hfit.inside _ (by omega))
        (by rw [hw]; exact fun row row' h => multipliedBytes_congr h), hkeep, between_succ]

/-- A row of alpha put in memory. -/
theorem putAlphaRow_go (hfit : RowsFit r out.size) (hw : r.width = w * pixelSize colorspace) {j : ℕ} (hj : j < n)
    (hcount : n ≤ r.count) (alpha : ℕ → ℕ) :
    putAlphaRow colorspace alpha w (Buf.writeRows.go out r f n) (r.start j) =
      Buf.writeRows.go out r (Function.update f j (alphaBytes colorspace alpha (f j))) n := by
  rw [putAlphaRow_eq, ← hw, Buf.go_remade hfit.apart hj (hfit.inside _ (by omega))
    (by rw [hw]; exact fun row row' h => alphaBytes_congr (fun _ _ => rfl) h)]

/-- **Rows with their alpha are final**: premultiplied where the mode says so, unless all of the samples are
opaque. -/
theorem finalRows_go (hfit : RowsFit r out.size) (hw : r.width = w * pixelSize colorspace) {first h : ℕ}
    (hn : first + h ≤ n) (hcount : n ≤ r.count) {alpha : ℕ → ℕ → ℕ} {mask : ℕ}
    (hmask : mask = fullMask colorspace → ∀ i, first ≤ i → i < first + h → Full colorspace (alpha i) w) :
    (if webPIsPremultipliedMode colorspace = true ∧ mask ≠ fullMask colorspace then
      applyAlphaMultiplyRows colorspace w r.stride (r.start first)
        (Buf.writeRows.go out r (between first h (fun i => alphaBytes colorspace (alpha i) (f i)) f) n) h
      else Buf.writeRows.go out r (between first h (fun i => alphaBytes colorspace (alpha i) (f i)) f) n) =
      Buf.writeRows.go out r (between first h (fun i => finalBytes colorspace (alpha i) (f i)) f) n := by
  by_cases hpre : webPIsPremultipliedMode colorspace = true ∧ mask ≠ fullMask colorspace
  · rw [if_pos hpre, applyAlphaMultiplyRows_go hfit hw hn hcount]
    congr 1
    funext i
    simp only [between, finalBytes, if_pos hpre.1]
    by_cases hi : first ≤ i ∧ i < first + h
    · rw [if_pos hi, if_pos hi, if_pos hi]
    · rw [if_neg hi, if_neg hi, if_neg hi]
  · rw [if_neg hpre]
    apply Buf.go_congr
    intro i hi c hc
    rw [hw] at hc
    simp only [between, finalBytes]
    by_cases hin : first ≤ i ∧ i < first + h
    · rw [if_pos hin, if_pos hin]
      by_cases hmode : webPIsPremultipliedMode colorspace = true
      · have hfull : mask = fullMask colorspace := by
          by_contra hne
          exact hpre ⟨hmode, hne⟩
        rw [if_pos hmode]
        exact (multipliedBytes_full (hmask hfull i hin.1 hin.2) _ c hc).symm
      · rw [if_neg hmode]
    · rw [if_neg hin, if_neg hin]

end

/-! ### The alpha scaler -/

/-- The alpha scaler of a decoder that has given `rows` of alpha. -/
structure AlphaAt (L : Planes) (a₀ : WebPRescaler) (p : WebPDecParams) (rows : List (ℕ → UInt8)) : Prop where
  mid : Midway a₀ p.scalerA L.a rows
  channels : a₀.numChannels = 1
  dst : a₀.dst = 3 * a₀.dstWidth
  room : 4 * a₀.dstWidth ≤ p.tmp.size
  height : p.output.height = a₀.dstHeight
  width : p.output.width.toNat = a₀.dstWidth
  mode : webPIsAlphaMode p.output.colorspace = true

/-- Nothing has changed but the alpha scaler and the memory. -/
structure SameColour (p q : WebPDecParams) : Prop where
  output : q.output = p.output
  lastY : q.lastY = p.lastY
  emit : q.emit = p.emit
  scalers : q.scalerY = p.scalerY ∧ q.scalerU = p.scalerU ∧ q.scalerV = p.scalerV
  tmp : q.tmp.size = p.tmp.size

theorem SameColour.refl (p : WebPDecParams) : SameColour p p := ⟨rfl, rfl, rfl, ⟨rfl, rfl, rfl⟩, rfl⟩

theorem SameColour.trans {p q r : WebPDecParams} (h : SameColour p q) (h' : SameColour q r) : SameColour p r :=
  ⟨h'.output.trans h.output, h'.lastY.trans h.lastY, h'.emit.trans h.emit, ⟨h'.scalers.1.trans h.scalers.1,
    h'.scalers.2.1.trans h.scalers.2.1, h'.scalers.2.2.trans h.scalers.2.2⟩, h'.tmp.trans h.tmp⟩

namespace AlphaAt

variable {L : Planes} {a₀ : WebPRescaler} {p : WebPDecParams} {rows : List (ℕ → UInt8)}

theorem rowWidth (h : AlphaAt L a₀ p rows) :
    p.output.rows.width = a₀.dstWidth * pixelSize p.output.colorspace := by
  unfold WebPDecBuffer.rows
  dsimp only
  rw [h.width, pixelSize_eq h.mode]

theorem count (h : AlphaAt L a₀ p rows) : p.output.rows.count = a₀.dstHeight := by
  unfold WebPDecBuffer.rows
  dsimp only
  rw [h.height, Int.toNat_natCast]

theorem rowPtr_eq (p : WebPDecParams) (y : ℕ) : p.rowPtr y = p.output.rows.start y := rfl

/-- What a call of the export loop has done. -/
structure Exported (L : Planes) (a₀ : WebPRescaler) (p q : WebPDecParams) (rows new : List (ℕ → UInt8))
    (most : ℕ) : Prop where
  alphaAt : AlphaAt L a₀ q (rows ++ new)
  same : SameColour p q
  srcY : q.scalerA.srcY = p.scalerA.srcY
  le : new.length ≤ most
  some : webPRescalerHasPendingOutput p.scalerA = true → 0 < most → 0 < new.length

/-- **Rows of alpha are exported** into the rows of colour: as many as are pending, at
most `most`; the mask tells whether they are all opaque. -/
theorem exportAlphaLoop_eq (h : AlphaAt L a₀ p rows) {out : Buf} {f : ℕ → ℕ → UInt8} {n : ℕ}
    (hfit : RowsFit p.output.rows out.size) (hmem : p.mem = Buf.writeRows.go out p.output.rows f n)
    (hcount : n ≤ p.output.rows.count) (most mask : ℕ) (hn : rows.length + most ≤ n)
    (hmask : mask ≤ fullMask p.output.colorspace) :
    ∃ q new mask', exportAlphaLoop most p rows.length mask = some (q, mask', new.length) ∧
      Exported L a₀ p q rows new most ∧
      q.mem = Buf.writeRows.go out p.output.rows (between rows.length new.length
        (fun i => alphaBytes p.output.colorspace (alphaOf (rows ++ new) i) (f i)) f) n ∧
      (mask' = fullMask p.output.colorspace → mask = fullMask p.output.colorspace ∧ ∀ i, rows.length ≤ i →
        i < rows.length + new.length → Full p.output.colorspace (alphaOf (rows ++ new) i) a₀.dstWidth) := by
  induction most generalizing p rows mask f with
  | zero =>
    refine ⟨p, [], mask, rfl, ⟨by rw [List.append_nil]; exact h, .refl p, rfl, le_refl _, fun _ h0 =>
      absurd h0 (lt_irrefl _)⟩, ?_, fun hfull => ⟨hfull, fun i h1 h2 => ?_⟩⟩
    · rw [List.length_nil, between_zero]
      exact hmem
    · rw [List.length_nil] at h2
      omega
  | succ most ih =>
    by_cases hp : webPRescalerHasPendingOutput p.scalerA = true
    · have hlt : ((rows.length : ℕ) : ℤ) < p.output.height := by
        have hlt := (h.mid.pending_iff.mp hp).1
        rw [h.height]
        exact_mod_cast hlt
      have hlen : p.scalerA.rowLength = a₀.dstWidth := by
        rw [WebPRescaler.rowLength, h.mid.same.dstWidth, h.mid.same.numChannels, h.channels, mul_one]
      have hdst : p.scalerA.dst = 3 * a₀.dstWidth := by rw [h.mid.dst, h.dst]
      generalize htmp : p.tmp.writeRow (3 * a₀.dstWidth : ℤ) a₀.dstWidth p.scalerA.exported = tmp
      have hsize : tmp.size = p.tmp.size := by rw [← htmp, Buf.writeRow_size]
      have hmid := h.mid.give hp
      have hrow : ∀ x < a₀.dstWidth,
          dstRow tmp p.scalerA.rowOut x = alphaOf (rows ++ [p.scalerA.exported]) rows.length x :=
        fun x hx => by
          have hroom := h.room
          have hbyte : tmp.byte (3 * a₀.dstWidth + x) = p.scalerA.exported x := by
            rw [← htmp]
            exact Buf.writeRow_in hx (by push_cast; ring) (by omega)
          unfold dstRow alphaOf
          rw [hmid.dst, h.dst, Buf.get, List.getD_append_right _ _ _ _ (le_refl _), Nat.sub_self]
          exact congrArg UInt8.toNat hbyte
      generalize hf' : Function.update f rows.length (alphaBytes p.output.colorspace
        (alphaOf (rows ++ [p.scalerA.exported]) rows.length) (f rows.length)) = f'
      have hmem' : putAlphaRow p.output.colorspace (dstRow tmp p.scalerA.rowOut) a₀.dstWidth p.mem
          (p.rowPtr rows.length) = Buf.writeRows.go out p.output.rows f' n := by
        rw [rowPtr_eq, hmem, putAlphaRow_go hfit h.rowWidth (by omega) hcount, ← hf']
        apply Buf.go_congr
        intro i hi c hc
        by_cases hij : i = rows.length
        · subst hij
          rw [Function.update_self, Function.update_self]
          rw [h.rowWidth] at hc
          exact alphaBytes_congr hrow (fun _ _ => rfl) c hc
        · rw [Function.update_of_ne hij, Function.update_of_ne hij]
      obtain ⟨q, new, mask', hloop, hdone, hq, hmaskq⟩ := @ih { p with
          mem := Buf.writeRows.go out p.output.rows f' n
          tmp
          scalerA := p.scalerA.rowOut } (rows ++ [p.scalerA.exported])
        ⟨hmid, h.channels, h.dst, by rw [hsize]; exact h.room, h.height, h.width, h.mode⟩ f' hfit rfl hcount
        (rowMask p.output.colorspace (dstRow tmp p.scalerA.rowOut) mask a₀.dstWidth)
        (by rw [List.length_append, List.length_singleton]; omega) (rowMask_le hmask)
      rw [List.length_append, List.length_singleton] at hloop hq hmaskq
      have hall : rows ++ [p.scalerA.exported] ++ new = rows ++ p.scalerA.exported :: new := by
        rw [List.append_assoc, List.singleton_append]
      rw [hall] at hq hmaskq
      have hfirst : alphaOf (rows ++ p.scalerA.exported :: new) rows.length =
          alphaOf (rows ++ [p.scalerA.exported]) rows.length := by
        rw [← hall]
        exact alphaOf_append _ (by rw [List.length_append, List.length_singleton]; omega)
      refine ⟨q, p.scalerA.exported :: new, mask', ?_, ⟨?_, ?_, ?_, ?_, fun _ _ => Nat.succ_pos _⟩, ?_,
        fun hfull => ?_⟩
      · have hw : p.scalerA.rowOut.dstWidth = a₀.dstWidth := h.mid.same.dstWidth
        rw [exportAlphaLoop, if_pos hp, if_neg (not_not.mpr hlt), exportRow_eq h.mid.steady hp]
        dsimp only
        rw [hdst, hlen, htmp, hw, hmem', hloop]
        rfl
      · rw [← hall]
        exact hdone.alphaAt
      · exact ⟨hdone.same.output, hdone.same.lastY, hdone.same.emit, hdone.same.scalers,
          hdone.same.tmp.trans hsize⟩
      · exact hdone.srcY
      · exact Nat.succ_le_succ hdone.le
      · rw [hq, List.length_cons, ← hf', ← hfirst]
        congr 1
        refine between_cons
          (g := fun i => alphaBytes p.output.colorspace (alphaOf (rows ++ p.scalerA.exported :: new) i) (f i))
          f fun i hi _ => ?_
        dsimp only
        rw [Function.update_of_ne (by omega)]
      · obtain ⟨hmask₁, hrest⟩ := hmaskq hfull
        obtain ⟨hmask₀, hnow⟩ := rowMask_full hmask (fun x => UInt8.toNat_lt _) hmask₁
        refine ⟨hmask₀, fun i h1 h2 => ?_⟩
        rw [List.length_cons] at h2
        by_cases hi : i = rows.length
        · subst hi
          rw [hfirst]
          intro x hx
          rw [← hrow x hx]
          exact hnow x hx
        · exact hrest i (by omega) (by omega)
    · refine ⟨p, [], mask, ?_,
        ⟨by rw [List.append_nil]; exact h, .refl p, rfl, Nat.zero_le _, fun hyes => absurd hyes hp⟩,
        ?_, fun hfull => ⟨hfull, fun i h1 h2 => ?_⟩⟩
      · rw [exportAlphaLoop, if_neg hp]
        rfl
      · rw [List.length_nil, between_zero]
        exact hmem
      · rw [List.length_nil] at h2
        omega

/-- **The rows of alpha exported are final**: premultiplied where the mode says so,
whichever rows a call takes together. -/
theorem exportAlpha_eq (h : AlphaAt L a₀ p rows) {out : Buf} {f : ℕ → ℕ → UInt8} {n : ℕ}
    (hfit : RowsFit p.output.rows out.size) (hmem : p.mem = Buf.writeRows.go out p.output.rows f n)
    (hcount : n ≤ p.output.rows.count) (most : ℕ) (hn : rows.length + most ≤ n) :
    ∃ q new, exportAlpha p rows.length most = some (q, new.length) ∧ Exported L a₀ p q rows new most ∧
      q.mem = Buf.writeRows.go out p.output.rows (between rows.length new.length
        (fun i => finalBytes p.output.colorspace (alphaOf (rows ++ new) i) (f i)) f) n := by
  obtain ⟨q, new, mask, hloop, hdone, hq, hmask⟩ := h.exportAlphaLoop_eq hfit hmem hcount most
    (fullMask p.output.colorspace) hn (le_refl _)
  have hle := hdone.le
  unfold exportAlpha
  dsimp only
  rw [hloop]
  dsimp only [Option.map_some]
  have hfinal := @finalRows_go p.output.colorspace out p.output.rows f n a₀.dstWidth hfit h.rowWidth rows.length
    new.length (by omega) hcount (alphaOf (rows ++ new)) mask fun hfull => (hmask hfull).2
  by_cases hpre : webPIsPremultipliedMode p.output.colorspace = true ∧ mask ≠ fullMask p.output.colorspace
  · rw [if_pos hpre] at hfinal
    rw [if_pos hpre]
    refine ⟨_, new, rfl, ⟨?_, ?_, hdone.srcY, hdone.le, hdone.some⟩, ?_⟩
    · exact ⟨hdone.alphaAt.mid, hdone.alphaAt.channels, hdone.alphaAt.dst, hdone.alphaAt.room, hdone.alphaAt.height,
        hdone.alphaAt.width, hdone.alphaAt.mode⟩
    · exact ⟨hdone.same.output, hdone.same.lastY, hdone.same.emit, hdone.same.scalers, hdone.same.tmp⟩
    · dsimp only
      rw [h.mid.same.dstWidth, hq, rowPtr_eq]
      exact hfinal
  · rw [if_neg hpre] at hfinal
    rw [if_neg hpre]
    exact ⟨q, new, rfl, hdone, hq.trans hfinal⟩

/-- Lines of alpha are taken, of a plane that holds them all up to the end of the band. -/
theorem importLines (h : AlphaAt L a₀ p rows) {plane : Buf} {a : ℤ} {width mbY e : ℕ}
    (hread : ∀ j < e, ∀ x < a₀.srcWidth, sourceRow plane (a + ((j : ℤ) - mbY) * width) x = L.a j x)
    (hend : e ≤ a₀.srcHeight) (hsrc : p.scalerA.srcY ≤ e) :
    ∃ scalerA k, webPRescalerImport p.scalerA plane (e - p.scalerA.srcY)
        (a + ((p.scalerA.srcY : ℤ) - mbY) * width) width = some (scalerA, k) ∧
      AlphaAt L a₀ { p with scalerA } rows ∧ Took p.scalerA scalerA (e - p.scalerA.srcY) k := by
  obtain ⟨scalerA, k, himp, hmid, took⟩ :=
    h.mid.importLines plane (a + ((p.scalerA.srcY : ℤ) - mbY) * width) width
    (e - p.scalerA.srcY) (by rw [h.mid.same.srcHeight]; omega) fun j hj x hx => by
      rw [h.mid.same.srcWidth, h.mid.same.numChannels, h.channels, mul_one] at hx
      rw [← hread _ (by omega) x hx]
      congr 1
      push_cast
      ring
  exact ⟨scalerA, k, himp, ⟨hmid, h.channels, h.dst, h.room, h.height, h.width, h.mode⟩, took⟩

/-- What the alpha of a band has done. -/
structure AlphaOut (L : Planes) (a₀ : WebPRescaler) (p q : WebPDecParams) (rows new : List (ℕ → UInt8))
    (e : ℕ) : Prop where
  alphaAt : AlphaAt L a₀ q (rows ++ new)
  same : SameColour p q
  srcY : q.scalerA.srcY ≤ e

/-- **The alpha of a band is put in.** `EmitRescaledAlphaRGB` gives just the rows it is
told of, each turn one at least, for the colour of these rows took no line that alpha
could not take too. -/
theorem emitRescaledAlphaRGBLoop_eq {io : VP8Io} {plane : Buf} {a : ℤ} {e yEnd : ℕ}
    (he : io.mbH + io.mbY = e)
    (hread : ∀ j < e, ∀ x < a₀.srcWidth, sourceRow plane (a + ((j : ℤ) - io.mbY) * io.width) x = L.a j x)
    (hend : e ≤ a₀.srcHeight) (hs : a₀.Shaped)
    (hready : ∀ o : ℕ, o < yEnd → o < a₀.dstHeight ∧ (yPace hs).level e o ≤ 0) (n : ℕ)
    (h : AlphaAt L a₀ p rows) {out : Buf} {f : ℕ → ℕ → UInt8} (hfit : RowsFit p.output.rows out.size)
    (hmem : p.mem = Buf.writeRows.go out p.output.rows f yEnd) (hcount : yEnd ≤ p.output.rows.count)
    (hsrc : p.scalerA.srcY ≤ e) {linesLeft : ℕ} (hleft : rows.length + linesLeft = yEnd)
    (hn : linesLeft ≤ n) :
    ∃ q new, emitRescaledAlphaRGBLoop io plane a yEnd n p linesLeft = some q ∧ new.length = linesLeft ∧
      AlphaOut L a₀ p q rows new e ∧
      q.mem = Buf.writeRows.go out p.output.rows (between rows.length linesLeft
        (fun i => finalBytes p.output.colorspace (alphaOf (rows ++ new) i) (f i)) f) yEnd := by
  induction n generalizing p rows linesLeft f with
  | zero =>
    have h0 : linesLeft = 0 := by omega
    subst h0
    refine ⟨p, [], by rw [emitRescaledAlphaRGBLoop, if_neg (lt_irrefl 0)], rfl,
      ⟨by rw [List.append_nil]; exact h, .refl p, hsrc⟩, ?_⟩
    rw [between_zero]
    exact hmem
  | succ n ih =>
    rcases Nat.eq_zero_or_pos linesLeft with h0 | hpos
    · subst h0
      refine ⟨p, [], by rw [emitRescaledAlphaRGBLoop, if_neg (lt_irrefl 0)], rfl,
        ⟨by rw [List.append_nil]; exact h, .refl p, hsrc⟩, ?_⟩
      rw [between_zero]
      exact hmem
    · obtain ⟨scalerA, k, himp, hA, took⟩ := h.importLines hread hend hsrc
      obtain ⟨q, new, hexport, hx, hq⟩ := hA.exportAlpha_eq hfit hmem hcount linesLeft (by omega)
      have hle := hx.le
      have hsrcA : scalerA.srcY ≤ e := by
        rw [took.srcY]
        have := took.le
        omega
      -- the band's last line makes every row wanted here ready
      have hpend : webPRescalerHasPendingOutput scalerA = true := by
        rcases took.stopped with hall | hp
        · have hfull : scalerA.srcY = e := by
            rw [took.srcY]
            omega
          obtain ⟨ho, hl⟩ := hready rows.length (by omega)
          apply hA.mid.pending_iff.mpr
          rw [hfull]
          exact ⟨ho, hl⟩
        · exact hp
      have hnew := hx.some hpend hpos
      have hout : q.output = p.output := hx.same.output
      obtain ⟨r, rest, hloop, hlen, ho, hr⟩ := @ih q (rows ++ new) hx.alphaAt (between rows.length new.length
          (fun i => finalBytes p.output.colorspace (alphaOf (rows ++ new) i) (f i)) f) (by rw [hout]; exact hfit)
        (by rw [hout]; exact hq) (by rw [hout]; exact hcount) (by rw [hx.srcY]; exact hsrcA) (linesLeft - new.length)
        (by rw [List.length_append]; omega) (by omega)
      refine ⟨r, new ++ rest, ?_, by rw [List.length_append]; omega, ⟨?_, ?_, ho.srcY⟩, ?_⟩
      · rw [emitRescaledAlphaRGBLoop, if_pos hpos]
        dsimp only
        rw [he, himp]
        dsimp only
        rw [show yEnd - linesLeft = rows.length by omega, hexport]
        exact hloop
      · rw [← List.append_assoc]
        exact ho.alphaAt
      · exact SameColour.trans ⟨hx.same.output, hx.same.lastY, hx.same.emit, hx.same.scalers, hx.same.tmp⟩ ho.same
      · rw [hr, hout, List.length_append, ← List.append_assoc]
        have hfirst : ∀ i, rows.length ≤ i → i < rows.length + new.length →
            finalBytes p.output.colorspace (alphaOf (rows ++ new) i) (f i) =
              finalBytes p.output.colorspace (alphaOf (rows ++ new ++ rest) i) (f i) := fun i _ hi => by
          rw [alphaOf_append rest (by rw [List.length_append]; exact hi)]
        have hall := @between_append rows.length new.length (linesLeft - new.length) _
          (fun i => finalBytes p.output.colorspace (alphaOf (rows ++ new ++ rest) i) (f i)) f hfirst
        rw [show new.length + (linesLeft - new.length) = linesLeft by omega] at hall
        rw [← hall]
        congr 1
        apply between_congr
        intro i hi _
        rw [between, if_neg (by omega)]

end AlphaAt

end WebPlugin
