/-
# Bands do not matter

However the rows of a lossless picture are split into bands, the memory they are
emitted to ends up the same: the rows of the window, or what the rescaler makes
of them, one below the other (`Emitted`). The rescaler never lacks a line, never
has one too many, and the last line completes the last row of the output.
-/
import WebPlugin.EmitRows
import WebPlugin.Lines
import WebPlugin.Premult

namespace WebPlugin

open Memory Words

namespace WebPRescaler

variable {wrk : WebPRescaler} {row row' : ℕ → ℕ}

/-! ### What a line depends on -/

/-- An imported row depends on the pixels of the line only. -/
theorem imported_congr (hs : wrk.Shaped) (h : ∀ x < wrk.srcWidth * wrk.numChannels, row x = row' x) {x : ℕ}
    (hx : x < wrk.rowLength) : wrk.imported row x = wrk.imported row' x := by
  have hc := Nat.mod_lt x hs.numChannels
  have ho : x / wrk.numChannels < wrk.dstWidth := (Nat.div_lt_iff_lt_mul hs.numChannels).mpr hx
  have hpix : ∀ i < wrk.srcWidth,
      wrk.pixelAt row (x % wrk.numChannels) i = wrk.pixelAt row' (x % wrk.numChannels) i := fun i hi => by
    apply h
    nlinarith
  unfold imported
  by_cases he : wrk.xExpand = true
  · obtain ⟨hw, hadd, hsub⟩ := hs.expandX he
    have hpos := hs.srcWidth
    have hspan : x / wrk.numChannels * wrk.xSub ≤ (wrk.srcWidth - 1) * wrk.xAdd := by
      rw [hsub, hadd, mul_comm (wrk.srcWidth - 1)]
      exact Nat.mul_le_mul_right _ (by omega)
    have hi : x / wrk.numChannels * wrk.xSub / wrk.xAdd ≤ wrk.srcWidth - 1 :=
      Nat.div_le_of_le_mul (hspan.trans (mul_comm _ _).le)
    rw [if_pos he, if_pos he]
    unfold expanded
    dsimp only
    rw [hpix _ (by omega)]
    by_cases hlast : x / wrk.numChannels * wrk.xSub / wrk.xAdd + 1 < wrk.srcWidth
    · rw [hpix _ hlast]
    · -- On the last pixel the one behind it has no weight.
      have hmod : x / wrk.numChannels * wrk.xSub % wrk.xAdd = 0 := by
        have hdm := Nat.div_add_mod (x / wrk.numChannels * wrk.xSub) wrk.xAdd
        rw [show x / wrk.numChannels * wrk.xSub / wrk.xAdd = wrk.srcWidth - 1 by omega, mul_comm] at hdm
        omega
      rw [hmod]
      push_cast
      rw [mul_zero, mul_zero]
  · have he' : wrk.xExpand = false := by simpa using he
    have htaken : ∀ o ≤ wrk.dstWidth, wrk.takenBy o ≤ wrk.srcWidth := fun o ho => by
      rw [← takenBy_last hs he']
      exact takenBy_mono hs he' ho
    have hpos := hs.srcWidth
    have hshared : ∀ o ≤ wrk.dstWidth, wrk.sharedBy row (x % wrk.numChannels) o =
        wrk.sharedBy row' (x % wrk.numChannels) o := fun o ho => by
      have := htaken o ho
      unfold sharedBy
      rw [hpix _ (by omega)]
    have hsum : wrk.sumOf row (x % wrk.numChannels) (wrk.takenBy (x / wrk.numChannels))
        (wrk.takenBy (x / wrk.numChannels + 1)) = wrk.sumOf row' (x % wrk.numChannels)
        (wrk.takenBy (x / wrk.numChannels)) (wrk.takenBy (x / wrk.numChannels + 1)) := by
      apply Finset.sum_congr rfl
      intro k hk
      have := htaken (x / wrk.numChannels + 1) ho
      exact hpix k (by have := (Finset.mem_Ico.mp hk).2; omega)
    rw [if_neg he, if_neg he]
    unfold shrunk
    rw [hshared _ ho.le, hshared _ ho, hsum]

theorem lineIn_congr (hs : wrk.Shaped) (h : ∀ x < wrk.srcWidth * wrk.numChannels, row x = row' x) :
    wrk.lineIn row = wrk.lineIn row' := by
  have himp := fun x (hx : x < wrk.rowLength) => imported_congr hs h hx
  unfold lineIn
  dsimp only
  congr 1
  · congr 1
    funext x
    by_cases hx : x < wrk.rowLength
    · rw [if_pos hx, if_pos hx, himp x hx]
    · rw [if_neg hx, if_neg hx]
  · congr 1
    · funext x
      by_cases hx : x < wrk.rowLength
      · rw [if_pos hx, if_pos hx, himp x hx]
      · rw [if_neg hx, if_neg hx]
    · funext x
      by_cases hx : x < wrk.rowLength
      · rw [if_pos hx, if_pos hx, himp x hx]
      · rw [if_neg hx, if_neg hx]

/-- Lines that agree within the row are fed alike. -/
theorem Idle.feedAll_congr (h : Idle wrk) {n : ℕ} (hw : wrk.srcWidth * wrk.numChannels = n)
    {rows rows' : List (ℕ → ℕ)}
    (hsame : List.Forall₂ (fun row row' => ∀ x < n, row x = row' x) rows rows')
    (hn : wrk.srcY + rows.length ≤ wrk.srcHeight) : wrk.feedAll rows = wrk.feedAll rows' := by
  induction hsame generalizing wrk with
  | nil => rfl
  | @cons row row' rows rows' hrow hrest ih =>
    rw [List.length_cons] at hn
    have hfirst := h.feed (by omega) row
    have hline : wrk.feed row = wrk.feed row' := by
      unfold WebPRescaler.feed
      rw [lineIn_congr h.steady.shaped (hw ▸ hrow)]
    have htail := ih hfirst.idle (by rw [hfirst.same.srcWidth, hfirst.same.numChannels, hw])
      (by rw [hfirst.srcY, hfirst.same.srcHeight]; omega)
    simp only [WebPRescaler.feedAll]
    rw [← hline, htail]

end WebPRescaler

/-! ### Premultiplied rows -/

theorem mult_lt (x m : ℕ) : mult x m < 256 := by
  unfold mult
  rw [Nat.shiftRight_eq_div_pow]
  omega

/-- The color bytes of a multiplied pixel; its alpha stays. -/
theorem multARGB_eq {argb : ℕ} (h : argb < 4294967296) (inverse : Bool) :
    multARGB argb inverse = if alpha argb = 255 then argb else if alpha argb = 0 then 0 else
      mult (channel argb 0) (getScale (alpha argb) inverse) +
        mult (channel argb 1) (getScale (alpha argb) inverse) * 256 +
        mult (channel argb 2) (getScale (alpha argb) inverse) * 65536 + alpha argb * 16777216 := by
  have ha := alpha_eq h
  have hlt := alpha_lt argb
  unfold multARGB
  by_cases h1 : argb < 0xff000000
  · rw [if_pos h1, if_neg (show ¬ alpha argb = 255 by omega)]
    by_cases h0 : argb ≤ 0x00ffffff
    · rw [if_pos h0, if_pos (show alpha argb = 0 by omega)]
    · have hand : argb &&& 0xff000000 = alpha argb <<< 24 := and_shiftLeft_mask argb 0xff 24
      rw [if_neg h0, if_neg (show ¬ alpha argb = 0 by omega)]
      dsimp only
      rw [hand, Nat.or_assoc, Nat.or_assoc, Nat.or_comm, ← Nat.or_assoc (mult _ _),
        join_eq (mult_lt _ _) (mult_lt _ _) (mult_lt _ _)]
      rfl
  · rw [if_neg h1, if_pos (show alpha argb = 255 by omega)]

theorem multARGB_lt {argb : ℕ} (h : argb < 4294967296) (inverse : Bool) : multARGB argb inverse < 4294967296 := by
  have hlt := alpha_lt argb
  rw [multARGB_eq h]
  split_ifs
  · exact h
  · norm_num
  · have h0 := mult_lt (channel argb 0) (getScale (alpha argb) inverse)
    have h1 := mult_lt (channel argb 1) (getScale (alpha argb) inverse)
    have h2 := mult_lt (channel argb 2) (getScale (alpha argb) inverse)
    omega

section
variable {b : Buf} {ptr stride width : ℕ} {inverse : Bool}

@[simp] theorem multRow_size (b : Buf) (ptr : ℕ) (inverse : Bool) :
    ∀ n, (webPMultARGBRow b ptr inverse n).size = b.size
  | 0 => rfl
  | n + 1 => by simp [webPMultARGBRow, multRow_size b ptr inverse n]

/-- Words in front of and behind the pixels stay. -/
theorem load32_multRow_out (b : Buf) (ptr : ℕ) (inverse : Bool) {i : ℕ} :
    ∀ n, i + 4 ≤ ptr ∨ ptr + 4 * n ≤ i → (webPMultARGBRow b ptr inverse n).load32 i = b.load32 i
  | 0, _ => rfl
  | n + 1, h => by
    rw [webPMultARGBRow, Buf.load32_store32_of_ne (by omega), load32_multRow_out b ptr inverse n (by omega)]

/-- Every pixel of a row is multiplied. -/
theorem load32_multRow (b : Buf) (ptr : ℕ) (inverse : Bool) {x : ℕ} :
    ∀ n, x < n → ptr + 4 * n ≤ b.size →
      (webPMultARGBRow b ptr inverse n).load32 (ptr + 4 * x) = multARGB (b.load32 (ptr + 4 * x)) inverse
  | 0, h, _ => absurd h (Nat.not_lt_zero _)
  | n + 1, h, hb => by
    rw [webPMultARGBRow]
    by_cases hx : x = n
    · subst hx
      rw [load32_multRow_out b ptr inverse x (by omega),
        Buf.load32_store32 (multARGB_lt (Buf.load32_lt _ _) _) (by rw [multRow_size]; omega)]
    · rw [Buf.load32_store32_of_ne (by omega), load32_multRow b ptr inverse n (by omega) (by omega)]

@[simp] theorem multRows_size (b : Buf) (ptr stride width : ℕ) (inverse : Bool) :
    ∀ n, (webPMultARGBRows b ptr stride width inverse n).size = b.size
  | 0 => rfl
  | n + 1 => by simp [webPMultARGBRows, multRows_size b ptr stride width inverse n]

/-- Rows behind stay. -/
theorem load32_multRows_out (hw : 4 * width ≤ stride) {i : ℕ} :
    ∀ n, ptr + n * stride ≤ i → (webPMultARGBRows b ptr stride width inverse n).load32 i = b.load32 i
  | 0, _ => rfl
  | n + 1, h => by
    rw [add_mul, one_mul] at h
    rw [webPMultARGBRows, load32_multRow_out _ _ _ _ (by omega), load32_multRows_out hw n (by omega)]

/-- Every pixel of the rows is multiplied, once. -/
theorem load32_multRows (hw : 4 * width ≤ stride) {j x : ℕ} (hx : x < width) :
    ∀ n, j < n → (∀ k < n, ptr + k * stride + 4 * width ≤ b.size) →
      (webPMultARGBRows b ptr stride width inverse n).load32 (ptr + j * stride + 4 * x) =
        multARGB (b.load32 (ptr + j * stride + 4 * x)) inverse
  | 0, h, _ => absurd h (Nat.not_lt_zero _)
  | n + 1, h, hb => by
    rw [webPMultARGBRows]
    by_cases hj : j = n
    · subst hj
      rw [load32_multRow _ _ _ _ hx (by rw [multRows_size]; exact hb j (by omega)),
        load32_multRows_out hw j (by omega)]
    · have hle : (j + 1) * stride ≤ n * stride := Nat.mul_le_mul_right _ (by omega)
      rw [add_mul, one_mul] at hle
      rw [load32_multRow_out _ _ _ _ (by omega), load32_multRows hw hx n (by omega) fun k hk => hb k (by omega)]

end

/-! ### Rows one below the other -/

/-- Write rows from `base` on. -/
def putRows (b : Buf) (base stride : ℤ) (width : ℕ) : List (ℕ → UInt8) → Buf
  | [] => b
  | row :: rows => putRows (b.writeRow base width row) (base + stride) stride width rows

theorem putRows_append (b : Buf) (base stride : ℤ) (width : ℕ) (rows rows' : List (ℕ → UInt8)) :
    putRows b base stride width (rows ++ rows') =
      putRows (putRows b base stride width rows) (base + rows.length * stride) stride width rows' := by
  induction rows generalizing b base with
  | nil => simp [putRows]
  | cons row rows ih =>
    rw [List.cons_append, putRows, ih, putRows, List.length_cons]
    congr 1
    push_cast
    ring

theorem putRows_congr {α : Type} {width : ℕ} {f g : α → ℕ → UInt8} {rows : List α}
    (h : ∀ a ∈ rows, ∀ c < width, f a c = g a c) (b : Buf) (base stride : ℤ) :
    putRows b base stride width (rows.map f) = putRows b base stride width (rows.map g) := by
  induction rows generalizing b base with
  | nil => rfl
  | cons a rows ih =>
    rw [List.map_cons, List.map_cons, putRows, putRows, Buf.writeRow_congr (h a List.mem_cons_self)]
    exact ih (fun a ha => h a (List.mem_cons_of_mem _ ha)) _ _

theorem go_count (b : Buf) (base stride : ℤ) (width c c' : ℕ) (f : ℕ → ℕ → UInt8) :
    ∀ n, Buf.writeRows.go b ⟨base, stride, width, c⟩ f n = Buf.writeRows.go b ⟨base, stride, width, c'⟩ f n
  | 0 => rfl
  | n + 1 => by
    rw [Buf.writeRows.go, Buf.writeRows.go, go_count b base stride width c c' f n]
    rfl

/-- Rows put one below the other are the rows of a picture. -/
theorem putRows_eq (b : Buf) (base stride : ℤ) (width : ℕ) (rows : List (ℕ → UInt8)) :
    putRows b base stride width rows = b.writeRows ⟨base, stride, width, rows.length⟩ fun j =>
      rows.getD j fun _ => 0 := by
  induction rows using List.reverseRecOn with
  | nil => rfl
  | append_singleton rows row ih =>
    have hlast : (rows ++ [row]).getD rows.length (fun _ => 0) = row := by simp
    have hfront : Buf.writeRows.go b ⟨base, stride, width, (rows ++ [row]).length⟩
        (fun j => (rows ++ [row]).getD j fun _ => 0) rows.length =
        b.writeRows ⟨base, stride, width, rows.length⟩ fun j => rows.getD j fun _ => 0 := by
      rw [go_count b base stride width _ rows.length]
      exact Buf.go_congr rows.length fun j hj c _ => by rw [List.getD_append _ _ _ _ hj]
    rw [putRows_append, ih, ← hfront, putRows, putRows, Buf.writeRows, List.length_append, List.length_singleton,
      Buf.writeRows.go]
    dsimp only
    rw [hlast]
    rfl

/-! ### Words and bytes -/

/-- The bytes of a word in memory. -/
theorem channel_load32 (b : Buf) (i : ℕ) {k : ℕ} (hk : k < 4) :
    channel (b.load32 i) k = (b.byte (i + k)).toNat := by
  have h := fun k => UInt8.toNat_lt (b.byte k)
  rw [Buf.load32, show i = i + 0 from rfl]
  exact channel_sum (c := fun k => (b.byte (i + k)).toNat) (fun _ _ => h _) k hk

/-- A source row of words. -/
theorem sourceRow_eq (b : Buf) (p x : ℕ) : sourceRow b p x = channel (b.load32 (p + 4 * (x / 4))) (x % 4) := by
  rw [channel_load32 b _ (Nat.mod_lt x (by norm_num)), sourceRow, Buf.get]
  congr 2
  omega

/-! ### Export -/

/-- The pixels of an exported row, un-premultiplied. -/
def unmultiplied (row : ℕ → UInt8) (x : ℕ) : ℕ :=
  multARGB ((row (4 * x)).toNat + (row (4 * x + 1)).toNat * 256 + (row (4 * x + 2)).toNat * 65536 +
    (row (4 * x + 3)).toNat * 16777216) true

/-- The bytes of an exported row. -/
def exportedRow (colorspace : WebPCspMode) (row : ℕ → UInt8) : ℕ → UInt8 :=
  convertedByte colorspace (unmultiplied row)

theorem kModeBpp_pos' (m : WebPCspMode) : 0 < kModeBpp m := by
  cases m <;> decide

theorem convertedByte_congr {colorspace : WebPCspMode} {p q : ℕ → ℕ} {n c : ℕ} (h : ∀ x < n, p x = q x)
    (hc : c < n * kModeBpp colorspace) : convertedByte colorspace p c = convertedByte colorspace q c := by
  unfold convertedByte
  rw [h _ ((Nat.div_lt_iff_lt_mul (kModeBpp_pos' colorspace)).mpr hc)]

/-- A rescaler of four channels over a single output row at `src`. -/
structure OneRow (wrk : WebPRescaler) (src : ℕ) (scaledData : Buf) : Prop where
  dst : wrk.dst = src
  dstStride : wrk.dstStride = 0
  numChannels : wrk.numChannels = 4
  fits : src + 4 * wrk.dstWidth ≤ scaledData.size

/-- **The export loop empties the rescaler** into the rows below `dst`. -/
theorem exportRowsLoop_eq {colorspace : WebPCspMode} {src dstWidth : ℕ} {rgbaStride : ℤ} :
    ∀ (n : ℕ) (s : Scaling) (dst : ℤ), s.rescaler.Steady → OneRow s.rescaler src s.scaledData →
      s.rescaler.dstWidth = dstWidth → s.rescaler.dstHeight ≤ s.rescaler.dstY + n →
      ∃ scaledData, scaledData.size = s.scaledData.size ∧
        exportRowsLoop colorspace src dstWidth rgbaStride n s dst =
          some (⟨s.rescaler.drain.1, scaledData, putRows s.mem dst rgbaStride (dstWidth * kModeBpp colorspace)
            (s.rescaler.drain.2.map (exportedRow colorspace))⟩, s.rescaler.drain.2.length) := by
  intro n
  induction n with
  | zero =>
    intro s dst hs hone hw hn
    have hp : webPRescalerHasPendingOutput s.rescaler = false := by
      rw [← Bool.not_eq_true, WebPRescaler.pending_iff]
      omega
    refine ⟨s.scaledData, rfl, ?_⟩
    rw [exportRowsLoop, hp, if_neg (by decide), WebPRescaler.drain_of_not hp]
    rfl
  | succ n ih =>
    intro s dst hs hone hw hn
    by_cases hp : webPRescalerHasPendingOutput s.rescaler = true
    · have hexp := WebPRescaler.exportRow_eq hs hp s.scaledData
      have hfits := hone.fits
      generalize hdata : webPMultARGBRow (s.scaledData.writeRow s.rescaler.dst s.rescaler.rowLength s.rescaler.exported)
        src true dstWidth = data
      have hsize : data.size = s.scaledData.size := by rw [← hdata, multRow_size, Buf.writeRow_size]
      have hbyte : ∀ c < 4 * dstWidth, (s.scaledData.writeRow s.rescaler.dst s.rescaler.rowLength
          s.rescaler.exported).byte (src + c) = s.rescaler.exported c := fun c hc => by
        apply Buf.writeRow_in
        · rw [WebPRescaler.rowLength, hone.numChannels, hw]
          omega
        · rw [hone.dst]
          push_cast
          rfl
        · omega
      have hpix : ∀ x < dstWidth, pixelsAt data src x = unmultiplied s.rescaler.exported x := fun x hx => by
        rw [pixelsAt, ← hdata, load32_multRow _ _ _ _ hx (by rw [Buf.writeRow_size]; omega), unmultiplied, Buf.load32]
        simp only [add_assoc, hbyte (4 * x) (by omega), hbyte (4 * x + 1) (by omega), hbyte (4 * x + 2) (by omega),
          hbyte (4 * x + 3) (by omega)]
      obtain ⟨scaledData, hsize', hrest⟩ :=
        ih ⟨s.rescaler.rowOut, data, vp8lConvertFromBGRA (pixelsAt data src) dstWidth
          colorspace s.mem dst⟩ (dst + rgbaStride) (hs.rowOut hp)
        ⟨by
          change s.rescaler.dst + s.rescaler.dstStride = src
          rw [hone.dst, hone.dstStride, add_zero], hone.dstStride, hone.numChannels,
          by rw [hsize]; exact hfits⟩ hw (by
          change s.rescaler.dstHeight ≤ s.rescaler.dstY + 1 + n
          omega)
      refine ⟨scaledData, hsize'.trans hsize, ?_⟩
      have hconv : vp8lConvertFromBGRA (pixelsAt data src) dstWidth colorspace s.mem dst =
          s.mem.writeRow dst (dstWidth * kModeBpp colorspace) (exportedRow colorspace s.rescaler.exported) :=
        Buf.writeRow_congr fun c hc => convertedByte_congr hpix hc
      rw [exportRowsLoop, if_pos hp]
      dsimp only
      rw [hexp]
      dsimp only
      rw [hdata, hrest, WebPRescaler.drain_of_pending hp, hconv, Option.map_some]
      rfl
    · have hq : webPRescalerHasPendingOutput s.rescaler = false := by simpa using hp
      refine ⟨s.scaledData, rfl, ?_⟩
      rw [exportRowsLoop, if_neg hp, WebPRescaler.drain_of_not hq]
      rfl

/-! ### A band -/

/-- The bytes of a premultiplied line. -/
def premultipliedLine (pix : ℕ → ℕ) (x : ℕ) : ℕ := channel (multARGB (pix (x / 4)) false) (x % 4)

/-- The lines of a band, premultiplied. -/
def bandLines (cache : Buf) (rowIn inStride n : ℕ) : List (ℕ → ℕ) :=
  (List.range n).map fun j => premultipliedLine (pixelsAt cache (rowIn + j * inStride))

@[simp] theorem length_bandLines (cache : Buf) (rowIn inStride n : ℕ) :
    (bandLines cache rowIn inStride n).length = n := by
  simp [bandLines]

theorem bandLines_add (cache : Buf) (rowIn inStride j k : ℕ) : bandLines cache rowIn inStride (j + k) =
    bandLines cache rowIn inStride j ++ bandLines cache (rowIn + j * inStride) inStride k := by
  simp only [bandLines, List.range_add, List.map_append, List.map_map]
  congr 1
  apply List.map_congr_left
  intro i _
  simp only [Function.comp]
  congr 2
  ring

section
variable {cache : Buf} {rowIn inStride width : ℕ}

/-- Premultiplying the first lines leaves the others. -/
theorem bandLines_multRows (hw : 4 * width ≤ inStride) (k n : ℕ) :
    bandLines (webPMultARGBRows cache rowIn inStride width false k) (rowIn + k * inStride) inStride n =
      bandLines cache (rowIn + k * inStride) inStride n := by
  apply List.map_congr_left
  intro j _
  funext x
  unfold premultipliedLine pixelsAt
  rw [load32_multRows_out hw k (by rw [add_assoc, add_assoc]; omega)]

/-- The lines an import reads are premultiplied once. -/
theorem linesAt_multRows (hw : 4 * width ≤ inStride) {k : ℕ}
    (hfit : ∀ j < k, rowIn + j * inStride + 4 * width ≤ cache.size) :
    List.Forall₂ (fun row row' => ∀ x < width * 4, row x = row' x)
      (WebPRescaler.linesAt (webPMultARGBRows cache rowIn inStride width false k) rowIn inStride k)
      (bandLines cache rowIn inStride k) := by
  unfold WebPRescaler.linesAt bandLines
  rw [List.forall₂_map_left_iff, List.forall₂_map_right_iff, List.forall₂_same]
  intro j hj x hx
  have hsrc : (rowIn : ℤ) + j * inStride = ((rowIn + j * inStride : ℕ) : ℤ) := by push_cast; rfl
  rw [hsrc, sourceRow_eq, load32_multRows hw (by omega) k (List.mem_range.mp hj) hfit]
  rfl

end

/-- **A band is fed line by line**: `EmitRescaledRowsRGBA` imports every line
once, premultiplied once, and puts every row that gets complete below the others. -/
theorem emitRescaledRowsLoop_eq {colorspace : WebPCspMode} {inStride src : ℕ} {outStride : ℤ} :
    ∀ (n : ℕ) (s : Scaling) (cache : Buf) (linesLeft rowIn : ℕ) (rowOut : ℤ), s.rescaler.Idle →
      OneRow s.rescaler src s.scaledData → linesLeft ≤ n →
      s.rescaler.srcY + linesLeft ≤ s.rescaler.srcHeight → 4 * s.rescaler.srcWidth ≤ inStride →
      (∀ j < linesLeft, rowIn + j * inStride + 4 * s.rescaler.srcWidth ≤ cache.size) →
      ∃ scaledData, scaledData.size = s.scaledData.size ∧
        emitRescaledRowsLoop colorspace inStride outStride n s cache linesLeft rowIn rowOut =
          some (⟨(s.rescaler.feedAll (bandLines cache rowIn inStride linesLeft)).1, scaledData,
            putRows s.mem rowOut outStride (s.rescaler.dstWidth * kModeBpp colorspace)
              ((s.rescaler.feedAll (bandLines cache rowIn inStride linesLeft)).2.map (exportedRow colorspace))⟩,
            (s.rescaler.feedAll (bandLines cache rowIn inStride linesLeft)).2.length) := by
  intro n
  induction n with
  | zero =>
    intro s cache linesLeft rowIn rowOut hidle hone hn hsrc hw hfit
    obtain rfl : linesLeft = 0 := by omega
    exact ⟨s.scaledData, rfl, by rw [emitRescaledRowsLoop, if_pos rfl]; rfl⟩
  | succ n ih =>
    intro s cache linesLeft rowIn rowOut hidle hone hn hsrc hw hfit
    by_cases h0 : linesLeft = 0
    · subst h0
      exact ⟨s.scaledData, rfl, by rw [emitRescaledRowsLoop, if_pos rfl]; rfl⟩
    · generalize hcache : webPMultARGBRows cache rowIn inStride s.rescaler.srcWidth false
        (webPRescaleNeededLines s.rescaler linesLeft).toNat = cache'
      obtain ⟨wrk, k, himp, hdone⟩ := hidle.importLines cache' rowIn inStride linesLeft hsrc
      obtain ⟨hk, hkpos⟩ := hdone.needed (Nat.pos_of_ne_zero h0)
      have hkle := hdone.le
      have hkNat : (webPRescaleNeededLines s.rescaler linesLeft).toNat = k := by omega
      rw [hkNat] at hcache
      -- What is fed are the premultiplied lines of the band.
      have hfirst : s.rescaler.feedAll (bandLines cache rowIn inStride k) = wrk.drain := by
        rw [← hdone.fed, ← hcache]
        exact (hidle.feedAll_congr (by rw [hone.numChannels]) (linesAt_multRows hw fun j hj => hfit j (by omega))
          (by rw [WebPRescaler.length_linesAt]; omega)).symm
      have hrest := @bandLines_multRows cache rowIn inStride _ hw k (linesLeft - k)
      rw [hcache] at hrest
      have hone' : OneRow wrk src s.scaledData :=
        ⟨hdone.dst.trans hone.dst, hdone.same.dstStride.trans hone.dstStride,
        hdone.same.numChannels.trans hone.numChannels, by rw [hdone.same.dstWidth]; exact hone.fits⟩
      have hfed := hidle.feedAll (bandLines cache rowIn inStride k) (by rw [length_bandLines]; omega)
      rw [hfirst, length_bandLines] at hfed
      obtain ⟨data, hsize, hexp⟩ := @exportRowsLoop_eq colorspace src wrk.dstWidth outStride wrk.dstHeight
        { s with rescaler := wrk } rowOut hdone.steady hone' rfl (Nat.le_add_left _ _)
      have hone'' : OneRow wrk.drain.1 src data := ⟨by
          rw [hfed.dst, hone.dst, hone.dstStride, mul_zero, add_zero], hfed.same.dstStride.trans hone.dstStride,
        hfed.same.numChannels.trans hone.numChannels, by rw [hfed.same.dstWidth, hsize]; exact hone.fits⟩
      obtain ⟨data', hsize', hloop⟩ := ih ⟨wrk.drain.1, data, putRows s.mem rowOut outStride
          (wrk.dstWidth * kModeBpp colorspace) (wrk.drain.2.map (exportedRow colorspace))⟩ cache' (linesLeft - k)
        (rowIn + k * inStride) (rowOut + wrk.drain.2.length * outStride) hfed.idle hone'' (by omega)
        (by rw [hfed.srcY, hfed.same.srcHeight]; omega) (by rw [hfed.same.srcWidth]; exact hw) fun j hj => by
          have hj' := hfit (k + j) (by omega)
          rw [add_mul] at hj'
          rw [← hcache, multRows_size, hfed.same.srcWidth]
          omega
      refine ⟨data', hsize'.trans hsize, ?_⟩
      have hsplit : bandLines cache rowIn inStride linesLeft =
          bandLines cache rowIn inStride k ++ bandLines cache (rowIn + k * inStride) inStride (linesLeft - k) := by
        rw [← bandLines_add, Nat.add_sub_cancel' hkle]
      have hdst : wrk.dst.toNat = src := by rw [hone'.dst, Int.toNat_natCast]
      have hexport : exportRows { s with rescaler := wrk } colorspace outStride rowOut = some (⟨wrk.drain.1, data,
          putRows s.mem rowOut outStride (wrk.dstWidth * kModeBpp colorspace)
            (wrk.drain.2.map (exportedRow colorspace))⟩, wrk.drain.2.length) := by
        unfold exportRows
        dsimp only
        rw [hdst]
        exact hexp
      rw [emitRescaledRowsLoop, if_neg h0]
      dsimp only
      rw [if_neg (by rw [not_not]; omega), hkNat, hcache, himp]
      dsimp only
      rw [if_neg (by rw [not_not]; exact hk), hexport]
      dsimp only
      rw [hloop, Option.map_some, hrest, hsplit, WebPRescaler.feedAll_append, hfirst]
      dsimp only
      rw [List.map_append, putRows_append, List.length_map, List.length_append, hfed.same.dstWidth, hdone.same.dstWidth]

/-- Rows that are not scaled are converted. -/
theorem emitRows_eq (colorspace : WebPCspMode) (cache : Buf) (rowIn inStride mbW : ℕ) (mem : Buf)
    (out outStride : ℤ) (n : ℕ) :
    emitRows colorspace cache rowIn inStride mbW mem out outStride n =
      putRows mem out outStride (mbW * kModeBpp colorspace)
        ((List.range n).map fun j => convertedByte colorspace (pixelsAt cache (rowIn + j * inStride))) := by
  induction n with
  | zero => rfl
  | succ n ih =>
    rw [emitRows, ih, List.range_succ, List.map_append, putRows_append, List.length_map, List.length_range]
    rfl

/-! ### All the bands -/

/-- `cache` holds `num` rows of a picture, from row `start` on. -/
structure CacheOf (pic : ℕ → ℕ → ℕ) (width start num : ℕ) (cache : Buf) : Prop where
  size : num * (width * 4) ≤ cache.size
  pixel : ∀ j < num, ∀ x < width, cache.load32 (j * (width * 4) + 4 * x) = pic (start + j) x

/-- The first `n` lines of the window. -/
def windowLines (pic : ℕ → ℕ → ℕ) (io : VP8Io) (n : ℕ) : List (ℕ → ℕ) :=
  (List.range n).map fun j x => pic (io.cropTop + j) (io.cropLeft + x)

/-- The rows the first `n` lines of the window give, as bytes of the output. -/
def emittedRows (dec₀ : VP8LDecoder) (pic : ℕ → ℕ → ℕ) (n : ℕ) : List (ℕ → UInt8) :=
  if dec₀.io.useScaling then
    (dec₀.scaling.rescaler.feedAll ((windowLines pic dec₀.io n).map premultipliedLine)).2.map
      (exportedRow dec₀.output.colorspace)
  else (windowLines pic dec₀.io n).map (convertedByte dec₀.output.colorspace)

/-- The decoder between bands, from a fresh one on: the rows come in order, at
most as many at a time as the cache holds, up to the end of the window. -/
inductive Emission (pic : ℕ → ℕ → ℕ) (dec₀ : VP8LDecoder) : VP8LDecoder → Prop
  | start : Emission pic dec₀ dec₀
  | rows {dec dec' : VP8LDecoder} (run : Emission pic dec₀ dec) {row : ℕ} {cache : Buf}
      (le : dec.lastRow ≤ row) (few : row ≤ dec.lastRow + numArgbCacheRows) (last : row ≤ dec₀.io.cropBottom)
      (holds : CacheOf pic dec₀.io.width dec.lastRow (row - dec.lastRow) cache)
      (ok : processRows dec cache row = some dec') : Emission pic dec₀ dec'

/-- A decoder whose output has the size of the window, or what that is scaled to. -/
structure Fresh (dec : VP8LDecoder) : Prop where
  columns : dec.io.cropLeft < dec.io.cropRight ∧ dec.io.cropRight ≤ dec.io.width
  lines : dec.io.cropTop < dec.io.cropBottom ∧ dec.io.cropBottom ≤ dec.height
  lastRow : dec.lastRow = 0
  lastOutRow : dec.lastOutRow = 0
  plain : dec.io.useScaling = false → dec.output.width = (dec.io.cropRight - dec.io.cropLeft : ℕ) ∧
    dec.output.height = (dec.io.cropBottom - dec.io.cropTop : ℕ)
  idle : dec.io.useScaling = true → dec.scaling.rescaler.Idle
  oneRow : dec.io.useScaling = true → OneRow dec.scaling.rescaler 0 dec.scaling.scaledData
  counts : dec.io.useScaling = true → dec.scaling.rescaler.srcY = 0 ∧ dec.scaling.rescaler.dstY = 0
  source : dec.io.useScaling = true → dec.scaling.rescaler.srcWidth = dec.io.cropRight - dec.io.cropLeft ∧
    dec.scaling.rescaler.srcHeight = dec.io.cropBottom - dec.io.cropTop
  target : dec.io.useScaling = true → dec.output.width = dec.scaling.rescaler.dstWidth ∧
    dec.output.height = dec.scaling.rescaler.dstHeight

section
variable {pic : ℕ → ℕ → ℕ} {dec₀ dec : VP8LDecoder}

@[simp] theorem length_windowLines (pic : ℕ → ℕ → ℕ) (io : VP8Io) (n : ℕ) :
    (windowLines pic io n).length = n := by
  simp [windowLines]

theorem windowLines_add (pic : ℕ → ℕ → ℕ) (io : VP8Io) (n k : ℕ) : windowLines pic io (n + k) =
    windowLines pic io n ++ (List.range k).map fun j x => pic (io.cropTop + n + j) (io.cropLeft + x) := by
  simp only [windowLines, List.range_add, List.map_append, List.map_map]
  congr 1
  apply List.map_congr_left
  intro j _
  funext x
  simp only [Function.comp]
  congr 1
  ring

/-- How much of the window has been emitted. -/
structure Emitted (pic : ℕ → ℕ → ℕ) (dec₀ dec : VP8LDecoder) (n : ℕ) : Prop where
  io : ∃ mbY mbW mbH, dec.io = { dec₀.io with mbY, mbW, mbH }
  output : dec.output = dec₀.output
  height : dec.height = dec₀.height
  lines : n = dec.lastRow - dec₀.io.cropTop
  last : dec.lastRow ≤ dec₀.io.cropBottom
  count : dec.lastOutRow = (emittedRows dec₀ pic n).length
  mem : dec.scaling.mem = putRows dec₀.scaling.mem (dec₀.output.u.rgba.getD 0) dec₀.output.u.stride
    (dec₀.output.width.toNat * kModeBpp dec₀.output.colorspace) (emittedRows dec₀ pic n)
  rescaler : dec₀.io.useScaling = true → dec.scaling.rescaler =
    (dec₀.scaling.rescaler.feedAll ((windowLines pic dec₀.io n).map premultipliedLine)).1
  oneRow : dec₀.io.useScaling = true → OneRow dec.scaling.rescaler 0 dec.scaling.scaledData

theorem Fresh.emitted (h : Fresh dec₀) : Emitted pic dec₀ dec₀ 0 := by
  have hrows : emittedRows dec₀ pic 0 = [] := by
    unfold emittedRows
    split_ifs <;> rfl
  refine ⟨⟨_, _, _, rfl⟩, rfl, rfl, by rw [h.lastRow]; simp, by rw [h.lastRow]; exact Nat.zero_le _, ?_,
    ?_, fun _ => rfl, h.oneRow⟩
  · rw [hrows, h.lastOutRow]
    rfl
  · rw [hrows]
    rfl

/-- As many rows as lines, or as many as the rescaler has given. -/
theorem Fresh.rows (h : Fresh dec₀) {n : ℕ} (hn : n ≤ dec₀.io.cropBottom - dec₀.io.cropTop) :
    ((emittedRows dec₀ pic n).length : ℤ) ≤ dec₀.output.height ∧
      (n = dec₀.io.cropBottom - dec₀.io.cropTop →
        ((emittedRows dec₀ pic n).length : ℤ) = dec₀.output.height) := by
  unfold emittedRows
  by_cases hu : dec₀.io.useScaling = true
  · obtain ⟨hsrcY, hdstY⟩ := h.counts hu
    obtain ⟨-, hsrcH⟩ := h.source hu
    obtain ⟨-, hH⟩ := h.target hu
    have hfed := (h.idle hu).feedAll ((windowLines pic dec₀.io n).map premultipliedLine)
      (by rw [List.length_map, length_windowLines]; omega)
    have hle := hfed.idle.steady.dstY_le
    rw [hfed.dstY, hdstY, zero_add, hfed.same.dstHeight] at hle
    rw [if_pos hu, List.length_map, hH]
    refine ⟨by exact_mod_cast hle, fun hall => ?_⟩
    have hout := hfed.idle.steady.all_out (by
      rw [hfed.srcY, hsrcY, hfed.same.srcHeight, List.length_map, length_windowLines]; omega) hfed.idle.quiet
    rw [hfed.dstY, hdstY, zero_add, hfed.same.dstHeight] at hout
    exact_mod_cast hout
  · obtain ⟨-, hH⟩ := h.plain (by simpa using hu)
    rw [if_neg hu, List.length_map, length_windowLines, hH]
    exact ⟨by exact_mod_cast hn, fun hall => by rw [hall]⟩

/-- The pixels of a band in the cache are the next lines of the window. -/
theorem CacheOf.pixels {width start num left top : ℕ} {cache : Buf} (hc : CacheOf pic width start num cache)
    {j x : ℕ} (hj : top - start + j < num) (hx : left + x < width) :
    pixelsAt cache ((top - start) * (width * 4) + left * 4 + j * (width * 4)) x =
      pic (top + (start - top) + j) (left + x) := by
  have hpix := hc.pixel (top - start + j) hj (left + x) hx
  have hat : (top - start) * (width * 4) + left * 4 + j * (width * 4) + 4 * x =
      (top - start + j) * (width * 4) + 4 * (left + x) := by ring
  rw [pixelsAt, hat, hpix]
  congr 1
  omega

theorem CacheOf.fits {width start num left top w : ℕ} {cache : Buf} (hc : CacheOf pic width start num cache)
    {j : ℕ} (hj : top - start + j < num) (hw : left + w ≤ width) :
    (top - start) * (width * 4) + left * 4 + j * (width * 4) + 4 * w ≤ cache.size := by
  have hle : (top - start + j + 1) * (width * 4) ≤ num * (width * 4) := Nat.mul_le_mul_right _ hj
  have hsize := hc.size
  rw [add_mul, add_mul, one_mul] at hle
  omega

/-- What the next lines of the window add. -/
structure Added (pic : ℕ → ℕ → ℕ) (dec₀ dec : VP8LDecoder) (n k : ℕ) (scaling : Scaling)
    (count : ℕ) : Prop where
  count : (emittedRows dec₀ pic (n + k)).length = (emittedRows dec₀ pic n).length + count
  mem : scaling.mem = putRows dec₀.scaling.mem (dec₀.output.u.rgba.getD 0) dec₀.output.u.stride
    (dec₀.output.width.toNat * kModeBpp dec₀.output.colorspace) (emittedRows dec₀ pic (n + k))
  rescaler : dec₀.io.useScaling = true → scaling.rescaler =
    (dec₀.scaling.rescaler.feedAll ((windowLines pic dec₀.io (n + k)).map premultipliedLine)).1
  oneRow : dec₀.io.useScaling = true → OneRow scaling.rescaler 0 scaling.scaledData

theorem Emitted.scaled (h : Fresh dec₀) {n k : ℕ} (he : Emitted pic dec₀ dec n) (hu : dec₀.io.useScaling = true)
    (hk : n + k ≤ dec₀.io.cropBottom - dec₀.io.cropTop) {cache : Buf} {num : ℕ}
    (hc : CacheOf pic dec₀.io.width dec.lastRow num cache) (hnum : dec₀.io.cropTop - dec.lastRow + k ≤ num) :
    ∃ scaling count, emitRescaledRowsRGBA dec₀.output.colorspace dec.scaling cache
      ((dec₀.io.cropTop - dec.lastRow) * (dec₀.io.width * 4) + dec₀.io.cropLeft * 4) (dec₀.io.width * 4) k
      (dec₀.output.u.rgba.getD 0 + dec.lastOutRow * dec₀.output.u.stride) dec₀.output.u.stride =
        some (scaling, count) ∧
      Added pic dec₀ dec n k scaling count := by
  obtain ⟨hleft, hright⟩ := h.columns
  obtain ⟨hsrcY, -⟩ := h.counts hu
  obtain ⟨hsrcW, hsrcH⟩ := h.source hu
  obtain ⟨hW, -⟩ := h.target hu
  have hone := he.oneRow hu
  have hfed := (h.idle hu).feedAll ((windowLines pic dec₀.io n).map premultipliedLine)
    (by rw [List.length_map, length_windowLines]; omega)
  rw [← he.rescaler hu, List.length_map, length_windowLines] at hfed
  have hwidth : dec.scaling.rescaler.srcWidth = dec₀.io.cropRight - dec₀.io.cropLeft := by
    rw [hfed.same.srcWidth, hsrcW]
  obtain ⟨data, hsize, hemit⟩ := @emitRescaledRowsLoop_eq dec₀.output.colorspace (dec₀.io.width * 4) 0
    dec₀.output.u.stride k dec.scaling cache k
    ((dec₀.io.cropTop - dec.lastRow) * (dec₀.io.width * 4) + dec₀.io.cropLeft * 4)
    (dec₀.output.u.rgba.getD 0 + dec.lastOutRow * dec₀.output.u.stride) hfed.idle hone (le_refl _)
    (by rw [hfed.srcY, hfed.same.srcHeight]; omega) (by omega)
    fun j hj => hc.fits (by omega) (by omega)
  generalize hnext : (List.range k).map (fun j x => pic (dec₀.io.cropTop + n + j) (dec₀.io.cropLeft + x)) = next
  have hlines : windowLines pic dec₀.io (n + k) = windowLines pic dec₀.io n ++ next := by
    rw [← hnext]
    exact windowLines_add pic dec₀.io n k
  have hfeed : dec.scaling.rescaler.feedAll (bandLines cache ((dec₀.io.cropTop - dec.lastRow) *
      (dec₀.io.width * 4) + dec₀.io.cropLeft * 4) (dec₀.io.width * 4) k) =
      dec.scaling.rescaler.feedAll (next.map premultipliedLine) := by
    refine hfed.idle.feedAll_congr (by rw [hone.numChannels]) ?_ (by
      rw [length_bandLines, hfed.srcY, hfed.same.srcHeight]; omega)
    rw [← hnext, List.map_map, bandLines, List.forall₂_map_left_iff, List.forall₂_map_right_iff,
      List.forall₂_same]
    intro j hj x hx
    have hj' := List.mem_range.mp hj
    have hpix := @CacheOf.pixels pic _ _ _ dec₀.io.cropLeft dec₀.io.cropTop _ hc j (x / 4) (by omega) (by omega)
    unfold premultipliedLine
    rw [hpix, he.lines]
    rfl
  rw [hfeed] at hemit
  have happend := WebPRescaler.feedAll_append dec₀.scaling.rescaler
    ((windowLines pic dec₀.io n).map premultipliedLine) (next.map premultipliedLine)
  rw [← List.map_append, ← hlines] at happend
  dsimp only at happend
  rw [← he.rescaler hu] at happend
  have hrows : emittedRows dec₀ pic (n + k) = emittedRows dec₀ pic n ++
      (dec.scaling.rescaler.feedAll (next.map premultipliedLine)).2.map (exportedRow dec₀.output.colorspace) := by
    unfold emittedRows
    rw [if_pos hu, if_pos hu, happend, List.map_append]
  refine ⟨_, _, hemit, ?_, ?_, ?_, ?_⟩
  · rw [hrows, List.length_append, List.length_map]
  · rw [hrows, putRows_append, ← he.mem, he.count, hfed.same.dstWidth, hW, Int.toNat_natCast]
  · intro _
    rw [happend]
  · intro _
    have hthen := hfed.idle.feedAll (next.map premultipliedLine) (by
      rw [List.length_map, ← hnext, List.length_map, List.length_range, hfed.srcY, hfed.same.srcHeight]; omega)
    refine ⟨?_, hthen.same.dstStride.trans hone.dstStride, hthen.same.numChannels.trans hone.numChannels, ?_⟩
    · dsimp only
      rw [hthen.dst, hone.dst, hone.dstStride, mul_zero, add_zero]
    · dsimp only
      rw [hthen.same.dstWidth, hsize]
      exact hone.fits

theorem Emitted.plain (h : Fresh dec₀) {n k : ℕ} (he : Emitted pic dec₀ dec n) (hu : dec₀.io.useScaling = false)
    {cache : Buf} {num : ℕ} (hc : CacheOf pic dec₀.io.width dec.lastRow num cache)
    (hnum : dec₀.io.cropTop - dec.lastRow + k ≤ num) :
    Added pic dec₀ dec n k ⟨dec.scaling.rescaler, dec.scaling.scaledData, emitRows dec₀.output.colorspace cache
      ((dec₀.io.cropTop - dec.lastRow) * (dec₀.io.width * 4) + dec₀.io.cropLeft * 4) (dec₀.io.width * 4)
      (dec₀.io.cropRight - dec₀.io.cropLeft) dec.scaling.mem
      (dec₀.output.u.rgba.getD 0 + dec.lastOutRow * dec₀.output.u.stride) dec₀.output.u.stride k⟩ k := by
  obtain ⟨hleft, hright⟩ := h.columns
  obtain ⟨hW, -⟩ := h.plain hu
  have hno : ¬ dec₀.io.useScaling = true := by rw [hu]; decide
  have hrows :
      ∀ m, emittedRows dec₀ pic m = (windowLines pic dec₀.io m).map (convertedByte dec₀.output.colorspace) :=
    fun m => by
      unfold emittedRows
      rw [if_neg hno]
  refine ⟨?_, ?_, fun hyes => absurd hyes hno, fun hyes => absurd hyes hno⟩
  · rw [hrows, hrows, List.length_map, List.length_map, length_windowLines, length_windowLines]
  · dsimp only
    rw [hrows, windowLines_add, List.map_append, ← hrows, putRows_append, ← he.mem, ← he.count, emitRows_eq, hW,
      Int.toNat_natCast, List.map_map]
    apply putRows_congr
    intro j hj c hc'
    have hj' := List.mem_range.mp hj
    apply convertedByte_congr _ hc'
    intro x hx
    rw [@CacheOf.pixels pic _ _ _ dec₀.io.cropLeft dec₀.io.cropTop _ hc j x (by omega) (by omega), he.lines]

/-- A band that misses the window changes nothing; another one is its lines in
the window. -/
theorem setCropWindow_eq (io : VP8Io) {yStart yEnd : ℕ} (pixelStride : ℕ) (hlast : yEnd ≤ io.cropBottom) :
    setCropWindow io yStart yEnd pixelStride =
      if max yStart io.cropTop ≥ yEnd then none
      else
        some ({ io with
            mbY := max yStart io.cropTop - io.cropTop
            mbW := io.cropRight - io.cropLeft
            mbH := yEnd - max yStart io.cropTop },
          (io.cropTop - yStart) * pixelStride + io.cropLeft * 4) := by
  have hin : (if yStart < io.cropTop then (io.cropTop - yStart) * pixelStride else 0) =
      (io.cropTop - yStart) * pixelStride := by
    by_cases h : yStart < io.cropTop
    · rw [if_pos h]
    · rw [if_neg h, Nat.sub_eq_zero_of_le (not_lt.mp h), zero_mul]
  unfold setCropWindow
  dsimp only
  rw [min_eq_left hlast, hin]

/-- **A band goes through**: no `assert` fails, and the lines of the window that
it brings are added to what has been emitted. -/
theorem Emitted.band (h : Fresh dec₀) {n : ℕ} (he : Emitted pic dec₀ dec n) {row : ℕ} {cache : Buf}
    (lt : dec.lastRow < row) (last : row ≤ dec₀.io.cropBottom)
    (holds : CacheOf pic dec₀.io.width dec.lastRow (row - dec.lastRow) cache) :
    ∃ dec', emitBand dec cache row = some dec' ∧ dec'.height = dec.height ∧
      Emitted pic dec₀ { dec' with lastRow := row } (row - dec₀.io.cropTop) := by
  obtain ⟨hleft, hright⟩ := h.columns
  have hlines := he.lines
  obtain ⟨io, output, height, lastRow, lastOutRow, scaling⟩ := dec
  obtain ⟨mbY, mbW, mbH, hio⟩ := he.io
  have houtput := he.output
  dsimp only at hio houtput hlines lt holds
  subst hio houtput
  unfold emitBand
  dsimp only
  rw [if_neg (not_not.mpr hleft), setCropWindow_eq _ _ (by exact last)]
  dsimp only
  by_cases hempty : max lastRow dec₀.io.cropTop ≥ row
  · rw [if_pos hempty]
    dsimp only
    have h0 : row - dec₀.io.cropTop = n := by omega
    rw [h0]
    exact ⟨_, rfl, rfl, ⟨mbY, mbW, mbH, rfl⟩, rfl, he.height, h0.symm, last, he.count, he.mem,
      he.rescaler, he.oneRow⟩
  · rw [if_neg hempty]
    dsimp only
    generalize hk : row - max lastRow dec₀.io.cropTop = k
    have hnk : row - dec₀.io.cropTop = n + k := by omega
    have hnum : dec₀.io.cropTop - lastRow + k ≤ row - lastRow := by omega
    obtain ⟨hle, -⟩ := @Fresh.rows pic dec₀ h (n + k) (by omega)
    rw [hnk]
    by_cases hscale : dec₀.io.useScaling = true
    · obtain ⟨scaling', count, hemit, hadd⟩ := he.scaled h hscale (by omega) holds hnum
      have hcount : lastOutRow + count = (emittedRows dec₀ pic (n + k)).length := by
        rw [hadd.count, ← he.count]
      dsimp only at hemit
      rw [if_pos hscale, hemit]
      dsimp only
      rw [hcount, if_pos hle]
      exact ⟨_, rfl, rfl, ⟨_, _, _, rfl⟩, rfl, he.height, hnk.symm, last, rfl, hadd.mem, hadd.rescaler,
        hadd.oneRow⟩
    · have hadd := he.plain h (by simpa using hscale) holds hnum
      have hcount : lastOutRow + k = (emittedRows dec₀ pic (n + k)).length := by
        rw [hadd.count, ← he.count]
      rw [if_neg hscale]
      dsimp only
      rw [hcount, if_pos hle]
      exact ⟨_, rfl, rfl, ⟨_, _, _, rfl⟩, rfl, he.height, hnk.symm, last, rfl, hadd.mem, hadd.rescaler,
        hadd.oneRow⟩

/-- Every call of `ProcessRows` goes through. -/
theorem Emitted.step (h : Fresh dec₀) {n : ℕ} (he : Emitted pic dec₀ dec n) {row : ℕ} {cache : Buf}
    (le : dec.lastRow ≤ row) (few : row ≤ dec.lastRow + numArgbCacheRows) (last : row ≤ dec₀.io.cropBottom)
    (holds : CacheOf pic dec₀.io.width dec.lastRow (row - dec.lastRow) cache) :
    ∃ dec', processRows dec cache row = some dec' ∧ dec'.lastRow = row ∧
      Emitted pic dec₀ dec' (row - dec₀.io.cropTop) := by
  obtain ⟨mbY, mbW, mbH, hio⟩ := he.io
  have hbottom := h.lines.2
  have hbot : dec.io.cropBottom = dec₀.io.cropBottom := by rw [hio]
  have hrowH : row ≤ dec.height := by
    rw [he.height]
    omega
  unfold processRows
  dsimp only
  rw [if_neg (by rw [not_not, hbot]; exact ⟨last, by omega⟩)]
  by_cases hpos : (row : ℤ) - dec.lastRow > 0
  · obtain ⟨dec', hband, hheight, hdone⟩ := he.band h (by omega) last holds
    rw [if_pos hpos, hband]
    dsimp only
    rw [if_pos (by rw [hheight]; exact hrowH)]
    exact ⟨_, rfl, rfl, hdone⟩
  · have hrow : row = dec.lastRow := by omega
    rw [if_neg hpos]
    dsimp only
    rw [if_pos hrowH]
    refine ⟨_, rfl, rfl, ?_⟩
    subst hrow
    rw [← he.lines]
    exact he

end

end WebPlugin
