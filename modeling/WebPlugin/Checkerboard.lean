/-
# What compositing writes

`compositeBGRAtoBGR` writes the rows of the picture into the DIB from the
bottom row upward, each byte a function of one pixel (`composite_dst`). From
this: the bytes written and no others (`composite_local`), and how they are
rounded (`composite_nearest_iff`).
-/
import WebPlugin.Composite
import WebPlugin.Decoder
import WebPlugin.GetNext

namespace WebPlugin

open Memory Ledger Words Rounding

/-! ### The writes -/

/-- Byte `c` of a composited row whose source starts at `sp`. -/
def rowByte (src : Buf) (sp : ℤ) (cellY c : ℕ) : UInt8 :=
  compositeChannel (src.get (sp + 4 * (c / 3 : ℕ) + (c % 3 : ℕ))) (src.get (sp + 4 * (c / 3 : ℕ) + 3)) (c / 3)
    cellY

/-- The rows of the picture in the DIB, the first one last. -/
def dibRows (dst stride w h : ℤ) : Rows :=
  ⟨dst + u32 ((h - 1) * stride), -stride, 3 * w.toNat, h.toNat⟩

section

variable {src : Buf} {lo sp dp : ℤ} {cellY : ℕ} {out : Composited}

theorem compositeRow_dst : ∀ x : ℕ, (compositeRow src lo sp dp cellY out x).dst =
    out.dst.writeRow dp (3 * x) (rowByte src sp cellY)
  | 0 => (Buf.writeRow_zero _ _ _).symm
  | x + 1 => by
    rw [compositeRow, mul_add, ← Buf.writeRow_append, ← compositeRow_dst x]
    dsimp only
    push_cast
    refine Buf.writeRow_congr fun c hc => ?_
    have h1 : (3 * x + c) / 3 = x := by omega
    have h2 : (3 * x + c) % 3 = c := by omega
    rw [rowByte, h1, h2]

theorem compositeRow_strayRead : ∀ x : ℕ, (∀ i < x, src.Has (sp + 4 * i) ∧ src.Has (sp + 4 * i + 3)) →
    (compositeRow src lo sp dp cellY out x).strayRead = out.strayRead
  | 0, _ => rfl
  | x + 1, h => by
    have hx := h x (by omega)
    simp [compositeRow, compositeRow_strayRead x fun i hi => h i (by omega), hx]

theorem compositeRow_strayWrite : ∀ x : ℕ,
    (∀ i < x, lo ≤ dp + 3 * i ∧ out.dst.Has (dp + 3 * i) ∧ out.dst.Has (dp + 3 * i + 2)) →
    (compositeRow src lo sp dp cellY out x).strayWrite = out.strayWrite
  | 0, _ => rfl
  | x + 1, h => by
    obtain ⟨hlo, hdp, hdp'⟩ := h x (by omega)
    have hd : (compositeRow src lo sp dp cellY out x).dst = _ := compositeRow_dst x
    have h0 := hdp
    have h2 := hdp'
    unfold Buf.Has at h0 h2
    simp [compositeRow, compositeRow_strayWrite x fun i hi => h i (by omega), hd, Buf.Has, hlo, h0, h2]

end

section

variable {src dst : Buf} {lo stride w h : ℤ}

/-- What compositing leaves in the DIB. -/
theorem composite_dst : (compositeBGRAtoBGR src dst lo stride w h).dst =
    dst.writeRows (dibRows lo stride w h) fun y => rowByte src (u32 (y * w * 4)) (y / kCheckerCell) := by
  have key : ∀ n, (compositeRows src lo stride w h { dst := dst } n).dst =
      Buf.writeRows.go dst (dibRows lo stride w h)
        (fun y => rowByte src (u32 (y * w * 4)) (y / kCheckerCell)) n := by
    intro n
    induction n with
    | zero => rfl
    | succ n ih =>
      have hstart : (dibRows lo stride w h).start n = lo + u32 ((h - 1) * stride) - n * stride := by
        simp only [dibRows, Rows.start]
        ring
      rw [compositeRows, compositeRow_dst, ih, Buf.writeRows.go, hstart]
      rfl
  exact key h.toNat

/-- A picture of `w × h` fits the DIB from `lo` on. -/
structure DibFits (dst : Buf) (lo stride w h : ℤ) : Prop where
  base : 0 ≤ lo
  width : 1 ≤ w
  height : 1 ≤ h
  row : 3 * w ≤ stride
  size : lo + h * stride ≤ dst.size

/-- Where byte `c` of pixel `(x, y)` goes. -/
def dibAddr (lo stride h : ℤ) (x y c : ℕ) : ℤ := lo + (h - 1 - y) * stride + 3 * x + c

namespace DibFits

theorem stride_nonneg (hf : DibFits dst lo stride w h) : 0 ≤ stride := by
  linarith [hf.row, hf.width]

theorem start_eq (hf : DibFits dst lo stride w h) (y : ℕ) :
    (dibRows lo stride w h).start y = lo + (h - 1 - y) * stride := by
  have h0 : 0 ≤ (h - 1) * stride := mul_nonneg (by linarith [hf.height]) hf.stride_nonneg
  have h1 : (h - 1) * stride < 4294967296 := by
    have := dst.fits
    have := hf.size
    have := hf.base
    have := hf.stride_nonneg
    have hs : (h - 1) * stride = h * stride - stride := by ring
    omega
  rw [dibRows, Rows.start, u32_of_range h0 h1]
  ring

theorem addr_bounds (hf : DibFits dst lo stride w h) {x y c : ℕ} (hx : x < w) (hy : y < h) (hc : c < 3) :
    lo ≤ dibAddr lo stride h x y c ∧ dibAddr lo stride h x y c < dst.size := by
  have h0 : 0 ≤ (h - 1 - y) * stride := mul_nonneg (by omega) hf.stride_nonneg
  have h1 : (h - 1 - y) * stride ≤ (h - 1) * stride :=
    mul_le_mul_of_nonneg_right (by omega) hf.stride_nonneg
  have h2 : (h - 1) * stride = h * stride - stride := by ring
  have h3 := hf.size
  have h4 := hf.row
  unfold dibAddr
  omega

/-- Different bytes go to different places. -/
theorem addr_inj (hf : DibFits dst lo stride w h) {x y c x' y' c' : ℕ} (hx : x < w) (hc : c < 3)
    (hx' : x' < w) (hc' : c' < 3) (he : dibAddr lo stride h x y c = dibAddr lo stride h x' y' c') :
    x = x' ∧ y = y' ∧ c = c' := by
  have hrow := hf.row
  unfold dibAddr at he
  have hy : y = y' := by
    by_contra hne
    have hd : (y - y' : ℤ) * stride = 3 * x + c - (3 * x' + c') := by linarith
    rcases lt_or_gt_of_ne hne with hlt | hlt
    · have : (y - y' : ℤ) * stride ≤ -1 * stride :=
        mul_le_mul_of_nonneg_right (by omega) hf.stride_nonneg
      omega
    · have : 1 * stride ≤ (y - y' : ℤ) * stride :=
        mul_le_mul_of_nonneg_right (by omega) hf.stride_nonneg
      omega
  subst hy
  omega

end DibFits

/-- The byte for channel `c` of pixel `(x, y)`. -/
def compositeByte (src : Buf) (w x y c : ℕ) : UInt8 :=
  compositeChannel (src.byte (4 * (y * w + x) + c)) (src.byte (4 * (y * w + x) + 3)) x (y / kCheckerCell)

/-- The source pixels are read where they are. -/
theorem rowByte_eq (hw : 0 ≤ w) (hsrc : 4 * w * h ≤ src.size) {x y c : ℕ} (hy : y < h)
    (hc : c < 3) : rowByte src (u32 (y * w * 4)) (y / kCheckerCell) (3 * x + c) =
      compositeByte src w.toNat x y c := by
  have h1 : (3 * x + c) / 3 = x := by omega
  have h2 : (3 * x + c) % 3 = c := by omega
  have h3 : (y : ℤ) * w * 4 < 4294967296 := by
    have := src.fits
    have : (y : ℤ) * w ≤ h * w := mul_le_mul_of_nonneg_right hy.le hw
    linarith
  have h4 : (u32 (y * w * 4) : ℤ) = y * w * 4 := u32_of_range (by positivity) h3
  have hwn : (w.toNat : ℤ) = w := Int.toNat_of_nonneg hw
  have hidx : ∀ k : ℕ, ((u32 (y * w * 4) : ℤ) + 4 * x + k).toNat = 4 * (y * w.toNat + x) + k := fun k => by
    zify
    rw [h4, hwn, Int.toNat_of_nonneg (by positivity)]
    ring
  rw [rowByte, compositeByte, h1, h2, Buf.get, Buf.get, hidx c]
  rw [show ((u32 (y * w * 4) : ℤ) + 4 * (x : ℤ) + 3).toNat = 4 * (y * w.toNat + x) + 3 from hidx 3]

/-- Compositing reads the picture only. -/
theorem composite_same {src' : Buf} (hs : src.Same src') (hw : 0 ≤ w)
    (hsrc : (src.size : ℤ) = 4 * w * h) :
    (compositeBGRAtoBGR src dst lo stride w h).dst = (compositeBGRAtoBGR src' dst lo stride w h).dst := by
  rw [composite_dst, composite_dst]
  refine Buf.writeRows_congr fun y hy i hi => ?_
  simp only [dibRows] at hy hi
  have hy' : (y : ℤ) < h := by omega
  obtain ⟨x, c, rfl, hc⟩ : ∃ x c : ℕ, i = 3 * x + c ∧ c < 3 := ⟨i / 3, i % 3, by omega, by omega⟩
  have hx : x < w.toNat := by omega
  have hlast : (y : ℤ) * w + x < w * h := by
    have : ((y : ℤ) + 1) * w ≤ h * w := mul_le_mul_of_nonneg_right (by omega) hw
    linarith [Int.toNat_of_nonneg hw]
  have hin : ∀ b < 4, src.byte (4 * (y * w.toNat + x) + b) = src'.byte (4 * (y * w.toNat + x) + b) := by
    intro b hb
    apply hs.2
    zify
    rw [hsrc, Int.toNat_of_nonneg hw]
    linarith
  rw [rowByte_eq hw hsrc.ge hy' hc, rowByte_eq hw (hs.1 ▸ hsrc.ge) hy' hc, compositeByte, compositeByte,
    hin c (by omega), hin 3 (by omega)]

/-- What compositing writes for a pixel. -/
theorem composite_byte (hf : DibFits dst lo stride w h) (hsrc : 4 * w * h ≤ src.size) {x y c : ℕ}
    (hx : x < w) (hy : y < h) (hc : c < 3) :
    (compositeBGRAtoBGR src dst lo stride w h).dst.get (dibAddr lo stride h x y c) =
      compositeByte src w.toNat x y c := by
  have hw := hf.width
  obtain ⟨hb, hb'⟩ := hf.addr_bounds hx hy hc
  have hlo := hf.base
  rw [composite_dst, Buf.get, Buf.writeRows_in (j := y) (c := 3 * x + c) ?_ ?_ ?_ ?_ ?_]
  · exact rowByte_eq (by omega) hsrc hy hc
  · have := hf.row
    have := hf.stride_nonneg
    simp only [dibRows, abs_neg]
    rw [abs_of_nonneg (by omega)]
    omega
  · simp only [dibRows]
    omega
  · simp only [dibRows]
    omega
  · rw [hf.start_eq, Int.toNat_of_nonneg (by omega)]
    unfold dibAddr
    push_cast
    ring
  · omega

/-- A byte that is no pixel's is left alone. -/
theorem composite_other (hf : DibFits dst lo stride w h) {k : ℕ}
    (hk : ∀ x y c : ℕ, x < w → y < h → c < 3 → (k : ℤ) ≠ dibAddr lo stride h x y c) :
    (compositeBGRAtoBGR src dst lo stride w h).dst.byte k = dst.byte k := by
  rw [composite_dst]
  refine Buf.writeRows_out fun j hj hm => ?_
  obtain ⟨h1, h2⟩ := hm
  have hw := hf.width
  rw [hf.start_eq] at h1 h2
  simp only [dibRows] at hj h2
  obtain ⟨n, hn⟩ : ∃ n : ℕ, (k : ℤ) = lo + (h - 1 - j) * stride + n :=
    ⟨(k - (lo + (h - 1 - j) * stride)).toNat, by omega⟩
  refine hk (n / 3) j (n % 3) (by omega) (by omega) (by omega) ?_
  unfold dibAddr
  omega

/-- Nothing outside the picture's block is read. -/
theorem composite_strayRead (hw : 0 ≤ w) (hsrc : 4 * w * h ≤ src.size) :
    (compositeBGRAtoBGR src dst lo stride w h).strayRead = false := by
  have key : ∀ n : ℕ, (n : ℤ) ≤ h → (compositeRows src lo stride w h { dst := dst } n).strayRead = false := by
    intro n
    induction n with
    | zero => exact fun _ => rfl
    | succ n ih =>
      intro hn
      push_cast at hn
      rw [compositeRows, compositeRow_strayRead, ih (by omega)]
      intro i hi
      have hrow : ((n : ℤ) + 1) * w ≤ h * w := mul_le_mul_of_nonneg_right (by omega) hw
      have h0 : 0 ≤ (n : ℤ) * w := by positivity
      have hfit := src.fits
      have hle : 4 * ((n : ℤ) + 1) * w ≤ src.size := by linarith
      rw [u32_of_range (by linarith) (by linarith)]
      unfold Buf.Has
      have hs : 4 * ((n : ℤ) + 1) * w = n * w * 4 + 4 * w := by ring
      omega
  rcases le_total 0 h with hh | hh
  · exact key h.toNat (by omega)
  · rw [compositeBGRAtoBGR, show h.toNat = 0 by omega]
    rfl

/-- Nothing outside the DIB from `lo` on is written. -/
theorem composite_strayWrite (hf : DibFits dst lo stride w h) :
    (compositeBGRAtoBGR src dst lo stride w h).strayWrite = false := by
  have hlo := hf.base
  have key : ∀ n : ℕ, (n : ℤ) ≤ h → (compositeRows src lo stride w h { dst := dst } n).strayWrite = false ∧
      (compositeRows src lo stride w h { dst := dst } n).dst.size = dst.size := by
    intro n
    induction n with
    | zero => exact fun _ => ⟨rfl, rfl⟩
    | succ n ih =>
      intro hn
      push_cast at hn
      obtain ⟨hs, hd⟩ := ih (by omega)
      have hstart := hf.start_eq n
      simp only [dibRows, Rows.start] at hstart
      refine ⟨?_, by rw [compositeRows, compositeRow_dst]; exact hd⟩
      rw [compositeRows, compositeRow_strayWrite, hs]
      intro i hi
      have h0 := hf.addr_bounds (x := i) (y := n) (c := 0) (by omega) (by omega) (by omega)
      have h2 := hf.addr_bounds (x := i) (y := n) (c := 2) (by omega) (by omega) (by omega)
      unfold dibAddr at h0 h2
      unfold Buf.Has
      rw [hd]
      push_cast at h0 h2
      have hneg : (n : ℤ) * -stride = -(n * stride) := by ring
      rw [hneg] at hstart
      omega
  exact (key h.toNat (by have := hf.height; omega)).1

end

/-! ### The blend -/

theorem checkerColor_le (x cellY : ℕ) : checkerColor x cellY ≤ 255 := by
  unfold checkerColor kCheckerDark kCheckerLight
  split_ifs <;> norm_num

/-- The checkerboard under pixel `(x, y)`: dark in the odd cells. -/
theorem checkerColor_eq (x y : ℕ) :
    checkerColor x (y / kCheckerCell) = if (x / 8 + y / 8) % 2 = 1 then 192 else 224 := by
  simp only [checkerColor, kCheckerCell, kCheckerDark, kCheckerLight, Nat.and_one_is_mod]
  split_ifs <;> omega

section

variable {s a bg : ℕ}

/-- The weighted sum that is divided by 255. -/
theorem blendSum_le (hs : s ≤ 255) (ha : a ≤ 255) (hbg : bg ≤ 255) : s * a + bg * (255 - a) ≤ 65025 := by
  calc s * a + bg * (255 - a) ≤ 255 * a + 255 * (255 - a) :=
        Nat.add_le_add (Nat.mul_le_mul_right _ hs) (Nat.mul_le_mul_right _ hbg)
    _ = 65025 := by omega

theorem blendChannel_eq (hs : s ≤ 255) (ha : a ≤ 255) (hbg : bg ≤ 255) :
    blendChannel s a bg = addShift (s * a + bg * (255 - a)) :=
  Nat.mod_eq_of_lt (addShift_lt (blendSum_le hs ha hbg))

end

/-- All three branches are the one division. -/
theorem compositeChannel_eq (s a : UInt8) (x cellY : ℕ) : (compositeChannel s a x cellY).toNat =
    addShift (s.toNat * a.toNat + checkerColor x cellY * (255 - a.toNat)) := by
  have hs : s.toNat ≤ 255 := Nat.le_of_lt_succ (UInt8.toNat_lt s)
  have ha : a.toNat ≤ 255 := Nat.le_of_lt_succ (UInt8.toNat_lt a)
  have hbg := checkerColor_le x cellY
  unfold compositeChannel
  split_ifs with h255 h0
  · rw [h255, addShift_eq]
    omega
  · rw [h0, Nat.mul_zero, Nat.zero_add, Nat.sub_zero]
    unfold checkerColor kCheckerDark kCheckerLight
    split_ifs <;> rfl
  · rw [UInt8.toNat_ofNat', blendChannel_eq hs ha hbg]
    exact Nat.mod_eq_of_lt (addShift_lt (blendSum_le hs ha hbg))

/-- A blend lies between the two colours. -/
theorem addShift_between {s a bg : ℕ} (hs : s ≤ 255) (ha : a ≤ 255) (hbg : bg ≤ 255) :
    min s bg ≤ addShift (s * a + bg * (255 - a)) ∧ addShift (s * a + bg * (255 - a)) ≤ max s bg := by
  have hle : s * a + bg * (255 - a) ≤ 255 * max s bg := by
    calc s * a + bg * (255 - a) ≤ max s bg * a + max s bg * (255 - a) :=
          Nat.add_le_add (Nat.mul_le_mul_right _ (le_max_left _ _))
            (Nat.mul_le_mul_right _ (le_max_right _ _))
      _ = 255 * max s bg := by rw [← Nat.mul_add, Nat.add_sub_cancel' ha, mul_comm]
  have hge : 255 * min s bg ≤ s * a + bg * (255 - a) := by
    calc 255 * min s bg = min s bg * a + min s bg * (255 - a) := by
          rw [← Nat.mul_add, Nat.add_sub_cancel' ha, mul_comm]
      _ ≤ s * a + bg * (255 - a) := Nat.add_le_add (Nat.mul_le_mul_right _ (min_le_left _ _))
            (Nat.mul_le_mul_right _ (min_le_right _ _))
  have hv := blendSum_le hs ha hbg
  generalize s * a + bg * (255 - a) = v at hle hge hv ⊢
  generalize max s bg = M at hle ⊢
  generalize min s bg = m at hge ⊢
  rcases addShift_cases hv with ⟨he, -⟩ | ⟨he, hr⟩ <;> rw [he] <;> omega

/-! ### Compositing is local -/

/-- A byte between two others. -/
def Between (v s bg : ℕ) : Prop := min s bg ≤ v ∧ v ≤ max s bg

/-- Compositing writes the three bytes of every pixel, in different places
inside the DIB, and nothing else; they depend on that pixel only and lie
between the picture and the checkerboard. -/
theorem composite_local {src dst : Buf} {stride w h : ℤ} (hw : 1 ≤ w) (hh : 1 ≤ h)
    (hstride : 3 * w ≤ stride) (hsrc : src.size = 4 * w * h) (hdst : dst.size = h * stride) :
    let out := compositeBGRAtoBGR src dst 0 stride w h
    let pixels : Set (ℕ × ℕ × ℕ) := { p | p.1 < w ∧ p.2.1 < h ∧ p.2.2 < 3 }
    let addr (p : ℕ × ℕ × ℕ) : ℤ := (h - 1 - p.2.1) * stride + 3 * p.1 + p.2.2
    (out.strayRead = false ∧ out.strayWrite = false) ∧
    (Set.InjOn addr pixels ∧ ∀ p ∈ pixels, 0 ≤ addr p ∧ addr p < dst.size) ∧
    (out.dst.size = dst.size ∧ ∀ k : ℕ, (∀ p ∈ pixels, (k : ℤ) ≠ addr p) →
      out.dst.byte k = dst.byte k) ∧
    (∀ (dst' src' : Buf) (x y : ℕ), dst'.size = dst.size → src'.size = src.size →
      (x : ℤ) < w → (y : ℤ) < h →
      (∀ c < 4, src'.byte (4 * (y * w.toNat + x) + c) = src.byte (4 * (y * w.toNat + x) + c)) →
      ∀ c < 3, (compositeBGRAtoBGR src' dst' 0 stride w h).dst.get (addr (x, y, c)) =
        out.dst.get (addr (x, y, c))) ∧
    ∀ x y c : ℕ, (x, y, c) ∈ pixels → Between (out.dst.get (addr (x, y, c))).toNat
      (src.byte (4 * (y * w.toNat + x) + c)).toNat (if (x / 8 + y / 8) % 2 = 1 then 192 else 224) := by
  intro out pixels addr
  have hf : ∀ dst' : Buf, dst'.size = dst.size → DibFits dst' 0 stride w h := fun dst' he =>
    ⟨le_rfl, hw, hh, hstride, by omega⟩
  have hfit := hf dst rfl
  have haddr : ∀ x y c, addr (x, y, c) = dibAddr 0 stride h x y c := fun x y c => by
    simp only [addr, dibAddr]
    ring
  have hbyte : ∀ x y c : ℕ, (x : ℤ) < w → (y : ℤ) < h → c < 3 →
      out.dst.get (addr (x, y, c)) = compositeByte src w.toNat x y c := fun x y c hx hy hc => by
    rw [haddr]
    exact composite_byte hfit hsrc.ge hx hy hc
  refine ⟨⟨composite_strayRead (by omega) hsrc.ge, composite_strayWrite hfit⟩,
    ⟨?_, ?_⟩, ⟨?_, ?_⟩, ?_, ?_⟩
  · rintro ⟨x, y, c⟩ ⟨hx, -, hc⟩ ⟨x', y', c'⟩ ⟨hx', -, hc'⟩ he
    rw [haddr, haddr] at he
    obtain ⟨rfl, rfl, rfl⟩ := hfit.addr_inj hx hc hx' hc' he
    rfl
  · rintro ⟨x, y, c⟩ ⟨hx, hy, hc⟩
    rw [haddr]
    exact hfit.addr_bounds hx hy hc
  · simp only [out, composite_dst, Buf.writeRows_size]
  · intro k hk
    refine composite_other hfit fun x y c hx hy hc => ?_
    rw [← haddr]
    exact hk (x, y, c) ⟨hx, hy, hc⟩
  · intro dst' src' x y hd hs hx hy hsame c hc
    rw [hbyte x y c hx hy hc, haddr, composite_byte (hf dst' hd) (hs ▸ hsrc.ge) hx hy hc, compositeByte,
      compositeByte, hsame c (by omega), hsame 3 (by omega)]
  · rintro x y c ⟨hx, hy, hc⟩
    rw [hbyte x y c hx hy hc, compositeByte, compositeChannel_eq, ← checkerColor_eq]
    exact addShift_between (Nat.le_of_lt_succ (UInt8.toNat_lt _)) (Nat.le_of_lt_succ (UInt8.toNat_lt _))
      (checkerColor_le _ _)

/-- A block of zeros. -/
def zeros (n : ℕ) (h : n < 4294967296) : Buf := ⟨n, fun _ => 0, h⟩

/-- A picture of 9 × 2, of colour 60 and alpha 100. -/
def tinted : Buf := ⟨72, fun i => if i % 4 = 3 then 100 else 60, by norm_num⟩

/-- Another one with the same last pixel. -/
def corner : Buf := ⟨72, fun i => if i < 68 then 9 else if i % 4 = 3 then 100 else 60, by norm_num⟩

/-- That pixel is in a dark cell, and the same in both. -/
theorem tinted_composite_local :
    (compositeBGRAtoBGR tinted (zeros 56 (by norm_num)) 0 28 9 2).strayWrite = false ∧
    (compositeBGRAtoBGR corner (zeros 56 (by norm_num)) 0 28 9 2).dst.get 26 =
      (compositeBGRAtoBGR tinted (zeros 56 (by norm_num)) 0 28 9 2).dst.get 26 ∧
    Between ((compositeBGRAtoBGR tinted (zeros 56 (by norm_num)) 0 28 9 2).dst.get 26).toNat 60 192 := by
  obtain ⟨⟨-, hwrite⟩, -, -, hlocal, hbetween⟩ :=
    @composite_local tinted (zeros 56 (by norm_num)) 28 9 2 (by norm_num)
    (by norm_num) (by norm_num) rfl rfl
  refine ⟨hwrite, hlocal (zeros 56 (by norm_num)) corner 8 1 rfl rfl (by norm_num) (by norm_num) ?_ 2 (by norm_num),
    hbetween 8 1 2 ⟨by norm_num, by norm_num, by norm_num⟩⟩
  decide

/-! ### Rounding -/

/-- The weighted sum of a channel of pixel `(x, y)` and the checkerboard. -/
def weighted (src : Buf) (w x y c : ℕ) : ℕ :=
  (src.byte (4 * (y * w + x) + c)).toNat * (src.byte (4 * (y * w + x) + 3)).toNat +
    (if (x / 8 + y / 8) % 2 = 1 then 192 else 224) * (255 - (src.byte (4 * (y * w + x) + 3)).toNat)

/-- The composited picture is rounded to nearest just when no weighted sum lies
128 above a multiple of 255 that is 129 · 255 or more. -/
theorem composite_nearest_iff {src dst : Buf} {stride w h : ℤ} (hw : 1 ≤ w) (hh : 1 ≤ h)
    (hstride : 3 * w ≤ stride) (hsrc : src.size = 4 * w * h) (hdst : h * stride ≤ dst.size) :
    (∀ x y c : ℕ, (x : ℤ) < w → (y : ℤ) < h → c < 3 →
      IsNearest 255 (weighted src w.toNat x y c)
        ((compositeBGRAtoBGR src dst 0 stride w h).dst.get
          ((h - 1 - y) * stride + 3 * x + c)).toNat) ↔
    ∀ x y c : ℕ, (x : ℤ) < w → (y : ℤ) < h → c < 3 →
      ¬ (weighted src w.toNat x y c % 255 = 128 ∧ 129 ≤ weighted src w.toNat x y c / 255) := by
  have hf : DibFits dst 0 stride w h := ⟨le_rfl, hw, hh, hstride, by omega⟩
  have hiff : ∀ x y c : ℕ, (x : ℤ) < w → (y : ℤ) < h → c < 3 →
      (IsNearest 255 (weighted src w.toNat x y c)
        ((compositeBGRAtoBGR src dst 0 stride w h).dst.get ((h - 1 - y) * stride + 3 * x + c)).toNat ↔
      ¬ (weighted src w.toNat x y c % 255 = 128 ∧ 129 ≤ weighted src w.toNat x y c / 255)) := by
    intro x y c hx hy hc
    have haddr : (h - 1 - y) * stride + 3 * x + c = dibAddr 0 stride h x y c := by
      unfold dibAddr
      ring
    have hsum : weighted src w.toNat x y c ≤ 65025 := blendSum_le (Nat.le_of_lt_succ (UInt8.toNat_lt _))
      (Nat.le_of_lt_succ (UInt8.toNat_lt _)) (by split_ifs <;> norm_num)
    rw [haddr, composite_byte hf hsrc.ge hx hy hc, compositeByte, compositeChannel_eq, checkerColor_eq]
    exact addShift_nearest_iff hsum
  exact forall₃_congr fun x y c => forall₃_congr fun hx hy hc => hiff x y c hx hy hc

/-- No weighted sum of this picture is half-way. -/
theorem tinted_composite_nearest :
    (compositeBGRAtoBGR tinted (zeros 56 (by norm_num)) 0 28 9 2).dst.get 28 = 160 ∧
    ∀ x y c : ℕ, (x : ℤ) < 9 → (y : ℤ) < 2 → c < 3 → IsNearest 255 (weighted tinted 9 x y c)
      ((compositeBGRAtoBGR tinted (zeros 56 (by norm_num)) 0 28 9 2).dst.get ((2 - 1 - y) * 28 + 3 * x + c)).toNat := by
  refine ⟨by decide +kernel,
    (@composite_nearest_iff tinted (zeros 56 (by norm_num)) 28 9 2 (by norm_num) (by norm_num)
    (by norm_num) rfl (by decide)).mpr fun x y c hx hy hc => ?_⟩
  have hall : ∀ x < 9, ∀ y < 2, ∀ c < 3,
      ¬ (weighted tinted 9 x y c % 255 = 128 ∧ 129 ≤ weighted tinted 9 x y c / 255) := by
    decide
  exact hall x (by omega) y (by omega) c hc

/-- One pixel of colour 97 and alpha 1. -/
def faint : Buf := ⟨4, fun i => if i = 3 then 1 else 97, by norm_num⟩

/-- Over the light cell it becomes 223, and 56993 / 255 is nearest to 224. -/
theorem faint_rounds_down : weighted faint 1 0 0 0 = 56993 ∧
    (compositeBGRAtoBGR faint (zeros 4 (by norm_num)) 0 4 1 1).dst.get 0 = 223 ∧ IsNearest 255 56993 224 ∧
    ¬ IsNearest 255 56993 223 := by
  refine ⟨by decide, by decide +kernel, (isNearest_iff (by norm_num) _ _).mpr (by decide), fun h => ?_⟩
  exact absurd ((isNearest_iff (by norm_num) _ _).mp h) (by decide)

end WebPlugin
