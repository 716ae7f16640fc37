/-
# Lossy pictures that keep their size

`EmitFancyRGB` is one row late: the last row of a band wants the chroma of the next
band, so its samples are kept, and the next call finishes it. `GetAlphaSourceRow`
makes up for the delay. Over all the bands each row is written once, from the two
rows of chroma nearest to it, and gets its alpha once (`fancySample`).
-/
import WebPlugin.Upsampled
import WebPlugin.LossyScaled

namespace WebPlugin

open Memory Words Ledger

/-! ### Rows -/

/-- Row `j` of a window of `w × h` pixels, without its alpha. -/
def fancyRow (colorspace : WebPCspMode) (w h : ℕ) (L : Planes) (j : ℕ) : ℕ → UInt8 :=
  upsampledRow colorspace w (L.y j) (L.u (j / 2)) (L.v (j / 2)) (L.u (nearSample h j)) (L.v (nearSample h j))

/-- Row `j` with its alpha, where there is alpha to put in. -/
def fancyBytes (colorspace : WebPCspMode) (putsAlpha : Bool) (w h : ℕ) (L : Planes) (j : ℕ) : ℕ → UInt8 :=
  if putsAlpha then finalBytes colorspace (L.a j) (fancyRow colorspace w h L j) else fancyRow colorspace w h L j

theorem nearSample_lt {n x : ℕ} (hx : x < n) : nearSample n x < (n + 1) / 2 := by
  unfold nearSample
  split_ifs <;> omega

theorem upsampled_congr {n : ℕ} {own own' other other' : ℕ → ℕ} (ho : ∀ k < (n + 1) / 2, own k = own' k)
    (ht : ∀ k < (n + 1) / 2, other k = other' k) {x : ℕ} (hx : x < n) :
    upsampled n own other x = upsampled n own' other' x := by
  have hnear := nearSample_lt hx
  have hhalf : x / 2 < (n + 1) / 2 := by omega
  unfold upsampled
  rw [ho _ hhalf, ho _ hnear, ht _ hhalf, ht _ hnear]

/-- Two rows of chroma samples that are those of line `k`. -/
def ChromaOf (L : Planes) (w k : ℕ) (u v : ℕ → ℕ) : Prop := ∀ x < (w + 1) / 2, u x = L.u k x ∧ v x = L.v k x

section
variable {colorspace : WebPCspMode} {L : Planes} {w h j : ℕ}

/-- A row of pixels from samples that are the window's. -/
theorem fancyRow_eq {y ownU ownV otherU otherV : ℕ → ℕ} (hy : ∀ x < w, y x = L.y j x)
    (hown : ChromaOf L w (j / 2) ownU ownV) (hother : ChromaOf L w (nearSample h j) otherU otherV) {c : ℕ}
    (hc : c < w * kModeBpp colorspace) :
    upsampledRow colorspace w y ownU ownV otherU otherV c = fancyRow colorspace w h L j c :=
  yuvByte_congr (fun x hx => ⟨hy x hx, upsampled_congr (fun k hk => (hown k hk).1) (fun k hk => (hother k hk).1) hx,
    upsampled_congr (fun k hk => (hown k hk).2) (fun k hk => (hother k hk).2) hx⟩) hc

/-- Two rows are upsampled. -/
theorem upsample_pair {topY bottomY topU topV curU curV : ℕ → ℕ} (hs : SampleRows topU topV curU curV)
    (hw : 0 < w) (mem : Buf) (topDst bottomDst : ℤ) :
    upsample colorspace topY (some bottomY) topU topV curU curV mem topDst bottomDst w =
      (mem.writeRow topDst (w * kModeBpp colorspace) (upsampledRow colorspace w topY topU topV curU curV)).writeRow
        bottomDst (w * kModeBpp colorspace) (upsampledRow colorspace w bottomY curU curV topU topV) := by
  obtain ⟨htop, hbottom⟩ := upsampleUV_lanes hs hw
  unfold upsample
  dsimp only
  rw [Buf.writeRow_congr fun c hc => upsampledByte_eq htop hc,
    Buf.writeRow_congr fun c hc => upsampledByte_eq hbottom hc]

/-- One row is upsampled. -/
theorem upsample_single {topY topU topV curU curV : ℕ → ℕ} (hs : SampleRows topU topV curU curV) (hw : 0 < w)
    (mem : Buf) (topDst bottomDst : ℤ) :
    upsample colorspace topY none topU topV curU curV mem topDst bottomDst w =
      mem.writeRow topDst (w * kModeBpp colorspace) (upsampledRow colorspace w topY topU topV curU curV) := by
  unfold upsample
  dsimp only
  rw [Buf.writeRow_congr fun c hc => upsampledByte_eq (upsampleUV_lanes hs hw).1 hc]

/-- One row more of a picture. -/
theorem writeRow_go {out : Buf} {r : Rows} {g : ℕ → ℕ → UInt8} {n width : ℕ} {row : ℕ → UInt8} {ptr : ℤ}
    (hptr : ptr = r.start n) (hwidth : width = r.width) (hrow : ∀ c < r.width, row c = g n c) :
    (Buf.writeRows.go out r g n).writeRow ptr width row = Buf.writeRows.go out r g (n + 1) := by
  subst hptr hwidth
  rw [Buf.writeRows.go]
  exact Buf.writeRow_congr hrow

end

/-! ### Samples -/

section
variable {colorspace : WebPCspMode} {L : Planes} {w h base m : ℕ} {s : Samples}

theorem sourceRow_lt (b : Buf) (p : ℤ) (x : ℕ) : sourceRow b p x < 256 := UInt8.toNat_lt _

theorem sampleRows (a b c d : Buf) (p q r t : ℤ) :
    SampleRows (sourceRow a p) (sourceRow b q) (sourceRow c r) (sourceRow d t) :=
  ⟨fun x => ⟨sourceRow_lt _ _ x, sourceRow_lt _ _ x⟩, fun x => ⟨sourceRow_lt _ _ x, sourceRow_lt _ _ x⟩⟩

theorem Reads.line (hr : Reads L w s base m) {j : ℕ} (hj : base ≤ j ∧ j < base + m) :
    ∀ x < w, sourceRow s.cache (s.y + (j - base : ℕ) * s.yStride) x = L.y j x := fun x hx => by
  rw [hr.y (j - base) (by omega) x hx]
  congr 1
  omega

theorem Reads.chroma (hr : Reads L w s base m) (hbase : base % 2 = 0) {k : ℕ}
    (hk : base / 2 ≤ k ∧ 2 * k < base + m) :
    ChromaOf L w k (sourceRow s.cache (s.u + (k - base / 2 : ℕ) * s.uvStride))
      (sourceRow s.cache (s.v + (k - base / 2 : ℕ) * s.uvStride)) := fun x hx => by
  rw [hr.u (k - base / 2) (by omega) x hx, hr.v (k - base / 2) (by omega) x hx,
    show base / 2 + (k - base / 2) = k by omega]
  exact ⟨rfl, rfl⟩

/-- Where the loop is at row `y`, the rows up to it written. -/
def fancyAt (s : Samples) (r : Rows) (out : Buf) (g : ℕ → ℕ → UInt8) (base y : ℕ) : FancyAt where
  y := y
  curY := s.y + (y - base : ℕ) * s.yStride
  curU := s.u + (y / 2 - base / 2 : ℕ) * s.uvStride
  curV := s.v + (y / 2 - base / 2 : ℕ) * s.uvStride
  dst := r.start y
  mem := Buf.writeRows.go out r g (y + 1)

/-- **The loop over pairs of rows** stops in front of the last one or two of the band. -/
theorem emitFancyRGBLoop_eq {out : Buf} {r : Rows} {g : ℕ → ℕ → UInt8} (hr : Reads L w s base m)
    (hw : 0 < w) (hwidth : r.width = w * kModeBpp colorspace) (hbase : base % 2 = 0) (hend : base + m ≤ h)
    (hg : ∀ j, base ≤ j → g j = fancyRow colorspace w h L j) (n : ℕ) {y : ℕ}
    (hy : base ≤ y ∧ y % 2 = 0 ∧ y < base + m) (hn : base + m ≤ y + 2 + 2 * n) :
    ∃ y', emitFancyRGBLoop colorspace r.stride s w (base + m) n (fancyAt s r out g base y) =
        fancyAt s r out g base y' ∧
      base ≤ y' ∧ y' % 2 = 0 ∧ y' < base + m ∧ base + m ≤ y' + 2 := by
  induction n generalizing y with
  | zero => exact ⟨y, rfl, hy.1, hy.2.1, hy.2.2, hn⟩
  | succ n ih =>
    by_cases hlt : y + 2 < base + m
    · obtain ⟨y', hloop, hy'⟩ := ih (y := y + 2) (by omega) (by omega)
      refine ⟨y', ?_, hy'⟩
      rw [← hloop, emitFancyRGBLoop, if_pos (show (fancyAt s r out g base y).y + 2 < base + m from hlt)]
      have hcurY : s.y + (y - base : ℕ) * s.yStride + 2 * s.yStride = s.y + (y + 2 - base : ℕ) * s.yStride := by
        rw [show y + 2 - base = y - base + 2 by omega]
        push_cast
        ring
      have hcurY' : s.y + (y + 2 - base : ℕ) * s.yStride - s.yStride = s.y + (y + 1 - base : ℕ) * s.yStride := by
        rw [show y + 2 - base = y + 1 - base + 1 by omega]
        push_cast
        ring
      have hcurC : ∀ b : ℤ, b + (y / 2 - base / 2 : ℕ) * s.uvStride + s.uvStride =
          b + ((y + 2) / 2 - base / 2 : ℕ) * s.uvStride := fun b => by
        rw [show (y + 2) / 2 - base / 2 = y / 2 - base / 2 + 1 by omega]
        push_cast
        ring
      have hdst : r.start y + 2 * r.stride = r.start (y + 2) := by
        unfold Rows.start
        push_cast
        ring
      have hdst' : r.start (y + 2) - r.stride = r.start (y + 1) := by
        unfold Rows.start
        push_cast
        ring
      have hnear : nearSample h (y + 1) = (y + 2) / 2 := by
        unfold nearSample
        rw [if_neg (by omega)]
        omega
      have hnear' : nearSample h (y + 2) = y / 2 := by
        unfold nearSample
        rw [if_pos (by omega)]
        omega
      have hchroma := @Reads.chroma L w base m s hr hbase (y / 2) (by omega)
      have hchroma' := @Reads.chroma L w base m s hr hbase ((y + 2) / 2) (by omega)
      unfold fancyAt
      dsimp only
      rw [hcurY, hcurY', hcurC, hcurC, hdst, hdst', upsample_pair (sampleRows _ _ _ _ _ _ _ _) hw,
        writeRow_go rfl hwidth.symm, writeRow_go rfl hwidth.symm]
      · intro c hc
        rw [hg _ (by omega)]
        refine fancyRow_eq (hr.line (by omega)) hchroma' (by rw [hnear']; exact hchroma) (by rw [← hwidth]; exact hc)
      · intro c hc
        rw [hg _ (by omega)]
        refine fancyRow_eq (hr.line (by omega)) (by rw [show (y + 1) / 2 = y / 2 by omega]; exact hchroma)
          (by rw [hnear]; exact hchroma') (by rw [← hwidth]; exact hc)
    · exact ⟨y, by rw [emitFancyRGBLoop, if_neg (show ¬ (fancyAt s r out g base y).y + 2 < base + m from hlt)],
        hy.1, hy.2.1, hy.2.2, by omega⟩

/-! ### A band -/

/-- The rows that are complete when `e` lines of `h` are in. -/
def delayed (h e : ℕ) : ℕ := if e = h then h else e - 1

/-- What is kept of the last line of a band. -/
def Kept (L : Planes) (w e : ℕ) (tmp : Buf) : Prop :=
  (∀ x < w, sourceRow tmp 0 x = L.y (e - 1) x) ∧
    ChromaOf L w (e / 2 - 1) (sourceRow tmp w) (sourceRow tmp (w + (w + 1) / 2 : ℕ))

/-- What has been done with the first `e` lines of the window. -/
structure Fancied (L : Planes) (w h : ℕ) (out : Buf) (hasAlpha : Bool) (p : WebPDecParams) (e : ℕ) : Prop where
  emit : p.emit = .fancyRGB
  lastY : p.lastY = delayed h e
  rows : p.output.rows.width = w * kModeBpp p.output.colorspace ∧ p.output.rows.count = h
  room : w + 2 * ((w + 1) / 2) ≤ p.tmp.size
  kept : 0 < e → e < h → Kept L w e p.tmp
  mem : p.mem = Buf.writeRows.go out p.output.rows
    (fancyBytes p.output.colorspace (putsAlpha p.output.colorspace hasAlpha) w h L) (delayed h e)

/-- Three rows that are kept one behind the other are read back. -/
theorem kept_three {tmp : Buf} {v : ℕ} (hroom : w + 2 * v ≤ tmp.size) (fy fu fv : ℕ → UInt8) :
    (∀ x < w, (((tmp.writeRow 0 w fy).writeRow w v fu).writeRow (w + v : ℕ) v fv).byte x = fy x) ∧
    ∀ x < v, (((tmp.writeRow 0 w fy).writeRow w v fu).writeRow (w + v : ℕ) v fv).byte (w + x) = fu x ∧
      (((tmp.writeRow 0 w fy).writeRow w v fu).writeRow (w + v : ℕ) v fv).byte (w + v + x) = fv x := by
  refine ⟨fun x hx => ?_, fun x hx => ⟨?_, ?_⟩⟩
  · rw [Buf.writeRow_out (by omega), Buf.writeRow_out (by omega)]
    exact Buf.writeRow_in hx (by omega) (by omega)
  · rw [Buf.writeRow_out (by push_cast; omega)]
    exact Buf.writeRow_in hx (by push_cast; ring) (by rw [Buf.writeRow_size]; omega)
  · exact Buf.writeRow_in hx (by push_cast; ring) (by rw [Buf.writeRow_size, Buf.writeRow_size]; omega)

/-- The samples of line `e - 1`, kept. -/
theorem kept_samples {tmp : Buf} {e : ℕ} {curY curU curV : ℤ} (hroom : w + 2 * ((w + 1) / 2) ≤ tmp.size)
    (hY : ∀ x < w, sourceRow s.cache curY x = L.y (e - 1) x)
    (hUV : ChromaOf L w (e / 2 - 1) (sourceRow s.cache curU) (sourceRow s.cache curV)) :
    Kept L w e (((tmp.writeRow 0 w fun x => s.cache.get (curY + x)).writeRow w ((w + 1) / 2)
      fun x => s.cache.get (curU + x)).writeRow (w + (w + 1) / 2 : ℕ) ((w + 1) / 2) fun x =>
        s.cache.get (curV + x)) := by
  obtain ⟨hy, huv⟩ := kept_three hroom (fun x => s.cache.get (curY + x)) (fun x => s.cache.get (curU + x))
    fun x => s.cache.get (curV + x)
  refine ⟨fun x hx => ?_, fun x hx => ⟨?_, ?_⟩⟩
  · rw [← hY x hx]
    have hat : (0 + (x : ℤ)).toNat = x := by omega
    unfold sourceRow Buf.get
    rw [hat]
    exact congrArg UInt8.toNat (hy x hx)
  · rw [← (hUV x hx).1]
    have hat : ((w : ℤ) + x).toNat = w + x := by omega
    unfold sourceRow Buf.get
    rw [hat]
    exact congrArg UInt8.toNat (huv x hx).1
  · rw [← (hUV x hx).2]
    have hat : (((w + (w + 1) / 2 : ℕ) : ℤ) + x).toNat = w + (w + 1) / 2 + x := by omega
    unfold sourceRow Buf.get
    rw [hat]
    exact congrArg UInt8.toNat (huv x hx).2

/-- The bytes of the rows when the colour of a band is in and its alpha is not. -/
def fancyColoured (colorspace : WebPCspMode) (putsAlpha : Bool) (w h : ℕ) (L : Planes) (done j : ℕ) :
    ℕ → UInt8 :=
  if j < done then fancyBytes colorspace putsAlpha w h L j else fancyRow colorspace w h L j

/-- What the colour of a band has done. -/
structure FancyOut (L : Planes) (w h : ℕ) (out : Buf) (hasAlpha : Bool) (p q : WebPDecParams) (base e : ℕ) :
    Prop where
  same : q.output = p.output ∧ q.emit = p.emit ∧ q.lastY = p.lastY ∧ q.tmp.size = p.tmp.size
  kept : e < h → Kept L w e q.tmp
  mem : q.mem = Buf.writeRows.go out p.output.rows (fancyColoured p.output.colorspace
    (putsAlpha p.output.colorspace hasAlpha) w h L (delayed h base)) (delayed h e)

/-- The rows above the loop: the first of the picture, or the one kept and the first of the band. -/
theorem Fancied.first {out : Buf} {hasAlpha : Bool} {p : WebPDecParams} (hp : Fancied L w h out hasAlpha p base)
    (hr : Reads L w s base m) (hw : 0 < w) (hm : 0 < m) (hbase : base % 2 = 0) (hend : base + m ≤ h) :
    (if base = 0 then
      upsample p.output.colorspace (sourceRow s.cache s.y) none (sourceRow s.cache s.u) (sourceRow s.cache s.v)
        (sourceRow s.cache s.u) (sourceRow s.cache s.v) p.mem (p.rowPtr base) (p.rowPtr base) w
      else
        upsample p.output.colorspace (sourceRow p.tmp 0) (some (sourceRow s.cache s.y)) (sourceRow p.tmp w)
          (sourceRow p.tmp (w + (w + 1) / 2 : ℕ)) (sourceRow s.cache s.u) (sourceRow s.cache s.v) p.mem
          (p.rowPtr base - p.output.u.stride) (p.rowPtr base) w) =
      Buf.writeRows.go out p.output.rows (fancyColoured p.output.colorspace
        (putsAlpha p.output.colorspace hasAlpha) w h L (delayed h base)) (base + 1) := by
  have hdone : delayed h base = base - 1 := if_neg (by omega)
  have hwidth := hp.rows.1
  have hcolour : ∀ j, base - 1 ≤ j →
      fancyColoured p.output.colorspace (putsAlpha p.output.colorspace hasAlpha) w h L (delayed h base) j =
        fancyRow p.output.colorspace w h L j := fun j hj => if_neg (by omega)
  have hmem : p.mem = Buf.writeRows.go out p.output.rows (fancyColoured p.output.colorspace
      (putsAlpha p.output.colorspace hasAlpha) w h L (delayed h base)) (base - 1) := by
    rw [hp.mem, hdone]
    exact Buf.go_congr _ fun j hj c _ => by rw [fancyColoured, if_pos hj]
  have hline := @Reads.line L w base m s hr base (by omega)
  have hchroma := @Reads.chroma L w base m s hr hbase (base / 2) (by omega)
  simp only [Nat.sub_self, Nat.cast_zero, zero_mul, add_zero] at hline hchroma
  rw [hmem]
  by_cases h0 : base = 0
  · rw [if_pos h0, upsample_single (sampleRows _ _ _ _ _ _ _ _) hw]
    subst h0
    refine writeRow_go rfl hwidth.symm fun c hc => ?_
    rw [hcolour _ (Nat.zero_le _)]
    exact fancyRow_eq hline hchroma hchroma (by rw [← hwidth]; exact hc)
  · obtain ⟨hkeptY, hkeptUV⟩ := hp.kept (by omega) (by omega)
    have hnear : nearSample h (base - 1) = base / 2 := by
      unfold nearSample
      rw [if_neg (by omega)]
      omega
    have hnear' : nearSample h base = base / 2 - 1 := by
      unfold nearSample
      rw [if_pos hbase]
    have hprev : p.rowPtr base - p.output.u.stride = p.output.rows.start (base - 1) := by
      rw [AlphaAt.rowPtr_eq]
      unfold Rows.start
      rw [show ((base - 1 : ℕ) : ℤ) = base - 1 by omega]
      unfold WebPDecBuffer.rows
      ring
    rw [if_neg h0, upsample_pair (sampleRows _ _ _ _ _ _ _ _) hw, writeRow_go hprev hwidth.symm,
      show base - 1 + 1 = base by omega, writeRow_go (AlphaAt.rowPtr_eq p base) hwidth.symm]
    · intro c hc
      rw [hcolour _ (by omega)]
      exact fancyRow_eq hline hchroma (by rw [hnear']; exact hkeptUV) (by rw [← hwidth]; exact hc)
    · intro c hc
      rw [hcolour _ (le_refl _)]
      exact fancyRow_eq hkeptY (by rw [show (base - 1) / 2 = base / 2 - 1 by omega]; exact hkeptUV)
        (by rw [hnear]; exact hchroma) (by rw [← hwidth]; exact hc)

/-- **The colour of a band.** The rows that have their chroma are written, and the samples of the last one are
kept where the picture goes on. -/
theorem Fancied.colour {out : Buf} {hasAlpha : Bool} {p : WebPDecParams} {io : VP8Io}
    (hp : Fancied L w h out hasAlpha p base) (hr : Reads L w s base m) (hw : 0 < w) (hm : 0 < m) (hbase : base % 2 = 0)
    (hend : base + m = h ∨ (base + m < h ∧ (base + m) % 2 = 0)) (hio : io.mbY = base ∧ io.mbW = w ∧ io.mbH = m)
    (hcrop : io.cropTop + h = io.cropBottom) :
    ∃ q, emitFancyRGB io s p = (q, delayed h (base + m) - delayed h base) ∧
      FancyOut L w h out hasAlpha p q base (base + m) := by
  obtain ⟨rfl, rfl, rfl⟩ := hio
  have hfirst := hp.first hr hw hm hbase (by omega)
  have hdone : delayed h io.mbY = io.mbY - 1 := if_neg (by omega)
  generalize hg : fancyColoured p.output.colorspace (putsAlpha p.output.colorspace hasAlpha) io.mbW h L
    (delayed h io.mbY) = g at hfirst
  have hcolour : ∀ j, io.mbY ≤ j → g j = fancyRow p.output.colorspace io.mbW h L j := fun j hj => by
    rw [← hg]
    exact if_neg (by omega)
  obtain ⟨y, hloop, hy1, hy2, hy3, hy4⟩ := @emitFancyRGBLoop_eq p.output.colorspace L io.mbW h io.mbY io.mbH s out
    p.output.rows g hr hw hp.rows.1 hbase (by omega) hcolour io.mbH io.mbY ⟨le_refl _, hbase, by omega⟩ (by omega)
  have hstart :
      (⟨io.mbY, s.y, s.u, s.v, p.rowPtr io.mbY, Buf.writeRows.go out p.output.rows g (io.mbY + 1)⟩ : FancyAt) =
      fancyAt s p.output.rows out g io.mbY io.mbY := by
    unfold fancyAt
    simp only [Nat.sub_self, Nat.cast_zero, zero_mul, add_zero]
    rfl
  unfold emitFancyRGB
  dsimp only
  rw [hfirst, hstart, show p.output.u.stride = p.output.rows.stride from rfl, hloop]
  have hcurY : (fancyAt s p.output.rows out g io.mbY y).curY + s.yStride =
      s.y + (y + 1 - io.mbY : ℕ) * s.yStride := by
    unfold fancyAt
    rw [show y + 1 - io.mbY = y - io.mbY + 1 by omega]
    push_cast
    ring
  have hchroma := @Reads.chroma L io.mbW io.mbY io.mbH s hr hbase (y / 2) (by omega)
  by_cases hlast : io.mbY + io.mbH = h
  · rw [if_neg (by omega)]
    have hcount : (if io.mbY = 0 then io.mbH else io.mbH + 1) = delayed h (io.mbY + io.mbH) - delayed h io.mbY := by
      rw [hdone, delayed, if_pos hlast]
      split_ifs <;> omega
    rw [hcount]
    by_cases heven : (io.mbY + io.mbH) % 2 = 0
    · have hnear : nearSample h (y + 1) = y / 2 := by
        unfold nearSample
        rw [if_neg (by omega)]
        omega
      have hptr : (fancyAt s p.output.rows out g io.mbY y).dst + p.output.rows.stride =
          p.output.rows.start (y + 1) := by
        unfold fancyAt Rows.start
        push_cast
        ring
      rw [if_pos heven, hptr, hcurY, upsample_single (sampleRows _ _ _ _ _ _ _ _) hw]
      refine ⟨_, rfl, ⟨rfl, rfl, rfl, rfl⟩, fun hlt => absurd hlt (by omega), ?_⟩
      rw [hg, delayed, if_pos hlast, show h = y + 1 + 1 by omega]
      refine writeRow_go rfl hp.rows.1.symm fun c hc => ?_
      rw [hcolour _ (by omega)]
      refine fancyRow_eq (hr.line (by omega)) (by rw [show (y + 1) / 2 = y / 2 by omega]; exact hchroma)
        (by rw [hnear]; exact hchroma) (by rw [← hp.rows.1]; exact hc)
    · rw [if_neg heven]
      refine ⟨_, rfl, ⟨rfl, rfl, rfl, rfl⟩, fun hlt => absurd hlt (by omega), ?_⟩
      rw [hg, delayed, if_pos hlast, show h = y + 1 by omega]
      rfl
  · rw [if_pos (by omega)]
    have hcount : (if io.mbY = 0 then io.mbH else io.mbH + 1) - 1 =
        delayed h (io.mbY + io.mbH) - delayed h io.mbY := by
      rw [hdone, delayed, if_neg hlast]
      split_ifs <;> omega
    rw [hcount, hcurY]
    refine ⟨_, rfl, ⟨rfl, rfl, rfl, ?_⟩, fun _ => ?_, ?_⟩
    · simp only [Buf.writeRow_size]
    · refine kept_samples hp.room ?_ ?_
      · have hline := hr.line (j := y + 1) (by omega)
        rw [show io.mbY + io.mbH - 1 = y + 1 by omega]
        exact hline
      · rw [show (io.mbY + io.mbH) / 2 - 1 = y / 2 by omega]
        exact hchroma
    · rw [hg, delayed, if_neg hlast, show io.mbY + io.mbH - 1 = y + 1 by omega]
      rfl

/-! ### Alpha -/

/-- Rows of alpha are put in. -/
theorem putAlphaRows_go {out : Buf} {r : Rows} {f : ℕ → ℕ → UInt8} {n first : ℕ} (hfit : RowsFit r out.size)
    (hwidth : r.width = w * pixelSize colorspace) (hcount : n ≤ r.count) {plane : Buf} {alpha : ℤ} {stride k : ℕ}
    {A : ℕ → ℕ → ℕ} (hA : ∀ i, first ≤ i → i < first + k → ∀ x < w,
      sourceRow plane (alpha + (i - first : ℕ) * stride) x = A i x) (hk : first + k ≤ n) :
    ∃ mask, putAlphaRows colorspace plane alpha stride w (r.start first) r.stride (Buf.writeRows.go out r f n) k =
        (Buf.writeRows.go out r (between first k (fun i => alphaBytes colorspace (A i) (f i)) f) n, mask) ∧
      mask ≤ fullMask colorspace ∧
      (mask = fullMask colorspace → ∀ i, first ≤ i → i < first + k → Full colorspace (A i) w) := by
  induction k with
  | zero =>
    refine ⟨fullMask colorspace, ?_, le_refl _, fun _ i h1 h2 => by omega⟩
    rw [between_zero, putAlphaRows]
  | succ k ih =>
    obtain ⟨mask, hrows, hle, hfull⟩ := ih (fun i h1 h2 => hA i h1 (by omega)) (by omega)
    have hptr : r.start first + k * r.stride = r.start (first + k) := by
      unfold Rows.start
      push_cast
      ring
    have hrow : ∀ x < w, sourceRow plane (alpha + k * stride) x = A (first + k) x := fun x hx => by
      have hat := hA (first + k) (by omega) (by omega) x hx
      rwa [Nat.add_sub_cancel_left] at hat
    have hkeep : between first k (fun i => alphaBytes colorspace (A i) (f i)) f (first + k) = f (first + k) := by
      rw [between, if_neg (by omega)]
    have hmem : putAlphaRow colorspace (sourceRow plane (alpha + k * stride)) w (Buf.writeRows.go out r
        (between first k (fun i => alphaBytes colorspace (A i) (f i)) f) n) (r.start (first + k)) =
        Buf.writeRows.go out r (between first (k + 1) (fun i => alphaBytes colorspace (A i) (f i)) f) n := by
      rw [putAlphaRow_go hfit hwidth (by omega) hcount, between_succ, hkeep]
      apply Buf.go_congr
      intro i _ c hc
      by_cases hi : i = first + k
      · subst hi
        rw [Function.update_self, Function.update_self]
        rw [hwidth] at hc
        exact alphaBytes_congr hrow (fun _ _ => rfl) c hc
      · rw [Function.update_of_ne hi, Function.update_of_ne hi]
    refine ⟨rowMask colorspace (sourceRow plane (alpha + k * stride)) mask w, ?_, rowMask_le hle,
      fun heq i h1 h2 => ?_⟩
    · rw [putAlphaRows, hrows]
      dsimp only
      rw [hptr, hmem]
    · obtain ⟨hmask, hnow⟩ := rowMask_full hle (fun x => sourceRow_lt _ _ x) heq
      by_cases hi : i = first + k
      · subst hi
        intro x hx
        rw [← hrow x hx]
        exact hnow x hx
      · exact hfull hmask i h1 (by omega)

/-- **`GetAlphaSourceRow` makes up for the delay**: the rows it names are those whose colour is new. -/
theorem getAlphaSourceRow_eq {io : VP8Io} (hf : io.fancyUpsampling = true) (hm : 0 < io.mbH)
    (hend : io.mbY + io.mbH ≤ h) (hcrop : io.cropTop + h = io.cropBottom) (alpha : ℤ) :
    getAlphaSourceRow io alpha = (delayed h io.mbY, alpha + ((delayed h io.mbY : ℤ) - io.mbY) * io.width,
      delayed h (io.mbY + io.mbH) - delayed h io.mbY) := by
  have hdone : delayed h io.mbY = io.mbY - 1 := if_neg (by omega)
  have hnext : delayed h (io.mbY + io.mbH) = if io.mbY + io.mbH = h then h else io.mbY + io.mbH - 1 := rfl
  unfold getAlphaSourceRow
  rw [if_pos hf, hdone, hnext]
  by_cases h0 : io.mbY = 0
  · rw [if_pos h0]
    dsimp only
    rw [h0]
    by_cases hlast : io.mbH = h
    · rw [if_pos (by omega), if_pos (by omega)]
      simp only [Prod.mk.injEq]
      refine ⟨trivial, by simp, by omega⟩
    · rw [if_neg (by omega), if_neg (by omega)]
      simp only [Prod.mk.injEq]
      refine ⟨trivial, by simp, by omega⟩
  · rw [if_neg h0]
    dsimp only
    have hptr : alpha - io.width = alpha + (((io.mbY - 1 : ℕ) : ℤ) - io.mbY) * io.width := by
      rw [show ((io.mbY - 1 : ℕ) : ℤ) = io.mbY - 1 by omega]
      ring
    by_cases hlast : io.mbY + io.mbH = h
    · rw [if_pos (by omega), if_pos hlast, hptr]
      simp only [Prod.mk.injEq, true_and]
      omega
    · rw [if_neg (by omega), if_neg hlast, hptr]
      simp only [Prod.mk.injEq, true_and]
      omega

/-- The rows whose colour is new get their alpha, and no row twice. -/
theorem emitAlphaRGB_eq {out : Buf} {hasAlpha : Bool} {p q : WebPDecParams} {io : VP8Io} {plane : Buf} {alpha : ℤ}
    (hfit : RowsFit p.output.rows out.size) (hp : Fancied L w h out hasAlpha p io.mbY)
    (hq : FancyOut L w h out hasAlpha p q io.mbY (io.mbY + io.mbH))
    (hputs : putsAlpha p.output.colorspace hasAlpha = true) (hf : io.fancyUpsampling = true) (hw : io.mbW = w)
    (hm : 0 < io.mbH) (hend : io.mbY + io.mbH ≤ h) (hcrop : io.cropTop + h = io.cropBottom)
    (hsome : s.a = some (plane, alpha))
    (hA : ∀ j < io.mbY + io.mbH, ∀ x < w, sourceRow plane (alpha + ((j : ℤ) - io.mbY) * io.width) x = L.a j x) :
    emitAlphaRGB io s q (delayed h (io.mbY + io.mbH) - delayed h io.mbY) = some { q with
      mem := Buf.writeRows.go out p.output.rows (fancyBytes p.output.colorspace true w h L)
        (delayed h (io.mbY + io.mbH)) } := by
  have hdone : delayed h io.mbY = io.mbY - 1 := if_neg (by omega)
  have hnext : delayed h (io.mbY + io.mbH) = if io.mbY + io.mbH = h then h else io.mbY + io.mbH - 1 := rfl
  have hle : delayed h io.mbY ≤ delayed h (io.mbY + io.mbH) := by
    rw [hdone, hnext]
    split_ifs <;> omega
  have hup : delayed h (io.mbY + io.mbH) ≤ io.mbY + io.mbH ∧
      delayed h (io.mbY + io.mbH) ≤ p.output.rows.count := by
    rw [hnext, hp.rows.2]
    split_ifs <;> omega
  have hmode := (Bool.and_eq_true_iff.mp hputs).1
  have hwidth : p.output.rows.width = w * pixelSize p.output.colorspace := by rw [hp.rows.1, pixelSize_eq hmode]
  have hmem := hq.mem
  rw [hputs] at hmem
  generalize hk : delayed h (io.mbY + io.mbH) - delayed h io.mbY = k
  have hread : ∀ i, delayed h io.mbY ≤ i → i < delayed h io.mbY + k → ∀ x < w, sourceRow plane
      (alpha + ((delayed h io.mbY : ℤ) - io.mbY) * io.width + (i - delayed h io.mbY : ℕ) * io.width) x = L.a i x :=
    fun i h1 h2 x hx => by
      rw [← hA i (by omega) x hx]
      congr 1
      rw [show ((i - delayed h io.mbY : ℕ) : ℤ) = i - delayed h io.mbY by omega]
      ring
  obtain ⟨mask, hrows, -, hfull⟩ := putAlphaRows_go
    (f := fancyColoured p.output.colorspace true w h L (delayed h io.mbY)) hfit hwidth hup.2 hread (by omega)
  have hfinal := finalRows_go (f := fancyColoured p.output.colorspace true w h L (delayed h io.mbY)) hfit hwidth
    (show delayed h io.mbY + k ≤ delayed h (io.mbY + io.mbH) by omega) hup.2 hfull
  have hall : Buf.writeRows.go out p.output.rows (between (delayed h io.mbY) k (fun i =>
      finalBytes p.output.colorspace (L.a i) (fancyColoured p.output.colorspace true w h L (delayed h io.mbY) i))
      (fancyColoured p.output.colorspace true w h L (delayed h io.mbY))) (delayed h (io.mbY + io.mbH)) =
      Buf.writeRows.go out p.output.rows (fancyBytes p.output.colorspace true w h L) (delayed h (io.mbY + io.mbH)) := by
    apply Buf.go_congr
    intro i hi c _
    unfold between fancyColoured
    by_cases hold : i < delayed h io.mbY
    · rw [if_neg (by omega), if_pos hold]
    · rw [if_pos (by omega)]
      dsimp only
      rw [if_neg hold]
      rfl
  rw [hall] at hfinal
  have hptr : q.rowPtr (delayed h io.mbY) = p.output.rows.start (delayed h io.mbY) := by
    rw [AlphaAt.rowPtr_eq, hq.same.1]
  unfold emitAlphaRGB
  rw [hsome]
  dsimp only
  rw [getAlphaSourceRow_eq hf hm hend hcrop, hk]
  dsimp only
  rw [hq.same.1, hptr, hmem, hw, show p.output.u.stride = p.output.rows.stride from rfl, hrows]
  dsimp only
  rw [if_neg (not_not.mpr rfl)]
  by_cases hpre : webPIsPremultipliedMode p.output.colorspace = true ∧ mask ≠ fullMask p.output.colorspace
  · rw [if_pos hpre] at hfinal ⊢
    rw [hfinal]
  · rw [if_neg hpre] at hfinal ⊢
    rw [hfinal]

/-- **A band is put**, each of its finished rows with its alpha. -/
theorem Fancied.put {out : Buf} {hasAlpha : Bool} {p : WebPDecParams} {io : VP8Io}
    (hp : Fancied L w h out hasAlpha p io.mbY) (hfit : RowsFit p.output.rows out.size)
    (hr : Reads L w s io.mbY io.mbH) (hw : 0 < w) (hm : 0 < io.mbH) (hbase : io.mbY % 2 = 0)
    (hend : io.mbY + io.mbH = h ∨ (io.mbY + io.mbH < h ∧ (io.mbY + io.mbH) % 2 = 0)) (hmbW : io.mbW = w)
    (hcrop : io.cropTop + h = io.cropBottom) (hf : io.fancyUpsampling = true)
    (ha : hasAlpha = true → ∃ plane a, s.a = some (plane, a) ∧ ∀ j < io.mbY + io.mbH, ∀ x < w,
      sourceRow plane (a + ((j : ℤ) - io.mbY) * io.width) x = L.a j x)
    (hno : hasAlpha = false → s.a = none) :
    ∃ q, customPut io s p = some q ∧ Fancied L w h out hasAlpha q (io.mbY + io.mbH) ∧ q.output = p.output := by
  obtain ⟨q, hemit, hq⟩ := hp.colour hr hw hm hbase hend ⟨rfl, hmbW, rfl⟩ hcrop
  obtain ⟨hout, hqemit, hqlast, hqtmp⟩ := hq.same
  have hdone : delayed h io.mbY = io.mbY - 1 := if_neg (by omega)
  have hnext : delayed h (io.mbY + io.mbH) = if io.mbY + io.mbH = h then h else io.mbY + io.mbH - 1 := rfl
  have hlast : q.lastY + (delayed h (io.mbY + io.mbH) - delayed h io.mbY) = delayed h (io.mbY + io.mbH) := by
    rw [hqlast, hp.lastY, hdone, hnext]
    split_ifs <;> omega
  have hfields : ∀ mem, mem = Buf.writeRows.go out p.output.rows
      (fancyBytes p.output.colorspace (putsAlpha p.output.colorspace hasAlpha) w h L) (delayed h (io.mbY + io.mbH)) →
      Fancied L w h out hasAlpha { q with
        mem := mem
        lastY := q.lastY + (delayed h (io.mbY + io.mbH) - delayed h io.mbY) } (io.mbY + io.mbH) := fun mem hmem => by
    refine ⟨hqemit.trans hp.emit, hlast, ?_, ?_, fun _ hlt => hq.kept hlt, ?_⟩
    · dsimp only
      rw [hout]
      exact hp.rows
    · dsimp only
      rw [hqtmp]
      exact hp.room
    · dsimp only
      rw [hout]
      exact hmem
  unfold customPut
  rw [if_neg (by omega), hp.emit]
  dsimp only
  rw [hemit]
  dsimp only
  rw [hout, hqemit, hp.emit]
  dsimp only
  by_cases hputs : putsAlpha p.output.colorspace hasAlpha = true
  · obtain ⟨hmode, hhas⟩ := Bool.and_eq_true_iff.mp hputs
    obtain ⟨plane, a, hsome, hread⟩ := ha hhas
    rw [hmode, if_neg (by decide), emitAlphaRGB_eq hfit hp hq hputs hf hmbW hm (by omega) hcrop hsome hread]
    refine ⟨_, rfl, hfields _ ?_, hout⟩
    rw [hputs]
  · have hnone : (if (!webPIsAlphaMode p.output.colorspace) = true then some q
        else emitAlphaRGB io s q (delayed h (io.mbY + io.mbH) - delayed h io.mbY)) = some q := by
      by_cases hmode : webPIsAlphaMode p.output.colorspace = true
      · have hhas : hasAlpha = false := by
          by_contra hne
          exact hputs (Bool.and_eq_true_iff.mpr ⟨hmode, by simpa using hne⟩)
        rw [hmode, if_neg (by decide)]
        unfold emitAlphaRGB
        rw [hno hhas]
      · rw [if_pos (by simpa using hmode)]
    rw [hnone]
    refine ⟨_, rfl, hfields q.mem ?_, hout⟩
    rw [hq.mem]
    apply Buf.go_congr
    intro j _ c _
    unfold fancyColoured
    by_cases hold : j < delayed h io.mbY
    · rw [if_pos hold]
    · rw [if_neg hold, fancyBytes, if_neg hputs]

end

/-! ### The picture -/

/-- Row `y` of what a lossy picture gives that keeps its size. -/
def fancySample (io : VP8Io) (colorspace : WebPCspMode) (hasAlpha : Bool) (pic : Planes) (y : ℕ) : ℕ → UInt8 :=
  fancyBytes colorspace (putsAlpha colorspace hasAlpha) io.mbW io.mbH (pic.window io) y

/-- **A lossy picture that keeps its size lands in its buffer.** Whatever in-loop filter delays the rows, every
band goes through and no `assert` fails, though the bands cut pairs of rows that share chroma: at the bottom of the
window each pixel has the mean of its four nearest chroma samples, and its row was multiplied by its alpha once. -/
theorem lossyFancy_placed {grants : Grants} {garbage garbage' : ℕ → UInt8} {options : WebPDecoderOptions}
    {width height : ℕ} {buffer output : WebPDecBuffer} {mem out : Buf} {heap heap' : Heap ObjectKind} {io : VP8Io}
    {p p₀ : WebPDecParams} {pic : Planes} {hasAlpha : Bool} {s : ℕ → Samples} (filterType : Fin 3)
    (bits : width < 2 ^ 14 ∧ height < 2 ^ 14)
    (alloc : webPAllocateDecBuffer grants garbage width height options buffer mem heap = (.ok, output, out, heap'))
    (params : p.output = output ∧ p.mem = out ∧ p.lastY = 0)
    (setup : customSetup options width height garbage' p = some (io, p₀)) (scaling : options.useScaling = false)
    (fits : buffer.isExternalMemory = false ∧ buffer.privateMemory = none ∨ RowsFit output.rows out.size)
    (samples : ∀ n < brMbY io (kFilterExtraRows filterType), SamplesOf pic hasAlpha width
      (reached io (kFilterExtraRows filterType) n) (reached io (kFilterExtraRows filterType) (n + 1)) (s n)) :
    (∀ n ≤ brMbY io (kFilterExtraRows filterType), ∃ q,
      finishRows (kFilterExtraRows filterType) io s n p₀ = some q ∧ (q.lastY : ℤ) ≤ output.height) ∧
    ∃ q, finishRows (kFilterExtraRows filterType) io s (brMbY io (kFilterExtraRows filterType)) p₀ = some q ∧
      (q.lastY : ℤ) = output.height ∧
      q.mem = out.writeRows output.rows (fancySample io output.colorspace hasAlpha pic) := by
  obtain ⟨rfl, rfl, hlast⟩ := params
  obtain ⟨hw, hh, happ, -⟩ := allocate_size alloc
  unfold customSetup at setup
  cases hio : webPIoInitFromOptions options width height false with
  | none =>
    rw [hio] at setup
    cases setup
  | some io' =>
    have win := ioInit_window (by omega) (by omega) hio
    have hu : io'.useScaling = false := by rw [win.useScaling, scaling]
    have hsize := win.plain hu _ happ
    rw [Prod.mk.injEq] at hsize
    obtain ⟨hheight, htop, hleft, hfancy⟩ := ioInit_snapped hio
    rw [hio] at setup
    dsimp only at setup
    rw [hu, if_neg (by decide)] at setup
    by_cases hcheck : checkSizeArgumentsOverflow 1 (io'.mbW + 2 * ((io'.mbW + 1) / 2))
    · rw [dif_pos hcheck] at setup
      cases setup
      have hcols := win.columns
      have hlines := win.lines
      obtain ⟨hmbW, hmbH⟩ := win.band
      have hfit := fits.elim (fun hown => allocate_fits alloc hown (by omega)) id
      obtain ⟨heven, hfew⟩ := kFilterExtraRows_even filterType
      have hb : BandsOf io (kFilterExtraRows filterType) :=
        ⟨heven, hfew, ⟨hlines.1, by rw [hheight]; exact hlines.2⟩, htop, hleft⟩
      have hrows : p.output.rows.width = io.mbW * kModeBpp p.output.colorspace ∧ p.output.rows.count = io.mbH := by
        unfold WebPDecBuffer.rows
        dsimp only
        rw [hsize.1, hsize.2]
        exact ⟨rfl, rfl⟩
      have hnone : delayed io.mbH 0 = 0 := if_neg (by omega)
      have hstart : Fancied (pic.window io) io.mbW io.mbH p.mem hasAlpha
          { p with
            tmp := ⟨io.mbW + 2 * ((io.mbW + 1) / 2), garbage', fancyRows_fit hcheck⟩
            emit := .fancyRGB } 0 :=
        ⟨rfl, hlast.trans hnone.symm, hrows, le_refl _, fun h0 => absurd h0 (lt_irrefl 0), by rw [hnone]; rfl⟩
      have hrun := finishRows_run (P := fun e q =>
          Fancied (pic.window io) io.mbW io.mbH p.mem hasAlpha q e ∧ q.output = p.output) hb
        ⟨hcols.1, by rw [win.source]; exact hcols.2⟩ (by rw [win.source]; exact samples) ⟨hstart, rfl⟩
        fun io' s' q hband hq => ?_
      · refine ⟨fun n hn => ?_, ?_⟩
        · obtain ⟨q, hq, hf, -⟩ := hrun n hn
          have hle := hb.reached_le hn
          refine ⟨q, hq, ?_⟩
          rw [hf.lastY, hsize.2, delayed]
          split_ifs <;> omega
        · obtain ⟨q, hq, hf, hout⟩ := hrun _ (le_refl _)
          rw [hb.last.2, ← hmbH] at hf
          refine ⟨q, hq, by rw [hf.lastY, hsize.2, delayed, if_pos rfl], ?_⟩
          rw [hf.mem, hout, delayed, if_pos rfl, Buf.writeRows, hrows.2]
          rfl
      · obtain ⟨hf, hout⟩ := hq
        have hreads := hband.reads
        have halpha := hband.alpha
        have hend := hband.last
        rw [← hmbW] at hreads halpha
        rw [← hmbH] at hend
        obtain ⟨r, hput, hr, hrout⟩ :=
          hf.put (by rw [hout]; exact hfit) hreads (by omega) hband.lines hband.even hend
          (by rw [hband.columns, hmbW]) (by rw [hband.same.2.1, hband.same.2.2.1]; omega)
          (by rw [hband.same.2.2.2, hfancy, scaling]; rfl) halpha hband.noAlpha
        exact ⟨r, hput, hr, hrout.trans hout⟩
    · rw [dif_neg hcheck] at setup
      cases setup

theorem ramp_fancy :
    ∃ output out io p₀ heap q, webPAllocateDecBuffer (fun _ _ _ => true) (fun _ => 7) (6 : ℕ) (20 : ℕ)
      { rampOptions with useScaling := false } { colorspace := .bgrA } rampSamples.cache Heap.empty =
        (.ok, output, out, heap) ∧
    customSetup { rampOptions with useScaling := false } 6 20 (fun _ => 9) (.reset output out) = some (io, p₀) ∧
    finishRows (kFilterExtraRows 1) io (fun _ => rampSamples) (brMbY io (kFilterExtraRows 1)) p₀ = some q ∧
    (q.lastY : ℤ) = output.height ∧
    q.mem = out.writeRows output.rows (fancySample io output.colorspace true rampPlanes) := by
  rcases halloc : webPAllocateDecBuffer (fun _ _ _ => true) (fun _ => 7) (6 : ℕ) (20 : ℕ)
    { rampOptions with useScaling := false } { colorspace := .bgrA } rampSamples.cache Heap.empty with
    ⟨status, output, out, heap⟩
  have hok : status = .ok := by
    have h : (webPAllocateDecBuffer (fun _ _ _ => true) (fun _ => 7) (6 : ℕ) (20 : ℕ)
      { rampOptions with useScaling := false } { colorspace := .bgrA } rampSamples.cache Heap.empty).1 = .ok := by
        decide +kernel
    rwa [halloc] at h
  subst hok
  obtain ⟨p₀, hsetup⟩ :
      ∃ p₀, customSetup { rampOptions with useScaling := false } 6 20 (fun _ => 9) (.reset output out) =
      some (⟨6, 20, 2, 2, 5, 19, 0, 3, 17, false, 0, 0, true⟩, p₀) := ⟨_, rfl⟩
  obtain ⟨-, q, hrun, hlast, hmem⟩ :=
    lossyFancy_placed 1 ⟨by norm_num, by norm_num⟩ halloc ⟨rfl, rfl, rfl⟩ hsetup rfl
    (.inl ⟨rfl, rfl⟩) fun n _ => rampSamples_hold _ _
  exact ⟨output, out, _, p₀, heap, q, rfl, hsetup, hrun, hlast, hmem⟩

end WebPlugin
