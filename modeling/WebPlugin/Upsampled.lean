/-
# What the fancy upsampler computes

`UPSAMPLE_FUNC` works on the two chroma samples of a pixel in one word, and shares
the sums of the two diagonals between the four pixels of a square. Neither matters:
no carry and no shifted bit of one sample reaches the other (`Lanes`), and each pixel
gets the samples nearest to it in the proportions 9, 3, 3 and 1, rounded once, where
samples beyond an edge are those at the edge (`upsampleUV_lanes`).
-/
import WebPlugin.Lockstep

namespace WebPlugin

/-! ### Two samples in a word -/

/-- A word holds two samples. -/
def Lanes (word u v : ℕ) : Prop := word &&& 0xff = u ∧ word >>> 16 = v

theorem loadUV_eq {u : ℕ} (v : ℕ) (hu : u < 256) : loadUV u v = u + 65536 * v := by
  rw [loadUV, Nat.or_comm, ← Nat.shiftLeft_add_eq_or_of_lt (show u < 2 ^ 16 by omega), Nat.shiftLeft_eq]
  ring

theorem and_255 (n : ℕ) : n &&& 0xff = n % 256 := Nat.and_two_pow_sub_one_eq_mod n 8

/-- The weighted mean of four samples: own, one beside, one above or below, and the one across. -/
def tap (a b c d : ℕ) : ℕ := (9 * a + 3 * b + 3 * c + d + 8) / 16

/-- The sum of one diagonal and a sample of the other, as `UPSAMPLE_FUNC` halves it. -/
theorem lanes_diagonal {a b c d a' b' c' d' : ℕ} (ha : a < 256) (hb : b < 256) (hc : c < 256) (hd : d < 256)
    {sum : ℕ}
    (hsum : sum = a + 65536 * a' + 3 * (b + 65536 * b') + 3 * (c + 65536 * c') + (d + 65536 * d') + 0x00080008) :
    Lanes ((sum >>> 3 + (a + 65536 * a')) >>> 1) (tap a b c d) (tap a' b' c' d') := by
  generalize hs : a + 3 * b + 3 * c + d + 8 = s
  generalize hs' : a' + 3 * b' + 3 * c' + d' + 8 = s'
  have hlow : tap a b c d = (s / 8 + a) / 2 := by
    unfold tap
    omega
  have hhigh : tap a' b' c' d' = (s' / 8 + a') / 2 := by
    unfold tap
    omega
  -- what the upper sum loses lands in bits 12 to 15 of the word
  have hword : (sum >>> 3 + (a + 65536 * a')) >>> 1 =
      (s / 8 + a) / 2 + 4096 * (s' % 8) + 32768 * ((s' / 8 + a') % 2) + 65536 * ((s' / 8 + a') / 2) := by
    have heighth : sum / 8 = s / 8 + 8192 * (s' % 8) + 65536 * (s' / 8) := by omega
    simp only [Nat.shiftRight_eq_div_pow, Nat.reducePow]
    rw [heighth]
    omega
  unfold Lanes
  rw [hword, hlow, hhigh, and_255, Nat.shiftRight_eq_div_pow]
  have hsmall : (s / 8 + a) / 2 < 256 := by omega
  have hr := Nat.mod_lt s' (show 0 < 8 by norm_num)
  have hr' := Nat.mod_lt (s' / 8 + a') (show 0 < 2 by norm_num)
  generalize (s / 8 + a) / 2 = low at hsmall ⊢
  generalize (s' / 8 + a') / 2 = high
  generalize s' % 8 = r at hr ⊢
  generalize (s' / 8 + a') % 2 = r' at hr' ⊢
  omega

/-- A pixel at the edge of its row. -/
theorem lanes_edge {a c a' c' : ℕ} (ha : a < 256) (hc : c < 256) :
    Lanes (edgeUV (a + 65536 * a') (c + 65536 * c')) (tap a a c c) (tap a' a' c' c') := by
  unfold Lanes tap edgeUV
  simp only [and_255, Nat.shiftRight_eq_div_pow, Nat.reducePow]
  omega

/-! ### Rows -/

/-- The sample beside that of pixel `k`, of the samples of `n` pixels. -/
def nearSample (n k : ℕ) : ℕ := if k % 2 = 0 then k / 2 - 1 else min (k / 2 + 1) ((n + 1) / 2 - 1)

/-- Pixel `x` of `n`, from the samples of its own row and of the next one. -/
def upsampled (n : ℕ) (own other : ℕ → ℕ) (x : ℕ) : ℕ :=
  tap (own (x / 2)) (own (nearSample n x)) (other (x / 2)) (other (nearSample n x))

/-- Two rows of samples that are bytes. -/
structure SampleRows (topU topV curU curV : ℕ → ℕ) : Prop where
  top : ∀ x, topU x < 256 ∧ topV x < 256
  cur : ∀ x, curU x < 256 ∧ curV x < 256

section
variable {topU topV curU curV : ℕ → ℕ} {len : ℕ}

/-- The words of a row of pixels from pixel `x` on. -/
def RowLanes (len : ℕ) (ownU ownV otherU otherV : ℕ → ℕ) (x : ℕ) (words : List ℕ) : Prop :=
  ∀ i < words.length, Lanes (words.getD i 0) (upsampled len ownU otherU (x + i)) (upsampled len ownV otherV (x + i))

theorem RowLanes.cons {x word : ℕ} {words : List ℕ} {ownU ownV otherU otherV : ℕ → ℕ}
    (h : Lanes word (upsampled len ownU otherU x) (upsampled len ownV otherV x))
    (hs : RowLanes len ownU ownV otherU otherV (x + 1) words) :
    RowLanes len ownU ownV otherU otherV x (word :: words) := by
  intro i hi
  cases i with
  | zero => exact h
  | succ i =>
    have hi' := hs i (by simpa using hi)
    rw [show x + 1 + i = x + (i + 1) by omega] at hi'
    exact hi'

theorem RowLanes.append {x : ℕ} {words words' : List ℕ} {ownU ownV otherU otherV : ℕ → ℕ}
    (h : RowLanes len ownU ownV otherU otherV x words)
    (h' : RowLanes len ownU ownV otherU otherV (x + words.length) words') :
    RowLanes len ownU ownV otherU otherV x (words ++ words') := by
  intro i hi
  rw [List.length_append] at hi
  by_cases hlt : i < words.length
  · rw [List.getD_append _ _ _ _ hlt]
    exact h i hlt
  · have hi' := h' (i - words.length) (by omega)
    rw [List.getD_append_right _ _ _ _ (by omega)]
    rw [show x + words.length + (i - words.length) = x + i by omega] at hi'
    exact hi'

/-- Two pixels between samples `k` and `k + 1` of a row. -/
theorem upsampled_pair {own other : ℕ → ℕ} {k : ℕ} (hk : 2 * k + 2 < len) :
    upsampled len own other (2 * k + 1) = tap (own k) (own (k + 1)) (other k) (other (k + 1)) ∧
      upsampled len own other (2 * k + 2) = tap (own (k + 1)) (own k) (other (k + 1)) (other k) := by
  unfold upsampled nearSample
  rw [if_neg (by omega), if_pos (by omega), show (2 * k + 1) / 2 = k by omega, show (2 * k + 2) / 2 = k + 1 by omega,
    show min (k + 1) ((len + 1) / 2 - 1) = k + 1 by omega, Nat.add_sub_cancel]
  exact ⟨rfl, rfl⟩

/-- **A turn per pair of samples**: two pixels of the top row and two of the bottom one. -/
theorem upsampleLoop_lanes (h : SampleRows topU topV curU curV) (n k : ℕ) (hn : 2 * (k + n) < len) :
    ∃ top bottom, upsampleLoop topU topV curU curV n (k + 1) (loadUV (topU k) (topV k)) (loadUV (curU k) (curV k)) =
        (top, bottom, loadUV (topU (k + n)) (topV (k + n)), loadUV (curU (k + n)) (curV (k + n))) ∧
      top.length = 2 * n ∧ bottom.length = 2 * n ∧
      RowLanes len topU topV curU curV (2 * k + 1) top ∧ RowLanes len curU curV topU topV (2 * k + 1) bottom := by
  induction n generalizing k with
  | zero =>
    exact ⟨[], [], rfl, rfl, rfl, fun i hi => absurd hi (Nat.not_lt_zero i),
      fun i hi => absurd hi (Nat.not_lt_zero i)⟩
  | succ n ih =>
    obtain ⟨top, bottom, hloop, htop, hbottom, rtop, rbottom⟩ := ih (k + 1) (by omega)
    have hload : ∀ x, loadUV (topU x) (topV x) = topU x + 65536 * topV x ∧
        loadUV (curU x) (curV x) = curU x + 65536 * curV x := fun x =>
      ⟨loadUV_eq _ (h.top x).1, loadUV_eq _ (h.cur x).1⟩
    have hpair := fun own other : ℕ → ℕ => @upsampled_pair len own other k (by omega)
    refine ⟨_, _, by rw [upsampleLoop, hloop, show k + 1 + n = k + (n + 1) by omega], by simp [htop]; omega,
      by simp [hbottom]; omega, .cons ?_ (.cons ?_ rtop), .cons ?_ (.cons ?_ rbottom)⟩
    · rw [(hpair topU curU).1, (hpair topV curV).1, (hload k).1, (hload (k + 1)).1, (hload k).2, (hload (k + 1)).2]
      exact lanes_diagonal (h.top k).1 (h.top (k + 1)).1 (h.cur k).1 (h.cur (k + 1)).1 (by ring)
    · rw [(hpair topU curU).2, (hpair topV curV).2, (hload k).1, (hload (k + 1)).1, (hload k).2, (hload (k + 1)).2]
      exact lanes_diagonal (h.top (k + 1)).1 (h.top k).1 (h.cur (k + 1)).1 (h.cur k).1 (by ring)
    · rw [(hpair curU topU).1, (hpair curV topV).1, (hload k).1, (hload (k + 1)).1, (hload k).2, (hload (k + 1)).2]
      exact lanes_diagonal (h.cur k).1 (h.cur (k + 1)).1 (h.top k).1 (h.top (k + 1)).1 (by ring)
    · rw [(hpair curU topU).2, (hpair curV topV).2, (hload k).1, (hload (k + 1)).1, (hload k).2, (hload (k + 1)).2]
      exact lanes_diagonal (h.cur (k + 1)).1 (h.cur k).1 (h.top (k + 1)).1 (h.top k).1 (by ring)

/-- The first and the last pixel have no sample beside theirs. -/
theorem upsampled_edges (hlen : 0 < len) (own other : ℕ → ℕ) :
    upsampled len own other 0 = tap (own 0) (own 0) (other 0) (other 0) ∧
      (len % 2 = 0 → upsampled len own other (len - 1) =
        tap (own ((len - 1) / 2)) (own ((len - 1) / 2)) (other ((len - 1) / 2)) (other ((len - 1) / 2))) := by
  refine ⟨rfl, fun heven => ?_⟩
  unfold upsampled nearSample
  rw [if_neg (by omega), show min ((len - 1) / 2 + 1) ((len + 1) / 2 - 1) = (len - 1) / 2 by omega]

/-- A row with its edges. -/
theorem RowLanes.edges {ownU ownV otherU otherV : ℕ → ℕ} {words : List ℕ} (hlen : 0 < len)
    (hown : ∀ x, ownU x < 256 ∧ ownV x < 256) (hother : ∀ x, otherU x < 256 ∧ otherV x < 256)
    (h : RowLanes len ownU ownV otherU otherV 1 words) (hwords : words.length = 2 * ((len - 1) / 2)) :
    (edgeUV (loadUV (ownU 0) (ownV 0)) (loadUV (otherU 0) (otherV 0)) :: words ++
      if len % 2 = 0 then [edgeUV (loadUV (ownU ((len - 1) / 2)) (ownV ((len - 1) / 2)))
        (loadUV (otherU ((len - 1) / 2)) (otherV ((len - 1) / 2)))] else []).length = len ∧
    RowLanes len ownU ownV otherU otherV 0
      (edgeUV (loadUV (ownU 0) (ownV 0)) (loadUV (otherU 0) (otherV 0)) :: words ++
        if len % 2 = 0 then [edgeUV (loadUV (ownU ((len - 1) / 2)) (ownV ((len - 1) / 2)))
          (loadUV (otherU ((len - 1) / 2)) (otherV ((len - 1) / 2)))] else []) := by
  have hU := @upsampled_edges len hlen ownU otherU
  have hV := @upsampled_edges len hlen ownV otherV
  have hload : ∀ x, loadUV (ownU x) (ownV x) = ownU x + 65536 * ownV x ∧
      loadUV (otherU x) (otherV x) = otherU x + 65536 * otherV x := fun x =>
    ⟨loadUV_eq _ (hown x).1, loadUV_eq _ (hother x).1⟩
  have hfirst : RowLanes len ownU ownV otherU otherV 0
      (edgeUV (loadUV (ownU 0) (ownV 0)) (loadUV (otherU 0) (otherV 0)) :: words) := by
    refine .cons ?_ h
    rw [hU.1, hV.1, (hload 0).1, (hload 0).2]
    exact lanes_edge (hown 0).1 (hother 0).1
  by_cases heven : len % 2 = 0
  · rw [if_pos heven]
    refine ⟨by simp [hwords]; omega, hfirst.append (.cons ?_ fun i hi => absurd hi (Nat.not_lt_zero i))⟩
    rw [List.length_cons, hwords, show 0 + (2 * ((len - 1) / 2) + 1) = len - 1 by omega, hU.2 heven, hV.2 heven,
      (hload _).1, (hload _).2]
    exact lanes_edge (hown _).1 (hother _).1
  · rw [if_neg heven, List.append_nil]
    exact ⟨by rw [List.length_cons, hwords]; omega, hfirst⟩

/-- **Each pixel of the two rows gets its four nearest samples.** -/
theorem upsampleUV_lanes (h : SampleRows topU topV curU curV) (hlen : 0 < len) :
    ((upsampleUV topU topV curU curV len).1.length = len ∧
      RowLanes len topU topV curU curV 0 (upsampleUV topU topV curU curV len).1) ∧
    (upsampleUV topU topV curU curV len).2.length = len ∧
      RowLanes len curU curV topU topV 0 (upsampleUV topU topV curU curV len).2 := by
  obtain ⟨top, bottom, hloop, htop, hbottom, rtop, rbottom⟩ :=
    @upsampleLoop_lanes topU topV curU curV len h ((len - 1) / 2) 0 (by omega)
  rw [zero_add] at hloop
  unfold upsampleUV
  dsimp only
  rw [hloop]
  dsimp only
  rw [zero_add]
  exact ⟨rtop.edges hlen h.top h.cur htop, rbottom.edges hlen h.cur h.top hbottom⟩

/-- The bytes of a row of pixels from its luma and the samples of two rows. -/
def upsampledRow (colorspace : WebPCspMode) (len : ℕ) (y ownU ownV otherU otherV : ℕ → ℕ) : ℕ → UInt8 :=
  yuvByte colorspace y (upsampled len ownU otherU) (upsampled len ownV otherV)

theorem upsampledByte_eq {colorspace : WebPCspMode} {ownU ownV otherU otherV y : ℕ → ℕ} {words : List ℕ}
    (h : words.length = len ∧ RowLanes len ownU ownV otherU otherV 0 words) {c : ℕ}
    (hc : c < len * kModeBpp colorspace) :
    upsampledByte colorspace y words c = upsampledRow colorspace len y ownU ownV otherU otherV c := by
  refine yuvByte_congr (fun x hx => ?_) hc
  have hx' := h.2 x (by rw [h.1]; exact hx)
  rw [zero_add] at hx'
  exact ⟨rfl, hx'.1, hx'.2⟩

end

end WebPlugin
