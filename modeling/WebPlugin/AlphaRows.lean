/-
# Alpha put into rows

Alpha goes into rows of pixels that are in memory already, and premultiplies them
there. A row that is made anew from its own bytes is that row in the picture
(`go_remade`), as long as the rows do not overlap and lie in the block; and a row
whose samples are all opaque is its own premultiplied row (`premultBytes_full`), so it
does not matter which rows a call takes together.
-/
import WebPlugin.EmitPlanes
import WebPlugin.EmitFacts

namespace Memory

/-! ### Rows written again -/

namespace Buf

theorem writeRow_byte (b : Buf) (base : ℤ) (n : ℕ) (f : ℕ → UInt8) (k : ℕ) : (b.writeRow base n f).byte k =
    if base ≤ k ∧ (k : ℤ) < base + n ∧ k < b.size then f (k - base).toNat else b.byte k := rfl

theorem writeRow_twice (b : Buf) (base : ℤ) (n : ℕ) (f g : ℕ → UInt8) :
    (b.writeRow base n f).writeRow base n g = b.writeRow base n g := by
  refine eq_of_bytes rfl fun k => ?_
  rw [writeRow_byte, writeRow_byte, writeRow_byte, writeRow_size]
  split_ifs <;> rfl

/-- Writes apart from each other commute. -/
theorem writeRow_comm (b : Buf) {base base' : ℤ} {n m : ℕ} (h : base + n ≤ base' ∨ base' + m ≤ base)
    (f g : ℕ → UInt8) :
    (b.writeRow base n f).writeRow base' m g = (b.writeRow base' m g).writeRow base n f := by
  refine eq_of_bytes rfl fun k => ?_
  rw [writeRow_byte, writeRow_byte, writeRow_byte, writeRow_byte, writeRow_size, writeRow_size]
  by_cases h1 : base ≤ k ∧ (k : ℤ) < base + n ∧ k < b.size
  · rw [if_pos h1, if_pos h1, if_neg (by omega)]
  · rw [if_neg h1, if_neg h1]

variable {b : Buf} {r : Rows} {f : ℕ → ℕ → UInt8}

/-- Rows no longer than their distance lie apart. -/
theorem rows_apart (hw : (r.width : ℤ) ≤ |r.stride|) {i j : ℕ} (hij : i ≠ j) :
    r.start i + r.width ≤ r.start j ∨ r.start j + r.width ≤ r.start i := by
  have hone : (1 : ℤ) ≤ |(j : ℤ) - i| := Int.one_le_abs (sub_ne_zero.mpr (by exact_mod_cast hij.symm))
  have hdist : |r.start j - r.start i| = |(j : ℤ) - i| * |r.stride| := by
    rw [← abs_mul]
    congr 1
    simp only [Rows.start]
    ring
  have hfar : (r.width : ℤ) ≤ |r.start j - r.start i| := by
    rw [hdist]
    nlinarith [abs_nonneg r.stride]
  rcases le_abs.mp hfar with h | h
  · left
    omega
  · right
    omega

/-- A row written again is that row in the picture. -/
theorem go_update (hw : (r.width : ℤ) ≤ |r.stride|) {j : ℕ} (g : ℕ → UInt8) (n : ℕ) (hj : j < n) :
    (writeRows.go b r f n).writeRow (r.start j) r.width g = writeRows.go b r (Function.update f j g) n := by
  induction n with
  | zero => exact absurd hj (Nat.not_lt_zero _)
  | succ n ih =>
    rw [writeRows.go, writeRows.go]
    by_cases hjn : j = n
    · subst hjn
      rw [writeRow_twice, Function.update_self]
      congr 1
      exact go_congr j fun i hi c _ => by rw [Function.update_of_ne hi.ne]
    · rw [writeRow_comm _ (rows_apart hw (Ne.symm hjn)), ih (by omega), Function.update_of_ne (Ne.symm hjn)]

/-- A row of the picture is read back. -/
theorem get_go (hw : (r.width : ℤ) ≤ |r.stride|) {j c n : ℕ} (hj : j < n) (hc : c < r.width)
    (hin : 0 ≤ r.start j ∧ r.start j + r.width ≤ b.size) :
    (writeRows.go b r f n).get (r.start j + c) = f j c := by
  have hk : (((r.start j + c).toNat : ℕ) : ℤ) = r.start j + c := Int.toNat_of_nonneg (by omega)
  exact go_in hw hc hk (by omega) n hj

/-- **A row made anew from its own bytes** is that row in the picture. -/
theorem go_remade (hw : (r.width : ℤ) ≤ |r.stride|) {j n : ℕ} (hj : j < n)
    (hin : 0 ≤ r.start j ∧ r.start j + r.width ≤ b.size) {F : (ℕ → UInt8) → ℕ → UInt8}
    (hF : ∀ row row', (∀ c < r.width, row c = row' c) → ∀ c < r.width, F row c = F row' c) :
    (writeRows.go b r f n).writeRow (r.start j) r.width (F fun c => (writeRows.go b r f n).get (r.start j + c)) =
      writeRows.go b r (Function.update f j (F (f j))) n := by
  rw [← go_update hw _ n hj]
  apply writeRow_congr
  exact hF _ _ fun c hc => get_go hw hj hc hin

end Buf

end Memory

namespace WebPlugin

open Memory Words

/-! ### Pixel by pixel -/

/-- A row whose pixels are made anew. -/
def remade (size : ℕ) (pixel : ℕ → (ℕ → UInt8) → ℕ → UInt8) (row : ℕ → UInt8) (c : ℕ) : UInt8 :=
  pixel (c / size) (fun k => row (c / size * size + k)) (c % size)

theorem mapPixels_eq (mem : Buf) (base : ℤ) {size : ℕ} (hsize : 0 < size)
    (pixel : ℕ → (ℕ → UInt8) → ℕ → UInt8) (n : ℕ) :
    mapPixels mem base size pixel n = mem.writeRow base (n * size) (remade size pixel fun c => mem.get (base + c)) := by
  induction n with
  | zero => rw [mapPixels, zero_mul, Buf.writeRow_zero]
  | succ n ih =>
    have hget : ∀ c : ℕ, (mem.writeRow base (n * size) (remade size pixel fun c => mem.get (base + c))).get
        (base + n * size + c) = mem.get (base + n * size + c) := fun c => by
      apply Buf.writeRow_out
      push_cast
      omega
    rw [mapPixels, ih, Nat.succ_mul, ← Buf.writeRow_append, Nat.cast_mul]
    apply Buf.writeRow_congr
    intro c hc
    have hdiv : (n * size + c) / size = n := by
      rw [mul_comm, Nat.mul_add_div hsize, Nat.div_eq_of_lt hc, add_zero]
    have hmod : (n * size + c) % size = c := by
      rw [mul_comm, Nat.mul_add_mod, Nat.mod_eq_of_lt hc]
    rw [remade, hdiv, hmod]
    congr 1
    funext k
    rw [hget]
    congr 1
    push_cast
    ring

theorem remade_congr {size n : ℕ} (hsize : 0 < size) {pixel : ℕ → (ℕ → UInt8) → ℕ → UInt8}
    (hpix : ∀ i px px', (∀ k < size, px k = px' k) → ∀ c < size, pixel i px c = pixel i px' c)
    {row row' : ℕ → UInt8} (h : ∀ c < n * size, row c = row' c) {c : ℕ} (hc : c < n * size) :
    remade size pixel row c = remade size pixel row' c := by
  have hdiv : c / size < n := (Nat.div_lt_iff_lt_mul hsize).mpr hc
  refine hpix _ _ _ (fun k hk => h _ ?_) _ (Nat.mod_lt c hsize)
  calc c / size * size + k < c / size * size + size := Nat.add_lt_add_left hk _
    _ = (c / size + 1) * size := by ring
    _ ≤ n * size := Nat.mul_le_mul_right size hdiv

/-! ### Rows of alpha -/

/-- The bytes of a pixel with alpha. -/
def pixelSize (colorspace : WebPCspMode) : ℕ := if is4444 colorspace then 2 else 4

theorem pixelSize_pos (colorspace : WebPCspMode) : 0 < pixelSize colorspace := by
  unfold pixelSize
  split_ifs <;> norm_num

theorem pixelSize_eq {colorspace : WebPCspMode} (h : webPIsAlphaMode colorspace = true) :
    pixelSize colorspace = kModeBpp colorspace := by
  revert h
  cases colorspace <;> decide

/-- A row with its alpha put in. -/
def alphaBytes (colorspace : WebPCspMode) (alpha : ℕ → ℕ) (row : ℕ → UInt8) : ℕ → UInt8 :=
  remade (pixelSize colorspace)
    (if is4444 colorspace then dispatchPixel4444 alpha else dispatchPixel (alphaFirst colorspace) alpha) row

/-- A row premultiplied. -/
def multipliedBytes (colorspace : WebPCspMode) (row : ℕ → UInt8) : ℕ → UInt8 :=
  remade (pixelSize colorspace)
    (if is4444 colorspace then multiplyPixel4444 else multiplyPixel (alphaFirst colorspace)) row

section
variable {colorspace : WebPCspMode} {alpha : ℕ → ℕ} {n : ℕ} {row row' : ℕ → UInt8}

theorem alphaByte_lt (first : Bool) : alphaByte first < 4 := by
  cases first <;> decide

theorem alphaBytes_congr {alpha' : ℕ → ℕ} (ha : ∀ i < n, alpha i = alpha' i)
    (h : ∀ c < n * pixelSize colorspace, row c = row' c) : ∀ c < n * pixelSize colorspace,
      alphaBytes colorspace alpha row c = alphaBytes colorspace alpha' row' c := by
  intro c hc
  have hsize := pixelSize_pos colorspace
  have hdiv : c / pixelSize colorspace < n := (Nat.div_lt_iff_lt_mul hsize).mpr hc
  have hrow : alphaBytes colorspace alpha row c = alphaBytes colorspace alpha row' c := by
    refine remade_congr hsize (fun i px px' hpx k hk => ?_) h hc
    unfold pixelSize at hk hpx
    by_cases h4 : is4444 colorspace = true
    · rw [if_pos h4] at hk hpx ⊢
      unfold dispatchPixel4444
      rw [hpx 1 (by norm_num), hpx k hk]
    · rw [if_neg h4] at hk hpx ⊢
      unfold dispatchPixel
      rw [hpx k hk]
  rw [hrow]
  unfold alphaBytes remade
  by_cases h4 : is4444 colorspace = true
  · rw [if_pos h4, if_pos h4]
    unfold dispatchPixel4444
    rw [ha _ hdiv]
  · rw [if_neg h4, if_neg h4]
    unfold dispatchPixel
    rw [ha _ hdiv]

theorem multipliedBytes_congr (h : ∀ c < n * pixelSize colorspace, row c = row' c) :
    ∀ c < n * pixelSize colorspace, multipliedBytes colorspace row c = multipliedBytes colorspace row' c := by
  intro c hc
  refine remade_congr (pixelSize_pos colorspace) (fun i px px' hpx k hk => ?_) h hc
  unfold pixelSize at hk hpx
  by_cases h4 : is4444 colorspace = true
  · rw [if_pos h4] at hk hpx ⊢
    unfold multiplyPixel4444
    rw [hpx 0 (by norm_num), hpx 1 (by norm_num)]
  · rw [if_neg h4] at hk hpx ⊢
    unfold multiplyPixel
    rw [hpx k hk, hpx _ (alphaByte_lt _)]

theorem putAlphaRow_eq (colorspace : WebPCspMode) (alpha : ℕ → ℕ) (width : ℕ) (mem : Buf) (base : ℤ) :
    putAlphaRow colorspace alpha width mem base =
      mem.writeRow base (width * pixelSize colorspace) (alphaBytes colorspace alpha fun c => mem.get (base + c)) := by
  unfold putAlphaRow alphaBytes pixelSize
  by_cases h4 : is4444 colorspace = true
  · rw [if_pos h4, if_pos h4, if_pos h4]
    exact mapPixels_eq mem base (by norm_num) _ _
  · rw [if_neg h4, if_neg h4, if_neg h4]
    exact mapPixels_eq mem base (by norm_num) _ _

theorem applyAlphaMultiplyRows_succ (colorspace : WebPCspMode) (w : ℕ) (stride base : ℤ) (mem : Buf) (h : ℕ) :
    applyAlphaMultiplyRows colorspace w stride base mem (h + 1) =
      (applyAlphaMultiplyRows colorspace w stride base mem h).writeRow (base + h * stride) (w * pixelSize colorspace)
        (multipliedBytes colorspace fun c =>
          (applyAlphaMultiplyRows colorspace w stride base mem h).get (base + h * stride + c)) := by
  rw [applyAlphaMultiplyRows]
  unfold multipliedBytes pixelSize
  by_cases h4 : is4444 colorspace = true
  · rw [if_pos h4, if_pos h4, if_pos h4]
    exact mapPixels_eq _ _ (by norm_num) _ _
  · rw [if_neg h4, if_neg h4, if_neg h4]
    exact mapPixels_eq _ _ (by norm_num) _ _

/-! ### Opaque rows -/

/-- The samples of a row that count for the mask are full. -/
def Full (colorspace : WebPCspMode) (alpha : ℕ → ℕ) (n : ℕ) : Prop :=
  ∀ i < n, (if is4444 colorspace then alpha i >>> 4 else alpha i) = fullMask colorspace

theorem and_eq_full {a b full : ℕ} (ha : a ≤ full) (hb : b ≤ full) (h : a &&& b = full) : a = full ∧ b = full :=
  ⟨le_antisymm ha (h ▸ Nat.and_le_left), le_antisymm hb (h ▸ Nat.and_le_right)⟩

theorem alphaMask_le {mask full : ℕ} (h : mask ≤ full) (n : ℕ) : alphaMask alpha mask n ≤ full := by
  induction n with
  | zero => exact h
  | succ n ih => exact Nat.and_le_left.trans ih

theorem alphaMask_full {mask full : ℕ} (hmask : mask ≤ full) (halpha : ∀ i, alpha i ≤ full) {n : ℕ}
    (h : alphaMask alpha mask n = full) : mask = full ∧ ∀ i < n, alpha i = full := by
  induction n with
  | zero => exact ⟨h, fun i hi => absurd hi (Nat.not_lt_zero i)⟩
  | succ n ih =>
    obtain ⟨hm, ha⟩ := and_eq_full (alphaMask_le hmask n) (halpha n) h
    obtain ⟨hmask', hall⟩ := ih hm
    refine ⟨hmask', fun i hi => ?_⟩
    rcases Nat.lt_succ_iff_lt_or_eq.mp hi with hi' | rfl
    · exact hall i hi'
    · exact ha

/-- A mask that stays full has seen full samples only. -/
theorem rowMask_full {mask width : ℕ} (hmask : mask ≤ fullMask colorspace) (halpha : ∀ i, alpha i < 256)
    (h : rowMask colorspace alpha mask width = fullMask colorspace) :
    mask = fullMask colorspace ∧ Full colorspace alpha width := by
  unfold rowMask at h
  unfold Full
  unfold fullMask at h hmask ⊢
  by_cases h4 : is4444 colorspace = true
  · simp only [if_pos h4] at h hmask ⊢
    exact alphaMask_full hmask (fun i => by have := halpha i; rw [Nat.shiftRight_eq_div_pow]; omega) h
  · simp only [if_neg h4] at h hmask ⊢
    exact alphaMask_full hmask (fun i => by have := halpha i; omega) h

theorem rowMask_le {mask width : ℕ} (hmask : mask ≤ fullMask colorspace) :
    rowMask colorspace alpha mask width ≤ fullMask colorspace := by
  unfold rowMask
  split_ifs <;> exact alphaMask_le hmask width

theorem multiply4444_high : ∀ x < 256, (applyAlphaMultiply4444 x 15).1 = x := by
  decide +kernel

theorem multiply4444_low : ∀ x < 256, x &&& 0x0f = 15 → (applyAlphaMultiply4444 0 x).2 = x := by
  decide +kernel

theorem multiply4444_full {rg ba : ℕ} (hrg : rg < 256) (hba : ba < 256) (h : ba &&& 0x0f = 15) :
    applyAlphaMultiply4444 rg ba = (rg, ba) := by
  have h1 := multiply4444_high rg hrg
  have h2 := multiply4444_low ba hba h
  have hfifteen : 15 &&& 0x0f = 15 := by decide
  unfold applyAlphaMultiply4444 at h1 h2 ⊢
  dsimp only at h1 h2 ⊢
  rw [hfifteen] at h1
  rw [h] at h2 ⊢
  exact Prod.ext h1 h2

theorem nibble_full : ∀ x < 256, ((x &&& 0xf0) ||| 15) < 256 ∧ ((x &&& 0xf0) ||| 15) &&& 0x0f = 15 := by
  decide +kernel

theorem ofNat_toNat' (x : UInt8) : UInt8.ofNat x.toNat = x := by
  simp

theorem remade_at {size : ℕ} (hsize : 0 < size) (pixel : ℕ → (ℕ → UInt8) → ℕ → UInt8)
    (row : ℕ → UInt8) (i : ℕ) {k : ℕ} (hk : k < size) :
    remade size pixel row (i * size + k) = pixel i (fun k => row (i * size + k)) k := by
  have hdiv : (i * size + k) / size = i := by
    rw [mul_comm, Nat.mul_add_div hsize, Nat.div_eq_of_lt hk, add_zero]
  have hmod : (i * size + k) % size = k := by
    rw [mul_comm, Nat.mul_add_mod, Nat.mod_eq_of_lt hk]
  rw [remade, hdiv, hmod]

/-- **A row of opaque pixels is premultiplied already.** -/
theorem multipliedBytes_full (h : Full colorspace alpha n) (row : ℕ → UInt8) : ∀ c < n * pixelSize colorspace,
    multipliedBytes colorspace (alphaBytes colorspace alpha row) c = alphaBytes colorspace alpha row c := by
  intro c hc
  have hsize := pixelSize_pos colorspace
  have hi : c / pixelSize colorspace < n := (Nat.div_lt_iff_lt_mul hsize).mpr hc
  have hk := Nat.mod_lt c hsize
  obtain ⟨i, k, hck⟩ : ∃ i k, c = i * pixelSize colorspace + k ∧ i < n ∧ k < pixelSize colorspace :=
    ⟨_, _, (Nat.div_add_mod' c _).symm, hi, hk⟩
  obtain ⟨rfl, hin, hkn⟩ := hck
  have hfull := h i hin
  rw [multipliedBytes, remade_at hsize _ _ _ hkn]
  unfold alphaBytes
  unfold fullMask at hfull
  unfold pixelSize at hkn ⊢
  by_cases h4 : is4444 colorspace = true
  · simp only [if_pos h4] at hfull hkn ⊢
    have hlow := nibble_full (row (i * 2 + 1)).toNat (UInt8.toNat_lt _)
    have hone :
        (remade 2 (dispatchPixel4444 alpha) row (i * 2 + 1)).toNat = ((row (i * 2 + 1)).toNat &&& 0xf0) ||| 15 := by
      rw [remade_at (by norm_num) _ _ _ (by norm_num), dispatchPixel4444, if_pos rfl, hfull, UInt8.toNat_ofNat',
        Nat.mod_eq_of_lt hlow.1]
    have hmult := @multiply4444_full (remade 2 (dispatchPixel4444 alpha) row (i * 2 + 0)).toNat
      (remade 2 (dispatchPixel4444 alpha) row (i * 2 + 1)).toNat (UInt8.toNat_lt _) (UInt8.toNat_lt _)
      (by rw [hone]; exact hlow.2)
    unfold multiplyPixel4444
    rw [hmult]
    rcases Nat.le_one_iff_eq_zero_or_eq_one.mp (Nat.lt_succ_iff.mp hkn) with rfl | rfl
    · exact ofNat_toNat' _
    · exact ofNat_toNat' _
  · simp only [if_neg h4] at hfull hkn ⊢
    unfold multiplyPixel
    by_cases hka : k = alphaByte (alphaFirst colorspace)
    · rw [if_pos hka]
    · have halpha : (remade 4 (dispatchPixel (alphaFirst colorspace) alpha) row
          (i * 4 + alphaByte (alphaFirst colorspace))).toNat = 0xff := by
        rw [remade_at (by norm_num) _ _ _ (alphaByte_lt _), dispatchPixel, if_pos rfl, hfull]
        rfl
      rw [if_neg hka, halpha, premultiply, if_neg (by decide)]
      exact ofNat_toNat' _

end

end WebPlugin
