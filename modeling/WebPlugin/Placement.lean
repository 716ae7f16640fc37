/-
# Where a frame is placed

`SCALE_DIM` multiplies and divides 32-bit words. It is the exact scaling of
`WebPlugin.Scaling` while the product stays below `2 ^ 32` (`scaleDim_exact_iff`);
past that the product wraps. The rectangle of a frame inside the canvas lies
inside the scaled canvas in either case (`scaleDim_add_le`).
-/
import WebPlugin.FrameHeaders
import WebPlugin.AnimDecode
import WebPlugin.Scaling

namespace WebPlugin

open Words Scaling

section

variable {v w full scaled : ℤ}

theorem wrap_le {z : ℤ} (hz : 0 ≤ z) : z % 4294967296 ≤ z := by
  omega

/-- `SCALE_DIM` of a value on the canvas, in integers. -/
theorem scaleDim_eq (hv : 0 ≤ v) (hvf : v ≤ full) (hf : full < 4294967296) (hs : 0 ≤ scaled)
    (hs' : scaled < 2147483648) (hf0 : 0 < full) :
    scaleDim v full scaled = v * scaled % 4294967296 / full := by
  have h1 : (u32 v : ℤ) = v := u32_of_range hv (by omega)
  have h2 : (u32 scaled : ℤ) = scaled := u32_of_range hs (by omega)
  have h3 : (u32 full : ℤ) = full := u32_of_range (by omega) hf
  have hprod : 0 ≤ v * scaled := mul_nonneg hv hs
  have hle : v * scaled % 4294967296 / full ≤ scaled := by
    calc v * scaled % 4294967296 / full ≤ full * scaled / full :=
          Int.ediv_le_ediv hf0 ((wrap_le hprod).trans (mul_le_mul_of_nonneg_right hvf hs))
      _ = scaled := Int.mul_ediv_cancel_left _ hf0.ne'
  have h0 : 0 ≤ v * scaled % 4294967296 / full :=
    Int.ediv_nonneg (Int.emod_nonneg _ (by norm_num)) hf0.le
  rw [scaleDim]
  push_cast
  rw [h1, h2, h3]
  exact i32_of_range (by omega) (by omega)

/-- One axis of a frame inside the canvas, and of the scaled canvas. -/
structure OnAxis (x w full scaled : ℤ) : Prop where
  start : 0 ≤ x
  side : 0 < w
  fits : x + w ≤ full
  word : full < 4294967296
  pos : 0 < scaled
  int : scaled < 2147483648

namespace OnAxis

variable {x w full scaled : ℤ}

theorem full_pos (h : OnAxis x w full scaled) : 0 < full := by
  have := h.start; have := h.side; have := h.fits
  omega

theorem start_eq (h : OnAxis x w full scaled) :
    scaleDim x full scaled = x * scaled % 4294967296 / full := by
  have := h.side; have := h.fits
  exact scaleDim_eq h.start (by omega) h.word h.pos.le h.int h.full_pos

theorem side_eq (h : OnAxis x w full scaled) :
    scaleDim w full scaled = w * scaled % 4294967296 / full := by
  have := h.start; have := h.fits
  exact scaleDim_eq h.side.le (by omega) h.word h.pos.le h.int h.full_pos

theorem start_nonneg (h : OnAxis x w full scaled) : 0 ≤ scaleDim x full scaled := by
  rw [h.start_eq]
  exact Int.ediv_nonneg (Int.emod_nonneg _ (by norm_num)) h.full_pos.le

theorem side_nonneg (h : OnAxis x w full scaled) : 0 ≤ scaleDim w full scaled := by
  rw [h.side_eq]
  exact Int.ediv_nonneg (Int.emod_nonneg _ (by norm_num)) h.full_pos.le

/-- A frame starts on the scaled canvas, even one that is scaled away. -/
theorem start_lt (h : OnAxis x w full scaled) : scaleDim x full scaled < scaled := by
  rw [h.start_eq]
  refine Int.ediv_lt_of_lt_mul h.full_pos
    ((wrap_le (mul_nonneg h.start h.pos.le)).trans_lt ?_)
  rw [mul_comm]
  have := h.side; have := h.fits
  exact mul_lt_mul_of_pos_left (by omega) h.pos

/-- The scaled rectangle stays inside the scaled canvas, wrapped or not. -/
theorem inside (h : OnAxis x w full scaled) :
    scaleDim x full scaled + scaleDim w full scaled ≤ scaled := by
  rw [h.start_eq, h.side_eq]
  have hx : x * scaled % 4294967296 ≤ x * scaled := wrap_le (mul_nonneg h.start h.pos.le)
  have hw : w * scaled % 4294967296 ≤ w * scaled := wrap_le (mul_nonneg h.side.le h.pos.le)
  calc x * scaled % 4294967296 / full + w * scaled % 4294967296 / full
      ≤ (x * scaled % 4294967296 + w * scaled % 4294967296) / full := by
        rw [Int.le_ediv_iff_mul_le h.full_pos, add_mul]
        exact add_le_add (Int.ediv_mul_le _ h.full_pos.ne') (Int.ediv_mul_le _ h.full_pos.ne')
    _ ≤ full * scaled / full := by
        refine Int.ediv_le_ediv h.full_pos ((add_le_add hx hw).trans ?_)
        rw [← add_mul]
        exact mul_le_mul_of_nonneg_right h.fits h.pos.le
    _ = scaled := Int.mul_ediv_cancel_left _ h.full_pos.ne'

/-- `SCALE_DIM` is the exact quotient just when the product does not wrap. -/
theorem wrap_exact_iff {p : ℤ} (hp : 0 ≤ p) (h0 : 0 < full) (hf : full < 4294967296) :
    p % 4294967296 / full = p / full ↔ p < 4294967296 := by
  constructor
  · intro he
    by_contra hge
    have h1 : p % 4294967296 ≤ p - 4294967296 := by omega
    have h2 : p % 4294967296 / full ≤ (p - full) / full :=
      Int.ediv_le_ediv h0 (h1.trans (by omega))
    have h3 : (p - full) / full = p / full - 1 := by
      rw [show p - full = p + (-1) * full by ring, Int.add_mul_ediv_right _ _ h0.ne']
      rfl
    omega
  · intro hlt
    rw [Int.emod_eq_of_lt hp hlt]

theorem start_exact_iff (h : OnAxis x w full scaled) :
    scaleDim x full scaled = x * scaled / full ↔ x * scaled < 4294967296 := by
  rw [h.start_eq]
  exact wrap_exact_iff (mul_nonneg h.start h.pos.le) h.full_pos h.word

theorem side_exact_iff (h : OnAxis x w full scaled) :
    scaleDim w full scaled = w * scaled / full ↔ w * scaled < 4294967296 := by
  rw [h.side_eq]
  exact wrap_exact_iff (mul_nonneg h.side.le h.pos.le) h.full_pos h.word

/-- A side is scaled away when its product falls short of the canvas. -/
theorem side_pos_iff (h : OnAxis x w full scaled) :
    0 < scaleDim w full scaled ↔ full ≤ w * scaled % 4294967296 := by
  rw [h.side_eq, ← Int.one_mul full, ← Int.le_ediv_iff_mul_le h.full_pos, Int.one_mul]
  omega

/-- Without scaling a position may only shrink. -/
theorem wrap_full_le (h : OnAxis x w full full) {n : ℤ} (hn : 0 ≤ n) : n * full % 4294967296 / full ≤ n :=
  calc n * full % 4294967296 / full ≤ n * full / full :=
        Int.ediv_le_ediv h.full_pos (wrap_le (mul_nonneg hn h.pos.le))
    _ = n := Int.mul_ediv_cancel _ h.full_pos.ne'

theorem start_le (h : OnAxis x w full full) : scaleDim x full full ≤ x := by
  rw [h.start_eq]
  exact h.wrap_full_le h.start

theorem side_le (h : OnAxis x w full full) : scaleDim w full full ≤ w := by
  rw [h.side_eq]
  exact h.wrap_full_le h.side.le

end OnAxis

end

end WebPlugin
