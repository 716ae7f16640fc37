/-
# Scaling a line of cells

A line of `f` cells drawn on `s` cells: cell edge `x` goes to
`scale f s x = ⌊x s / f⌋`. The map is monotone and takes the ends to the ends,
so every target cell lies between the images of two neighbouring edges
(`exists_cell`), and rectangles placed by their scaled edges cover the target
when they cover the source (`covers_of_edges`). A side scaled on its own may
fall one short of the distance of its scaled edges; it does so exactly when the
remainders carry (`scale_add_iff`).
-/
import WebPlugin.Words

namespace Scaling

/-- The image of edge `x` of a line of `f` cells on a line of `s` cells. -/
def scale (f s x : ℕ) : ℕ := x * s / f

@[simp] theorem scale_zero (f s : ℕ) : scale f s 0 = 0 := by
  simp [scale]

theorem scale_self {f : ℕ} (hf : 0 < f) (s : ℕ) : scale f s f = s := by
  simp [scale, Nat.mul_div_cancel_left s hf]

theorem scale_mono (f s : ℕ) : Monotone (scale f s) := fun _ _ h =>
  Nat.div_le_div_right (Nat.mul_le_mul_right s h)

/-- Offset and side scaled apart meet the scaled edge exactly when their
remainders do not carry. -/
theorem scale_add_iff {f : ℕ} (hf : 0 < f) (s x w : ℕ) :
    scale f s x + scale f s w = scale f s (x + w) ↔ x * s % f + w * s % f < f := by
  simp only [scale, Nat.add_mul, Nat.add_div hf]
  split_ifs with h
  · exact iff_of_false (by omega) (by omega)
  · exact iff_of_true (by omega) (by omega)

/-! ### Covering the target -/

/-- A monotone map passes every value between its ends at some step. -/
theorem exists_step {β : Type*} [LinearOrder β] {S : ℕ → β} {X : β} :
    ∀ {f : ℕ}, S 0 ≤ X → X < S f → ∃ x < f, S x ≤ X ∧ X < S (x + 1)
  | 0, h0, h1 => absurd h1 h0.not_gt
  | f + 1, h0, h1 => by
    by_cases h : X < S f
    · obtain ⟨x, hx, hS⟩ := exists_step h0 h
      exact ⟨x, by omega, hS⟩
    · exact ⟨f, by omega, not_lt.mp h, h1⟩

/-- Every target cell lies between the images of two neighbouring edges. -/
theorem exists_cell {f : ℕ} (hf : 0 < f) {s X : ℕ} (hX : X < s) :
    ∃ x < f, scale f s x ≤ X ∧ X < scale f s (x + 1) :=
  exists_step (by simp) (by rwa [scale_self hf])

/-- The cells of `[x, x + w)` are drawn inside the images of its two edges. -/
theorem between_edges {f s x w c X : ℕ} (h0 : x ≤ c) (h1 : c < x + w)
    (hX : scale f s c ≤ X ∧ X < scale f s (c + 1)) :
    scale f s x ≤ X ∧ X < scale f s (x + w) :=
  ⟨(scale_mono f s h0).trans hX.1, hX.2.trans_le (scale_mono f s h1)⟩

/-- A rectangle of cells. -/
structure Rect where
  x : ℕ
  y : ℕ
  w : ℕ
  h : ℕ
  deriving DecidableEq, Repr

/-- Cell `(i, j)` (column, row) is in the rectangle. -/
def Rect.Mem (r : Rect) (i j : ℕ) : Prop := r.x ≤ i ∧ i < r.x + r.w ∧ r.y ≤ j ∧ j < r.y + r.h

instance (r : Rect) (i j : ℕ) : Decidable (r.Mem i j) := by unfold Rect.Mem; infer_instance

/-- The rectangle lies in `W × H` cells. -/
def Rect.Inside (r : Rect) (W H : ℕ) : Prop := r.x + r.w ≤ W ∧ r.y + r.h ≤ H

/-- The rectangles cover `W × H` cells. -/
def Covers (rs : List Rect) (W H : ℕ) : Prop := ∀ i < W, ∀ j < H, ∃ r ∈ rs, r.Mem i j

/-- Rectangles drawn with their edges at the scaled edges cover the target
when they cover the source. -/
theorem covers_of_edges {W H sw sh : ℕ} (hW : 0 < W) (hH : 0 < H) {rs : List Rect}
    (draw : Rect → Rect)
    (hdraw : ∀ r ∈ rs, (draw r).x = scale W sw r.x ∧
      (draw r).x + (draw r).w = scale W sw (r.x + r.w) ∧
      (draw r).y = scale H sh r.y ∧ (draw r).y + (draw r).h = scale H sh (r.y + r.h))
    (hc : Covers rs W H) : Covers (rs.map draw) sw sh := by
  intro i hi j hj
  obtain ⟨c, hcW, hci⟩ := exists_cell hW hi
  obtain ⟨d, hdH, hdj⟩ := exists_cell hH hj
  obtain ⟨r, hr, h1, h2, h3, h4⟩ := hc c hcW d hdH
  obtain ⟨e1, e2, e3, e4⟩ := hdraw r hr
  obtain ⟨a1, a2⟩ := between_edges h1 h2 hci
  obtain ⟨b1, b2⟩ := between_edges h3 h4 hdj
  refine ⟨draw r, List.mem_map_of_mem hr, ?_⟩
  exact ⟨e1 ▸ a1, e2 ▸ a2, e3 ▸ b1, e4 ▸ b2⟩

end Scaling
