/-
# A rescaler in the middle of its rows

Where several rescalers work on one picture, one of them may be left with rows
pending while the others wait for lines. `Midway` says what such a rescaler has
done: with the rows it still has pending, it has given just what feeding its lines
one by one gives. How many lines that are is a matter of the two heights only
(`level_eq`).
-/
import WebPlugin.EmitFacts

namespace WebPlugin

open Memory Words Pacing

namespace WebPRescaler

variable {wrk₀ wrk wrk' : WebPRescaler} {lines : ℕ → ℕ → ℕ} {rows : List (ℕ → UInt8)}

/-! ### Levels -/

theorem yPace_eq (hs : wrk.Shaped) : yPace hs = Pace.resize wrk.srcHeight wrk.dstHeight hs.srcHeight hs.dstHeight := by
  have hsrc := hs.srcHeight
  have hdst := hs.dstHeight
  unfold yPace Pace.resize
  by_cases he : wrk.yExpand = true
  · obtain ⟨hlt, hadd, hsub⟩ := hs.expandY he
    simp only [if_pos he, if_pos hlt, hadd, hsub, Pace.mk.injEq, and_true]
    omega
  · obtain ⟨hle, hadd, hsub⟩ := hs.shrinkY (by simpa using he)
    simp only [if_neg he, if_neg (not_lt.mpr hle), hadd, hsub]

/-- Rescalers of the same heights are at the same level after the same counts. -/
theorem Steady.level_of (h : Steady wrk) (hs : wrk₀.Shaped) (hsame : SameRun wrk₀ wrk) (i o : ℤ) :
    (yPace h.shaped).level i o = (yPace hs).level i o := by
  rw [yPace_eq, yPace_eq]
  simp only [Pace.level, Pace.resize, hsame.srcHeight, hsame.dstHeight]

/-! ### Midway -/

/-- What a rescaler that started as `wrk₀` has done with the lines of a plane: it has
given `rows`, and what is pending is the rest of what the lines give. -/
structure Midway (wrk₀ wrk : WebPRescaler) (lines : ℕ → ℕ → ℕ) (rows : List (ℕ → UInt8)) : Prop where
  steady : Steady wrk
  same : SameRun wrk₀ wrk
  start : Idle wrk₀ ∧ wrk₀.srcY = 0 ∧ wrk₀.dstStride = 0
  dst : wrk.dst = wrk₀.dst
  dstY : wrk.dstY = rows.length
  rest : wrk₀.feedAll ((List.range wrk.srcY).map lines) = (wrk.drain.1, rows ++ wrk.drain.2)

namespace Midway

theorem fresh (h : Idle wrk₀) (hsrc : wrk₀.srcY = 0) (hdst : wrk₀.dstY = 0) (hstride : wrk₀.dstStride = 0) :
    Midway wrk₀ wrk₀ lines [] := by
  refine ⟨h.steady, .refl wrk₀, ⟨h, hsrc, hstride⟩, rfl, hdst, ?_⟩
  rw [hsrc, drain_of_not h.quiet]
  rfl

/-- A pending row is given. -/
theorem give (h : Midway wrk₀ wrk lines rows) (hp : webPRescalerHasPendingOutput wrk = true) :
    Midway wrk₀ wrk.rowOut lines (rows ++ [wrk.exported]) := by
  refine ⟨h.steady.rowOut hp, h.same.trans ⟨rfl, rfl, rfl, rfl, rfl, rfl⟩, h.start, ?_, ?_, ?_⟩
  · change wrk.dst + wrk.dstStride = wrk₀.dst
    rw [h.same.dstStride, h.start.2.2, add_zero, h.dst]
  · change wrk.dstY + 1 = _
    rw [h.dstY, List.length_append, List.length_singleton]
  · have hrest := h.rest
    rw [drain_of_pending hp] at hrest
    rw [List.append_assoc]
    exact hrest

theorem shaped (h : Midway wrk₀ wrk lines rows) : wrk₀.Shaped := h.start.1.steady.shaped

theorem level (h : Midway wrk₀ wrk lines rows) : wrk.yAccum = (yPace h.shaped).level wrk.srcY rows.length := by
  rw [h.steady.level, h.steady.level_of h.shaped h.same, h.dstY]

theorem pending_iff (h : Midway wrk₀ wrk lines rows) : webPRescalerHasPendingOutput wrk = true ↔
    rows.length < wrk₀.dstHeight ∧ (yPace h.shaped).level wrk.srcY rows.length ≤ 0 := by
  rw [WebPRescaler.pending_iff, h.level, h.dstY, h.same.dstHeight]

/-- The last line was wanted. -/
theorem wanted (h : Midway wrk₀ wrk lines rows) (hpos : 0 < wrk.srcY) :
    0 < (yPace h.shaped).level (wrk.srcY - 1) rows.length := by
  have htaken := h.steady.due.taken (by exact_mod_cast hpos)
  rwa [h.steady.level_of h.shaped h.same, h.dstY] at htaken

/-- With all its lines in, and every row given. -/
theorem all (h : Midway wrk₀ wrk lines rows) (hsrc : wrk.srcY = wrk.srcHeight) (hdst : wrk.dstY = wrk.dstHeight) :
    rows = (wrk₀.feedAll ((List.range wrk₀.srcHeight).map lines)).2 := by
  have hq : webPRescalerHasPendingOutput wrk = false := by
    rw [← Bool.not_eq_true, WebPRescaler.pending_iff]
    omega
  have hrest := h.rest
  rw [drain_of_not hq, hsrc, h.same.srcHeight, List.append_nil] at hrest
  rw [hrest]

end Midway

/-- What an import call has taken: nothing where a row is pending, else the lines up
to the first pending row, or all. -/
structure Took (wrk wrk' : WebPRescaler) (n k : ℕ) : Prop where
  le : k ≤ n
  srcY : wrk'.srcY = wrk.srcY + k
  dstY : wrk'.dstY = wrk.dstY
  stopped : k = n ∨ webPRescalerHasPendingOutput wrk' = true
  idle : webPRescalerHasPendingOutput wrk = true → k = 0
  needed : webPRescalerHasPendingOutput wrk = false → 0 < n → (k : ℤ) = webPRescaleNeededLines wrk n ∧ 0 < k

/-- **Lines are imported** in front of the pending rows only. -/
theorem Midway.importLines (h : Midway wrk₀ wrk lines rows) (mem : Buf) (src : ℤ) (srcStride n : ℕ)
    (hn : wrk.srcY + n ≤ wrk.srcHeight)
    (hread : ∀ j < n, ∀ x < wrk.srcWidth * wrk.numChannels,
      sourceRow mem (src + j * srcStride) x = lines (wrk.srcY + j) x) :
    ∃ wrk' k, webPRescalerImport wrk mem n src srcStride = some (wrk', k) ∧ Midway wrk₀ wrk' lines rows ∧
      Took wrk wrk' n k := by
  by_cases hp : webPRescalerHasPendingOutput wrk = true
  · have himp : webPRescalerImport wrk mem n src srcStride = some (wrk, 0) := by
      cases n with
      | zero => rfl
      | succ n => rw [webPRescalerImport, if_pos hp]
    exact ⟨wrk, 0, himp, h, Nat.zero_le _, rfl, rfl, .inr hp, fun _ => rfl, fun hq => by rw [hp] at hq; cases hq⟩
  · have hq : webPRescalerHasPendingOutput wrk = false := by simpa using hp
    have hidle : Idle wrk := ⟨h.steady, hq⟩
    obtain ⟨wrk', k, himp, hdone⟩ := hidle.importLines mem src srcStride n hn
    refine ⟨wrk', k, himp,
      ⟨hdone.steady, h.same.trans hdone.same, h.start, hdone.dst.trans h.dst, hdone.dstY.trans h.dstY,
      ?_⟩, hdone.le, hdone.srcY, hdone.dstY, hdone.stopped, fun hyes => absurd hyes hp, fun _ => hdone.needed⟩
    have hrest := h.rest
    rw [drain_of_not hq, List.append_nil] at hrest
    have hfeed : wrk.feedAll (linesAt mem src srcStride k) =
        wrk.feedAll ((List.range k).map (lines ∘ fun j => wrk.srcY + j)) := by
      refine hidle.feedAll_congr rfl ?_ (by rw [length_linesAt]; have := hdone.le; omega)
      unfold linesAt
      rw [List.forall₂_map_left_iff, List.forall₂_map_right_iff, List.forall₂_same]
      intro j hj x hx
      have := List.mem_range.mp hj
      have := hdone.le
      exact hread j (by omega) x hx
    rw [hdone.srcY, List.range_add, List.map_append, feedAll_append, hrest, List.map_map]
    dsimp only
    rw [← hfeed, hdone.fed]

end WebPRescaler

end WebPlugin
