/-
# Inputs and outputs at two rates

A resampler turns `ins` inputs into `outs` outputs. Output `o` wants
`first + o * add` units, input after input brings `sub` of them, and `level i o`
is what output `o` still wants after `i` inputs. An input is taken while the
level is positive, an output given once it is not. `Due p i o` are the counts a
run reaches so: each output given was ready, each input taken was wanted. Since
the last output wants exactly what all the inputs bring (`total`), a run never
asks for an input that is not there and ends with all of both.
-/
import WebPlugin.Words

namespace Pacing

/-- The rates of a resampler. -/
structure Pace where
  first : ℤ
  add : ℤ
  sub : ℤ
  ins : ℤ
  outs : ℤ
  sub_pos : 0 < sub
  add_nonneg : 0 ≤ add
  outs_pos : 0 < outs
  total : first + (outs - 1) * add = ins * sub

namespace Pace

/-- What output `o` still wants after `i` inputs. -/
def level (p : Pace) (i o : ℤ) : ℤ := p.first + o * p.add - i * p.sub

variable {p : Pace} {i j o : ℤ}

theorem level_take (p : Pace) (i o : ℤ) : p.level (i + 1) o = p.level i o - p.sub := by
  unfold level
  ring

theorem level_give (p : Pace) (i o : ℤ) : p.level i (o + 1) = p.level i o + p.add := by
  unfold level
  ring

/-- The last output is met by the inputs, exactly. -/
theorem level_last (p : Pace) : p.level p.ins (p.outs - 1) = 0 := by
  have h := p.total
  unfold level
  linarith

/-- Later outputs want no less. -/
theorem level_mono (p : Pace) (i : ℤ) {o o' : ℤ} (h : o ≤ o') : p.level i o ≤ p.level i o' := by
  unfold level
  nlinarith [p.add_nonneg]

/-- More inputs leave less to want. -/
theorem level_anti (p : Pace) (o : ℤ) (h : i ≤ j) : p.level j o ≤ p.level i o := by
  unfold level
  nlinarith [p.sub_pos]

/-- With all the inputs there, every output is ready. -/
theorem ready_of_all (p : Pace) (h : o < p.outs) : p.level p.ins o ≤ 0 :=
  calc p.level p.ins o ≤ p.level p.ins (p.outs - 1) := p.level_mono _ (by omega)
    _ = 0 := p.level_last

/-- An output that is not ready wants an input that is there. -/
theorem lt_ins (h : 0 < p.level i o) (ho : o < p.outs) : i < p.ins := by
  by_contra hi
  have h1 := p.level_anti o (not_lt.mp hi)
  have h2 := p.ready_of_all ho
  linarith

/-- The last output is ready with the last input only. -/
theorem ins_le (h : p.level i (p.outs - 1) ≤ 0) : p.ins ≤ i := by
  by_contra hi
  have hnext := p.level_anti (p.outs - 1) (show i + 1 ≤ p.ins by omega)
  rw [level_take, level_last] at hnext
  linarith [p.sub_pos]

/-! ### The counts of a run -/

/-- `i` inputs taken and `o` outputs given. -/
structure Due (p : Pace) (i o : ℤ) : Prop where
  ins : 0 ≤ i ∧ i ≤ p.ins
  outs : 0 ≤ o ∧ o ≤ p.outs
  given : 0 < o → p.level i (o - 1) ≤ 0
  taken : 0 < i → 0 < p.level (i - 1) o

namespace Due

theorem start (h : 0 ≤ p.ins) : Due p 0 0 :=
  ⟨⟨le_refl _, h⟩, ⟨le_refl _, p.outs_pos.le⟩, fun h => absurd h (lt_irrefl _),
    fun h => absurd h (lt_irrefl _)⟩

/-- An input is taken for an output that is not ready. -/
theorem take (h : Due p i o) (ho : o < p.outs) (hl : 0 < p.level i o) : i < p.ins ∧ Due p (i + 1) o := by
  have hi := lt_ins hl ho
  have hs := p.sub_pos
  refine ⟨hi, ⟨by have := h.ins; omega, by omega⟩, h.outs, fun hpos => ?_, fun _ => ?_⟩
  · rw [level_take]
    linarith [h.given hpos]
  · rwa [add_sub_cancel_right]

/-- A ready output is given. -/
theorem give (h : Due p i o) (ho : o < p.outs) (hl : p.level i o ≤ 0) : Due p i (o + 1) := by
  refine ⟨h.ins, ⟨by have := h.outs; omega, by omega⟩, fun _ => by rwa [add_sub_cancel_right], fun hpos => ?_⟩
  rw [level_give]
  linarith [h.taken hpos, p.add_nonneg]

/-- All the outputs take all the inputs. -/
theorem all_taken (h : Due p i p.outs) : i = p.ins :=
  le_antisymm h.ins.2 (ins_le (h.given p.outs_pos))

end Due

/-! ### From lines to lines -/

/-- The rates of a resampler from `n` lines to `m`: between the lines when
there are more to give, over the lines when there are fewer. -/
def resize (n m : ℕ) (hn : 0 < n) (hm : 0 < m) : Pace where
  first := if n < m then m - 1 else n
  add := if n < m then n - 1 else n
  sub := if n < m then m - 1 else m
  ins := n
  outs := m
  sub_pos := by split_ifs <;> omega
  add_nonneg := by split_ifs <;> omega
  outs_pos := by omega
  total := by
    split_ifs
    · ring
    · ring

section
variable {n m : ℕ} {hn : 0 < n} {hm : 0 < m} {i o : ℤ}

theorem resize_expand (h : n < m) : (resize n m hn hm).level i o = (m - 1) + o * (n - 1) - i * (m - 1) := by
  simp only [level, resize, if_pos h]

theorem resize_shrink (h : m ≤ n) : (resize n m hn hm).level i o = (o + 1) * n - i * m := by
  simp only [level, resize, if_neg (not_lt.mpr h)]
  ring

/-- Half the lines, at most one further: they are ready when all of them are. -/
theorem resize_ahead {n₂ : ℕ} {hn₂ : 0 < n₂} (h₂ : (n₂ : ℤ) = (n + 1) / 2) (ho : 0 ≤ o) (ho' : o < m)
    (h : (resize n m hn hm).level i o ≤ 0) : (resize n₂ m hn₂ hm).level (i / 2 + 1) o ≤ 0 := by
  have hhalf : 2 * (n₂ : ℤ) ≤ n + 1 := by omega
  have hi : i ≤ 2 * (i / 2) + 1 := by omega
  generalize i / 2 = k at hi ⊢
  by_cases hx : n < m
  · rw [resize_expand hx] at h
    rw [resize_expand (by omega)]
    nlinarith
  · rw [resize_shrink (not_lt.mp hx)] at h
    by_cases hx₂ : n₂ < m
    · rw [resize_expand hx₂]
      have hm2 : (2 : ℤ) ≤ m := by omega
      have hkey : (m : ℤ) * ((i - 1) * (m - 1)) ≥ m * (o * (n - 1)) := by
        have h1 : 0 ≤ ((n : ℤ) - m) * (m - 1 - o) := mul_nonneg (by omega) (by omega)
        nlinarith
      have hkey' : o * ((n : ℤ) - 1) ≤ (i - 1) * (m - 1) := by
        exact le_of_mul_le_mul_left hkey (by omega)
      nlinarith
    · rw [resize_shrink (not_lt.mp hx₂)]
      nlinarith

/-- All the lines are ready when half of them are. -/
theorem resize_behind {n₂ : ℕ} {hn₂ : 0 < n₂} (h₂ : (n₂ : ℤ) = (n + 1) / 2) (ho : 0 ≤ o)
    (ho' : o < m) {k : ℤ} (h : (resize n₂ m hn₂ hm).level k o ≤ 0) :
    (resize n m hn hm).level (2 * k) o ≤ 0 := by
  have hhalf : (n : ℤ) ≤ 2 * n₂ := by omega
  by_cases hx : n < m
  · rw [resize_expand (by omega)] at h
    rw [resize_expand hx]
    nlinarith
  · rw [resize_shrink (not_lt.mp hx)]
    by_cases hx₂ : n₂ < m
    · rw [resize_expand hx₂] at h
      have hkey : (m - 1 : ℤ) * ((o + 1) * n₂) ≤ (m - 1) * (k * m) := by
        have h1 : 0 ≤ ((m : ℤ) - 1 - o) * (m - n₂) := mul_nonneg (by omega) (by omega)
        nlinarith
      have hkey' : (o + 1) * (n₂ : ℤ) ≤ k * m := le_of_mul_le_mul_left hkey (by omega)
      nlinarith
    · rw [resize_shrink (not_lt.mp hx₂)] at h
      nlinarith

end

end Pace

end Pacing
