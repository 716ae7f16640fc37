/-
# Rounding to nearest

`IsNearest d v n`: no integer is closer to `v / d` than `n`. For a byte blend
the division by 255 is replaced by an add and a shift; `addShift v` is
`(v + 128 + (v >> 8)) >> 8`. It is the nearest integer to `v / 255` except
where the remainder is exactly 128 and the quotient is past 128, where it is
one too small (`addShift_nearest_iff`).
-/
import WebPlugin.Words

namespace Rounding

/-- `n` is an integer nearest to `v / d`. -/
def IsNearest (d v n : ℤ) : Prop := ∀ m : ℤ, |v - n * d| ≤ |v - m * d|

/-- Nearest means at most half a divisor away. -/
theorem isNearest_iff {d : ℤ} (hd : 0 < d) (v n : ℤ) : IsNearest d v n ↔ 2 * |v - n * d| ≤ d := by
  set e := v - n * d with he
  have shift : ∀ m : ℤ, v - m * d = e + (n - m) * d := fun m => by rw [he]; ring
  constructor
  · intro h
    have e1 : v - (n + 1) * d = e - d := by rw [he]; ring
    have e2 : v - (n - 1) * d = e + d := by rw [he]; ring
    have h1 : |e| ≤ |e - d| := e1 ▸ h (n + 1)
    have h2 : |e| ≤ |e + d| := e2 ▸ h (n - 1)
    grind
  · intro h m
    rw [shift m, ← he]
    rcases lt_trichotomy (n - m) 0 with hk | hk | hk
    · have : (n - m) * d ≤ -d := by nlinarith
      grind
    · simp [hk]
    · have : d ≤ (n - m) * d := by nlinarith
      grind

/-- The add-and-shift division by 255. -/
def addShift (v : ℕ) : ℕ := (v + 128 + (v >>> 8)) >>> 8

theorem addShift_eq (v : ℕ) : addShift v = (v + 128 + v / 256) / 256 := by
  simp [addShift, Nat.shiftRight_eq_div_pow]

/-- A blend of two bytes divided by 255 is a byte. -/
theorem addShift_lt {v : ℕ} (h : v ≤ 65025) : addShift v < 256 := by
  rw [addShift_eq]
  omega

/-- Quotient and remainder decide the result: it is the quotient, or one more
from remainder 129 on, and at remainder 128 only for quotients up to 128. -/
theorem addShift_cases {v : ℕ} (h : v ≤ 65025) :
    (addShift v = v / 255 ∧ (v % 255 < 128 ∨ v % 255 = 128 ∧ 129 ≤ v / 255)) ∨
    (addShift v = v / 255 + 1 ∧ (128 < v % 255 ∨ v % 255 = 128 ∧ v / 255 < 129)) := by
  rw [addShift_eq]
  omega

/-- Where the add-and-shift rounds to nearest. -/
theorem addShift_nearest_iff {v : ℕ} (h : v ≤ 65025) :
    IsNearest 255 v (addShift v) ↔ ¬ (v % 255 = 128 ∧ 129 ≤ v / 255) := by
  rw [isNearest_iff (by norm_num)]
  have hv : (v : ℤ) = 255 * (v / 255 : ℕ) + (v % 255 : ℕ) := by omega
  have hr : v % 255 < 255 := Nat.mod_lt _ (by norm_num)
  rcases addShift_cases h with ⟨e, hc⟩ | ⟨e, hc⟩ <;> rw [e] <;> push_cast <;> grind

example : addShift 33023 = 129 ∧ 33023 / 255 = 129 ∧ 33023 % 255 = 128 := by decide

end Rounding
