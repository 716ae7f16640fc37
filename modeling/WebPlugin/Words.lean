/-
# Machine words

A C `int` is an integer, an unsigned word a natural number; a conversion to a
word type is a reduction modulo its size. `u32` is the conversion to
`uint32_t` (and to `size_t` on a 32-bit target), `u64` to `uint64_t`, `i32` to
`int`. Signed arithmetic that overflows wraps.
-/
import Mathlib

namespace Words

/-- Conversion to a 32-bit unsigned word. -/
def u32 (z : ℤ) : ℕ := (z % 4294967296).toNat

/-- Conversion to a 64-bit unsigned word. -/
def u64 (z : ℤ) : ℕ := (z % 18446744073709551616).toNat

/-- Conversion to a 32-bit signed word. -/
def i32 (z : ℤ) : ℤ := (z + 2147483648) % 4294967296 - 2147483648

theorem u32_lt (z : ℤ) : u32 z < 4294967296 := by
  unfold u32
  omega

/-- A word in range converts to itself. -/
theorem u32_of_range {z : ℤ} (h0 : 0 ≤ z) (h1 : z < 4294967296) : (u32 z : ℤ) = z := by
  unfold u32
  omega

theorem u32_toNat {z : ℤ} (h0 : 0 ≤ z) (h1 : z < 4294967296) : u32 z = z.toNat := by
  unfold u32
  omega

theorem u64_of_range {z : ℤ} (h0 : 0 ≤ z) (h1 : z < 18446744073709551616) : (u64 z : ℤ) = z := by
  unfold u64
  omega

theorem i32_lt (z : ℤ) : i32 z < 2147483648 := by
  unfold i32
  omega

theorem i32_of_range {z : ℤ} (h0 : -2147483648 ≤ z) (h1 : z < 2147483648) : i32 z = z := by
  unfold i32
  omega

-- Conversions are reasoned about by the lemmas above, never by evaluation.
attribute [irreducible] u32 u64 i32

end Words
