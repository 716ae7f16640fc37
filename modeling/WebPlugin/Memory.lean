/-
# Blocks of memory

A `Buf` is a block of bytes of a 32-bit address space; an address is an offset
from the block's first byte and may lie outside. Blocks are written row by row
(`writeRows`: `count` rows of `width` bytes, `stride` apart, the stride of
either sign), or as little-endian words (`store32`). A write outside the block
does not change it; `Rows.Inside` says that no such write occurs.
-/
import WebPlugin.Words

namespace Memory

/-- A block of `size` bytes. -/
structure Buf where
  size : ℕ
  byte : ℕ → UInt8
  fits : size < 4294967296

namespace Buf

/-- Address `i` is in the block. -/
def Has (b : Buf) (i : ℤ) : Prop := 0 ≤ i ∧ i < b.size

instance (b : Buf) (i : ℤ) : Decidable (b.Has i) := by unfold Has; infer_instance

/-- The two blocks hold the same bytes. -/
def Same (b c : Buf) : Prop := b.size = c.size ∧ ∀ i < b.size, b.byte i = c.byte i

/-- The byte at an address. -/
def get (b : Buf) (i : ℤ) : UInt8 := b.byte i.toNat

/-- Write `width` bytes from `base` on. -/
def writeRow (b : Buf) (base : ℤ) (width : ℕ) (f : ℕ → UInt8) : Buf :=
  { b with byte := fun k =>
      if base ≤ k ∧ (k : ℤ) < base + width ∧ k < b.size then f (k - base).toNat else b.byte k }

@[simp] theorem writeRow_size (b : Buf) (base : ℤ) (width : ℕ) (f : ℕ → UInt8) :
    (b.writeRow base width f).size = b.size := rfl

theorem writeRow_out {b : Buf} {base : ℤ} {width : ℕ} {f : ℕ → UInt8} {k : ℕ}
    (h : ¬ (base ≤ k ∧ (k : ℤ) < base + width)) : (b.writeRow base width f).byte k = b.byte k := by
  simp only [writeRow]
  rw [if_neg fun h' => h ⟨h'.1, h'.2.1⟩]

theorem writeRow_in {b : Buf} {base : ℤ} {width : ℕ} {f : ℕ → UInt8} {k c : ℕ}
    (hc : c < width) (hk : (k : ℤ) = base + c) (hb : k < b.size) :
    (b.writeRow base width f).byte k = f c := by
  simp only [writeRow]
  rw [if_pos ⟨by omega, by omega, hb⟩]
  congr
  omega

theorem eq_of_bytes {b c : Buf} (hs : b.size = c.size) (h : ∀ k, b.byte k = c.byte k) : b = c := by
  cases b
  cases c
  simp only [mk.injEq]
  exact ⟨hs, funext h⟩

theorem writeRow_beyond {b : Buf} {base : ℤ} {n : ℕ} {f : ℕ → UInt8} {k : ℕ} (h : b.size ≤ k) :
    (b.writeRow base n f).byte k = b.byte k := by
  simp only [writeRow]
  rw [if_neg fun h' => absurd h'.2.2 h.not_gt]

/-- Nothing written. -/
theorem writeRow_zero (b : Buf) (base : ℤ) (f : ℕ → UInt8) : b.writeRow base 0 f = b :=
  eq_of_bytes rfl fun _ => writeRow_out (by omega)

/-- Two rows written one behind the other are one row. -/
theorem writeRow_append (b : Buf) (base : ℤ) (n m : ℕ) (f : ℕ → UInt8) :
    (b.writeRow base n f).writeRow (base + n) m (fun c => f (n + c)) = b.writeRow base (n + m) f := by
  refine eq_of_bytes rfl fun k => ?_
  by_cases hk : k < b.size
  · by_cases h2 : base + n ≤ k ∧ (k : ℤ) < base + n + m
    · have h3 : ((k - base).toNat - n : ℕ) < m := by omega
      rw [writeRow_in h3 (by omega) (by simpa using hk),
        writeRow_in (show (k - base).toNat < n + m by omega) (by omega) hk]
      congr 1
      omega
    · rw [writeRow_out h2]
      by_cases h1 : base ≤ k ∧ (k : ℤ) < base + n
      · rw [writeRow_in (show (k - base).toNat < n by omega) (by omega) hk,
          writeRow_in (show (k - base).toNat < n + m by omega) (by omega) hk]
      · rw [writeRow_out h1, writeRow_out (by omega)]
  · rw [writeRow_beyond (by simpa using hk), writeRow_beyond (not_lt.mp hk), writeRow_beyond (not_lt.mp hk)]

theorem writeRow_congr {b : Buf} {base : ℤ} {n : ℕ} {f g : ℕ → UInt8} (h : ∀ c < n, f c = g c) :
    b.writeRow base n f = b.writeRow base n g := by
  refine eq_of_bytes rfl fun k => ?_
  simp only [writeRow]
  split_ifs with hk
  · exact h _ (by omega)
  · rfl

theorem Same.writeRow {b c : Buf} (h : b.Same c) (base : ℤ) (n : ℕ) (f : ℕ → UInt8) :
    (b.writeRow base n f).Same (c.writeRow base n f) := by
  refine ⟨h.1, fun k hk => ?_⟩
  simp only [Buf.writeRow, ← h.1, h.2 k hk]

/-- Blocks filled with the same bytes. -/
theorem same_of_filled {b c : Buf} (hs : b.size = c.size) {f g : ℕ → UInt8} (h : ∀ i < b.size, f i = g i) :
    (b.writeRow 0 b.size f).Same (c.writeRow 0 c.size g) := by
  refine ⟨hs, fun k hk => ?_⟩
  rw [writeRow_size] at hk
  rw [writeRow_in hk (by simp) hk, writeRow_in (hs ▸ hk) (by simp) (hs ▸ hk)]
  exact h k hk

end Buf

/-! ### Rows -/

/-- Rows of bytes: where the first starts, how far apart they are, their
length and their number. -/
structure Rows where
  base : ℤ
  stride : ℤ
  width : ℕ
  count : ℕ
  deriving DecidableEq, Repr

namespace Rows

/-- Row `j` starts here. -/
def start (r : Rows) (j : ℕ) : ℤ := r.base + j * r.stride

/-- Address `i` is in row `j`. -/
def Mem (r : Rows) (j : ℕ) (i : ℤ) : Prop := r.start j ≤ i ∧ i < r.start j + r.width

/-- Every row lies in a block of `n` bytes. -/
def Inside (r : Rows) (n : ℕ) : Prop :=
  ∀ j < r.count, r.width = 0 ∨ (0 ≤ r.start j ∧ r.start j + r.width ≤ n)

instance (r : Rows) (n : ℕ) : Decidable (r.Inside n) := by unfold Inside; infer_instance

/-- Rows no longer than their distance do not overlap. -/
theorem mem_unique {r : Rows} (hw : (r.width : ℤ) ≤ |r.stride|) {j k : ℕ} {i : ℤ}
    (hj : r.Mem j i) (hk : r.Mem k i) : j = k := by
  by_contra hne
  have hjk : (1 : ℤ) ≤ |(j : ℤ) - k| := Int.one_le_abs (sub_ne_zero.mpr (by exact_mod_cast hne))
  have h1 : |r.start j - r.start k| = |(j : ℤ) - k| * |r.stride| := by
    rw [← abs_mul]
    congr 1
    simp only [start]
    ring
  have h2 : |r.start j - r.start k| < r.width := by
    obtain ⟨a1, a2⟩ := hj
    obtain ⟨b1, b2⟩ := hk
    rw [abs_lt]
    omega
  nlinarith [abs_nonneg r.stride]

end Rows

/-- Write rows: byte `c` of row `j` becomes `f j c`. -/
def Buf.writeRows (b : Buf) (r : Rows) (f : ℕ → ℕ → UInt8) : Buf :=
  go r.count
where
  go : ℕ → Buf
    | 0 => b
    | n + 1 => (go n).writeRow (r.start n) r.width (f n)

namespace Buf

theorem go_size (b : Buf) (r : Rows) (f : ℕ → ℕ → UInt8) :
    ∀ n, (writeRows.go b r f n).size = b.size
  | 0 => rfl
  | n + 1 => by simp [writeRows.go, go_size b r f n]

@[simp] theorem writeRows_size (b : Buf) (r : Rows) (f : ℕ → ℕ → UInt8) :
    (b.writeRows r f).size = b.size := go_size b r f r.count

theorem go_out {b : Buf} {r : Rows} {f : ℕ → ℕ → UInt8} {k : ℕ} :
    ∀ n, (∀ j < n, ¬ r.Mem j k) → (writeRows.go b r f n).byte k = b.byte k
  | 0, _ => rfl
  | n + 1, h => by
    rw [writeRows.go, writeRow_out (h n (by omega)), go_out n fun j hj => h j (by omega)]

/-- A byte outside every row is unchanged. -/
theorem writeRows_out {b : Buf} {r : Rows} {f : ℕ → ℕ → UInt8} {k : ℕ}
    (h : ∀ j < r.count, ¬ r.Mem j k) : (b.writeRows r f).byte k = b.byte k := go_out r.count h

theorem go_in {b : Buf} {r : Rows} {f : ℕ → ℕ → UInt8} (hw : (r.width : ℤ) ≤ |r.stride|)
    {j c k : ℕ} (hc : c < r.width) (hk : (k : ℤ) = r.start j + c) (hb : k < b.size) :
    ∀ n, j < n → (writeRows.go b r f n).byte k = f j c
  | 0, h => absurd h (Nat.not_lt_zero _)
  | n + 1, h => by
    have hmem : r.Mem j k := ⟨by omega, by omega⟩
    rw [writeRows.go]
    by_cases hjn : j = n
    · subst hjn
      exact writeRow_in hc hk (by rwa [go_size])
    · rw [writeRow_out fun hm => hjn (Rows.mem_unique hw hmem hm)]
      exact go_in hw hc hk hb n (by omega)

/-- Byte `c` of row `j` holds what was written there. -/
theorem writeRows_in {b : Buf} {r : Rows} {f : ℕ → ℕ → UInt8} (hw : (r.width : ℤ) ≤ |r.stride|)
    {j c k : ℕ} (hj : j < r.count) (hc : c < r.width) (hk : (k : ℤ) = r.start j + c)
    (hb : k < b.size) : (b.writeRows r f).byte k = f j c := go_in hw hc hk hb r.count hj

theorem go_congr {b : Buf} {r : Rows} {f g : ℕ → ℕ → UInt8} :
    ∀ n, (∀ j < n, ∀ c < r.width, f j c = g j c) → writeRows.go b r f n = writeRows.go b r g n
  | 0, _ => rfl
  | n + 1, h => by
    rw [writeRows.go, writeRows.go, go_congr n fun j hj => h j (by omega)]
    exact writeRow_congr (h n (by omega))

theorem writeRows_congr {b : Buf} {r : Rows} {f g : ℕ → ℕ → UInt8}
    (h : ∀ j < r.count, ∀ c < r.width, f j c = g j c) : b.writeRows r f = b.writeRows r g :=
  go_congr r.count h

theorem Same.go {b c : Buf} (h : b.Same c) (r : Rows) (f : ℕ → ℕ → UInt8) :
    ∀ n, (writeRows.go b r f n).Same (writeRows.go c r f n)
  | 0 => h
  | n + 1 => (Same.go h r f n).writeRow _ _ _

theorem Same.writeRows {b c : Buf} (h : b.Same c) (r : Rows) (f : ℕ → ℕ → UInt8) :
    (b.writeRows r f).Same (c.writeRows r f) := h.go r f r.count

/-- Write some bytes, wherever `f` gives one. -/
def overlay (b : Buf) (f : ℕ → Option UInt8) : Buf :=
  { b with byte := fun k => if k < b.size then (f k).getD (b.byte k) else b.byte k }

@[simp] theorem overlay_size (b : Buf) (f : ℕ → Option UInt8) : (b.overlay f).size = b.size := rfl

/-! ### Words in memory -/

/-- The little-endian word at offset `i`. -/
def load32 (b : Buf) (i : ℕ) : ℕ :=
  (b.byte i).toNat + (b.byte (i + 1)).toNat * 256 + (b.byte (i + 2)).toNat * 65536 +
    (b.byte (i + 3)).toNat * 16777216

/-- Byte `k` of a word. -/
def byteOf (v k : ℕ) : UInt8 := UInt8.ofNat (v / 256 ^ k)

/-- Store a word at offset `i`, least significant byte first. -/
def store32 (b : Buf) (i v : ℕ) : Buf :=
  b.writeRow i 4 (byteOf v)

@[simp] theorem store32_size (b : Buf) (i v : ℕ) : (b.store32 i v).size = b.size := rfl

theorem load32_lt (b : Buf) (i : ℕ) : b.load32 i < 4294967296 := by
  have h := fun k => UInt8.toNat_lt (b.byte k)
  have h0 := h i
  have h1 := h (i + 1)
  have h2 := h (i + 2)
  have h3 := h (i + 3)
  unfold load32
  omega

theorem load32_congr {b c : Buf} {i : ℕ} (h : ∀ k, i ≤ k → k < i + 4 → b.byte k = c.byte k) :
    b.load32 i = c.load32 i := by
  simp only [load32, h i (by omega) (by omega), h (i + 1) (by omega) (by omega),
    h (i + 2) (by omega) (by omega), h (i + 3) (by omega) (by omega)]

theorem Same.load32 {b c : Buf} (h : b.Same c) {i : ℕ} (hi : i + 4 ≤ b.size) : b.load32 i = c.load32 i :=
  load32_congr fun k _ hk => h.2 k (by omega)

theorem load32_store32 {b : Buf} {i v : ℕ} (hv : v < 4294967296) (hi : i + 4 ≤ b.size) :
    (b.store32 i v).load32 i = v := by
  have h : ∀ c < 4, (b.store32 i v).byte (i + c) = byteOf v c := fun c hc =>
    writeRow_in hc (by push_cast; ring) (by omega)
  have h0 := h 0 (by norm_num)
  rw [Nat.add_zero] at h0
  simp only [load32, h0, h 1 (by norm_num), h 2 (by norm_num), h 3 (by norm_num), byteOf,
    UInt8.toNat_ofNat']
  omega

/-- A store elsewhere leaves the word. -/
theorem load32_store32_of_ne {b : Buf} {i k v : ℕ} (h : k + 4 ≤ i ∨ i + 4 ≤ k) :
    (b.store32 i v).load32 k = b.load32 k := by
  refine load32_congr fun a h1 h2 => writeRow_out ?_
  omega

end Buf

end Memory
