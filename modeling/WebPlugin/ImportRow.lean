/-
# What a row import computes

`WebPRescalerImportRow` walks a source row once for each channel. However the
two walks are written, a row that is expanded is interpolated between
neighbouring pixels (`expanded`), and a row that is shrunk is summed over the
pixels of each output, less the part of the last one that belongs to the next
output, whose rounded share is carried over (`shrunk`). No `assert` of the walks
fails and no pixel outside the row is read: the import is the closed form
`imported` (`importRow_eq`).
-/
import WebPlugin.Rescaler

namespace WebPlugin

open Words

namespace WebPRescaler

/-- The sizes and the increments `WebPRescalerInit` derives from them. -/
structure Shaped (wrk : WebPRescaler) : Prop where
  numChannels : 0 < wrk.numChannels
  srcWidth : 0 < wrk.srcWidth
  srcHeight : 0 < wrk.srcHeight
  dstWidth : 0 < wrk.dstWidth
  dstHeight : 0 < wrk.dstHeight
  expandX : wrk.xExpand = true →
    wrk.srcWidth < wrk.dstWidth ∧ wrk.xAdd = wrk.dstWidth - 1 ∧ wrk.xSub = wrk.srcWidth - 1
  shrinkX : wrk.xExpand = false →
    wrk.dstWidth ≤ wrk.srcWidth ∧ wrk.xAdd = wrk.srcWidth ∧ wrk.xSub = wrk.dstWidth
  expandY : wrk.yExpand = true →
    wrk.srcHeight < wrk.dstHeight ∧ wrk.yAdd = wrk.srcHeight - 1 ∧ wrk.ySub = wrk.dstHeight - 1
  shrinkY : wrk.yExpand = false →
    wrk.dstHeight ≤ wrk.srcHeight ∧ wrk.yAdd = wrk.srcHeight ∧ wrk.ySub = wrk.dstHeight

variable {wrk : WebPRescaler} {row frow : ℕ → ℕ} {channel : ℕ}

/-- Pixel `i` of a channel. -/
def pixelAt (wrk : WebPRescaler) (row : ℕ → ℕ) (channel i : ℕ) : ℕ := row (channel + i * wrk.numChannels)

/-- Output `o` of an expanded row: at `o * x_sub / x_add`, between two pixels. -/
def expanded (wrk : WebPRescaler) (row : ℕ → ℕ) (channel o : ℕ) : ℕ :=
  let i := o * wrk.xSub / wrk.xAdd
  let r := o * wrk.xSub % wrk.xAdd
  u32 (wrk.pixelAt row channel i * (wrk.xAdd - r : ℤ) + wrk.pixelAt row channel (i + 1) * r)

/-- How many pixels the outputs before `o` take. -/
def takenBy (wrk : WebPRescaler) (o : ℕ) : ℕ := (o * wrk.xAdd + wrk.xSub - 1) / wrk.xSub

/-- How much of the last of them belongs to output `o`. -/
def overBy (wrk : WebPRescaler) (o : ℕ) : ℕ := wrk.takenBy o * wrk.xSub - o * wrk.xAdd

/-- The share of output `o` in the last pixel before it. -/
def sharedBy (wrk : WebPRescaler) (row : ℕ → ℕ) (channel o : ℕ) : ℕ :=
  u32 (wrk.pixelAt row channel (wrk.takenBy o - 1) * wrk.overBy o : ℕ)

/-- The sum of the pixels from `i` up to `j`. -/
def sumOf (wrk : WebPRescaler) (row : ℕ → ℕ) (channel i j : ℕ) : ℕ :=
  ∑ k ∈ Finset.Ico i j, wrk.pixelAt row channel k

/-- Output `o` of a shrunk row. -/
def shrunk (wrk : WebPRescaler) (row : ℕ → ℕ) (channel o : ℕ) : ℕ :=
  u32 ((multFix (wrk.sharedBy row channel o) wrk.fxScale +
    wrk.sumOf row channel (wrk.takenBy o) (wrk.takenBy (o + 1)) : ℕ) * wrk.xSub - wrk.sharedBy row channel (o + 1))

/-- Entry `x` of an imported row. -/
def imported (wrk : WebPRescaler) (row : ℕ → ℕ) (x : ℕ) : ℕ :=
  if wrk.xExpand then wrk.expanded row (x % wrk.numChannels) (x / wrk.numChannels)
  else wrk.shrunk row (x % wrk.numChannels) (x / wrk.numChannels)

/-! ### Writing one channel -/

/-- The outputs of a channel from `o` on. -/
def fill (wrk : WebPRescaler) (channel : ℕ) (g : ℕ → ℕ) (frow : ℕ → ℕ) (o : ℕ) : ℕ → ℕ := fun x =>
  if x < wrk.rowLength ∧ x % wrk.numChannels = channel ∧ o ≤ x / wrk.numChannels then g (x / wrk.numChannels)
  else frow x

theorem fill_last (hs : wrk.Shaped) (g : ℕ → ℕ) : wrk.fill channel g frow wrk.dstWidth = frow := by
  funext x
  unfold fill
  rw [if_neg]
  intro h
  have hlt := (Nat.div_lt_iff_lt_mul hs.numChannels).mpr h.1
  omega

theorem fill_step (hs : wrk.Shaped) (hc : channel < wrk.numChannels) (g : ℕ → ℕ) {o : ℕ}
    (ho : o < wrk.dstWidth) :
    wrk.fill channel g (Function.update frow (channel + o * wrk.numChannels) (g o)) (o + 1) =
      wrk.fill channel g frow o := by
  have hmod : (channel + o * wrk.numChannels) % wrk.numChannels = channel := by
    rw [Nat.add_mul_mod_self_right, Nat.mod_eq_of_lt hc]
  have hdiv : (channel + o * wrk.numChannels) / wrk.numChannels = o := by
    rw [Nat.add_mul_div_right _ _ hs.numChannels, Nat.div_eq_of_lt hc, zero_add]
  have hlen : channel + o * wrk.numChannels < wrk.rowLength := by
    unfold rowLength
    nlinarith
  funext x
  unfold fill
  by_cases hx : x = channel + o * wrk.numChannels
  · subst hx
    rw [hmod, hdiv, if_neg (by omega), if_pos ⟨hlen, rfl, le_refl _⟩, Function.update_self]
  · rw [Function.update_of_ne hx]
    by_cases hin : x < wrk.rowLength ∧ x % wrk.numChannels = channel ∧ o ≤ x / wrk.numChannels
    · have hne : x / wrk.numChannels ≠ o := fun heq => hx (by
        rw [← heq, ← hin.2.1]
        exact (Nat.mod_add_div' x wrk.numChannels).symm)
      rw [if_pos hin, if_pos ⟨hin.1, hin.2.1, by omega⟩]
    · rw [if_neg hin, if_neg fun h => hin ⟨h.1, h.2.1, by omega⟩]

/-! ### Expanding -/

/-- The loop of an expanded channel in front of output `o`: the pixels at hand
are `i` and `i + 1`, and `accum` is how far the output is from the second. -/
structure ExpandAt (wrk : WebPRescaler) (row : ℕ → ℕ) (channel i o : ℕ) (accum : ℤ) (left right : ℕ) :
    Prop where
  output : o < wrk.dstWidth
  behind : i * wrk.xAdd ≤ o * wrk.xSub
  accum_eq : accum = (i + 1) * wrk.xAdd - o * wrk.xSub
  ahead : 0 ≤ accum
  left_eq : left = wrk.pixelAt row channel i
  right_eq : right = wrk.pixelAt row channel (i + 1) ∧ i + 1 < wrk.srcWidth ∨ right = left ∧ wrk.xSub = 0

namespace ExpandAt

variable {i o : ℕ} {accum : ℤ} {left right : ℕ}

theorem start (hs : wrk.Shaped) (he : wrk.xExpand = true) :
    ExpandAt wrk row channel 0 0 wrk.xAdd (row channel)
      (if wrk.srcWidth > 1 then row (channel + wrk.numChannels) else row channel) := by
  obtain ⟨-, -, hsub⟩ := hs.expandX he
  refine ⟨hs.dstWidth, by simp, by simp, by simp, by simp [pixelAt], ?_⟩
  by_cases hone : wrk.srcWidth > 1
  · rw [if_pos hone]
    exact .inl ⟨by simp [pixelAt], by omega⟩
  · rw [if_neg hone]
    exact .inr ⟨rfl, by omega⟩

/-- The loop computes what `expanded` says. -/
theorem value (h : ExpandAt wrk row channel i o accum left right) (hadd : 0 < wrk.xAdd) :
    u32 (right * wrk.xAdd + (left - right) * accum) = wrk.expanded row channel o := by
  obtain ⟨r, hr⟩ := Nat.exists_eq_add_of_le h.behind
  have hrZ : (o * wrk.xSub : ℤ) = i * wrk.xAdd + r := by exact_mod_cast hr
  have haccum : accum = wrk.xAdd - r := by linarith [h.accum_eq]
  have hle : r ≤ wrk.xAdd := by have := h.ahead; omega
  rw [haccum, h.left_eq]
  unfold expanded
  rcases hle.eq_or_lt with hknot | hlt
  · -- On a pixel: it is the second one, and the division says so.
    have hdiv : o * wrk.xSub = (i + 1) * wrk.xAdd := by rw [hr, hknot]; ring
    have hmod : o * wrk.xSub % wrk.xAdd = 0 := by rw [hdiv, Nat.mul_mod_left]
    rcases h.right_eq with ⟨hright, -⟩ | ⟨-, hsub⟩
    · rw [hmod, hdiv, Nat.mul_div_cancel _ hadd, hknot, hright]
      congr 1
      push_cast
      ring
    · rw [hsub, mul_zero] at hdiv
      nlinarith
  · have hdiv : o * wrk.xSub / wrk.xAdd = i := by
      rw [hr, add_comm, Nat.add_mul_div_right _ _ hadd, Nat.div_eq_of_lt hlt, zero_add]
    have hmod : o * wrk.xSub % wrk.xAdd = r := by rw [hr, Nat.mul_add_mod_self_right, Nat.mod_eq_of_lt hlt]
    rw [hdiv, hmod]
    congr 1
    rcases h.right_eq with ⟨hright, -⟩ | ⟨hright, hsub⟩
    · rw [hright]
      ring
    · have hr0 : r = 0 := by rw [← hmod, hsub, mul_zero, Nat.zero_mod]
      rw [hr0, hright, h.left_eq]
      push_cast
      ring

/-- The whole row is covered: the last output lies on the last pixel. -/
theorem span (hs : wrk.Shaped) (he : wrk.xExpand = true) :
    ((wrk.dstWidth - 1 : ℤ)) * wrk.xSub = (wrk.srcWidth - 1) * wrk.xAdd := by
  obtain ⟨hw, hadd, hsub⟩ := hs.expandX he
  have hpos := hs.srcWidth
  rw [hadd, hsub, Nat.cast_sub (by omega), Nat.cast_sub (by omega)]
  push_cast
  ring

/-- After the last output nothing is left over. -/
theorem done (h : ExpandAt wrk row channel i o accum left right) (hs : wrk.Shaped) (he : wrk.xExpand = true)
    (ho : o + 1 = wrk.dstWidth) : wrk.xSub = 0 ∨ accum = 0 := by
  obtain ⟨hw, hadd, -⟩ := hs.expandX he
  have hspan := span hs he
  rcases h.right_eq with ⟨-, hlt⟩ | ⟨-, hsub⟩
  · right
    have hA : (0 : ℤ) < wrk.xAdd := by omega
    have ho' : (o : ℤ) = wrk.dstWidth - 1 := by omega
    have haccum := h.accum_eq
    rw [ho', hspan] at haccum
    have hi : (i : ℤ) + 2 ≤ wrk.srcWidth := by exact_mod_cast hlt
    have hahead := h.ahead
    nlinarith
  · exact .inl hsub

/-- The next output lies between the same pixels. -/
theorem stay (h : ExpandAt wrk row channel i o accum left right) (ho : o + 1 < wrk.dstWidth)
    (hneg : ¬ accum - wrk.xSub < 0) : ExpandAt wrk row channel i (o + 1) (accum - wrk.xSub) left right := by
  refine ⟨ho, h.behind.trans (Nat.mul_le_mul_right _ (by omega)), ?_, not_lt.mp hneg, h.left_eq, h.right_eq⟩
  rw [h.accum_eq]
  push_cast
  ring

/-- The next output lies behind the second pixel: there is one more to read. -/
theorem next (h : ExpandAt wrk row channel i o accum left right) (hs : wrk.Shaped) (he : wrk.xExpand = true)
    (ho : o + 1 < wrk.dstWidth) (hneg : accum - wrk.xSub < 0) :
    i + 2 < wrk.srcWidth ∧ ExpandAt wrk row channel (i + 1) (o + 1) (accum - wrk.xSub + wrk.xAdd) right
      (wrk.pixelAt row channel (i + 2)) := by
  obtain ⟨hw, hadd, hsub⟩ := hs.expandX he
  have hspan := span hs he
  have hahead := h.ahead
  rcases h.right_eq with ⟨hright, -⟩ | ⟨-, hsub0⟩
  · have haccum := h.accum_eq
    have hS : (0 : ℤ) < wrk.xSub := by linarith
    have hover : ((i : ℤ) + 1) * wrk.xAdd < (o + 1) * wrk.xSub := by linarith
    have hle : ((o : ℤ) + 1) * wrk.xSub ≤ (wrk.dstWidth - 1) * wrk.xSub := by
      apply mul_le_mul_of_nonneg_right _ hS.le
      omega
    rw [hspan] at hle
    have hlt : ((i : ℤ) + 1) < wrk.srcWidth - 1 := lt_of_mul_lt_mul_right (hover.trans_le hle) (by omega)
    have hlt' : i + 2 < wrk.srcWidth := by omega
    have hxs : (wrk.xSub : ℤ) ≤ wrk.xAdd := by omega
    refine ⟨hlt', ho, ?_, ?_, by linarith, hright, .inl ⟨rfl, hlt'⟩⟩
    · zify
      exact hover.le
    · rw [haccum]
      push_cast
      ring
  · rw [hsub0] at hneg
    push_cast at hneg
    linarith

end ExpandAt

/-- The loop of an expanded channel writes the outputs from `o` on. -/
theorem expandLoop_eq (hs : wrk.Shaped) (he : wrk.xExpand = true) (hc : channel < wrk.numChannels) :
    ∀ (n i o : ℕ) (accum : ℤ) (left right : ℕ) (frow : ℕ → ℕ), wrk.dstWidth ≤ o + n →
      ExpandAt wrk row channel i o accum left right →
      wrk.expandLoop row n (channel + (i + 1) * wrk.numChannels) (channel + o * wrk.numChannels) accum left right frow =
        some (wrk.fill channel (wrk.expanded row channel) frow o) := by
  obtain ⟨hw, hadd, -⟩ := hs.expandX he
  have hpos := hs.srcWidth
  intro n
  induction n with
  | zero =>
    intro i o accum left right frow hn hat
    have := hat.output
    omega
  | succ n ih =>
    intro i o accum left right frow hn hat
    have hnext : channel + o * wrk.numChannels + wrk.numChannels = channel + (o + 1) * wrk.numChannels := by ring
    have hend : channel + (o + 1) * wrk.numChannels ≥ wrk.rowLength ↔ wrk.dstWidth ≤ o + 1 := by
      unfold rowLength
      constructor
      · intro h
        by_contra hlt
        nlinarith [show o + 2 ≤ wrk.dstWidth by omega]
      · intro h
        nlinarith
    rw [expandLoop, hat.value (by omega), ← fill_step hs hc _ hat.output]
    dsimp only
    rw [hnext]
    by_cases ho : wrk.dstWidth ≤ o + 1
    · have ho' : o + 1 = wrk.dstWidth := le_antisymm hat.output ho
      rw [if_pos (hend.mpr ho), if_pos (hat.done hs he ho'), ho', fill_last hs]
    · rw [if_neg fun h => ho (hend.mp h)]
      by_cases hneg : accum - wrk.xSub < 0
      · obtain ⟨hlt, hat'⟩ := hat.next hs he (not_le.mp ho) hneg
        have hxIn : channel + (i + 1) * wrk.numChannels + wrk.numChannels =
            channel + (i + 1 + 1) * wrk.numChannels := by ring
        have hread : channel + (i + 1 + 1) * wrk.numChannels < wrk.srcWidth * wrk.numChannels := by
          nlinarith
        rw [if_pos hneg, hxIn, if_pos hread]
        exact ih (i + 1) (o + 1) _ _ _ _ (by omega) hat'
      · rw [if_neg hneg]
        exact ih i (o + 1) _ _ _ _ (by omega) (hat.stay (not_le.mp ho) hneg)

/-! ### Shrinking -/

theorem u32_cast (z : ℤ) : (u32 z : ℤ) = z % 4294967296 := by
  unfold u32
  omega

theorem u32_congr {y z : ℤ} (h : y ≡ z [ZMOD 4294967296]) : u32 y = u32 z := by
  zify
  rw [u32_cast, u32_cast]
  exact h

/-- Reducing before an addition changes nothing. -/
theorem u32_add_left (y z : ℤ) : u32 (u32 y + z) = u32 (y + z) := by
  apply u32_congr
  rw [u32_cast]
  exact (Int.mod_modEq y _).add_right z

/-- Reducing before a multiplication and a subtraction changes nothing. -/
theorem u32_mul_sub_left (x y z : ℤ) : u32 (u32 x * y - z) = u32 (x * y - z) := by
  apply u32_congr
  rw [u32_cast]
  exact ((Int.mod_modEq x _).mul_right y).sub_right z

/-- The pixels an output takes are those that begin before its end. -/
theorem lt_takenBy (hS : 0 < wrk.xSub) {k o : ℕ} : k < wrk.takenBy o ↔ k * wrk.xSub < o * wrk.xAdd := by
  unfold takenBy
  rw [Nat.lt_iff_add_one_le, Nat.le_div_iff_mul_le hS, add_mul]
  omega

theorem takenBy_mul_ge (hS : 0 < wrk.xSub) (o : ℕ) : o * wrk.xAdd ≤ wrk.takenBy o * wrk.xSub :=
  not_lt.mp fun h => lt_irrefl _ ((lt_takenBy hS).mpr h)

theorem takenBy_zero (hS : 0 < wrk.xSub) : wrk.takenBy 0 = 0 := by
  by_contra h
  have := (lt_takenBy hS).mp (Nat.pos_of_ne_zero h)
  omega

/-- Every output takes a pixel. -/
theorem takenBy_lt (hs : wrk.Shaped) (he : wrk.xExpand = false) (o : ℕ) : wrk.takenBy o < wrk.takenBy (o + 1) := by
  obtain ⟨hw, hadd, hsub⟩ := hs.shrinkX he
  have hpos := hs.dstWidth
  have hS : 0 < wrk.xSub := by omega
  rcases Nat.eq_zero_or_pos (wrk.takenBy o) with h0 | h0
  · rw [h0, lt_takenBy hS]
    nlinarith
  · have hlast := (lt_takenBy hS).mp (show wrk.takenBy o - 1 < wrk.takenBy o by omega)
    rw [lt_takenBy hS]
    have hmul : wrk.takenBy o * wrk.xSub = (wrk.takenBy o - 1) * wrk.xSub + wrk.xSub := by
      rw [← add_one_mul, Nat.sub_add_cancel (show 1 ≤ wrk.takenBy o from h0)]
    rw [hmul, add_mul]
    omega

/-- All the outputs take all the pixels. -/
theorem takenBy_last (hs : wrk.Shaped) (he : wrk.xExpand = false) : wrk.takenBy wrk.dstWidth = wrk.srcWidth := by
  obtain ⟨hw, hadd, hsub⟩ := hs.shrinkX he
  have hpos := hs.dstWidth
  have hS : 0 < wrk.xSub := by omega
  apply le_antisymm
  · by_contra h
    have := (lt_takenBy hS).mp (not_le.mp h)
    rw [hadd, hsub, mul_comm] at this
    omega
  · have := takenBy_mul_ge hS wrk.dstWidth
    rw [hadd, hsub, mul_comm] at this
    exact Nat.le_of_mul_le_mul_right this hpos

theorem takenBy_mono (hs : wrk.Shaped) (he : wrk.xExpand = false) : Monotone wrk.takenBy :=
  monotone_nat_of_le_succ fun o => (takenBy_lt hs he o).le

/-- The loop over the pixels of an output takes those up to `takenBy`. -/
theorem shrinkTake_eq (hs : wrk.Shaped) (he : wrk.xExpand = false) (hc : channel < wrk.numChannels) {o : ℕ}
    (ho : o ≤ wrk.dstWidth) : ∀ (n k : ℕ) (t : Taken), k < wrk.takenBy o → wrk.takenBy o ≤ k + n →
      t.xIn = channel + k * wrk.numChannels → t.accum = o * wrk.xAdd - k * wrk.xSub →
      wrk.shrinkTake row n t = some
        { xIn := channel + wrk.takenBy o * wrk.numChannels
          sum := u32 (t.sum + wrk.sumOf row channel k (wrk.takenBy o))
          base := wrk.pixelAt row channel (wrk.takenBy o - 1)
          accum := o * wrk.xAdd - wrk.takenBy o * wrk.xSub } := by
  have hS : 0 < wrk.xSub := by
    obtain ⟨-, -, hsub⟩ := hs.shrinkX he
    have := hs.dstWidth
    omega
  have hall : wrk.takenBy o ≤ wrk.srcWidth := by
    rw [← takenBy_last hs he]
    exact takenBy_mono hs he ho
  have hnc := hs.numChannels
  intro n
  induction n with
  | zero => intro k t hk hn; omega
  | succ n ih =>
    intro k t hk hn hxIn haccum
    have hgo : t.accum > 0 := by
      have := (lt_takenBy hS).mp hk
      rw [haccum]
      zify at this
      linarith
    have hread : t.xIn < wrk.srcWidth * wrk.numChannels := by
      rw [hxIn]
      nlinarith
    have hsum : wrk.sumOf row channel k (wrk.takenBy o) =
        row t.xIn + wrk.sumOf row channel (k + 1) (wrk.takenBy o) := by
      rw [hxIn]
      exact Finset.sum_eq_sum_Ico_succ_bot hk _
    rw [shrinkTake, if_pos hgo, if_pos hread]
    by_cases hlast : k + 1 = wrk.takenBy o
    · -- The last pixel: what is left to take is not positive.
      have hstop : ¬ t.accum - wrk.xSub > 0 := by
        have := takenBy_mul_ge hS o
        rw [← hlast] at this
        rw [haccum]
        zify at this
        linarith
      rw [shrinkTake.eq_def]
      dsimp only
      rw [if_neg hstop, hsum, ← hlast, hxIn, haccum]
      simp only [sumOf, Finset.Ico_self, Finset.sum_empty, add_zero, Option.some.injEq, Taken.mk.injEq,
        Nat.add_sub_cancel]
      exact ⟨by ring, by push_cast, rfl, by push_cast; ring⟩
    · rw [ih (k + 1) _ (by omega) (by omega) (by rw [hxIn]; ring) (by rw [haccum]; push_cast; ring)]
      dsimp only
      rw [u32_add_left, hsum]
      push_cast
      rw [add_assoc]

/-- The loop of a shrunk channel writes the outputs from `o` on. -/
theorem shrinkLoop_eq (hs : wrk.Shaped) (he : wrk.xExpand = false) (hc : channel < wrk.numChannels) :
    ∀ (n o : ℕ) (frow : ℕ → ℕ), o ≤ wrk.dstWidth → wrk.dstWidth ≤ o + n →
      wrk.shrinkLoop row n (channel + wrk.takenBy o * wrk.numChannels) (channel + o * wrk.numChannels)
        (multFix (wrk.sharedBy row channel o) wrk.fxScale) (o * wrk.xAdd - wrk.takenBy o * wrk.xSub) frow =
        some (wrk.fill channel (wrk.shrunk row channel) frow o) := by
  obtain ⟨hw, hadd, hsub⟩ := hs.shrinkX he
  have hpos := hs.dstWidth
  have hS : 0 < wrk.xSub := by omega
  have hnc := hs.numChannels
  have hin : ∀ o, channel + o * wrk.numChannels < wrk.rowLength ↔ o < wrk.dstWidth := fun o => by
    unfold rowLength
    constructor
    · intro h
      by_contra hlt
      nlinarith [not_lt.mp hlt]
    · intro h
      nlinarith
  have stop : ∀ n frow, wrk.shrinkLoop row n (channel + wrk.takenBy wrk.dstWidth * wrk.numChannels)
      (channel + wrk.dstWidth * wrk.numChannels) (multFix (wrk.sharedBy row channel wrk.dstWidth) wrk.fxScale)
      (wrk.dstWidth * wrk.xAdd - wrk.takenBy wrk.dstWidth * wrk.xSub) frow =
        some (wrk.fill channel (wrk.shrunk row channel) frow wrk.dstWidth) := fun n frow => by
    have hdone : (wrk.dstWidth * wrk.xAdd - wrk.takenBy wrk.dstWidth * wrk.xSub : ℤ) = 0 := by
      rw [takenBy_last hs he, hadd, hsub]
      ring
    rw [shrinkLoop.eq_def]
    dsimp only
    rw [if_neg (by rw [hin]; omega), if_pos hdone, fill_last hs]
  intro n
  induction n with
  | zero =>
    intro o frow ho hn
    rw [show o = wrk.dstWidth by omega]
    exact stop 0 frow
  | succ n ih =>
    intro o frow ho hn
    rcases ho.eq_or_lt with rfl | hlt
    · exact stop _ frow
    · have hfuel : wrk.takenBy (o + 1) ≤ wrk.takenBy o + wrk.xAdd := by
        rw [hadd, ← takenBy_last hs he]
        exact (takenBy_mono hs he hlt).trans (Nat.le_add_left _ _)
      have htake := @shrinkTake_eq wrk row channel hs he hc (o + 1) hlt wrk.xAdd (wrk.takenBy o)
        { xIn := channel + wrk.takenBy o * wrk.numChannels
          sum := multFix (wrk.sharedBy row channel o) wrk.fxScale
          base := 0
          accum := o * wrk.xAdd - wrk.takenBy o * wrk.xSub + wrk.xAdd }
        (takenBy_lt hs he o) hfuel rfl (by push_cast; ring)
      have hover : (wrk.takenBy (o + 1) * wrk.xSub - (o + 1 : ℕ) * wrk.xAdd : ℤ) = wrk.overBy (o + 1) := by
        have := takenBy_mul_ge hS (o + 1)
        unfold overBy
        rw [Nat.cast_sub this]
        push_cast
        rfl
      have hshared : u32 (wrk.pixelAt row channel (wrk.takenBy (o + 1) - 1) *
          -((o + 1 : ℕ) * wrk.xAdd - wrk.takenBy (o + 1) * wrk.xSub)) = wrk.sharedBy row channel (o + 1) := by
        rw [neg_sub, hover]
        rfl
      have hnext : channel + o * wrk.numChannels + wrk.numChannels = channel + (o + 1) * wrk.numChannels := by ring
      rw [shrinkLoop, if_pos ((hin o).mpr hlt)]
      dsimp only
      rw [htake]
      dsimp only
      rw [hshared, u32_mul_sub_left, hnext, ih (o + 1) _ hlt (by omega), ← fill_step hs hc _ hlt]
      rfl

/-! ### All channels -/

/-- Channel after channel fills the row. -/
theorem foldlM_fill (hs : wrk.Shaped) {f : (ℕ → ℕ) → ℕ → Option (ℕ → ℕ)} {g : ℕ → ℕ → ℕ}
    (hf : ∀ c < wrk.numChannels, ∀ frow, f frow c = some (wrk.fill c (g c) frow 0)) (frow : ℕ → ℕ) :
    (List.range wrk.numChannels).foldlM f frow = some fun x =>
      if x < wrk.rowLength then g (x % wrk.numChannels) (x / wrk.numChannels) else frow x := by
  have part : ∀ m ≤ wrk.numChannels, (List.range m).foldlM f frow = some fun x =>
      if x < wrk.rowLength ∧ x % wrk.numChannels < m then g (x % wrk.numChannels) (x / wrk.numChannels)
      else frow x := by
    intro m
    induction m with
    | zero =>
      intro _
      simp
    | succ m ih =>
      intro hm
      rw [List.range_succ, List.foldlM_append, ih (by omega)]
      simp only [Option.bind_eq_bind, Option.bind_some, List.foldlM_cons, List.foldlM_nil, hf m (by omega),
        Option.pure_def]
      congr 1
      funext x
      unfold fill
      dsimp only
      by_cases hx : x < wrk.rowLength
      · rcases lt_trichotomy (x % wrk.numChannels) m with hlt | heq | hgt
        · rw [if_neg fun h => hlt.ne h.2.1, if_pos ⟨hx, hlt⟩, if_pos ⟨hx, by omega⟩]
        · rw [if_pos ⟨hx, heq, Nat.zero_le _⟩, if_pos ⟨hx, by omega⟩, heq]
        · rw [if_neg fun h => hgt.ne' h.2.1, if_neg fun h => hgt.not_gt h.2, if_neg fun h => by omega]
      · rw [if_neg fun h => hx h.1, if_neg fun h => hx h.1, if_neg fun h => hx h.1]
  rw [part _ (le_refl _)]
  congr 1
  funext x
  have hmod := Nat.mod_lt x hs.numChannels
  by_cases hx : x < wrk.rowLength
  · rw [if_pos ⟨hx, hmod⟩, if_pos hx]
  · rw [if_neg (by tauto), if_neg hx]

theorem expandChannel_eq (hs : wrk.Shaped) (he : wrk.xExpand = true) (hc : channel < wrk.numChannels)
    (frow : ℕ → ℕ) :
    wrk.expandChannel row frow channel = some (wrk.fill channel (wrk.expanded row channel) frow 0) := by
  have h := expandLoop_eq hs he hc wrk.dstWidth 0 0 _ _ _ frow (by omega) (@ExpandAt.start wrk row channel hs he)
  simpa [expandChannel] using h

theorem shrinkChannel_eq (hs : wrk.Shaped) (he : wrk.xExpand = false) (hc : channel < wrk.numChannels)
    (frow : ℕ → ℕ) :
    wrk.shrinkChannel row frow channel = some (wrk.fill channel (wrk.shrunk row channel) frow 0) := by
  have hS : 0 < wrk.xSub := by
    obtain ⟨-, -, hsub⟩ := hs.shrinkX he
    have := hs.dstWidth
    omega
  have hzero : multFix (wrk.sharedBy row channel 0) wrk.fxScale = 0 := by
    have h0 : wrk.sharedBy row channel 0 = 0 := by
      simp [sharedBy, overBy, takenBy_zero hS, u32]
    simp [h0, multFix]
  have h := @shrinkLoop_eq wrk row channel hs he hc wrk.dstWidth 0 frow (by omega) (by omega)
  rw [hzero, takenBy_zero hS] at h
  simpa [shrinkChannel] using h

end WebPRescaler

/-- **A row import computes its closed form**, and no `assert` on the way fails. -/
theorem importRow_eq {wrk : WebPRescaler} (hs : wrk.Shaped) (hin : wrk.srcY < wrk.srcHeight) (row : ℕ → ℕ) :
    webPRescalerImportRow wrk row = some
      { wrk with frow := fun x => if x < wrk.rowLength then wrk.imported row x else wrk.frow x } := by
  have hnot : webPRescalerInputDone wrk = false := by
    unfold webPRescalerInputDone
    simpa using hin
  have himported : ∀ g : ℕ → ℕ → ℕ,
      (∀ x, wrk.imported row x = g (x % wrk.numChannels) (x / wrk.numChannels)) →
      (fun x => if x < wrk.rowLength then g (x % wrk.numChannels) (x / wrk.numChannels) else wrk.frow x) =
        fun x => if x < wrk.rowLength then wrk.imported row x else wrk.frow x := fun g hg => by
    funext x
    rw [hg x]
  unfold webPRescalerImportRow
  rw [hnot, if_neg (by decide)]
  by_cases he : wrk.xExpand = true
  · have hfill := WebPRescaler.foldlM_fill hs (fun c hc frow =>
      @WebPRescaler.expandChannel_eq wrk row c hs he hc frow) wrk.frow
    rw [if_neg (by rw [he]; decide), webPRescalerImportRowExpand, hnot, if_neg (by rw [he]; decide), hfill,
      himported _ fun x => if_pos he]
    rfl
  · have he' : wrk.xExpand = false := by simpa using he
    have hfill := WebPRescaler.foldlM_fill hs (fun c hc frow =>
      @WebPRescaler.shrinkChannel_eq wrk row c hs he' hc frow) wrk.frow
    rw [if_pos (by rw [he']; decide), webPRescalerImportRowShrink, hnot, if_neg (by rw [he']; decide), hfill,
      himported _ fun x => if_neg he]
    rfl

end WebPlugin
