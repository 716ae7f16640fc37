/-
# Source lines in, output rows out

The vertical half of the rescaler. `y_accum` is what the next output row still
wants (`Pacing.Pace.level`), so a rescaler that is driven by its own
`HasPendingOutput` stays in step (`Steady`): a line is imported while no row is
pending, a row exported while one is, and neither runs out before the other. A
line and all the rows it completes are `feed`; feeding is the same whatever
bands the lines come in.
-/
import WebPlugin.ImportRow
import WebPlugin.Pacing

namespace WebPlugin

open Memory Words Pacing

namespace WebPRescaler

/-- The vertical rates. -/
def yPace {wrk : WebPRescaler} (hs : wrk.Shaped) : Pace where
  first := if wrk.yExpand then wrk.ySub else wrk.yAdd
  add := wrk.yAdd
  sub := wrk.ySub
  ins := wrk.srcHeight
  outs := wrk.dstHeight
  sub_pos := by
    have hsrc := hs.srcHeight
    have hdst := hs.dstHeight
    by_cases he : wrk.yExpand = true
    · obtain ⟨hh, -, hsub⟩ := hs.expandY he
      omega
    · obtain ⟨-, -, hsub⟩ := hs.shrinkY (by simpa using he)
      omega
  add_nonneg := Int.natCast_nonneg _
  outs_pos := by exact_mod_cast hs.dstHeight
  total := by
    have hsrc := hs.srcHeight
    have hdst := hs.dstHeight
    by_cases he : wrk.yExpand = true
    · obtain ⟨hh, hadd, hsub⟩ := hs.expandY he
      rw [if_pos he, hadd, hsub, Nat.cast_sub (by omega), Nat.cast_sub (by omega)]
      push_cast
      ring
    · obtain ⟨-, hadd, hsub⟩ := hs.shrinkY (by simpa using he)
      rw [if_neg he, hadd, hsub]
      ring

@[simp] theorem yPace_sub {wrk : WebPRescaler} (hs : wrk.Shaped) : (yPace hs).sub = wrk.ySub := rfl

@[simp] theorem yPace_ins {wrk : WebPRescaler} (hs : wrk.Shaped) : (yPace hs).ins = wrk.srcHeight := rfl

@[simp] theorem yPace_outs {wrk : WebPRescaler} (hs : wrk.Shaped) : (yPace hs).outs = wrk.dstHeight := rfl

theorem yPace_first {wrk : WebPRescaler} (hs : wrk.Shaped) :
    (yPace hs).first = if wrk.yExpand then (wrk.ySub : ℤ) else wrk.yAdd := rfl

/-- A rescaler in step: its accumulator is what its counts say. -/
structure Steady (wrk : WebPRescaler) : Prop where
  shaped : wrk.Shaped
  due : (yPace shaped).Due wrk.srcY wrk.dstY
  level : wrk.yAccum = (yPace shaped).level wrk.srcY wrk.dstY
  copies : wrk.yExpand = false → wrk.fxyScale = 0 →
    wrk.srcHeight = wrk.dstHeight ∧ wrk.xAdd = 1 ∧ wrk.srcWidth = 1 ∧ wrk.dstWidth ≤ 2

variable {wrk : WebPRescaler} {row : ℕ → ℕ}

theorem pending_iff : webPRescalerHasPendingOutput wrk = true ↔ wrk.dstY < wrk.dstHeight ∧ wrk.yAccum ≤ 0 := by
  unfold webPRescalerHasPendingOutput webPRescalerOutputDone
  simp

namespace Steady

theorem ySub_pos (h : Steady wrk) : 0 < wrk.ySub := by
  have := (yPace h.shaped).sub_pos
  rw [yPace_sub] at this
  exact_mod_cast this

theorem srcY_le (h : Steady wrk) : wrk.srcY ≤ wrk.srcHeight := by
  have := h.due.ins.2
  rw [yPace_ins] at this
  exact_mod_cast this

theorem dstY_le (h : Steady wrk) : wrk.dstY ≤ wrk.dstHeight := by
  have := h.due.outs.2
  rw [yPace_outs] at this
  exact_mod_cast this

/-- A row that is not pending wants a line, and there is one. -/
theorem lt_srcHeight (h : Steady wrk) (ho : wrk.dstY < wrk.dstHeight)
    (hp : webPRescalerHasPendingOutput wrk = false) : 0 < wrk.yAccum ∧ wrk.srcY < wrk.srcHeight := by
  have hpos : 0 < wrk.yAccum := by
    by_contra hle
    rw [pending_iff.mpr ⟨ho, not_lt.mp hle⟩] at hp
    cases hp
  have hl := hpos
  rw [h.level] at hl
  have hi := Pace.lt_ins hl (by rw [yPace_outs]; exact_mod_cast ho)
  rw [yPace_ins] at hi
  exact ⟨hpos, by exact_mod_cast hi⟩

/-- Lines left mean rows left. -/
theorem lt_dstHeight (h : Steady wrk) (hi : wrk.srcY < wrk.srcHeight) : wrk.dstY < wrk.dstHeight := by
  by_contra ho
  have hall : (wrk.dstY : ℤ) = (yPace h.shaped).outs := by
    rw [yPace_outs]
    exact_mod_cast le_antisymm h.dstY_le (not_lt.mp ho)
  have hdue := h.due
  rw [hall] at hdue
  have htaken := hdue.all_taken
  rw [yPace_ins] at htaken
  omega

/-- The last line completes the last row. -/
theorem all_out (h : Steady wrk) (hi : wrk.srcY = wrk.srcHeight)
    (hp : webPRescalerHasPendingOutput wrk = false) : wrk.dstY = wrk.dstHeight := by
  by_contra ho
  have hle := h.dstY_le
  have := (h.lt_srcHeight (by omega) hp).2
  omega

end Steady

/-! ### One line -/

/-- The rescaler after a line. -/
def lineIn (wrk : WebPRescaler) (row : ℕ → ℕ) : WebPRescaler :=
  let fresh := fun x => wrk.imported row x
  if wrk.yExpand then
    { wrk with
      irow := wrk.frow
      frow := fun x => if x < wrk.rowLength then fresh x else wrk.irow x
      srcY := wrk.srcY + 1
      yAccum := wrk.yAccum - wrk.ySub }
  else
    { wrk with
      irow := fun x => if x < wrk.rowLength then u32 (wrk.irow x + fresh x) else wrk.irow x
      frow := fun x => if x < wrk.rowLength then fresh x else wrk.frow x
      srcY := wrk.srcY + 1
      yAccum := wrk.yAccum - wrk.ySub }

theorem importLine_eq (hs : wrk.Shaped) (hi : wrk.srcY < wrk.srcHeight) (row : ℕ → ℕ) :
    webPRescalerImportLine wrk row = some (wrk.lineIn row) := by
  unfold webPRescalerImportLine lineIn
  by_cases he : wrk.yExpand = true
  · have hs' : Shaped { wrk with irow := wrk.frow, frow := wrk.irow } := ⟨hs.numChannels, hs.srcWidth, hs.srcHeight,
      hs.dstWidth, hs.dstHeight, hs.expandX, hs.shrinkX, hs.expandY, hs.shrinkY⟩
    rw [if_pos he, if_pos he]
    dsimp only
    rw [importRow_eq hs' hi, Option.map_some]
    dsimp only
    rw [if_neg (by simp [he])]
    rfl
  · rw [if_neg he, if_neg he]
    dsimp only
    rw [importRow_eq hs hi, Option.map_some]
    dsimp only
    rw [if_pos (by simpa using he)]
    congr 2
    funext x
    unfold rowLength
    dsimp only
    split_ifs <;> rfl

theorem lineIn_eq (wrk : WebPRescaler) (row : ℕ → ℕ) : ∃ irow frow, wrk.lineIn row =
    { wrk with irow, frow, srcY := wrk.srcY + 1, yAccum := wrk.yAccum - wrk.ySub } := by
  unfold lineIn
  split_ifs
  · exact ⟨_, _, rfl⟩
  · exact ⟨_, _, rfl⟩

/-- The counters and the rows of a rescaler do not matter to its shape. -/
theorem Shaped.moved (hs : wrk.Shaped) (yAccum : ℤ) (srcY dstY : ℕ) (dst : ℤ) (irow frow : ℕ → ℕ) :
    Shaped { wrk with yAccum, srcY, dstY, dst, irow, frow } :=
  ⟨hs.numChannels, hs.srcWidth, hs.srcHeight, hs.dstWidth, hs.dstHeight, hs.expandX, hs.shrinkX,
    hs.expandY, hs.shrinkY⟩

/-- A line keeps the rescaler in step. -/
theorem Steady.lineIn (h : Steady wrk) (ho : wrk.dstY < wrk.dstHeight) (hl : 0 < wrk.yAccum) (row : ℕ → ℕ) :
    Steady (wrk.lineIn row) := by
  obtain ⟨irow, frow, heq⟩ := wrk.lineIn_eq row
  rw [heq]
  have hl' := hl
  rw [h.level] at hl'
  obtain ⟨-, hdue⟩ := h.due.take (by rw [yPace_outs]; exact_mod_cast ho) hl'
  refine ⟨h.shaped.moved _ _ _ _ _ _, ?_, ?_, h.copies⟩
  · dsimp only
    push_cast
    exact hdue
  · dsimp only
    rw [h.level]
    push_cast
    exact ((yPace h.shaped).level_take _ _).symm

/-! ### One row -/

/-- Byte `x` of the pending row. -/
def exported (wrk : WebPRescaler) (x : ℕ) : UInt8 :=
  if wrk.yExpand then
    if wrk.yAccum = 0 then clip255 (multFix (wrk.frow x) wrk.fyScale)
    else
      let b := webPRescalerFrac (-wrk.yAccum).toNat wrk.ySub
      let a := (2 ^ 32 - b) % 2 ^ 32
      clip255 (multFix ((a * wrk.frow x + b * wrk.irow x + 2 ^ 31) / 2 ^ 32 % 2 ^ 32) wrk.fyScale)
  else if wrk.fxyScale ≠ 0 then
    let yscale := u32 (wrk.fyScale * -wrk.yAccum)
    if yscale ≠ 0 then clip255 (multFix (u32 (wrk.irow x - multFixFloor (wrk.frow x) yscale)) wrk.fxyScale)
    else clip255 (multFix (wrk.irow x) wrk.fxyScale)
  else UInt8.ofNat (wrk.irow x)

/-- What the pending row leaves in `irow`. -/
def leftover (wrk : WebPRescaler) (x : ℕ) : ℕ :=
  if wrk.yExpand then wrk.irow x
  else if x < wrk.rowLength then
    let yscale := u32 (wrk.fyScale * -wrk.yAccum)
    if wrk.fxyScale ≠ 0 ∧ yscale ≠ 0 then multFixFloor (wrk.frow x) yscale else 0
  else wrk.irow x

/-- The rescaler after a row. -/
def rowOut (wrk : WebPRescaler) : WebPRescaler :=
  { wrk with
    irow := wrk.leftover
    yAccum := wrk.yAccum + wrk.yAdd
    dst := wrk.dst + wrk.dstStride
    dstY := wrk.dstY + 1 }

/-- **A row export computes its closed form**, and no `assert` on the way fails. -/
theorem exportRow_eq (h : Steady wrk) (hp : webPRescalerHasPendingOutput wrk = true) (mem : Buf) :
    webPRescalerExportRow wrk mem = some (wrk.rowOut, mem.writeRow wrk.dst wrk.rowLength wrk.exported) := by
  obtain ⟨ho, hl⟩ := pending_iff.mp hp
  have hdone : webPRescalerOutputDone wrk = false := by
    unfold webPRescalerOutputDone
    simpa using ho
  have hS := h.ySub_pos
  unfold webPRescalerExportRow
  rw [if_pos hl, hdone, if_neg (by decide)]
  by_cases he : wrk.yExpand = true
  · have hleft : wrk.leftover = wrk.irow := by
      funext x
      unfold leftover
      rw [if_pos he]
    have hgo : ¬ (webPRescalerOutputDone wrk || 0 < wrk.yAccum || !wrk.yExpand || wrk.ySub = 0) = true := by
      rw [hdone, he]
      simp only [Bool.false_or, Bool.not_true, Bool.or_false, Bool.or_eq_true, decide_eq_true_eq, not_or]
      exact ⟨hl.not_gt, hS.ne'⟩
    rw [if_pos he, webPRescalerExportRowExpand, if_neg hgo]
    unfold rowOut
    rw [hleft]
    by_cases h0 : wrk.yAccum = 0
    · rw [if_pos h0]
      simp only [Option.map_some, Option.some.injEq, Prod.mk.injEq, true_and]
      congr 1
      funext x
      unfold exported
      rw [if_pos he, if_pos h0]
    · rw [if_neg h0]
      simp only [Option.map_some, Option.some.injEq, Prod.mk.injEq, true_and]
      congr 1
      funext x
      unfold exported
      rw [if_pos he, if_neg h0]
  · rw [if_neg he]
    by_cases hf : wrk.fxyScale ≠ 0
    · have hgo : ¬ (webPRescalerOutputDone wrk || 0 < wrk.yAccum || wrk.yExpand) = true := by
        rw [hdone]
        simp only [Bool.false_or, Bool.or_eq_true, decide_eq_true_eq, not_or]
        exact ⟨hl.not_gt, he⟩
      rw [if_pos hf, webPRescalerExportRowShrink]
      dsimp only
      rw [if_neg hgo]
      unfold rowOut
      by_cases hy : u32 (wrk.fyScale * -wrk.yAccum) ≠ 0
      · have hleft : wrk.leftover = fun x => if x < wrk.rowLength then
            multFixFloor (wrk.frow x) (u32 (wrk.fyScale * -wrk.yAccum)) else wrk.irow x := by
          funext x
          unfold leftover
          rw [if_neg he]
          dsimp only
          rw [if_pos (And.intro hf hy)]
        have hexp : wrk.exported = fun x => clip255 (multFix
            (u32 (wrk.irow x - multFixFloor (wrk.frow x) (u32 (wrk.fyScale * -wrk.yAccum)))) wrk.fxyScale) := by
          funext x
          unfold exported
          rw [if_neg he, if_pos hf]
          dsimp only
          rw [if_pos hy]
        rw [if_pos hy, hleft, hexp]
        rfl
      · have hleft : wrk.leftover = fun x => if x < wrk.rowLength then 0 else wrk.irow x := by
          funext x
          unfold leftover
          rw [if_neg he]
          dsimp only
          rw [if_neg fun hboth : wrk.fxyScale ≠ 0 ∧ _ => hy hboth.2]
        have hexp : wrk.exported = fun x => clip255 (multFix (wrk.irow x) wrk.fxyScale) := by
          funext x
          unfold exported
          rw [if_neg he, if_pos hf]
          dsimp only
          rw [if_neg hy]
        rw [if_neg hy, hleft, hexp]
        rfl
    · have hleft : wrk.leftover = fun x => if x < wrk.rowLength then 0 else wrk.irow x := by
        funext x
        unfold leftover
        rw [if_neg he]
        dsimp only
        rw [if_neg fun hboth : wrk.fxyScale ≠ 0 ∧ _ => hf hboth.1]
      have hexp : wrk.exported = fun x => UInt8.ofNat (wrk.irow x) := by
        funext x
        unfold exported
        rw [if_neg he, if_neg hf]
      unfold rowOut
      rw [if_neg hf, webPRescalerExportRowCopy, if_pos (h.copies (by simpa using he) (by simpa using hf)), hleft, hexp]
      rfl

/-- A row keeps the rescaler in step. -/
theorem Steady.rowOut (h : Steady wrk) (hp : webPRescalerHasPendingOutput wrk = true) : Steady wrk.rowOut := by
  obtain ⟨ho, hl⟩ := pending_iff.mp hp
  rw [h.level] at hl
  have hdue := h.due.give (by rw [yPace_outs]; exact_mod_cast ho) hl
  unfold WebPRescaler.rowOut
  refine ⟨h.shaped.moved _ _ _ _ _ _, ?_, ?_, h.copies⟩
  · dsimp only
    push_cast
    exact hdue
  · dsimp only
    rw [h.level]
    push_cast
    exact ((yPace h.shaped).level_give _ _).symm

/-! ### Draining -/

/-- At most `n` pending rows, and the rescaler without them. -/
def drained : ℕ → WebPRescaler → WebPRescaler × List (ℕ → UInt8)
  | 0, wrk => (wrk, [])
  | n + 1, wrk =>
    if webPRescalerHasPendingOutput wrk then
      let rest := drained n wrk.rowOut
      (rest.1, wrk.exported :: rest.2)
    else (wrk, [])

/-- The pending rows, and the rescaler without them. -/
def drain (wrk : WebPRescaler) : WebPRescaler × List (ℕ → UInt8) := drained (wrk.dstHeight - wrk.dstY) wrk

theorem drain_of_pending (hp : webPRescalerHasPendingOutput wrk = true) :
    wrk.drain = (wrk.rowOut.drain.1, wrk.exported :: wrk.rowOut.drain.2) := by
  have ho := (pending_iff.mp hp).1
  have hn : wrk.dstHeight - wrk.dstY = wrk.rowOut.dstHeight - wrk.rowOut.dstY + 1 := by
    change wrk.dstHeight - wrk.dstY = wrk.dstHeight - (wrk.dstY + 1) + 1
    omega
  unfold drain
  rw [hn, drained, if_pos hp]

theorem drain_of_not (hp : webPRescalerHasPendingOutput wrk = false) : wrk.drain = (wrk, []) := by
  unfold drain
  cases wrk.dstHeight - wrk.dstY with
  | zero => rfl
  | succ n => rw [drained, if_neg (by rw [hp]; decide)]

/-- In step, and nothing pending: a rescaler between two calls. -/
structure Idle (wrk : WebPRescaler) : Prop where
  steady : Steady wrk
  quiet : webPRescalerHasPendingOutput wrk = false

/-- Two states of one rescaler. -/
structure SameRun (wrk wrk' : WebPRescaler) : Prop where
  srcWidth : wrk'.srcWidth = wrk.srcWidth
  srcHeight : wrk'.srcHeight = wrk.srcHeight
  dstWidth : wrk'.dstWidth = wrk.dstWidth
  dstHeight : wrk'.dstHeight = wrk.dstHeight
  numChannels : wrk'.numChannels = wrk.numChannels
  dstStride : wrk'.dstStride = wrk.dstStride

theorem SameRun.refl (wrk : WebPRescaler) : SameRun wrk wrk := ⟨rfl, rfl, rfl, rfl, rfl, rfl⟩

theorem SameRun.trans {a b c : WebPRescaler} (h : SameRun a b) (h' : SameRun b c) : SameRun a c :=
  ⟨h'.srcWidth.trans h.srcWidth, h'.srcHeight.trans h.srcHeight, h'.dstWidth.trans h.dstWidth,
    h'.dstHeight.trans h.dstHeight, h'.numChannels.trans h.numChannels, h'.dstStride.trans h.dstStride⟩

theorem sameRun_lineIn (wrk : WebPRescaler) (row : ℕ → ℕ) : SameRun wrk (wrk.lineIn row) := by
  obtain ⟨irow, frow, heq⟩ := wrk.lineIn_eq row
  rw [heq]
  exact ⟨rfl, rfl, rfl, rfl, rfl, rfl⟩

/-- What a rescaler has become after `n` lines, having given `rows`. -/
structure Fed (wrk wrk' : WebPRescaler) (n : ℕ) (rows : List (ℕ → UInt8)) : Prop where
  idle : Idle wrk'
  same : SameRun wrk wrk'
  srcY : wrk'.srcY = wrk.srcY + n
  dstY : wrk'.dstY = wrk.dstY + rows.length
  dst : wrk'.dst = wrk.dst + rows.length * wrk.dstStride

/-- Draining gives every pending row. -/
theorem Steady.drain (h : Steady wrk) : Fed wrk wrk.drain.1 0 wrk.drain.2 := by
  generalize hn : wrk.dstHeight - wrk.dstY = n
  induction n generalizing wrk with
  | zero =>
    have hp : webPRescalerHasPendingOutput wrk = false := by
      rw [← Bool.not_eq_true, pending_iff]
      omega
    rw [drain_of_not hp]
    exact ⟨⟨h, hp⟩, .refl wrk, rfl, rfl, by simp⟩
  | succ n ih =>
    by_cases hp : webPRescalerHasPendingOutput wrk = true
    · have hout := ih (h.rowOut hp) (by
        change wrk.dstHeight - (wrk.dstY + 1) = n
        omega)
      rw [drain_of_pending hp]
      have hsame : SameRun wrk wrk.rowOut := ⟨rfl, rfl, rfl, rfl, rfl, rfl⟩
      refine ⟨hout.idle, hsame.trans hout.same, hout.srcY, ?_, ?_⟩
      · rw [hout.dstY]
        change wrk.dstY + 1 + _ = wrk.dstY + (_ + 1)
        ring
      · rw [hout.dst]
        change wrk.dst + wrk.dstStride + _ * wrk.dstStride = wrk.dst + ((_ + 1 : ℕ) : ℤ) * wrk.dstStride
        push_cast
        ring
    · rw [drain_of_not (by simpa using hp)]
      exact ⟨⟨h, by simpa using hp⟩, .refl wrk, rfl, rfl, by simp⟩

/-! ### Feeding -/

/-- A line, and every row it completes. -/
def feed (wrk : WebPRescaler) (row : ℕ → ℕ) : WebPRescaler × List (ℕ → UInt8) := (wrk.lineIn row).drain

/-- Line after line. -/
def feedAll : WebPRescaler → List (ℕ → ℕ) → WebPRescaler × List (ℕ → UInt8)
  | wrk, [] => (wrk, [])
  | wrk, row :: rows =>
    let first := wrk.feed row
    let rest := feedAll first.1 rows
    (rest.1, first.2 ++ rest.2)

/-- Bands of lines are lines. -/
theorem feedAll_append (wrk : WebPRescaler) (rows rows' : List (ℕ → ℕ)) :
    wrk.feedAll (rows ++ rows') =
      let first := wrk.feedAll rows
      let rest := first.1.feedAll rows'
      (rest.1, first.2 ++ rest.2) := by
  induction rows generalizing wrk with
  | nil => rfl
  | cons row rows ih => simp [feedAll, ih]

theorem Idle.feed (h : Idle wrk) (hi : wrk.srcY < wrk.srcHeight) (row : ℕ → ℕ) :
    Fed wrk (wrk.feed row).1 1 (wrk.feed row).2 := by
  have ho := h.steady.lt_dstHeight hi
  have hl := (h.steady.lt_srcHeight ho h.quiet).1
  have hout := (h.steady.lineIn ho hl row).drain
  have hsame := sameRun_lineIn wrk row
  obtain ⟨irow, frow, heq⟩ := wrk.lineIn_eq row
  have hsrc : (wrk.lineIn row).srcY = wrk.srcY + 1 := by rw [heq]
  have hdstY : (wrk.lineIn row).dstY = wrk.dstY := by rw [heq]
  have hdst : (wrk.lineIn row).dst = wrk.dst := by rw [heq]
  refine ⟨hout.idle, hsame.trans hout.same, hout.srcY.trans (by rw [hsrc]), ?_, ?_⟩
  · rw [← hdstY]
    exact hout.dstY
  · rw [← hdst, ← hsame.dstStride]
    exact hout.dst

/-- **Lines are fed without running dry**: as long as the source has them, each
finds the rescaler waiting and leaves it waiting or done. -/
theorem Idle.feedAll (h : Idle wrk) (rows : List (ℕ → ℕ)) (hn : wrk.srcY + rows.length ≤ wrk.srcHeight) :
    Fed wrk (wrk.feedAll rows).1 rows.length (wrk.feedAll rows).2 := by
  induction rows generalizing wrk with
  | nil => exact ⟨h, .refl wrk, rfl, rfl, by simp [WebPRescaler.feedAll]⟩
  | cons row rows ih =>
    rw [List.length_cons] at hn
    have hfirst := h.feed (by omega) row
    have hrest := ih hfirst.idle (by rw [hfirst.srcY, hfirst.same.srcHeight]; omega)
    refine ⟨hrest.idle, hfirst.same.trans hrest.same, ?_, ?_, ?_⟩
    · rw [List.length_cons]
      exact hrest.srcY.trans (by rw [hfirst.srcY]; ring)
    · simp only [WebPRescaler.feedAll, List.length_append]
      rw [hrest.dstY, hfirst.dstY]
      ring
    · simp only [WebPRescaler.feedAll, List.length_append]
      rw [hrest.dst, hfirst.dst, hfirst.same.dstStride]
      push_cast
      ring

/-! ### The calls -/

/-- The lines at `src`. -/
def linesAt (mem : Buf) (src srcStride : ℤ) (k : ℕ) : List (ℕ → ℕ) :=
  (List.range k).map fun j : ℕ => sourceRow mem (src + j * srcStride)

@[simp] theorem length_linesAt (mem : Buf) (src srcStride : ℤ) (k : ℕ) :
    (linesAt mem src srcStride k).length = k := by
  simp [linesAt]

theorem linesAt_succ (mem : Buf) (src srcStride : ℤ) (k : ℕ) : linesAt mem src srcStride (k + 1) =
    sourceRow mem src :: linesAt mem (src + srcStride) srcStride k := by
  simp only [linesAt, List.range_succ_eq_map, List.map_cons, List.map_map, Nat.cast_zero, zero_mul, add_zero]
  congr 1
  apply List.map_congr_left
  intro j _
  simp only [Function.comp, Nat.succ_eq_add_one]
  congr 1
  push_cast
  ring

theorem lineIn_counts (wrk : WebPRescaler) (row : ℕ → ℕ) : (wrk.lineIn row).srcY = wrk.srcY + 1 ∧
    (wrk.lineIn row).dstY = wrk.dstY ∧ (wrk.lineIn row).yAccum = wrk.yAccum - wrk.ySub ∧
    (wrk.lineIn row).ySub = wrk.ySub ∧ (wrk.lineIn row).dst = wrk.dst := by
  obtain ⟨irow, frow, heq⟩ := wrk.lineIn_eq row
  rw [heq]
  exact ⟨rfl, rfl, rfl, rfl, rfl⟩

/-- What an import call has done: the lines up to the first pending row, or all. -/
structure ImportedLines (wrk wrk' : WebPRescaler) (mem : Buf) (src srcStride : ℤ) (n k : ℕ) : Prop where
  steady : Steady wrk'
  same : SameRun wrk wrk'
  le : k ≤ n
  srcY : wrk'.srcY = wrk.srcY + k
  dstY : wrk'.dstY = wrk.dstY
  dst : wrk'.dst = wrk.dst
  stopped : k = n ∨ webPRescalerHasPendingOutput wrk' = true
  needed : 0 < n → (k : ℤ) = webPRescaleNeededLines wrk n ∧ 0 < k
  fed : wrk.feedAll (linesAt mem src srcStride k) = wrk'.drain

theorem neededLines_eq (hS : 0 < wrk.ySub) (hl : 0 < wrk.yAccum) (n : ℤ) :
    webPRescaleNeededLines wrk n = min n ((wrk.yAccum + wrk.ySub - 1) / wrk.ySub) := by
  unfold webPRescaleNeededLines
  rw [Int.tdiv_eq_ediv_of_nonneg (by omega)]
  dsimp only
  by_cases h : (wrk.yAccum + wrk.ySub - 1) / wrk.ySub > n
  · rw [if_pos h, min_eq_left h.le]
  · rw [if_neg h, min_eq_right (not_lt.mp h)]

/-- **An import call takes as many lines as `WebPRescaleNeededLines` says.** -/
theorem Idle.importLines (h : Idle wrk) (mem : Buf) (src srcStride : ℤ) (n : ℕ)
    (hn : wrk.srcY + n ≤ wrk.srcHeight) :
    ∃ wrk' k, webPRescalerImport wrk mem n src srcStride = some (wrk', k) ∧
      ImportedLines wrk wrk' mem src srcStride n k := by
  induction n generalizing wrk src with
  | zero =>
    refine ⟨wrk, 0, rfl,
      ⟨h.steady, .refl wrk, le_refl _, rfl, rfl, rfl, .inl rfl, fun h0 => absurd h0 (lt_irrefl _), ?_⟩⟩
    rw [drain_of_not h.quiet]
    rfl
  | succ n ih =>
    have hi : wrk.srcY < wrk.srcHeight := by omega
    have ho := h.steady.lt_dstHeight hi
    have hS := h.steady.ySub_pos
    have hl := (h.steady.lt_srcHeight ho h.quiet).1
    have hline := h.steady.lineIn ho hl (sourceRow mem src)
    have hsame := sameRun_lineIn wrk (sourceRow mem src)
    obtain ⟨hsrc, hdstY, hacc, hsub, hdst⟩ := wrk.lineIn_counts (sourceRow mem src)
    have hdivStep : (wrk.yAccum + wrk.ySub - 1) / wrk.ySub = (wrk.yAccum - 1) / wrk.ySub + 1 := by
      rw [show wrk.yAccum + wrk.ySub - 1 = wrk.yAccum - 1 + 1 * wrk.ySub by ring,
        Int.add_mul_ediv_right _ _ (by omega)]
    rw [webPRescalerImport, if_neg (by rw [h.quiet]; decide), importLine_eq h.steady.shaped hi]
    dsimp only
    by_cases hp : webPRescalerHasPendingOutput (wrk.lineIn (sourceRow mem src)) = true
    · -- The line completes a row: the call ends.
      have hrest : webPRescalerImport (wrk.lineIn (sourceRow mem src)) mem n (src + srcStride) srcStride =
          some (wrk.lineIn (sourceRow mem src), 0) := by
        cases n with
        | zero => rfl
        | succ n => rw [webPRescalerImport, if_pos hp]
      rw [hrest, Option.map_some]
      have hle := (pending_iff.mp hp).2
      rw [hacc] at hle
      refine ⟨_, 1, rfl, ⟨hline, hsame, by omega, hsrc, hdstY, hdst, .inr hp, fun _ => ⟨?_, one_pos⟩, ?_⟩⟩
      · have hone : (wrk.yAccum - 1) / wrk.ySub = 0 := Int.ediv_eq_zero_of_lt (by omega) (by omega)
        rw [neededLines_eq hS hl, hdivStep, hone]
        push_cast
        omega
      · rw [linesAt_succ]
        simp [WebPRescaler.feedAll, WebPRescaler.feed, linesAt]
    · have hq : webPRescalerHasPendingOutput (wrk.lineIn (sourceRow mem src)) = false := by simpa using hp
      obtain ⟨wrk', k, himp, hdone⟩ := @ih (wrk.lineIn (sourceRow mem src)) ⟨hline, hq⟩ (src + srcStride)
        (by rw [hsrc, hsame.srcHeight]; omega)
      rw [himp, Option.map_some]
      refine ⟨_, k + 1, rfl, ⟨hdone.steady, hsame.trans hdone.same, by have := hdone.le; omega,
        hdone.srcY.trans (by rw [hsrc]; ring), hdone.dstY.trans hdstY, hdone.dst.trans hdst,
        hdone.stopped.imp (fun h => by rw [h]) id, fun _ => ⟨?_, Nat.succ_pos _⟩, ?_⟩⟩
      · -- One line less is needed for the rest.
        have hpos : 0 < wrk.yAccum - wrk.ySub := by
          by_contra hle
          refine hp (pending_iff.mpr ⟨?_, ?_⟩)
          · rw [hdstY, hsame.dstHeight]
            exact ho
          · rw [hacc]
            exact not_lt.mp hle
        have hdivNext : (wrk.yAccum - 1) / wrk.ySub = (wrk.yAccum - wrk.ySub - 1) / wrk.ySub + 1 := by
          rw [show wrk.yAccum - 1 = wrk.yAccum - wrk.ySub - 1 + 1 * wrk.ySub by ring,
            Int.add_mul_ediv_right _ _ (by omega)]
        rw [neededLines_eq hS hl, hdivStep]
        rcases Nat.eq_zero_or_pos n with rfl | hnpos
        · have := hdone.le
          have h0 : k = 0 := by omega
          have : 0 ≤ (wrk.yAccum - 1) / wrk.ySub := Int.ediv_nonneg (by omega) (by omega)
          rw [h0]
          push_cast
          omega
        · have hk := (hdone.needed hnpos).1
          rw [neededLines_eq (by rw [hsub]; exact hS) (by rw [hacc]; exact hpos), hacc, hsub,
            show wrk.yAccum - wrk.ySub + wrk.ySub - 1 = wrk.yAccum - 1 by ring] at hk
          push_cast
          omega
      · have hfeed : wrk.feed (sourceRow mem src) = (wrk.lineIn (sourceRow mem src), []) := drain_of_not hq
        rw [linesAt_succ]
        simp only [WebPRescaler.feedAll, hfeed, List.nil_append]
        rw [hdone.fed]

/-- Sizes a rescaler can work with: the work area is a 32-bit size, and the
share of a source pixel in an output one is a 32-bit fraction. -/
structure Sizes (srcWidth srcHeight dstWidth dstHeight numChannels : ℕ) : Prop where
  srcWidth_pos : 0 < srcWidth
  srcHeight_pos : 0 < srcHeight
  dstWidth_pos : 0 < dstWidth
  dstHeight_pos : 0 < dstHeight
  numChannels_pos : 0 < numChannels
  work : 2 * dstWidth * numChannels * 4 < 2 ^ 32
  share : max srcWidth dstWidth * srcHeight ≤ dstHeight * 2 ^ 32

/-- A fresh rescaler waits for its first line. -/
theorem init_idle {srcWidth srcHeight dstWidth dstHeight numChannels : ℕ}
    (hs : Sizes srcWidth srcHeight dstWidth dstHeight numChannels) (rescaler : WebPRescaler) (dst dstStride : ℤ) :
    ∃ wrk, webPRescalerInit rescaler srcWidth srcHeight dst dstWidth dstHeight dstStride numChannels = some wrk ∧
      Idle wrk ∧ wrk.srcY = 0 ∧ wrk.dstY = 0 ∧ wrk.dst = dst ∧ wrk.srcWidth = srcWidth ∧
      wrk.srcHeight = srcHeight ∧ wrk.dstWidth = dstWidth ∧ wrk.dstHeight = dstHeight ∧
      wrk.numChannels = numChannels ∧
      wrk.dstStride = dstStride := by
  obtain ⟨h1, h2, h3, h4, h5, hwork, hshare⟩ := hs
  unfold webPRescalerInit
  dsimp only
  rw [if_neg (by unfold checkSizeOverflow; simpa using hwork)]
  generalize hxA : (if decide (srcWidth < dstWidth) then dstWidth - 1 else srcWidth) = xAdd
  generalize hxS : (if decide (srcWidth < dstWidth) then srcWidth - 1 else dstWidth) = xSub
  generalize hyA : (if decide (srcHeight < dstHeight) then srcHeight - 1 else srcHeight) = yAdd
  generalize hyS : (if decide (srcHeight < dstHeight) then dstHeight - 1 else dstHeight) = ySub
  simp only [decide_eq_true_eq] at hxA hxS hyA hyS
  refine ⟨_, rfl,
    ⟨⟨⟨h5, h1, h2, h3, h4, fun he => ?_, fun he => ?_, fun he => ?_, fun he => ?_⟩, ?_, ?_, ?_⟩, ?_⟩,
    rfl, rfl, rfl, rfl, rfl, rfl, rfl, rfl, rfl⟩
  · have he' : srcWidth < dstWidth := by simpa using he
    rw [if_pos he'] at hxA hxS
    exact ⟨he', hxA.symm, hxS.symm⟩
  · have he' : ¬ srcWidth < dstWidth := by simpa using he
    rw [if_neg he'] at hxA hxS
    exact ⟨not_lt.mp he', hxA.symm, hxS.symm⟩
  · have he' : srcHeight < dstHeight := by simpa using he
    rw [if_pos he'] at hyA hyS
    exact ⟨he', hyA.symm, hyS.symm⟩
  · have he' : ¬ srcHeight < dstHeight := by simpa using he
    rw [if_neg he'] at hyA hyS
    exact ⟨not_lt.mp he', hyA.symm, hyS.symm⟩
  · exact Pace.Due.start (by rw [yPace_ins]; exact Int.natCast_nonneg _)
  · unfold Pace.level
    rw [yPace_first]
    dsimp only
    split_ifs <;> simp
  · intro he hfxy
    have he' : ¬ srcHeight < dstHeight := by simpa using he
    rw [if_neg he'] at hyA
    subst hyA
    dsimp only at hfxy
    rw [if_neg (by simpa using he')] at hfxy
    have hxA' : 0 < xAdd := by split_ifs at hxA <;> omega
    have hden : 0 < xAdd * srcHeight := Nat.mul_pos hxA' h2
    have hshare' : xAdd * srcHeight ≤ dstHeight * 2 ^ 32 := by
      refine le_trans (Nat.mul_le_mul_right _ ?_) hshare
      split_ifs at hxA <;> omega
    have hbig : 2 ^ 32 ≤ dstHeight * 2 ^ 32 / (xAdd * srcHeight) := by
      by_contra hlt
      rw [if_neg (by rw [Nat.mod_eq_of_lt (not_le.mp hlt)]; simp)] at hfxy
      have := (Nat.div_pos hshare' hden).ne'
      exact this hfxy
    have hle : xAdd * srcHeight ≤ dstHeight := by
      have := (Nat.le_div_iff_mul_le hden).mp hbig
      nlinarith
    have hone : xAdd = 1 := by
      by_contra hne
      nlinarith [show 2 ≤ xAdd by omega]
    rw [hone, one_mul] at hle
    refine ⟨le_antisymm hle (not_lt.mp he'), hone, ?_⟩
    dsimp only
    rw [hone] at hxA
    split_ifs at hxA <;> omega
  · rw [← Bool.not_eq_true, pending_iff]
    rintro ⟨-, hle⟩
    dsimp only at hle
    split_ifs at hle with he
    · have he' : srcHeight < dstHeight := by simpa using he
      rw [if_pos he'] at hyS
      omega
    · have he' : ¬ srcHeight < dstHeight := by simpa using he
      rw [if_neg he'] at hyA
      omega

end WebPRescaler

end WebPlugin
