/-
# Rectangles on the output canvas

What `SCALE_DIM` does to the rectangles of an animation. They stay inside the
output canvas, whether or not a product wraps (`rects_inside`), but they are
the exact quotients only without wrapping (`placement_exact_iff`), and offset
and side rounded apart need not meet the rounded edge (`edges_meet_iff`). The
canvases have the size that `GetNext` counts on unless the number of bytes of a
row wraps (`canvases_fit_iff`).
-/
import WebPlugin.Block
import WebPlugin.Pixels

namespace WebPlugin

open Memory Ledger Words Scaling

/-! ### Inside the canvas -/

/-- The assertion of `ZeroFillFrameRect` holds for a frame's rectangle, whose
pixels are on the canvas, and the loops that blend and dispose it touch these
and no others: nothing outside the canvases, and no other pixel of theirs. -/
structure LoopsInside (dec : WebPAnimDecoder) (iter : WebPIterator) : Prop where
  assertion : i32 ((dec.rect iter).frmW * numChannels) ≤ i32 (dec.outW * numChannels)
  pixels : ∀ i j, (dec.rect iter).Has i j → OnCanvas dec.outW dec.outH i j
  decoded : ∀ codec env heap d, DecodeCall codec env dec heap iter d → d.mem.size = dec.currFrame.size
  rows : ∀ f (src dst : Buf) (n : ℕ), src.size = dec.currFrame.size → dst.size = src.size →
    n ≤ (dec.rect iter).frmH →
    (blendRows f src dst (dec.rect iter) dec.outW n).2 = false ∧
      Blended f dec.outW dec.outH src dst (fun i j => (dec.rect iter).Has i j ∧ j < (dec.rect iter).yOff + n)
        (blendRows f src dst (dec.rect iter) dec.outW n).1
  blend : ∀ key (canvas : Buf), canvas.size = dec.currFrame.size →
    (dec.blendFrame iter key canvas).2 = false ∧
      ∀ i j, OnCanvas dec.outW dec.outH i j → ¬ (dec.rect iter).Has i j →
        pixel (dec.blendFrame iter key canvas).1 dec.outW i j = pixel canvas dec.outW i j
  zeroFill : ∀ buf : Buf, buf.size = dec.currFrame.size →
    (zeroFillFrameRect buf (i32 (dec.outW * numChannels)) (dec.rect iter)).2 = false ∧
      ∀ i j, OnCanvas dec.outW dec.outH i j →
        pixel (zeroFillFrameRect buf (i32 (dec.outW * numChannels)) (dec.rect iter)).1 dec.outW i j =
          if (dec.rect iter).Has i j then 0 else pixel buf dec.outW i j
  dispose : ∀ canvas : Buf, canvas.size = dec.currFrame.size →
    ∃ prev, dec.disposeFrame iter canvas = some (prev, false) ∧ ∀ i j, OnCanvas dec.outW dec.outH i j →
      pixel prev dec.outW i j =
        if iter.disposeMethod = .background ∧ (dec.rect iter).Has i j then 0 else pixel canvas dec.outW i j

namespace Ready

variable {dec : WebPAnimDecoder} {iter : WebPIterator} {r : FrameRect}

theorem rect_has (hr : r.Within dec.outW dec.outH) {i j : ℤ} (h : r.Has i j) : OnCanvas dec.outW dec.outH i j := by
  obtain ⟨⟨hi, hi'⟩, hj, hj'⟩ := h
  have hx := hr.x
  have hy := hr.y
  have hright := hr.right
  have hbottom := hr.bottom
  exact ⟨⟨by omega, by omega⟩, by omega, by omega⟩

/-- The rows of a rectangle, as far as row `n`. -/
theorem blendRows_inside (hd : Ready dec) (hf : dec.Fits) (hr : r.Within dec.outW dec.outH) (f : BlendRowFunc)
    {src dst : Buf} {n : ℕ} (hs : src.size = dec.currFrame.size) (hdst : dst.size = src.size) (hn : n ≤ r.frmH) :
    (blendRows f src dst r dec.outW n).2 = false ∧
      Blended f dec.outW dec.outH src dst (fun i j => r.Has i j ∧ j < r.yOff + n)
        (blendRows f src dst r dec.outW n).1 := by
  have hsize : (src.size : ℤ) = 4 * dec.outW * dec.outH := hs ▸ hd.curr_size hf
  refine ⟨blendRows_stray hr hf hsize hdst n hn, ?_⟩
  refine (blendRows_blended f dst hr hf hsize n hn).congr fun i j _ => ?_
  rw [FrameRect.Has]
  omega

theorem blendFrame_outside (hd : Ready dec) (hf : dec.Fits) (hr : (dec.rect iter).Within dec.outW dec.outH) (key : Bool)
    {canvas : Buf} (hs : canvas.size = dec.currFrame.size) {i j : ℤ} (hc : OnCanvas dec.outW dec.outH i j)
    (hout : ¬ (dec.rect iter).Has i j) :
    pixel (dec.blendFrame iter key canvas).1 dec.outW i j = pixel canvas dec.outW i j := by
  unfold WebPAnimDecoder.blendFrame
  split_ifs
  · have hrows := (hd.blendRows_inside hf hr dec.blendFunc hs (hd.prev.trans hs.symm)
      (Int.toNat_of_nonneg hr.h).le).2
    exact hrows.outside i j hc fun h => hout h.1
  · rfl

/-- What is disposed is a copy, with the rectangle cleared where the frame asks
for it. -/
theorem pixel_disposed (hd : Ready dec) (hf : dec.Fits) (hr : (dec.rect iter).Within dec.outW dec.outH) {canvas : Buf}
    (hs : canvas.size = dec.currFrame.size) {i j : ℤ} (hc : OnCanvas dec.outW dec.outH i j) :
    pixel (dec.disposed iter canvas) dec.outW i j =
      if iter.disposeMethod = .background ∧ (dec.rect iter).Has i j then 0 else pixel canvas dec.outW i j := by
  have hcurr := hd.curr_size hf
  have hcopy : (dec.prevFrameDisposed.writeRow 0 dec.currFrame.size canvas.byte).Same canvas := by
    refine ⟨by rw [Buf.writeRow_size, hd.prev, hs], fun k hk => ?_⟩
    rw [Buf.writeRow_size] at hk
    exact Buf.writeRow_in (hd.prev ▸ hk) (by simp) hk
  have hprev : ((dec.prevFrameDisposed.writeRow 0 dec.currFrame.size canvas.byte).size : ℤ) =
      4 * dec.outW * dec.outH := by
    rw [Buf.writeRow_size, hd.prev]
    exact hcurr
  rw [WebPAnimDecoder.disposed]
  by_cases hbg : iter.disposeMethod = .background
  · simp only [hbg, if_true, true_and]
    rw [pixel_cleared hr hprev hc, pixel_same hcopy hprev hc]
  · simp only [hbg, if_false, false_and]
    exact pixel_same hcopy hprev hc

theorem loopsInside (hd : Ready dec) (hf : dec.Fits) (hi : IterFacts dec.demux iter) : LoopsInside dec iter := by
  obtain ⟨-, -, hr⟩ := hd.rect_within hi
  have hcurr := hd.curr_size hf
  constructor
  · have hstride := hd.stride_eq hf
    have hlt := hd.stride_lt hf
    have hx := hr.x
    have hw := hr.w
    have hright := hr.right
    rw [hstride, numChannels, i32_of_range (by push_cast; omega) (by push_cast; omega)]
    push_cast
    omega
  · exact fun i j h => rect_has hr h
  · rintro codec env heap d hcall
    obtain ⟨-, -, rfl⟩ := hd.decodeCall hcall
    exact (hd.decoded hi codec env heap).mem_size.1
  · exact fun f src dst n hs hdst hn => hd.blendRows_inside hf hr f hs hdst hn
  · exact fun key canvas hs => ⟨(hd.blendFrame_fit hf hi hs key).2, fun i j hc hout =>
      hd.blendFrame_outside hf hr key hs hc hout⟩
  · intro buf hs
    rw [hd.zeroFillFrameRect_fit hf hr hs]
    exact ⟨rfl, fun i j hc => pixel_cleared hr (hs ▸ hcurr) hc⟩
  · exact fun canvas hs => ⟨_, hd.disposeFrame_fit hf hi hs, fun i j hc => hd.pixel_disposed hf hr hs hc⟩

end Ready

/-- The scaled rectangle of a frame fits the scaled canvas, and the loops of
`GetNext` keep to it. -/
theorem rects_inside :
    (∀ x y w h W H outW outH : ℤ, 0 ≤ x → 0 ≤ y → 1 ≤ w → 1 ≤ h → x + w ≤ W → y + h ≤ H →
      W < 2 ^ 32 → H < 2 ^ 32 → 1 ≤ outW → outW < 2 ^ 31 → 1 ≤ outH → outH < 2 ^ 31 →
      (0 ≤ scaleDim x W outW ∧ 0 ≤ scaleDim w W outW ∧
        scaleDim x W outW + scaleDim w W outW ≤ outW) ∧
      0 ≤ scaleDim y H outH ∧ 0 ≤ scaleDim h H outH ∧
        scaleDim y H outH + scaleDim h H outH ≤ outH) ∧
    ∀ {codec grants data dmux options heap heap' dec₀ dec iter canvas}, Accepted data dmux →
      IntOptions options → webPAnimDecoderNew grants data options heap = (some dec₀, heap') →
      Reach codec dec₀ dec → dec.Frame iter → dec.startCanvas (dec.isKey iter) = some canvas →
      LoopsInside dec iter := by
  constructor
  · intro x y w h W H outW outH hx hy hw hh hr hb hW hH hsw hsw' hsh hsh'
    have ax : OnAxis x w W outW := ⟨hx, by omega, hr, by omega, by omega, by omega⟩
    have ay : OnAxis y h H outH := ⟨hy, by omega, hb, by omega, by omega, by omega⟩
    exact ⟨⟨ax.start_nonneg, ax.side_nonneg, ax.inside⟩, ay.start_nonneg, ay.side_nonneg, ay.inside⟩
  · intro codec grants data dmux options heap heap' dec₀ dec iter canvas ha ho hnew hr hframe hstart
    have hd := hr.ready (ready_of_new ha ho hnew).1
    have hf : dec.Fits := by
      by_contra hf
      rw [hd.startCanvas_unfit hf] at hstart
      cases hstart
    exact hd.loopsInside hf (hd.iterFacts hframe).2

theorem badge_rects_inside :
    scaleDim 65000 70000 70000 + scaleDim 5000 70000 70000 ≤ 70000 ∧
      ∃ dec iter, LoopsInside dec iter := by
  obtain ⟨dmux, dec, iter, ha, hnew, hf, hframe⟩ := badge_plays { scaledWidth := 48, scaledHeight := 20 }
    (by decide +kernel)
  have hready := (ready_of_new ha ⟨by decide, by decide⟩ hnew).1
  have h := rects_inside.1 65000 0 5000 1 70000 1 70000 1 (by decide) (by decide) (by decide) (by decide)
    (by decide) (by decide) (by decide) (by decide) (by decide) (by decide) (by decide) (by decide)
  exact ⟨h.1.2.2, dec, iter, rects_inside.2 ha ⟨by decide, by decide⟩ hnew (.refl : Reach .black dec dec) hframe
    (hready.startCanvas_fit hf _)⟩

/-! ### The canvases -/

/-- `ZeroFillCanvas` and `CopyCanvas`, as `GetNext` calls them, stay in the
canvases. -/
structure CanvasesSafe (dec : WebPAnimDecoder) : Prop where
  zero : ∀ b stray, zeroFillCanvas dec.currFrame (u32 dec.outW) (u32 dec.outH) = some (b, stray) →
    stray = false
  restore : ∀ b stray, copyCanvas dec.prevFrameDisposed dec.currFrame (u32 dec.outW) (u32 dec.outH) =
    some (b, stray) → stray = false
  save : ∀ b stray, copyCanvas dec.currFrame dec.prevFrameDisposed (u32 dec.outW) (u32 dec.outH) =
    some (b, stray) → stray = false

theorem Ready.canvasesSafe {dec : WebPAnimDecoder} (hd : Ready dec) : CanvasesSafe dec := by
  by_cases hf : dec.Fits
  · have hsize := hd.canvasSize_fit hf
    have hprev := hd.prev
    constructor <;> intro b stray h
    · simp only [zeroFillCanvas, hsize, Option.ite_none_left_eq_some, Option.some.injEq,
        Prod.mk.injEq] at h
      simpa using h.2.2.symm
    · rw [hd.copyCanvas_fit hf hprev rfl] at h
      exact (Prod.mk.inj (Option.some.inj h)).2.symm
    · rw [hd.copyCanvas_fit hf rfl hprev] at h
      exact (Prod.mk.inj (Option.some.inj h)).2.symm
  · have hc : checkSizeOverflow (canvasSize (u32 dec.outW) (u32 dec.outH)) = false := by
      rw [← Bool.not_eq_true, hd.check_iff]
      exact hf
    constructor <;> intro b stray h <;> simp [zeroFillCanvas, copyCanvas, hc] at h

/-- A decoder is made although the bytes of a row of its canvas are more than an
`int` holds: what is left of their number after it has wrapped can be allocated,
twice. -/
structure RowWraps (grants : Grants) (data : WebPData) (options : WebPAnimDecoderOptions) (heap : Heap ObjectKind) :
    Prop where
  width : 2 ^ 30 ≤ options.scaledWidth
  height : 0 < options.scaledHeight
  size : (4 * options.scaledWidth - 2 ^ 32) * options.scaledHeight ≤ maxAllocableMemory
  features : (webPGetFeatures data).1 = .ok
  mode : options.colorMode = .RGBA ∨ options.colorMode = .BGRA ∨ options.colorMode = .rgbA ∨
    options.colorMode = .bgrA
  granted : NewGranted grants heap ((4 * options.scaledWidth - 2 ^ 32) * options.scaledHeight).toNat

section

variable {grants : Grants} {data : WebPData} {dmux : WebPDemuxer} {options : WebPAnimDecoderOptions}
  {heap heap' : Heap ObjectKind} {dec₀ : WebPAnimDecoder} {sw sh : ℤ}

/-- A row that wraps is allocable when what is left of it is. -/
theorem wrapped_row (hw : 2 ^ 30 ≤ sw) (hw' : sw < 2147483648) (hh : 0 < sh) (hh' : sh < 2147483648) :
    (u64 (i32 (sw * numChannels)) * u32 sh ≤ maxAllocableMemory →
      ((4 * sw - 2 ^ 32) * sh ≤ maxAllocableMemory ∧
        u64 (i32 (sw * numChannels)) * u32 sh = ((4 * sw - 2 ^ 32) * sh).toNat)) ∧
    ((4 * sw - 2 ^ 32) * sh ≤ maxAllocableMemory →
      checkSizeArgumentsOverflow (u64 (i32 (sw * numChannels))) (u32 sh) = true) := by
  have hmax : (maxAllocableMemory : ℤ) = 2147418112 := rfl
  have hmem : sw * (numChannels : ℕ) = 4 * sw := by
    rw [numChannels]
    push_cast
    ring
  have hsh : (u32 sh : ℤ) = sh := u32_of_range hh.le (by omega)
  have h0 : 0 ≤ (4 * sw - 2 ^ 32) * sh := mul_nonneg (by omega) hh.le
  have hle : 4 * sw - 2 ^ 32 ≤ (4 * sw - 2 ^ 32) * sh := le_mul_of_one_le_right (by omega) hh
  rw [hmem]
  by_cases hneg : sw < 1610612736
  · have hrow : (u64 (i32 (4 * sw)) : ℤ) = 4 * sw - 2 ^ 32 := by
      have hi : i32 (4 * sw) = 4 * sw - 2 ^ 32 := by
        unfold i32
        omega
      rw [hi]
      exact u64_of_range (by omega) (by omega)
    have hprod : u64 (i32 (4 * sw)) * u32 sh = ((4 * sw - 2 ^ 32) * sh).toNat := by
      zify
      rw [hrow, hsh, Int.toNat_of_nonneg h0]
    refine ⟨fun hsize => ⟨by omega, hprod⟩, fun hsize => ?_⟩
    generalize u64 (i32 (4 * sw)) = n at hprod
    generalize u32 sh = m at hprod
    unfold checkSizeArgumentsOverflow
    split_ifs with hzero hlarge
    · rfl
    · rw [Nat.div_lt_iff_lt_mul (Nat.pos_of_ne_zero hzero), mul_comm] at hlarge
      omega
    · rw [checkSizeOverflow, decide_eq_true_eq, hprod, Nat.mod_eq_of_lt (by omega)]
      omega
  · -- The number of bytes is negative as an `int`, and far too large as a word.
    have hrow : 18446744071562067968 ≤ u64 (i32 (4 * sw)) := by
      unfold i32 u64
      omega
    have hpos : 1 ≤ u32 sh := by omega
    have hlarge := Nat.mul_le_mul hrow hpos
    exact ⟨fun hsize => by omega, fun hsize => by omega⟩

theorem RowWraps.of_new (ha : Accepted data dmux) (ho : IntOptions options)
    (hnew : webPAnimDecoderNew grants data options heap = (some dec₀, heap')) (hw : 2 ^ 30 ≤ options.scaledWidth)
    (hh : 0 < options.scaledHeight) : RowWraps grants data options heap := by
  obtain ⟨-, -, ⟨f, happly, -⟩, hcurr, -, hle, -⟩ := webPAnimDecoderNew_some hnew
  obtain ⟨hfeatures, hgranted⟩ := newGranted_of_new hnew
  have hr : Reach .black dec₀ dec₀ := .refl
  obtain ⟨-, -, -, hW, hH⟩ := hr.out ha ho hnew
  rw [if_pos ⟨by omega, hh⟩] at hW hH
  rw [hW, hH] at hcurr hle
  obtain ⟨hsize, hprod⟩ := (wrapped_row hw ho.width hh ho.height).1 hle
  rw [hcurr, hprod] at hgranted
  refine ⟨hw, hh, hsize, hfeatures, ?_, hgranted⟩
  by_contra hmode
  rw [not_or, not_or, not_or] at hmode
  rw [applyDecoderOptions, if_pos hmode] at happly
  cases happly

/-- Options that ask for a scaled canvas, in a mode of four bytes. -/
theorem applyDecoderOptions_scaled (hmode : options.colorMode = .RGBA ∨ options.colorMode = .BGRA ∨
    options.colorMode = .rgbA ∨ options.colorMode = .bgrA)
    (hscaled : 0 < options.scaledWidth ∧ 0 < options.scaledHeight) :
    ∃ f config, applyDecoderOptions options = some (f, config, options.scaledWidth, options.scaledHeight) := by
  unfold applyDecoderOptions
  dsimp only
  rw [if_neg (by rintro ⟨h1, h2, h3, h4⟩; simp only [h1, h2, h3, h4, or_self] at hmode)]
  simp only [hscaled, and_self, decide_true, if_true]
  exact ⟨_, _, rfl⟩

theorem RowWraps.new (ha : Accepted data dmux) (ho : IntOptions options) (h : RowWraps grants data options heap) :
    ∃ dec, (webPAnimDecoderNew grants data options heap).1 = some dec := by
  have hscaled : 0 < options.scaledWidth ∧ 0 < options.scaledHeight := ⟨by have := h.width; omega, h.height⟩
  obtain ⟨f, config, happly⟩ := applyDecoderOptions_scaled h.mode hscaled
  have hrow := wrapped_row h.width ho.width h.height ho.height
  have hcheck := hrow.2 h.size
  refine new_of_newGranted h.features ha.demux happly (by rw [if_pos hscaled.1]) (by rw [if_pos hscaled.2]) hcheck ?_
  rw [(hrow.1 (mul_le_of_check hcheck)).2]
  exact h.granted

/-- `WebPAnimDecoderNew` returns NULL or a decoder whose canvases hold exactly
the canvas that `GetNext` works on, unless a row wraps. Filling and copying the
canvases is safe always. -/
theorem canvases_fit_iff (ha : Accepted data dmux) (ho : IntOptions options) :
    (((webPAnimDecoderNew grants data options heap).1 = none ∨
        ∃ dec₀, (webPAnimDecoderNew grants data options heap).1 = some dec₀ ∧ ∀ codec dec,
          Reach codec dec₀ dec →
          ((dec.currFrame.size : ℤ) = 4 * dec.outW * dec.outH ∧
            (dec.prevFrameDisposed.size : ℤ) = 4 * dec.outW * dec.outH) ∧ CanvasesSafe dec) ↔
      ¬ RowWraps grants data options heap) ∧
    ∀ codec dec₀ dec, (webPAnimDecoderNew grants data options heap).1 = some dec₀ → Reach codec dec₀ dec →
      CanvasesSafe dec := by
  have hw := ha.canvas.width
  have hsafe : ∀ codec dec₀ dec, (webPAnimDecoderNew grants data options heap).1 = some dec₀ →
      Reach codec dec₀ dec → CanvasesSafe dec := fun codec dec₀ dec hnew hr =>
    (hr.out ha ho (Prod.ext hnew rfl)).1.canvasesSafe
  refine ⟨?_, hsafe⟩
  have hexact : ∀ codec dec₀ dec, (webPAnimDecoderNew grants data options heap).1 = some dec₀ →
      Reach codec dec₀ dec → ((dec.currFrame.size : ℤ) = 4 * dec.outW * dec.outH ↔
        ¬ (2 ^ 30 ≤ options.scaledWidth ∧ 0 < options.scaledHeight)) := fun codec dec₀ dec hnew hr => by
    obtain ⟨hd, -, -, hW, -⟩ := hr.out ha ho (Prod.ext hnew rfl)
    rw [hd.curr_size_iff, hW]
    split_ifs <;> omega
  constructor
  · rintro hall hwraps
    obtain ⟨dec, hnew⟩ := hwraps.new ha ho
    rcases hall with hnone | ⟨dec₀, hsome, hall⟩
    · rw [hnew] at hnone
      cases hnone
    · have hr : Reach .black dec₀ dec₀ := .refl
      exact (hexact _ _ _ hsome hr).mp (hall _ _ hr).1.1 ⟨hwraps.width, hwraps.height⟩
  · intro hno
    rcases hnew : (webPAnimDecoderNew grants data options heap).1 with _ | dec₀
    · exact .inl rfl
    · refine .inr ⟨dec₀, rfl, fun codec dec hr => ?_⟩
      have hcurr := (hexact codec dec₀ dec hnew hr).mpr fun hwide =>
        hno (.of_new ha ho (Prod.ext hnew rfl) hwide.1 hwide.2)
      have hprev := (hr.out ha ho (Prod.ext hnew rfl)).1.prev
      exact ⟨⟨hcurr, hprev ▸ hcurr⟩, hsafe codec dec₀ dec hnew hr⟩

end

/-- A canvas of `32 × 32` is exact; one wide enough for its row to wrap is not,
unless an allocation is refused. -/
theorem badge_canvases_fit :
    (∃ dec₀, (webPAnimDecoderNew Env.fine.grants badge { scaledWidth := 32, scaledHeight := 32 } Heap.empty).1 =
      some dec₀ ∧ ∀ codec dec, Reach codec dec₀ dec →
        (dec.currFrame.size : ℤ) = 4 * dec.outW * dec.outH) ∧
    ¬ RowWraps Env.fine.grants badge { scaledWidth := 1610612736, scaledHeight := 1 } Heap.empty ∧
    RowWraps Env.fine.grants badge { scaledWidth := 1073741825, scaledHeight := 1 } Heap.empty := by
  obtain ⟨dmux, ha⟩ := badge_accepted
  have hsmall := (@canvases_fit_iff Env.fine.grants badge dmux { scaledWidth := 32, scaledHeight := 32 } Heap.empty ha
    ⟨by decide, by decide⟩).1.mpr fun h => absurd h.width (by decide)
  have hmade : (webPAnimDecoderNew Env.fine.grants badge { scaledWidth := 32, scaledHeight := 32 } Heap.empty).1 ≠
      none := by
    rw [← Option.isSome_iff_ne_none]
    decide +kernel
  have hnone : (webPAnimDecoderNew Env.fine.grants badge { scaledWidth := 1610612736, scaledHeight := 1 }
      Heap.empty).1 = none := by
    rw [← Option.isNone_iff_eq_none]
    decide +kernel
  obtain ⟨dec₀, hdec, hall⟩ := hsmall.resolve_left hmade
  exact ⟨⟨dec₀, hdec, fun codec dec hr => (hall codec dec hr).1.1⟩,
    (@canvases_fit_iff Env.fine.grants badge dmux { scaledWidth := 1610612736, scaledHeight := 1 } Heap.empty ha
      ⟨by decide, by decide⟩).1.mp (.inl hnone),
    ⟨by decide, by decide, by decide, by decide +kernel, by decide, ⟨rfl, rfl, rfl, rfl⟩⟩⟩

/-- A row of `2 ^ 30 + 1` pixels gets four bytes. -/
theorem wide_canvas_is_short : (∃ dmux, Accepted badge dmux) ∧ ∃ dec,
    webPAnimDecoderNew Env.fine.grants badge { scaledWidth := 1073741825, scaledHeight := 1 } Heap.empty =
      (some dec, (webPAnimDecoderNew Env.fine.grants badge
        { scaledWidth := 1073741825, scaledHeight := 1 } Heap.empty).2) ∧
    dec.currFrame.size = 4 ∧ dec.outW = 1073741825 ∧ dec.outH = 1 := by
  have h : (webPAnimDecoderNew Env.fine.grants badge { scaledWidth := 1073741825, scaledHeight := 1 }
      Heap.empty).1.any fun dec => dec.currFrame.size = 4 ∧ dec.outW = 1073741825 ∧ dec.outH = 1 := by
    decide +kernel
  obtain ⟨dec, hnew, hsize⟩ := webPAnimDecoderNew_any h
  exact ⟨badge_accepted, dec, hnew, of_decide_eq_true hsize⟩

/-! ### Exact placement -/

/-- The rectangle of a frame is the exact quotient, its own without scaling. -/
structure ExactRect (dec : WebPAnimDecoder) (iter : WebPIterator) : Prop where
  x : (dec.rect iter).xOff = iter.xOffset * dec.outW / dec.info.canvasWidth
  y : (dec.rect iter).yOff = iter.yOffset * dec.outH / dec.info.canvasHeight
  w : (dec.rect iter).frmW = iter.width * dec.outW / dec.info.canvasWidth
  h : (dec.rect iter).frmH = iter.height * dec.outH / dec.info.canvasHeight
  own : dec.outCanvasW = 0 → dec.rect iter = ⟨iter.xOffset, iter.yOffset, iter.width, iter.height⟩

/-- The four products of a frame on an output canvas of `W × H` are 32-bit words. -/
structure ProductsFit (iter : WebPIterator) (W H : ℤ) : Prop where
  x : iter.xOffset * W < 4294967296
  y : iter.yOffset * H < 4294967296
  w : iter.width * W < 4294967296
  h : iter.height * H < 4294967296

theorem Ready.exactRect_iff {dec : WebPAnimDecoder} {iter : WebPIterator} (hd : Ready dec)
    (hi : IterFacts dec.demux iter) : ExactRect dec iter ↔ ProductsFit iter dec.outW dec.outH := by
  obtain ⟨ax, ay, -⟩ := hd.rect_within hi
  constructor
  · intro h
    exact ⟨ax.start_exact_iff.mp h.x, ay.start_exact_iff.mp h.y, ax.side_exact_iff.mp h.w,
      ay.side_exact_iff.mp h.h⟩
  · rintro ⟨px, py, pw, ph⟩
    have ex := ax.start_exact_iff.mpr px
    have ey := ay.start_exact_iff.mpr py
    have ew := ax.side_exact_iff.mpr pw
    have eh := ay.side_exact_iff.mpr ph
    refine ⟨ex, ey, ew, eh, fun hs => ?_⟩
    obtain ⟨hW, hH⟩ := hd.out_unscaled hs
    have hW0 := ax.full_pos.ne'
    have hH0 := ay.full_pos.ne'
    rw [WebPAnimDecoder.rect, ex, ey, ew, eh, hW, hH, hd.width, hd.height]
    rw [hd.width] at hW0
    rw [hd.height] at hH0
    rw [Int.mul_ediv_cancel _ hW0, Int.mul_ediv_cancel _ hH0, Int.mul_ediv_cancel _ hW0,
      Int.mul_ediv_cancel _ hH0]

/-- In every run, the scalings that `GetNext` does for a frame are exact just
when their products do not wrap. -/
theorem placement_exact_iff {codec : Codec} {grants : Grants} {data : WebPData} {dmux : WebPDemuxer}
    {options : WebPAnimDecoderOptions} {heap heap' : Heap ObjectKind} {dec₀ dec : WebPAnimDecoder}
    {iter : WebPIterator} {canvas : Buf × Bool} (ha : Accepted data dmux) (ho : IntOptions options)
    (hnew : webPAnimDecoderNew grants data options heap = (some dec₀, heap'))
    (hr : Reach codec dec₀ dec) (hframe : dec.Frame iter)
    (_hstart : dec.startCanvas (dec.isKey iter) = some canvas) :
    ExactRect dec iter ↔ ProductsFit iter
      (if 0 < options.scaledWidth ∧ 0 < options.scaledHeight then options.scaledWidth
        else dmux.canvasWidth)
      (if 0 < options.scaledWidth ∧ 0 < options.scaledHeight then options.scaledHeight
        else dmux.canvasHeight) := by
  obtain ⟨hd, -, -, hW, hH⟩ := hr.out ha ho hnew
  have h := hd.exactRect_iff (hd.iterFacts hframe).2
  rwa [hW, hH] at h

/-- Every product of a frame of this size is small. -/
theorem badge_exact : ∃ dec iter, dec.Frame iter ∧ ExactRect dec iter := by
  obtain ⟨dmux, dec, iter, ha, hnew, hf, hframe⟩ := badge_plays { scaledWidth := 48, scaledHeight := 20 }
    (by decide +kernel)
  obtain ⟨hready, hdmux⟩ := ready_of_new ha ⟨by decide, by decide⟩ hnew
  obtain ⟨hW, hH⟩ := badge_size ha
  have hi := (hready.iterFacts hframe).2
  rw [hdmux] at hi
  have hx := hi.x; have hy := hi.y
  have hw := hi.width; have hh := hi.height
  have hright := hi.right; have hbottom := hi.bottom
  exact ⟨dec, iter, hframe,
    (placement_exact_iff ha ⟨by decide, by decide⟩ hnew (.refl : Reach .black dec dec) hframe
    (hready.startCanvas_fit hf _)).mpr ⟨by simp; omega, by simp; omega, by simp; omega, by simp; omega⟩⟩

/-- One row, seventy thousand pixels long, with a small frame near its end. -/
def banner : WebPData := Files.animation 70000 1 [{ x := 65000, y := 0, w := 16, h := 1 }]

/-- Without any scaling that frame is drawn at column 3643. -/
theorem banner_misplaced : ∃ dmux dec iter, Accepted banner dmux ∧
    webPAnimDecoderNew Env.fine.grants banner {} Heap.empty =
      (some dec, (webPAnimDecoderNew Env.fine.grants banner {} Heap.empty).2) ∧
    dec.Frame iter ∧ (dec.startCanvas (dec.isKey iter)).isSome ∧ iter.xOffset = 65000 ∧
    (dec.rect iter).xOff = 3643 ∧ ¬ ExactRect dec iter := by
  have hdmux : (webPDemux banner).any fun dmux => hasFlag dmux.featureFlags animationFlag := by
    decide +kernel
  have hnew : (webPAnimDecoderNew Env.fine.grants banner {} Heap.empty).1.any fun dec =>
      decide (dec.outCanvasW = 0) && dec.hasMoreFrames &&
        (webPDemuxGetFrame dec.demux dec.nextFrame).any fun iter =>
          (dec.startCanvas (dec.isKey iter)).isSome && decide (iter.xOffset = 65000) &&
            decide ((dec.rect iter).xOff = 3643) := by
    decide +kernel
  obtain ⟨dmux, hd, hflag⟩ := (Option.any_eq_true _ _).mp hdmux
  obtain ⟨dec, hnew', hrun⟩ := webPAnimDecoderNew_any hnew
  simp only [Bool.and_eq_true, decide_eq_true_eq] at hrun
  obtain ⟨⟨hs, hmore⟩, hget⟩ := hrun
  obtain ⟨iter, hiter, hx⟩ := (Option.any_eq_true _ _).mp hget
  simp only [Bool.and_eq_true, decide_eq_true_eq] at hx
  obtain ⟨⟨hstart, hx⟩, hoff⟩ := hx
  refine ⟨dmux, dec, iter, ⟨hd, hflag⟩, hnew', ⟨hmore, hiter⟩, hstart, hx, hoff, fun h => ?_⟩
  have hown : (dec.rect iter).xOff = iter.xOffset := by rw [h.own hs]
  omega

/-! ### Edges -/

/-- A rectangle as `GetNext` draws it on a canvas scaled from `W × H` to `sw × sh`. -/
def drawn (W H sw sh : ℕ) (r : Rect) : Rect :=
  ⟨(scaleDim r.x W sw).toNat, (scaleDim r.y H sh).toNat, (scaleDim r.w W sw).toNat,
    (scaleDim r.h H sh).toNat⟩

/-- The drawn rectangle ends where the frame's right and bottom edges scale to. -/
structure EdgesMeet (W H sw sh : ℕ) (r : Rect) : Prop where
  right : scaleDim r.x W sw + scaleDim r.w W sw = scaleDim (r.x + r.w : ℕ) W sw
  bottom : scaleDim r.y H sh + scaleDim r.h H sh = scaleDim (r.y + r.h : ℕ) H sh

/-- The remainders of offset and side do not carry. -/
structure NoCarry (W H sw sh : ℕ) (r : Rect) : Prop where
  horizontal : r.x * sw % W + r.w * sw % W < W
  vertical : r.y * sh % H + r.h * sh % H < H

/-- A frame of a `W × H` canvas whose products are 32-bit words. -/
structure Placed (W H sw sh : ℕ) (r : Rect) : Prop where
  inside : r.Inside W H
  nonempty : 0 < r.w ∧ 0 < r.h
  words : (r.x + r.w) * sw < 2 ^ 32 ∧ (r.y + r.h) * sh < 2 ^ 32

/-- `SCALE_DIM` is the scaling of edges while the product is a word. -/
theorem scaleDim_scale {v full scaled : ℕ} (h0 : 0 < full) (hv : v ≤ full) (hf : full < 2 ^ 32)
    (hs : scaled < 2 ^ 31) (hp : v * scaled < 2 ^ 32) : scaleDim v full scaled = scale full scaled v := by
  rw [scaleDim_eq (by omega) (by omega) (by omega) (by omega) (by omega) (by omega), scale]
  have : ((v * scaled : ℕ) : ℤ) % 4294967296 = (v * scaled : ℕ) := Int.emod_eq_of_lt (by omega) (by omega)
  push_cast at this ⊢
  rw [this]

section

variable {W H sw sh : ℕ} {r : Rect}

/-- On one axis: the three scalings, and when they meet. -/
theorem axis_meets_iff {x w full scaled : ℕ} (h0 : 0 < full) (hi : x + w ≤ full) (hf : full < 2 ^ 32)
    (hs : scaled < 2 ^ 31) (hp : (x + w) * scaled < 2 ^ 32) :
    (scaleDim x full scaled = scale full scaled x ∧ scaleDim w full scaled = scale full scaled w ∧
      scaleDim (x + w : ℕ) full scaled = scale full scaled (x + w)) ∧
    (scaleDim x full scaled + scaleDim w full scaled = scaleDim (x + w : ℕ) full scaled ↔
      x * scaled % full + w * scaled % full < full) := by
  have hx : x * scaled ≤ (x + w) * scaled := Nat.mul_le_mul_right _ (by omega)
  have hw : w * scaled ≤ (x + w) * scaled := Nat.mul_le_mul_right _ (by omega)
  have e1 := scaleDim_scale (v := x) h0 (by omega) hf hs (by omega)
  have e2 := scaleDim_scale (v := w) h0 (by omega) hf hs (by omega)
  have e3 := scaleDim_scale (v := x + w) h0 (by omega) hf hs hp
  refine ⟨⟨e1, e2, e3⟩, ?_⟩
  rw [e1, e2, e3, ← scale_add_iff h0]
  exact_mod_cast Iff.rfl

/-- Scaled rectangles keep their edges just when no remainders carry. Frames
that keep them reach the edges of the canvas, share edges as before, and cover
the scaled canvas when they cover the canvas. -/
theorem edges_meet_iff (hW : 0 < W) (hH : 0 < H) (hW' : W < 2 ^ 32) (hH' : H < 2 ^ 32)
    (hsw' : sw < 2 ^ 31) (hsh' : sh < 2 ^ 31) :
    (∀ r, Placed W H sw sh r → (EdgesMeet W H sw sh r ↔ NoCarry W H sw sh r)) ∧
    (∀ r, Placed W H sw sh r → NoCarry W H sw sh r →
      (r.x + r.w = W → (drawn W H sw sh r).x + (drawn W H sw sh r).w = sw) ∧
      (r.y + r.h = H → (drawn W H sw sh r).y + (drawn W H sw sh r).h = sh)) ∧
    (∀ r r', Placed W H sw sh r → Placed W H sw sh r' → NoCarry W H sw sh r →
      (r.x + r.w = r'.x → (drawn W H sw sh r).x + (drawn W H sw sh r).w = (drawn W H sw sh r').x) ∧
      (r.y + r.h = r'.y → (drawn W H sw sh r).y + (drawn W H sw sh r).h = (drawn W H sw sh r').y)) ∧
    ∀ rs : List Rect, (∀ r ∈ rs, Placed W H sw sh r ∧ NoCarry W H sw sh r) → Covers rs W H →
      Covers (rs.map (drawn W H sw sh)) sw sh := by
  have hx : ∀ r, Placed W H sw sh r → _ := fun r hr =>
    axis_meets_iff hW hr.inside.1 hW' hsw' hr.words.1
  have hy : ∀ r, Placed W H sw sh r → _ := fun r hr =>
    axis_meets_iff hH hr.inside.2 hH' hsh' hr.words.2
  have hdraw : ∀ r, Placed W H sw sh r → NoCarry W H sw sh r →
      (drawn W H sw sh r).x = scale W sw r.x ∧
        (drawn W H sw sh r).x + (drawn W H sw sh r).w = scale W sw (r.x + r.w) ∧
        (drawn W H sw sh r).y = scale H sh r.y ∧
        (drawn W H sw sh r).y + (drawn W H sw sh r).h = scale H sh (r.y + r.h) := by
    intro r hr hc
    obtain ⟨⟨a1, a2, -⟩, -⟩ := hx r hr
    obtain ⟨⟨b1, b2, -⟩, -⟩ := hy r hr
    have ha := (scale_add_iff hW sw r.x r.w).mpr hc.horizontal
    have hb := (scale_add_iff hH sh r.y r.h).mpr hc.vertical
    simp only [drawn, a1, a2, b1, b2, Int.toNat_natCast]
    exact ⟨trivial, ha, trivial, hb⟩
  refine ⟨fun r hr => ?_, fun r hr hc => ?_, fun r r' hr hr' hc => ?_, fun rs hrs hcov => ?_⟩
  · exact ⟨fun ⟨h1, h2⟩ => ⟨(hx r hr).2.mp h1, (hy r hr).2.mp h2⟩,
      fun ⟨h1, h2⟩ => ⟨(hx r hr).2.mpr h1, (hy r hr).2.mpr h2⟩⟩
  · obtain ⟨-, h2, -, h4⟩ := hdraw r hr hc
    exact ⟨fun he => by rw [h2, he, scale_self hW], fun he => by rw [h4, he, scale_self hH]⟩
  · obtain ⟨-, h2, -, h4⟩ := hdraw r hr hc
    obtain ⟨⟨a1, -⟩, -⟩ := hx r' hr'
    obtain ⟨⟨b1, -⟩, -⟩ := hy r' hr'
    refine ⟨fun he => ?_, fun he => ?_⟩
    · rw [h2, he, drawn, a1, Int.toNat_natCast]
    · rw [h4, he, drawn, b1, Int.toNat_natCast]
  · exact covers_of_edges hW hH _ (fun r hr => hdraw r (hrs r hr).1 (hrs r hr).2) hcov

end

theorem quarters_edges_meet : EdgesMeet 4 4 2 2 ⟨2, 0, 2, 4⟩ :=
  (edges_meet_iff (by decide) (by decide) (by decide) (by decide) (by decide) (by decide)).1 ⟨2, 0, 2, 4⟩
    ⟨⟨by decide, by decide⟩, ⟨by decide, by decide⟩, by decide, by decide⟩
    |>.mpr ⟨by decide, by decide⟩

/-- Two halves of a canvas of 4 × 4 pixels, scaled to 3 × 3: the right one ends
at column 2, and column 2 is in neither. -/
theorem halves_leave_column : EdgesMeet 4 4 3 3 ⟨0, 0, 2, 4⟩ ∧ Placed 4 4 3 3 ⟨2, 0, 2, 4⟩ ∧
    ¬ EdgesMeet 4 4 3 3 ⟨2, 0, 2, 4⟩ ∧ Covers [⟨0, 0, 2, 4⟩, ⟨2, 0, 2, 4⟩] 4 4 ∧
    ¬ Covers ([⟨0, 0, 2, 4⟩, ⟨2, 0, 2, 4⟩].map (drawn 4 4 3 3)) 3 3 := by
  refine ⟨⟨by decide +kernel, by decide +kernel⟩,
    ⟨⟨by decide, by decide⟩, ⟨by decide, by decide⟩, by decide,
    by decide⟩, fun h => absurd h.right (by decide +kernel), ?_, ?_⟩
  · unfold Covers
    decide
  · unfold Covers
    decide +kernel

end WebPlugin
