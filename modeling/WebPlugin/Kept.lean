/-
# The anim decoder kept

`ensureAnimDecoder` hands out the anim decoder that is kept, or one made for
the output size, or none (`Ensured`), and `getFrame` on an animation goes on
from there (`GotAnimated`). Whatever the calls, the anim decoder kept was made
for the size remembered with it and has come some frames on since (`KeptAt`).
-/
import WebPlugin.Replay
import WebPlugin.Delays

namespace WebPlugin

open Memory Ledger Words

namespace WebPDecoder

/-- `scaling ? outW : 0`. -/
def scaleW (d : WebPDecoder) (outW outH : ℤ) : ℤ := if outW ≠ d.width ∨ outH ≠ d.height then outW else 0

/-- `scaling ? outH : 0`. -/
def scaleH (d : WebPDecoder) (outW outH : ℤ) : ℤ := if outW ≠ d.width ∨ outH ≠ d.height then outH else 0

/-- The heap once the anim decoder kept is deleted. -/
def forget (d : WebPDecoder) (heap : Heap ObjectKind) : Heap ObjectKind :=
  d.animDecoder.elim heap fun dec => webPAnimDecoderDelete dec.blocks heap

/-- What `ensureAnimDecoder` leaves. -/
inductive Ensured (grants : Grants) (d : WebPDecoder) (w h : ℤ) (heap : Heap ObjectKind) :
    Option WebPAnimDecoder × WebPDecoder × Heap ObjectKind → Prop
  | kept {dec : WebPAnimDecoder} (live : d.animDecoder = some dec) (size : d.animScaleW = w ∧ d.animScaleH = h) :
      Ensured grants d w h heap (some dec, d, heap)
  | none {heap' : Heap ObjectKind} (stale : d.animDecoder = none ∨ ¬ (d.animScaleW = w ∧ d.animScaleH = h))
      (refused : webPAnimDecoderNew grants d.srcBytes (animOptions w h) (d.forget heap) = (none, heap')) :
      Ensured grants d w h heap (none, { d with animDecoder := none }, heap')
  | made {dec : WebPAnimDecoder} {heap' : Heap ObjectKind}
      (stale : d.animDecoder = none ∨ ¬ (d.animScaleW = w ∧ d.animScaleH = h))
      (new : webPAnimDecoderNew grants d.srcBytes (animOptions w h) (d.forget heap) = (some dec, heap')) :
      Ensured grants d w h heap
        (some dec, { d with animDecoder := some dec, animScaleW := w, animScaleH := h }, heap')

theorem ensureAnimDecoder_cases (grants : Grants) (d : WebPDecoder) (w h : ℤ) (heap : Heap ObjectKind) :
    Ensured grants d w h heap (d.ensureAnimDecoder grants w h heap) := by
  unfold ensureAnimDecoder
  cases hlive : d.animDecoder with
  | none =>
    dsimp only
    have hforget : d.forget heap = heap := by rw [forget, hlive, Option.elim_none]
    rcases hnew : webPAnimDecoderNew grants d.srcBytes (animOptions w h) heap with ⟨_ | dec, heap'⟩
    · exact .none (.inl hlive) (by rw [hforget, hnew])
    · exact .made (.inl hlive) (by rw [hforget, hnew])
  | some dec₀ =>
    dsimp only
    split_ifs with hsize
    · exact .kept hlive hsize
    · have hforget : d.forget heap = webPAnimDecoderDelete dec₀.blocks heap := by
        rw [forget, hlive, Option.elim_some]
      rcases hnew : webPAnimDecoderNew grants d.srcBytes (animOptions w h)
        (webPAnimDecoderDelete dec₀.blocks heap) with ⟨_ | dec, heap'⟩
      · exact .none (.inr hsize) (by rw [hforget, hnew])
      · exact .made (.inr hsize) (by rw [hforget, hnew])

/-- `WebPAnimDecoderReset` for frame 0. -/
def startAt (dec : WebPAnimDecoder) (index : ℤ) : WebPAnimDecoder :=
  if index = 0 then webPAnimDecoderReset dec else dec

/-- What `getFrame` leaves of an animation. -/
inductive GotAnimated (getNext : WebPAnimDecoder → Heap ObjectKind → Next) (grants : Grants) (d : WebPDecoder)
    (index : ℤ) (mem : Buf) (dst stride outW outH : ℤ) (heap : Heap ObjectKind) : Got → Prop
  | unmade {d' : WebPDecoder} {heap' : Heap ObjectKind}
      (ensured : Ensured grants d (d.scaleW outW outH) (d.scaleH outW outH) heap (none, d', heap')) :
      GotAnimated getNext grants d index mem dst stride outW outH heap ⟨false, d', mem, heap', {}⟩
  | failed {dec : WebPAnimDecoder} {d' : WebPDecoder} {heap' : Heap ObjectKind} {next : Next}
      (ensured : Ensured grants d (d.scaleW outW outH) (d.scaleH outW outH) heap (some dec, d', heap'))
      (call : getNext (startAt dec index) heap' = next) (bad : next.timestamp = none) :
      GotAnimated getNext grants d index mem dst stride outW outH heap
        ⟨false, { d' with animDecoder := some next.dec }, mem, next.heap, { canvas := next.stray }⟩
  | shown {dec : WebPAnimDecoder} {d' : WebPDecoder} {heap' : Heap ObjectKind} {next : Next} {t : ℤ}
      (ensured : Ensured grants d (d.scaleW outW outH) (d.scaleH outW outH) heap (some dec, d', heap'))
      (call : getNext (startAt dec index) heap' = next) (good : next.timestamp = some t) :
      GotAnimated getNext grants d index mem dst stride outW outH heap
        ⟨true, { d' with animDecoder := some next.dec },
          (compositeBGRAtoBGR next.dec.currFrame mem dst stride outW outH).dst, next.heap,
          { read := (compositeBGRAtoBGR next.dec.currFrame mem dst stride outW outH).strayRead
            dib := (compositeBGRAtoBGR next.dec.currFrame mem dst stride outW outH).strayWrite
            canvas := next.stray }⟩

theorem getAnimatedBy_cases (getNext : WebPAnimDecoder → Heap ObjectKind → Next) (grants : Grants) (d : WebPDecoder)
    (index : ℤ) (mem : Buf) (dst stride outW outH : ℤ) (heap : Heap ObjectKind) :
    GotAnimated getNext grants d index mem dst stride outW outH heap
      (d.getAnimatedBy getNext grants index mem dst stride outW outH heap) := by
  have hens := ensureAnimDecoder_cases grants d (d.scaleW outW outH) (d.scaleH outW outH) heap
  have hw : (if decide (outW ≠ d.width ∨ outH ≠ d.height) = true then outW else 0) = d.scaleW outW outH := by
    simp only [scaleW, decide_eq_true_eq]
  have hh : (if decide (outW ≠ d.width ∨ outH ≠ d.height) = true then outH else 0) = d.scaleH outW outH := by
    simp only [scaleH, decide_eq_true_eq]
  unfold getAnimatedBy
  dsimp only
  rw [hw, hh]
  generalize d.ensureAnimDecoder grants (d.scaleW outW outH) (d.scaleH outW outH) heap = e at hens
  obtain ⟨_ | dec, d', heap'⟩ := e
  · exact .unmade hens
  · dsimp only
    generalize hcall : getNext (if index = 0 then webPAnimDecoderReset dec else dec) heap' = next
    rcases ht : next.timestamp with _ | t
    · exact .failed hens hcall ht
    · exact .shown hens hcall ht

theorem getAnimated_cases (codec : Codec) (env : Env) (d : WebPDecoder) (index : ℤ) (mem : Buf)
    (dst stride outW outH : ℤ) (heap : Heap ObjectKind) :
    GotAnimated (webPAnimDecoderGetNext codec env) env.grants d index mem dst stride outW outH heap
      (d.getAnimated codec env index mem dst stride outW outH heap) :=
  getAnimatedBy_cases _ _ _ _ _ _ _ _ _ _

/-! ### Between calls -/

/-- What `decode` has set, without the anim decoder. -/
def bare (d : WebPDecoder) : WebPDecoder := { d with animDecoder := none, animScaleW := 0, animScaleH := 0 }

theorem fields_of_bare {d d' : WebPDecoder} (hb : d'.bare = d.bare) : d'.hasAnimation = d.hasAnimation ∧
    d'.totalFrames = d.totalFrames ∧ d'.srcBytes = d.srcBytes ∧ d'.width = d.width ∧ d'.height = d.height := by
  simp only [bare, mk.injEq] at hb
  obtain ⟨-, hw, hh, -, hanim, htotal, hsrc, -⟩ := hb
  exact ⟨hanim, htotal, hsrc, hw, hh⟩

theorem scale_of_bare {d d' : WebPDecoder} (hb : d'.bare = d.bare) (outW outH : ℤ) :
    d'.scaleW outW outH = d.scaleW outW outH ∧ d'.scaleH outW outH = d.scaleH outW outH := by
  obtain ⟨-, -, -, hw, hh⟩ := fields_of_bare hb
  rw [scaleW, scaleW, scaleH, scaleH, hw, hh]
  exact ⟨rfl, rfl⟩

/-- The anim decoder was made for the size remembered, and `k` frames have been
read from it since then or since the last reset. -/
def KeptAt (codec : Codec) (d : WebPDecoder) (k : ℕ) (dec : WebPAnimDecoder) : Prop :=
  ∃ grants heap heap' dec₀, webPAnimDecoderNew grants d.srcBytes (animOptions d.animScaleW d.animScaleH) heap =
    (some dec₀, heap') ∧ Since codec dec₀ k dec

section

variable {codec : Codec} {env : Env} {grants : Grants} {d d' : WebPDecoder} {w h : ℤ} {heap heap' : Heap ObjectKind}
  {o : Option WebPAnimDecoder} {dec : WebPAnimDecoder} {k : ℕ} {t : ℤ}

theorem Ensured.bare (he : Ensured grants d w h heap (o, d', heap')) : d'.bare = d.bare := by
  cases he <;> rfl

/-- The anim decoder handed out is kept and has the size asked for. -/
theorem Ensured.size (he : Ensured grants d w h heap (some dec, d', heap')) :
    d'.animDecoder = some dec ∧ d'.animScaleW = w ∧ d'.animScaleH = h := by
  cases he with
  | kept live size => exact ⟨live, size⟩
  | made stale new => exact ⟨rfl, rfl, rfl⟩

/-- It has the scale of the output size. -/
theorem Ensured.scale {outW outH : ℤ}
    (he : Ensured grants d (d.scaleW outW outH) (d.scaleH outW outH) heap (some dec, d', heap')) :
    d'.animScaleW = d'.scaleW outW outH ∧ d'.animScaleH = d'.scaleH outW outH := by
  obtain ⟨hw, hh⟩ := scale_of_bare he.bare outW outH
  rw [hw, hh]
  exact he.size.2

theorem KeptAt.start (h : KeptAt codec d k dec) : KeptAt codec d 0 (webPAnimDecoderReset dec) := by
  obtain ⟨grants, heap, heap', dec₀, hnew, hrun⟩ := h
  exact ⟨grants, heap, heap', dec₀, hnew, hrun.reset⟩

theorem KeptAt.failure (h : KeptAt codec d k dec)
    (hf : (webPAnimDecoderGetNext codec env dec heap).timestamp = none) :
    KeptAt codec d k (webPAnimDecoderGetNext codec env dec heap).dec := by
  obtain ⟨grants, heap₁, heap', dec₀, hnew, hrun⟩ := h
  exact ⟨grants, heap₁, heap', dec₀, hnew, hrun.failure env heap hf⟩

theorem KeptAt.success (h : KeptAt codec d k dec)
    (hs : (webPAnimDecoderGetNext codec env dec heap).timestamp = some t) :
    KeptAt codec d (k + 1) (webPAnimDecoderGetNext codec env dec heap).dec := by
  obtain ⟨grants, heap₁, heap', dec₀, hnew, hrun⟩ := h
  exact ⟨grants, heap₁, heap', dec₀, hnew, hrun.success env heap hs⟩

/-- An anim decoder just made. -/
theorem KeptAt.new
    (hnew : webPAnimDecoderNew grants d.srcBytes (animOptions d.animScaleW d.animScaleH) heap = (some dec, heap')) :
    KeptAt codec d 0 dec := ⟨grants, heap, heap', dec, hnew, .start⟩

/-- What is kept stays so, or is made. -/
theorem Ensured.keptAt (he : Ensured grants d w h heap (some dec, d', heap'))
    (hk : ∀ dec, d.animDecoder = some dec → ∃ k, KeptAt codec d k dec) : ∃ k, KeptAt codec d' k dec := by
  cases he with
  | kept live size => exact hk _ live
  | made stale new => exact ⟨0, .new new⟩

/-- The scale of an output size is an `int`. -/
theorem intOptions_animOptions {outW outH : ℤ} (d : WebPDecoder) (hw : outW < 2147483648) (hh : outH < 2147483648) :
    IntOptions (animOptions (d.scaleW outW outH) (d.scaleH outW outH)) := by
  rw [scaleW, scaleH, animOptions]
  constructor <;> dsimp only <;> split_ifs <;> omega

theorem intOptions_scale {outW outH : ℤ} (hw : outW < 2147483648) (hh : outH < 2147483648)
    (hscale : d.animScaleW = d.scaleW outW outH ∧ d.animScaleH = d.scaleH outW outH) :
    IntOptions (animOptions d.animScaleW d.animScaleH) := by
  rw [hscale.1, hscale.2]
  exact intOptions_animOptions d hw hh

/-- The anim decoder of an output size composes frames of that size. -/
theorem KeptAt.out {dmux : WebPDemuxer} {outW outH : ℤ} (hk : KeptAt codec d k dec) (ha : Accepted d.srcBytes dmux)
    (hsize : d.width = dmux.canvasWidth ∧ d.height = dmux.canvasHeight) (hw : 0 < outW ∧ outW < 2147483648)
    (hh : 0 < outH ∧ outH < 2147483648)
    (hscale : d.animScaleW = d.scaleW outW outH ∧ d.animScaleH = d.scaleH outW outH) :
    Ready dec ∧ dec.demux = dmux ∧ dec.outW = outW ∧ dec.outH = outH ∧
      (0 < dec.outCanvasW ↔ outW ≠ d.width ∨ outH ≠ d.height) := by
  obtain ⟨grants, heap, heap', dec₀, hnew, hrun⟩ := hk
  have ho := intOptions_scale hw.2 hh.2 hscale
  obtain ⟨hd, hdmux, hcw, hW, hH⟩ := hrun.reach.out ha ho hnew
  rw [hscale.1, hscale.2, scaleW, scaleH, animOptions] at hcw hW hH
  dsimp only at hcw hW hH
  refine ⟨hd, hdmux, ?_, ?_, ?_⟩
  · rw [hW]
    split_ifs <;> omega
  · rw [hH]
    split_ifs <;> omega
  · rw [hcw]
    split_ifs <;> omega

/-- The frame it returns next is the one after those read. -/
theorem KeptAt.frameNum {dmux : WebPDemuxer} (hk : KeptAt codec d k dec) (ha : Accepted d.srcBytes dmux)
    (ho : IntOptions (animOptions d.animScaleW d.animScaleH))
    (hok : (webPAnimDecoderGetNext codec env dec heap).timestamp = some t) :
    (webPAnimDecoderGetNext codec env dec heap).dec.prevIter.frameNum = k + 1 := by
  obtain ⟨grants, heap₁, heap', dec₀, hnew, hrun⟩ := hk
  obtain ⟨h₀, -⟩ := ready_of_new ha ho hnew
  obtain ⟨-, -, -, -, -, -, hreset⟩ := webPAnimDecoderNew_some hnew
  rw [((hrun.ready h₀).1.next_composed hok).2, hrun.nextFrame h₀ hreset]

/-- A new anim decoder of the size comes to the same canvas. -/
theorem KeptAt.shows {dmux : WebPDemuxer} {grants₁ : Grants} {heap₁ heap₂ : Heap ObjectKind}
    {dec₁ : WebPAnimDecoder} (hk : KeptAt codec d k dec) (ha : Accepted d.srcBytes dmux)
    (ho : IntOptions (animOptions d.animScaleW d.animScaleH))
    (hok : (webPAnimDecoderGetNext codec env dec heap).timestamp = some t)
    (hnew₁ : webPAnimDecoderNew grants₁ d.srcBytes (animOptions d.animScaleW d.animScaleH) heap₁ =
      (some dec₁, heap₂)) :
    (∃ dec', Clean codec dec₁ (k + 1) dec') ∧ ∀ dec', Clean codec dec₁ (k + 1) dec' →
      (webPAnimDecoderGetNext codec env dec heap).dec.currFrame.Same dec'.currFrame := by
  obtain ⟨grants, heap, heap', dec₀, hnew, hrun⟩ := hk
  obtain ⟨h₀, -⟩ := ready_of_new ha ho hnew
  obtain ⟨h₁, -⟩ := ready_of_new ha ho hnew₁
  have ht := twin_of_new hnew hnew₁
  obtain ⟨-, -, -, -, -, -, hreset⟩ := webPAnimDecoderNew_some hnew
  obtain ⟨-, -, -, -, -, -, hreset₁⟩ := webPAnimDecoderNew_some hnew₁
  constructor
  · obtain ⟨dec', hc⟩ := hrun.clean h₀ h₁ ht hreset hreset₁
    have hplay := (hrun.replays h₀ h₁ ht hreset hreset₁ hok hc .fine Heap.empty).1 rfl
    exact ⟨_, hc.success .fine Heap.empty hplay⟩
  · intro dec' hc
    cases hc with
    | success run env' heap' ok => exact ((hrun.replays h₀ h₁ ht hreset hreset₁ hok run env' heap').2 _ ok).2

end

end WebPDecoder

end WebPlugin
