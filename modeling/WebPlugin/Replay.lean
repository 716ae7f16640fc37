/-
# Replays

Two decoders of one animation and one output size are in step (`InStep`) when
they are to read the same frame, with the same previous frame, and agree on the
disposed canvas unless that frame is the first. Two calls that succeed keep
them in step and return the same canvas and timestamp; a call that fails and a
reset leave nothing behind that a later call reads. Hence a run with failures
and resets returns what a run without them returns (`replay_exact`).
-/
import WebPlugin.Block

namespace WebPlugin

open Memory Ledger Words

/-- Blending the rows of a rectangle reads the two canvases only. -/
theorem blendRows_same (f : BlendRowFunc) {src src' dst dst' : Buf} {r : FrameRect} {W H : ℤ}
    (hs : src.Same src') (hd : dst.Same dst') (hr : r.Within W H) (hc : 4 * W * H < 4294967296)
    (hsrc : (src.size : ℤ) = 4 * W * H) (hdst : dst.size = src.size) :
    ∀ n : ℕ, (n : ℤ) ≤ r.frmH → (blendRows f src dst r W n).1.Same (blendRows f src' dst' r W n).1
  | 0, _ => hs
  | n + 1, hn => by
    push_cast at hn
    have ih := blendRows_same f hs hd hr hc hsrc hdst n (by omega)
    have hw := hr.w
    by_cases hw0 : r.frmW = 0
    · simpa [blendRows, hw0, blendPixelRow] using ih
    · have hoff := rowOffset_eq hr hc (show (n : ℤ) < r.frmH by omega) (by omega)
      have hp := hr.pixel_lt (show r.frmW - 1 < r.frmW by omega) (show (n : ℤ) < r.frmH by omega)
      have hlast : 4 * (u32 ((r.yOff + n) * W + r.xOff) + r.frmW.toNat) ≤ src.size := by
        zify
        rw [hoff, hsrc, Int.toNat_of_nonneg hw]
        linarith
      exact blendPixelRow_same ih hd _ (by rwa [blendRows_size]) (by rwa [hdst])

/-- The options with the size to decode to. -/
def WebPDecoderOptions.scaledTo (o : WebPDecoderOptions) (w h : ℤ) : WebPDecoderOptions :=
  { o with scaledWidth := w, scaledHeight := h }

@[simp] theorem WebPDecoderOptions.scaledTo_scaledTo (o : WebPDecoderOptions) (w h w' h' : ℤ) :
    (o.scaledTo w h).scaledTo w' h' = o.scaledTo w' h' := rfl

theorem WebPAnimDecoder.targetConfig_options (dec : WebPAnimDecoder) (r : FrameRect) :
    (dec.targetConfig r).options = dec.config.options.scaledTo r.frmW r.frmH := by
  simp only [targetConfig, WebPDecoderOptions.scaledTo]

/-! ### Decoders in step -/

/-- Decoders of one animation and one output size. -/
structure Twin (dec dec' : WebPAnimDecoder) : Prop where
  demux : dec.demux = dec'.demux
  info : dec.info = dec'.info
  blendFunc : dec.blendFunc = dec'.blendFunc
  outCanvasW : dec.outCanvasW = dec'.outCanvasW
  outCanvasH : dec.outCanvasH = dec'.outCanvasH
  options : ∀ w h, dec.config.options.scaledTo w h = dec'.config.options.scaledTo w h
  colorspace : dec.config.output.colorspace = dec'.config.output.colorspace
  size : dec.currFrame.size = dec'.currFrame.size

/-- They have come to the same frame, too. Before the first one the disposed
canvas does not matter. -/
structure InStep (dec dec' : WebPAnimDecoder) : Prop extends Twin dec dec' where
  nextFrame : dec.nextFrame = dec'.nextFrame
  prevIter : dec.prevIter = dec'.prevIter
  prevFrameWasKeyframe : dec.prevFrameWasKeyframe = dec'.prevFrameWasKeyframe
  prevFrameTimestamp : dec.prevFrameTimestamp = dec'.prevFrameTimestamp
  disposed : dec.nextFrame ≠ 1 → dec.prevFrameDisposed.Same dec'.prevFrameDisposed

namespace Twin

variable {dec dec' dec'' : WebPAnimDecoder} {iter : WebPIterator}

theorem refl (dec : WebPAnimDecoder) : Twin dec dec := ⟨rfl, rfl, rfl, rfl, rfl, fun _ _ => rfl, rfl, rfl⟩

theorem symm (h : Twin dec dec') : Twin dec' dec :=
  ⟨h.demux.symm, h.info.symm, h.blendFunc.symm, h.outCanvasW.symm, h.outCanvasH.symm,
    fun w k => (h.options w k).symm, h.colorspace.symm, h.size.symm⟩

theorem trans (h : Twin dec dec') (h' : Twin dec' dec'') : Twin dec dec'' :=
  ⟨h.demux.trans h'.demux, h.info.trans h'.info, h.blendFunc.trans h'.blendFunc,
    h.outCanvasW.trans h'.outCanvasW, h.outCanvasH.trans h'.outCanvasH,
    fun w k => (h.options w k).trans (h'.options w k), h.colorspace.trans h'.colorspace, h.size.trans h'.size⟩

theorem outW (h : Twin dec dec') : dec.outW = dec'.outW := by
  rw [WebPAnimDecoder.outW, WebPAnimDecoder.outW, h.outCanvasW, h.info]

theorem outH (h : Twin dec dec') : dec.outH = dec'.outH := by
  rw [WebPAnimDecoder.outH, WebPAnimDecoder.outH, h.outCanvasH, h.info]

theorem rect (h : Twin dec dec') : dec.rect iter = dec'.rect iter := by
  rw [WebPAnimDecoder.rect, WebPAnimDecoder.rect, h.info, h.outW, h.outH]

theorem fits (h : Twin dec dec') : dec.Fits ↔ dec'.Fits := by
  rw [WebPAnimDecoder.Fits, WebPAnimDecoder.Fits, h.outW, h.outH]

theorem blockWidth (h : Twin dec dec') : dec.blockWidth iter = dec'.blockWidth iter := by
  rw [WebPAnimDecoder.blockWidth, WebPAnimDecoder.blockWidth, h.rect, h.outCanvasW]

theorem block (h : Twin dec dec') : dec.block iter = dec'.block iter := by
  rw [WebPAnimDecoder.block, WebPAnimDecoder.block, h.rect, h.blockWidth]

theorem playable (h : Twin dec dec') : dec.Playable iter ↔ dec'.Playable iter := by
  constructor <;> intro hp
  · exact ⟨h.rect ▸ hp.height, fun h0 => h.rect ▸ hp.whole (h.outCanvasW.trans h0), h.blockWidth ▸ hp.width,
      h.blockWidth ▸ h.outW ▸ hp.fits⟩
  · exact ⟨h.rect ▸ hp.height, fun h0 => h.rect ▸ hp.whole (h.outCanvasW.symm.trans h0),
      h.blockWidth ▸ hp.width, h.blockWidth ▸ h.outW ▸ hp.fits⟩

/-- A decode changes what no later call reads. -/
theorem spoil {d : Decoded} (hs : d.mem.size = dec.currFrame.size) (hk : d.output.SameKind dec.config.output) :
    Twin (dec.spoil iter d) dec := by
  refine ⟨by simp, by simp, by simp, by simp, by simp, fun w k => ?_, ?_, by simpa using hs⟩
  · rw [WebPAnimDecoder.spoil_options, WebPAnimDecoder.targetConfig_options, WebPDecoderOptions.scaledTo_scaledTo]
  · rw [WebPAnimDecoder.spoil_output, hk.1]

theorem compose {d : Decoded} (hs : d.mem.size = dec.currFrame.size) (hk : d.output.SameKind dec.config.output)
    (hc : (dec.composed iter d).size = dec.currFrame.size) : Twin (dec.compose iter d) dec := by
  refine ⟨by simp, by simp, by simp, by simp, by simp, fun w k => ?_, ?_, by simpa using hc⟩
  · rw [WebPAnimDecoder.compose_config]
    exact (spoil hs hk).options w k
  · rw [WebPAnimDecoder.compose_config]
    exact (spoil hs hk).colorspace

theorem targetOptions (h : Twin dec dec') (r : FrameRect) :
    (dec.targetConfig r).options = (dec'.targetConfig r).options := by
  rw [WebPAnimDecoder.targetConfig_options, WebPAnimDecoder.targetConfig_options, h.options]

end Twin

namespace WebPAnimDecoder

/-- The first frame is a key frame. -/
theorem isKey_first {dec : WebPAnimDecoder} {iter : WebPIterator} (h : iter.frameNum = 1) : dec.isKey iter = true := by
  rw [isKey, isKeyFrame, if_pos h]

end WebPAnimDecoder

namespace InStep

variable {dec dec' : WebPAnimDecoder} {iter : WebPIterator} {codec : Codec} {d d' : Decoded} {canvas canvas' : Buf}

theorem frame (h : InStep dec dec') : dec.Frame iter ↔ dec'.Frame iter := by
  rw [WebPAnimDecoder.Frame, WebPAnimDecoder.Frame, WebPAnimDecoder.hasMoreFrames, WebPAnimDecoder.hasMoreFrames,
    h.demux, h.info, h.nextFrame]

theorem isKey (h : InStep dec dec') : dec.isKey iter = dec'.isKey iter := by
  rw [WebPAnimDecoder.isKey, WebPAnimDecoder.isKey, h.info, h.prevIter, h.prevFrameWasKeyframe]

/-- Nothing of `curr_frame` survives: it is cleared, or copied over. -/
theorem baseCanvas_same (h : InStep dec dec') (hd : Ready dec) (hframe : dec.Frame iter) :
    (dec.baseCanvas (dec.isKey iter)).Same (dec'.baseCanvas (dec'.isKey iter)) := by
  obtain ⟨hnum, -⟩ := hd.iterFacts hframe
  rw [← h.isKey]
  apply Buf.same_of_filled h.size
  intro i hi
  cases hkey : dec.isKey iter with
  | true => rfl
  | false =>
    have hne : dec.nextFrame ≠ 1 := by
      intro h1
      rw [WebPAnimDecoder.isKey_first (hnum.trans h1)] at hkey
      cases hkey
    exact (h.disposed hne).2 i (by rwa [hd.prev])

theorem blockCanvas_same (h : InStep dec dec') (hd : Ready dec) (hframe : dec.Frame iter) :
    (dec.blockCanvas codec iter).Same (dec'.blockCanvas codec iter) := by
  rw [WebPAnimDecoder.blockCanvas, WebPAnimDecoder.blockCanvas, h.outW, h.block, h.rect, h.targetOptions, h.colorspace]
  exact (h.baseCanvas_same hd hframe).writeRows _ _

theorem composed_same (h : InStep dec dec') (hd : Ready dec) (hf : dec.Fits) (hframe : dec.Frame iter)
    (hsize : d.mem.size = dec.currFrame.size) (hs : d.mem.Same d'.mem) :
    (dec.composed iter d).Same (dec'.composed iter d') := by
  obtain ⟨hnum, hi⟩ := hd.iterFacts hframe
  obtain ⟨-, -, hr⟩ := hd.rect_within hi
  rw [WebPAnimDecoder.composed, WebPAnimDecoder.composed, WebPAnimDecoder.blendFrame, WebPAnimDecoder.blendFrame,
    ← h.isKey, ← h.blendFunc, ← h.rect, ← h.outW]
  split_ifs with hb
  · exact blendRows_same _ hs (h.disposed (by omega)) hr hf (hsize ▸ hd.curr_size hf) (hd.prev.trans hsize.symm) _
      (Int.toNat_of_nonneg hr.h).le
  · exact hs

theorem disposed_same (h : InStep dec dec') (hd : Ready dec) (hd' : Ready dec')
    (hsize : canvas.size = dec.currFrame.size) (hs : canvas.Same canvas') :
    (dec.disposed iter canvas).Same (dec'.disposed iter canvas') := by
  have hcopy : (dec.prevFrameDisposed.writeRow 0 dec.currFrame.size canvas.byte).Same
      (dec'.prevFrameDisposed.writeRow 0 dec'.currFrame.size canvas'.byte) := by
    rw [← hd.prev, ← hd'.prev]
    exact Buf.same_of_filled (by rw [hd.prev, hd'.prev, h.size]) fun i hi => hs.2 i (by rwa [hsize, ← hd.prev])
  simp only [WebPAnimDecoder.disposed, ← h.outW, ← h.rect]
  split_ifs
  · exact hcopy.writeRows _ _
  · exact hcopy

/-- A failed call leaves a decoder in step. -/
theorem spoil (h : InStep dec dec') (hs : d.mem.size = dec.currFrame.size)
    (hk : d.output.SameKind dec.config.output) : InStep (dec.spoil iter d) dec' :=
  ⟨(Twin.spoil hs hk).trans h.toTwin, by simpa using h.nextFrame, by simpa using h.prevIter,
    by simpa using h.prevFrameWasKeyframe, by simpa using h.prevFrameTimestamp, by simpa using h.disposed⟩

/-- So do two calls that succeed. -/
theorem compose (h : InStep dec dec') (hd : Ready dec) (hd' : Ready dec') (hf : dec.Fits) (hframe : dec.Frame iter)
    (hs : d.mem.size = dec.currFrame.size) (hsame : d.mem.Same d'.mem) (hk : d.output.SameKind dec.config.output)
    (hk' : d'.output.SameKind dec'.config.output) : InStep (dec.compose iter d) (dec'.compose iter d') := by
  obtain ⟨-, hi⟩ := hd.iterFacts hframe
  have hcanvas := h.composed_same hd hf hframe hs hsame
  have hsize : (dec.composed iter d).size = dec.currFrame.size := (hd.blendFrame_fit hf hi hs (dec.isKey iter)).1
  have hs' : d'.mem.size = dec'.currFrame.size := by rw [← hsame.1, hs, h.size]
  have hsize' : (dec'.composed iter d').size = dec'.currFrame.size := by rw [← hcanvas.1, hsize, h.size]
  refine ⟨(Twin.compose hs hk hsize).trans (h.toTwin.trans (Twin.compose hs' hk' hsize').symm),
    by simpa using h.nextFrame, by simp, by simpa using h.isKey, by simp [h.prevFrameTimestamp], fun _ => ?_⟩
  rw [WebPAnimDecoder.compose_prevFrameDisposed, WebPAnimDecoder.compose_prevFrameDisposed]
  exact h.disposed_same hd hd' hsize hcanvas

end InStep

/-- Whatever a decoder has been through, a reset puts it in step with a new one. -/
theorem Twin.reset {dec dec' : WebPAnimDecoder} (h : Twin dec dec') (hnew : dec' = webPAnimDecoderReset dec') :
    InStep (webPAnimDecoderReset dec) dec' := by
  rw [hnew]
  exact ⟨⟨h.demux, h.info, h.blendFunc, h.outCanvasW, h.outCanvasH, h.options, h.colorspace, h.size⟩,
    rfl, rfl, rfl, rfl, fun hne => absurd rfl hne⟩

/-! ### Calls in step -/

namespace InStep

variable {dec dec' : WebPAnimDecoder} {codec : Codec} {env env' : Env} {heap heap' : Heap ObjectKind} {t t' : ℤ}

/-- A call that returns no frame. -/
theorem failure (h : InStep dec dec') (hd : Ready dec)
    (hn : (webPAnimDecoderGetNext codec env dec heap).timestamp = none) :
    InStep (webPAnimDecoderGetNext codec env dec heap).dec dec' := by
  have hcases := hd.next_cases codec env heap
  generalize webPAnimDecoderGetNext codec env dec heap = n at hn hcases
  cases hcases with
  | nothing why => exact h
  | @failed iter fits frame bad =>
    have hdec := hd.decoded (hd.iterFacts frame).2 codec env heap
    exact h.spoil hdec.mem_size.1 hdec.sameKind
  | composed fits frame good => cases hn

/-- Two calls that return one. -/
theorem success (h : InStep dec dec') (hd : Ready dec) (hd' : Ready dec')
    (hn : (webPAnimDecoderGetNext codec env dec heap).timestamp = some t)
    (hn' : (webPAnimDecoderGetNext codec env' dec' heap').timestamp = some t') :
    t = t' ∧ InStep (webPAnimDecoderGetNext codec env dec heap).dec
        (webPAnimDecoderGetNext codec env' dec' heap').dec ∧
      (webPAnimDecoderGetNext codec env dec heap).dec.currFrame.Same
        (webPAnimDecoderGetNext codec env' dec' heap').dec.currFrame := by
  have hcases := hd.next_cases codec env heap
  have hcases' := hd'.next_cases codec env' heap'
  generalize webPAnimDecoderGetNext codec env dec heap = n at hn hcases ⊢
  generalize webPAnimDecoderGetNext codec env' dec' heap' = n' at hn' hcases' ⊢
  cases hcases with
  | nothing why => cases hn
  | failed fits frame bad => cases hn
  | @composed iter fits frame good =>
    cases hcases' with
    | nothing why => cases hn'
    | failed fits frame bad => cases hn'
    | @composed iter' fits' frame' good' =>
      obtain rfl : iter' = iter := Option.some.inj (frame'.2.symm.trans (h.frame.mp frame).2)
      have hi := (hd.iterFacts frame).2
      have hi' := (hd'.iterFacts frame').2
      have hdec := hd.decoded hi codec env heap
      have hdec' := hd'.decoded hi' codec env' heap'
      have hmem := (hd.decodeFrame_ok fits hi good).2
      have hmem' := (hd'.decodeFrame_ok fits' hi' good').2
      generalize dec.decodeFrame codec env iter' heap = d at good hdec hmem hn ⊢
      generalize dec'.decodeFrame codec env' iter' heap' = d' at good' hdec' hmem' hn' ⊢
      have hsame : d.mem.Same d'.mem := by
        rw [hmem, hmem']
        exact h.blockCanvas_same hd frame
      refine ⟨?_, h.compose hd hd' fits frame hdec.mem_size.1 hsame hdec.sameKind hdec'.sameKind, ?_⟩
      · rw [← Option.some.inj hn, ← Option.some.inj hn', h.prevFrameTimestamp]
      · rw [WebPAnimDecoder.compose_currFrame, WebPAnimDecoder.compose_currFrame]
        exact h.composed_same hd fits frame hdec.mem_size.1 hsame

/-- Where one call returns a frame, the other does when its codec lets it. -/
theorem success_of (h : InStep dec dec') (hd : Ready dec) (hd' : Ready dec')
    (hn : (webPAnimDecoderGetNext codec env dec heap).timestamp = some t) (hfine : env'.run = Env.fine.run) :
    ∃ t', (webPAnimDecoderGetNext codec env' dec' heap').timestamp = some t' := by
  have hcases := hd.next_cases codec env heap
  have hcases' := hd'.next_cases codec env' heap'
  generalize webPAnimDecoderGetNext codec env dec heap = n at hn hcases
  generalize webPAnimDecoderGetNext codec env' dec' heap' = n' at hcases' ⊢
  cases hcases with
  | nothing why => cases hn
  | failed fits frame bad => cases hn
  | @composed iter fits frame good =>
    have hi := (hd.iterFacts frame).2
    obtain ⟨hplay, -⟩ := (hd.decodeFrame_ok_iff codec env heap fits hi).mp good
    cases hcases' with
    | nothing why =>
      rcases why with why | why
      · exact absurd (h.frame.mp frame) (why iter)
      · exact absurd (h.fits.mp fits) why
    | @failed iter' fits' frame' bad' =>
      obtain rfl : iter' = iter := Option.some.inj (frame'.2.symm.trans (h.frame.mp frame).2)
      have hi' := (hd'.iterFacts frame').2
      refine absurd ((hd'.decodeFrame_ok_iff codec env' heap' fits' hi').mpr ⟨h.playable.mp hplay, ?_, ?_⟩) bad'
      · rw [hfine]
        rfl
      · rw [hfine]
        rfl
    | composed fits' frame' good' => exact ⟨_, rfl⟩

end InStep

/-! ### Runs -/

/-- A run of calls on a decoder, any of which may fail, and resets; `k` calls
have succeeded since the start or the last reset. -/
inductive Since (codec : Codec) (dec₀ : WebPAnimDecoder) : ℕ → WebPAnimDecoder → Prop
  | start : Since codec dec₀ 0 dec₀
  | success {k : ℕ} {dec : WebPAnimDecoder} {t : ℤ} (run : Since codec dec₀ k dec) (env : Env)
      (heap : Heap ObjectKind) (ok : (webPAnimDecoderGetNext codec env dec heap).timestamp = some t) :
      Since codec dec₀ (k + 1) (webPAnimDecoderGetNext codec env dec heap).dec
  | failure {k : ℕ} {dec : WebPAnimDecoder} (run : Since codec dec₀ k dec) (env : Env) (heap : Heap ObjectKind)
      (failed : (webPAnimDecoderGetNext codec env dec heap).timestamp = none) :
      Since codec dec₀ k (webPAnimDecoderGetNext codec env dec heap).dec
  | reset {k : ℕ} {dec : WebPAnimDecoder} (run : Since codec dec₀ k dec) :
      Since codec dec₀ 0 (webPAnimDecoderReset dec)

/-- A run of `k` calls on a decoder, all of which succeed. -/
inductive Clean (codec : Codec) (dec₀ : WebPAnimDecoder) : ℕ → WebPAnimDecoder → Prop
  | start : Clean codec dec₀ 0 dec₀
  | success {k : ℕ} {dec : WebPAnimDecoder} {t : ℤ} (run : Clean codec dec₀ k dec) (env : Env)
      (heap : Heap ObjectKind) (ok : (webPAnimDecoderGetNext codec env dec heap).timestamp = some t) :
      Clean codec dec₀ (k + 1) (webPAnimDecoderGetNext codec env dec heap).dec

theorem Ready.next_twin {dec : WebPAnimDecoder} (hd : Ready dec) (codec : Codec) (env : Env)
    (heap : Heap ObjectKind) : Twin (webPAnimDecoderGetNext codec env dec heap).dec dec := by
  have hcases := hd.next_cases codec env heap
  generalize webPAnimDecoderGetNext codec env dec heap = n at hcases
  cases hcases with
  | nothing why => exact .refl dec
  | @failed iter fits frame bad =>
    have hdec := hd.decoded (hd.iterFacts frame).2 codec env heap
    exact .spoil hdec.mem_size.1 hdec.sameKind
  | @composed iter fits frame good =>
    have hi := (hd.iterFacts frame).2
    have hdec := hd.decoded hi codec env heap
    exact .compose hdec.mem_size.1 hdec.sameKind (hd.blendFrame_fit fits hi hdec.mem_size.1 (dec.isKey iter)).1

section

variable {codec : Codec} {dec₀ dec₁ dec dec' : WebPAnimDecoder} {k : ℕ}

theorem Since.ready (h₀ : Ready dec₀) (hr : Since codec dec₀ k dec) : Ready dec ∧ Twin dec dec₀ := by
  induction hr with
  | start => exact ⟨h₀, .refl dec₀⟩
  | success run env heap ok ih => exact ⟨ih.1.next_dec codec env heap, (ih.1.next_twin codec env heap).trans ih.2⟩
  | failure run env heap failed ih =>
    exact ⟨ih.1.next_dec codec env heap, (ih.1.next_twin codec env heap).trans ih.2⟩
  | reset run ih =>
    obtain ⟨hd, ht⟩ := ih
    exact ⟨hd.reset, ⟨ht.demux, ht.info, ht.blendFunc, ht.outCanvasW, ht.outCanvasH, ht.options, ht.colorspace,
      ht.size⟩⟩

theorem Clean.ready (h₁ : Ready dec₁) (hr : Clean codec dec₁ k dec') : Ready dec' := by
  induction hr with
  | start => exact h₁
  | success run env heap ok ih => exact ih.next_dec codec env heap

/-- Every run is in step with the clean runs of as many frames. -/
theorem Since.inStep (h₀ : Ready dec₀) (h₁ : Ready dec₁) (ht : Twin dec₀ dec₁)
    (hnew : dec₀ = webPAnimDecoderReset dec₀) (hnew' : dec₁ = webPAnimDecoderReset dec₁)
    (hr : Since codec dec₀ k dec) : ∀ {dec'}, Clean codec dec₁ k dec' → InStep dec dec' := by
  induction hr with
  | start =>
    intro dec' hc
    cases hc
    rw [hnew]
    exact ht.reset hnew'
  | success run env heap ok ih =>
    intro dec' hc
    cases hc with
    | success run' env' heap' ok' =>
      exact ((ih run').success (run.ready h₀).1 (run'.ready h₁) ok ok').2.1
  | failure run env heap failed ih =>
    intro dec' hc
    exact (ih hc).failure (run.ready h₀).1 failed
  | reset run ih =>
    intro dec' hc
    cases hc
    exact ((run.ready h₀).2.trans ht).reset hnew'

/-- There are such runs. -/
theorem Since.clean (h₀ : Ready dec₀) (h₁ : Ready dec₁) (ht : Twin dec₀ dec₁)
    (hnew : dec₀ = webPAnimDecoderReset dec₀) (hnew' : dec₁ = webPAnimDecoderReset dec₁)
    (hr : Since codec dec₀ k dec) : ∃ dec', Clean codec dec₁ k dec' := by
  induction hr with
  | start => exact ⟨dec₁, .start⟩
  | success run env heap ok ih =>
    obtain ⟨dec', hc⟩ := ih
    have hin := run.inStep h₀ h₁ ht hnew hnew' hc
    obtain ⟨t', ok'⟩ :=
      @InStep.success_of _ _ codec env .fine heap heap _ hin (run.ready h₀).1 (hc.ready h₁) ok rfl
    exact ⟨_, hc.success _ _ ok'⟩
  | failure run env heap failed ih => exact ih
  | reset run ih => exact ⟨dec₁, .start⟩

theorem Since.reach (hr : Since codec dec₀ k dec) : Reach codec dec₀ dec := by
  induction hr with
  | start => exact .refl
  | success run env heap ok ih => exact ih.next env heap
  | failure run env heap failed ih => exact ih.next env heap
  | reset run ih => exact ih.tail (.reset _)

/-- The next frame is the one after those read. -/
theorem Since.nextFrame (h₀ : Ready dec₀) (hnew : dec₀ = webPAnimDecoderReset dec₀)
    (hr : Since codec dec₀ k dec) :
    dec.nextFrame = k + 1 := by
  induction hr with
  | start =>
    rw [hnew]
    rfl
  | success run env heap ok ih =>
    have hcases := (run.ready h₀).1.next_cases codec env heap
    generalize webPAnimDecoderGetNext codec env _ heap = n at ok hcases
    cases hcases with
    | nothing why => cases ok
    | failed fits frame bad => cases ok
    | composed fits frame good =>
      rw [WebPAnimDecoder.compose_nextFrame, ih]
      push_cast
      rfl
  | failure run env heap failed ih =>
    have hcases := (run.ready h₀).1.next_cases codec env heap
    generalize webPAnimDecoderGetNext codec env _ heap = n at failed hcases
    cases hcases with
    | nothing why => exact ih
    | failed fits frame bad => rw [WebPAnimDecoder.spoil_nextFrame, ih]
    | composed fits frame good => cases failed
  | reset run ih => rfl

/-- A call that returns a frame has composed it on a canvas that fits. -/
theorem Ready.next_composed {env : Env} {heap : Heap ObjectKind} {t : ℤ} (hd : Ready dec)
    (hok : (webPAnimDecoderGetNext codec env dec heap).timestamp = some t) :
    dec.Fits ∧ (webPAnimDecoderGetNext codec env dec heap).dec.prevIter.frameNum = dec.nextFrame := by
  have hcases := hd.next_cases codec env heap
  generalize webPAnimDecoderGetNext codec env dec heap = n at hok hcases ⊢
  cases hcases with
  | nothing why => cases hok
  | failed fits frame bad => cases hok
  | composed fits frame good =>
    rw [WebPAnimDecoder.compose_prevIter]
    exact ⟨fits, (hd.iterFacts frame).1⟩

/-- A call after a run returns what it returns after a clean one. -/
theorem Since.replays {env : Env} {heap : Heap ObjectKind} {t : ℤ} (h₀ : Ready dec₀) (h₁ : Ready dec₁)
    (ht : Twin dec₀ dec₁) (hnew : dec₀ = webPAnimDecoderReset dec₀)
    (hnew' : dec₁ = webPAnimDecoderReset dec₁) (hr : Since codec dec₀ k dec)
    (hok : (webPAnimDecoderGetNext codec env dec heap).timestamp = some t) (hc : Clean codec dec₁ k dec')
    (env' : Env) (heap' : Heap ObjectKind) :
    (env'.run = Env.fine.run → (webPAnimDecoderGetNext codec env' dec' heap').timestamp = some t) ∧
      ∀ t', (webPAnimDecoderGetNext codec env' dec' heap').timestamp = some t' →
        t = t' ∧ (webPAnimDecoderGetNext codec env dec heap).dec.currFrame.Same
          (webPAnimDecoderGetNext codec env' dec' heap').dec.currFrame := by
  have hin := hr.inStep h₀ h₁ ht hnew hnew' hc
  obtain ⟨hd, -⟩ := hr.ready h₀
  have hd' := hc.ready h₁
  refine ⟨fun hfine => ?_, fun t' hok' => ?_⟩
  · obtain ⟨t', hok'⟩ := hin.success_of hd hd' hok hfine
    rw [(hin.success hd hd' hok hok').1]
    exact hok'
  · obtain ⟨he, -, hs⟩ := hin.success hd hd' hok hok'
    exact ⟨he, hs⟩

end

/-- New decoders of one animation and one output size. -/
theorem twin_of_new {grants grants' : Grants} {data : WebPData} {options : WebPAnimDecoderOptions}
    {heap heap' heap₀ heap₁ : Heap ObjectKind} {dec₀ dec₁ : WebPAnimDecoder}
    (hnew : webPAnimDecoderNew grants data options heap = (some dec₀, heap₀))
    (hnew' : webPAnimDecoderNew grants' data options heap' = (some dec₁, heap₁)) : Twin dec₀ dec₁ := by
  obtain ⟨hd, hinfo, ⟨f, happly, rfl⟩, hcurr, -⟩ := webPAnimDecoderNew_some hnew
  obtain ⟨hd', hinfo', ⟨f', happly', rfl⟩, hcurr', -⟩ := webPAnimDecoderNew_some hnew'
  rw [happly, Option.some.injEq, Prod.mk.injEq, Prod.mk.injEq, Prod.mk.injEq] at happly'
  obtain ⟨hf, hc, hw, hh⟩ := happly'
  have hdemux := Option.some.inj (hd.symm.trans hd')
  have hi : dec₀.info = dec₁.info := by rw [hinfo, hinfo', hdemux]
  refine ⟨hdemux, hi, hf, hw, hh, fun w k => by rw [hc], by rw [hc], ?_⟩
  rw [hcurr, hcurr', WebPAnimDecoder.outW, WebPAnimDecoder.outW, WebPAnimDecoder.outH, WebPAnimDecoder.outH, hw, hh, hi]

/-- A call after any run returns what it returns on a new decoder after as many
calls without failure, and that decoder can be made to get there. -/
theorem replay_exact {codec : Codec} {grants grants' : Grants} {data : WebPData} {dmux : WebPDemuxer}
    {options : WebPAnimDecoderOptions} {heap heap' heap₀ heap₁ heap₂ : Heap ObjectKind}
    {dec₀ dec₁ dec : WebPAnimDecoder} {env : Env} {k : ℕ} {t : ℤ} (ha : Accepted data dmux)
    (ho : IntOptions options) (hnew : webPAnimDecoderNew grants data options heap = (some dec₀, heap₀))
    (hnew' : webPAnimDecoderNew grants' data options heap' = (some dec₁, heap₁)) (hrun : Since codec dec₀ k dec)
    (hok : (webPAnimDecoderGetNext codec env dec heap₂).timestamp = some t) :
    (∃ dec', Clean codec dec₁ k dec') ∧
      ∀ dec', Clean codec dec₁ k dec' → ∀ env' heap₃,
        (env'.run = Env.fine.run → (webPAnimDecoderGetNext codec env' dec' heap₃).timestamp = some t) ∧
        ∀ t', (webPAnimDecoderGetNext codec env' dec' heap₃).timestamp = some t' →
          t = t' ∧ (webPAnimDecoderGetNext codec env dec heap₂).dec.currFrame.Same
            (webPAnimDecoderGetNext codec env' dec' heap₃).dec.currFrame := by
  obtain ⟨h₀, -⟩ := ready_of_new ha ho hnew
  obtain ⟨h₁, -⟩ := ready_of_new ha ho hnew'
  have ht := twin_of_new hnew hnew'
  obtain ⟨-, -, -, -, -, -, hreset⟩ := webPAnimDecoderNew_some hnew
  obtain ⟨-, -, -, -, -, -, hreset'⟩ := webPAnimDecoderNew_some hnew'
  exact ⟨hrun.clean h₀ h₁ ht hreset hreset', fun dec' hc env' heap₃ =>
    hrun.replays h₀ h₁ ht hreset hreset' hok hc env' heap₃⟩

/-- A property of the decoder after a call that returns a frame. -/
def cleanNext (codec : Codec) (dec : WebPAnimDecoder) (p : WebPAnimDecoder → Bool) : Bool :=
  (webPAnimDecoderGetNext codec .fine dec Heap.empty).timestamp.isSome &&
    p (webPAnimDecoderGetNext codec .fine dec Heap.empty).dec

theorem Clean.next_any {codec : Codec} {dec₁ dec : WebPAnimDecoder} {k : ℕ} {p : WebPAnimDecoder → Bool}
    (hc : Clean codec dec₁ k dec) (h : cleanNext codec dec p) :
    ∃ dec', Clean codec dec₁ (k + 1) dec' ∧ p dec' := by
  obtain ⟨hok, hp⟩ := (Bool.and_eq_true _ _).mp h
  obtain ⟨t, ht⟩ := Option.isSome_iff_exists.mp hok
  exact ⟨_, hc.success .fine Heap.empty ht, hp⟩

/-- The codec fails after it has written sevens everywhere. -/
def Env.broken : Env := ⟨fun _ _ _ => true, fun _ => 0, ⟨true, some fun _ _ => some 7⟩⟩

/-- A frame whose first decode fails comes out as on a new decoder. -/
theorem badge_replays : ∃ dec₀ dec, Since .black dec₀ 0 dec ∧
    (webPAnimDecoderGetNext .black .broken dec₀ Heap.empty).dec = dec ∧
    (webPAnimDecoderGetNext .black .fine dec₀ Heap.empty).timestamp = some 100 ∧
    (webPAnimDecoderGetNext .black .fine dec Heap.empty).dec.currFrame.Same
      (webPAnimDecoderGetNext .black .fine dec₀ Heap.empty).dec.currFrame := by
  obtain ⟨dmux, ha⟩ := badge_accepted
  have hrun : (webPAnimDecoderNew Env.fine.grants badge { scaledWidth := 32, scaledHeight := 16 } Heap.empty).1.any
      fun dec => (webPAnimDecoderGetNext .black .broken dec Heap.empty).timestamp = none &&
        (webPAnimDecoderGetNext .black .fine (webPAnimDecoderGetNext .black .broken dec Heap.empty).dec
          Heap.empty).timestamp = some 100 := by decide +kernel
  obtain ⟨dec₀, hnew, hp⟩ := webPAnimDecoderNew_any hrun
  simp only [Bool.and_eq_true, decide_eq_true_eq] at hp
  obtain ⟨hfail, hok⟩ := hp
  have hsince : Since .black dec₀ 0 _ := Since.start.failure .broken Heap.empty hfail
  have h := (replay_exact ha ⟨by decide, by decide⟩ hnew hnew hsince hok).2 dec₀ .start .fine Heap.empty
  have hok' := h.1 rfl
  exact ⟨dec₀, _, hsince, rfl, hok', (h.2 100 hok').2⟩

end WebPlugin
