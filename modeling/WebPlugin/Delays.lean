/-
# Frame delays

`decode` asks the demuxer for frame 1, 2, … and keeps their durations. The
frames are numbered in the order of their ANMF chunks, so the delays are the
durations in these chunks, and those of the frames that the anim decoder
composes (`delays_belong`).
-/
import WebPlugin.FileFrames
import WebPlugin.GetNext
import WebPlugin.Dib

namespace WebPlugin

open Memory Ledger Words

/-- The delay for a duration: 100 ms when there is none. -/
def delayOf (duration : ℤ) : ℤ := if duration = 0 then 100 else duration

/-- The delays of a decoder are the durations of the ANMF chunks at `offs`,
which are stored as the frames 1, 2, … of its file. -/
structure DelaysBelong (d : WebPDecoder) (bytes : WebPData) (dmux : WebPDemuxer) (offs : List ℕ) : Prop where
  demux : webPDemux bytes = some dmux
  count : (dmux.frames.length : ℤ) = d.totalFrames
  numbers : ∀ i (h : i < dmux.frames.length), dmux.frames[i].frameNum = i + 1
  chunks : List.Forall₂ (AnmfChunk bytes.bytes) offs dmux.frames
  order : offs.Pairwise (· < ·)
  found : ∀ i : ℕ, i < d.totalFrames → (webPDemuxGetFrame dmux (i + 1)).isSome
  length : (d.frameDelays.length : ℤ) = d.totalFrames
  delay : ∀ i (h : i < offs.length), d.getFrameDelay i =
    delayOf (getLE24 bytes.bytes (offs[i] + chunkHeaderSize + 12))

section

variable {data : WebPData} {dmux : WebPDemuxer}

/-- Frame `i + 1` is the one at index `i`. -/
theorem Accepted.getFrame_eq (h : Accepted data dmux) {i : ℕ} (hi : i < dmux.frames.length) :
    webPDemuxGetFrame dmux (i + 1) = some (synthesizeFrame dmux dmux.frames[i]) := by
  have hcount := h.numbered.count
  have hfind : dmux.frames.find? (·.frameNum = (i : ℤ) + 1) = some dmux.frames[i] := by
    rw [List.find?_eq_some_iff_getElem]
    refine ⟨by simpa using (h.numbered.frames i hi).num, i, hi, rfl, fun j hj => ?_⟩
    have := (h.numbered.frames j (by omega)).num
    simp only [this, Bool.not_eq_true', decide_eq_false_iff_not]
    omega
  rw [webPDemuxGetFrame, if_neg (by omega), if_neg (by omega)]
  exact congrArg (Option.map _) hfind

theorem Accepted.frameDelayOf_eq (h : Accepted data dmux) {i : ℕ} (hi : i < dmux.frames.length) :
    WebPDecoder.frameDelayOf dmux i = delayOf dmux.frames[i].duration := by
  have hd := (h.numbered.frames i hi).duration
  rw [WebPDecoder.frameDelayOf, h.getFrame_eq hi]
  simp only [synthesizeFrame, delayOf, kDefaultFrameDelayMs]
  split_ifs <;> omega

end

section

variable {grants : Grants} {d₀ d : WebPDecoder} {bytes : WebPData} {heap heap' : Heap ObjectKind}

/-- The demuxer behind a decoder of an animation. -/
theorem decode_accepted (hdecode : d₀.decode grants bytes heap = (.returned true, d, heap'))
    (hanim : d.hasAnimation) : ∃ dmux, Accepted bytes dmux ∧ d.totalFrames = dmux.numFrames ∧
      d.frameDelays = (List.range d.totalFrames.toNat).map (WebPDecoder.frameDelayOf dmux) ∧
      d.width = dmux.canvasWidth ∧ d.height = dmux.canvasHeight := by
  obtain ⟨hfacts, -⟩ := decode_facts hdecode
  obtain ⟨f, hf, hw, hh, -, ha⟩ := hfacts.features
  obtain ⟨dmux, hdmux, htotal, -, hdelays⟩ := hfacts.anim hanim
  obtain ⟨hacc, hcw, hch⟩ := Accepted.of_features hf (ha ▸ hanim) hdmux
  obtain ⟨h0, hlt⟩ := hacc.count_lt
  refine ⟨dmux, hacc, ?_, hdelays, hw.trans hcw.symm, hh.trans hch.symm⟩
  rw [htotal, u32_of_range h0 (by omega)]
  exact i32_of_range (by omega) hlt

theorem getFrameDelay_eq {i : ℕ} (hanim : d.hasAnimation) (hi : i < d.totalFrames) {f : ℕ → ℤ}
    (hd : d.frameDelays = (List.range d.totalFrames.toNat).map f) : d.getFrameDelay i = f i := by
  have hlt : i < d.totalFrames.toNat := by omega
  have hcond : ¬ ((!d.hasAnimation) = true ∨ (i : ℤ) < 0 ∨ d.totalFrames ≤ i) := by
    simp only [hanim, Bool.not_true, Bool.false_eq_true, false_or]
    omega
  rw [WebPDecoder.getFrameDelay, if_neg hcond, hd, Int.toNat_natCast]
  simp [List.getD, hlt]

theorem delays_of_decode (hdecode : d₀.decode grants bytes heap = (.returned true, d, heap'))
    (hanim : d.hasAnimation) : ∃ dmux offs, DelaysBelong d bytes dmux offs := by
  obtain ⟨dmux, hacc, htotal, hdelays, -⟩ := decode_accepted hdecode hanim
  obtain ⟨offs, hchunks, horder, -⟩ := hacc.stored
  have hcount := hacc.numbered.count
  have hlen := hchunks.length_eq
  have h0 := hacc.count_lt.1
  refine ⟨dmux, offs, hacc.demux, by omega, fun i hi => (hacc.numbered.frames i hi).num, hchunks,
    horder.imp (by omega), fun i hi => ?_, ?_, fun i hi => ?_⟩
  · rw [hacc.getFrame_eq (by omega)]
    rfl
  · rw [hdelays, List.length_map, List.length_range]
    omega
  · have hi' : i < dmux.frames.length := by omega
    have hheader : dmux.frames[i].SameHeader _ := ((List.forall₂_iff_get.mp hchunks).2 i hi hi').header
    rw [getFrameDelay_eq hanim (by omega) hdelays, hacc.frameDelayOf_eq hi',
      hheader.2.2.1]
    rfl

end

/-- After `decode`, the delays are those of the ANMF chunks stored as frames,
and of the frames that an anim decoder of the same bytes composes. -/
theorem delays_belong {grants : Grants} {d₀ d : WebPDecoder} {bytes : WebPData} {heap heap' : Heap ObjectKind}
    (hdecode : d₀.decode grants bytes heap = (.returned true, d, heap')) (hanim : d.hasAnimation) :
    (∃ dmux offs, DelaysBelong d bytes dmux offs) ∧
    ∀ {codec env grants options heap heap' dec₀ dec timestamp}, IntOptions options →
      webPAnimDecoderNew grants bytes options heap = (some dec₀, heap') → Reach codec dec₀ dec →
      (webPAnimDecoderGetNext codec env dec heap).timestamp = some timestamp →
      ∃ i < d.totalFrames.toNat, dec.nextFrame = (i : ℤ) + 1 ∧ ∃ iter : WebPIterator,
        iter.frameNum = i + 1 ∧
        (webPAnimDecoderGetNext codec env dec heap).dec.prevIter = iter ∧
        timestamp = i32 (dec.prevFrameTimestamp + iter.duration) ∧
        d.getFrameDelay i = delayOf iter.duration := by
  refine ⟨delays_of_decode hdecode hanim, ?_⟩
  intro codec env grants' options heap₁ heap₂ dec₀ dec timestamp ho hnew hr hnext
  obtain ⟨dmux, hacc, htotal, hdelays, -⟩ := decode_accepted hdecode hanim
  obtain ⟨hready, hdmux, -⟩ := hr.out hacc ho hnew
  have hn := hready.next_cases codec env heap₁
  generalize webPAnimDecoderGetNext codec env dec heap₁ = next at hn hnext
  cases hn with
  | nothing why => cases hnext
  | failed fits frame bad => cases hnext
  | @composed iter fits frame good =>
    cases hnext
    obtain ⟨hnum, -⟩ := hready.iterFacts frame
    have h1 := hready.next
    have hget := frame.2
    have hcount := hacc.numbered.count
    have hle : dec.nextFrame ≤ dmux.numFrames := by
      rw [webPDemuxGetFrame, hdmux] at hget
      split_ifs at hget with hrange
      all_goals omega
    obtain ⟨i, hi⟩ : ∃ i : ℕ, dec.nextFrame = i + 1 := ⟨(dec.nextFrame - 1).toNat, by omega⟩
    have hi' : i < dmux.frames.length := by omega
    rw [hdmux, hi, hacc.getFrame_eq hi'] at hget
    cases hget
    refine ⟨i, by omega, hi, _, hnum.trans hi, by simp, rfl, ?_⟩
    rw [getFrameDelay_eq hanim (by omega) hdelays, hacc.frameDelayOf_eq hi']
    rfl

/-- Two frames, the second without a duration. -/
def blink : WebPData := Files.animation 16 16
  [{ x := 0, y := 0, w := 16, h := 16, duration := 40 }, { x := 0, y := 0, w := 8, h := 8, duration := 0 }]

theorem blink_delays : ∃ d dmux offs, DelaysBelong d blink dmux offs ∧ d.frameDelays = [40, 100] := by
  obtain ⟨d, heap, hdecode, hd⟩ := decode_any .all { id := 0 } blink Heap.empty
    (fun d => d.hasAnimation && decide (d.frameDelays = [40, 100]))
    (by decide +kernel) (by decide +kernel)
  obtain ⟨hanim, hdelays⟩ := (Bool.and_eq_true _ _).mp hd
  obtain ⟨dmux, offs, h⟩ := (delays_belong hdecode hanim).1
  exact ⟨d, dmux, offs, h, of_decide_eq_true hdelays⟩

end WebPlugin
