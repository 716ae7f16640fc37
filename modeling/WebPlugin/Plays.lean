/-
# Playing an animation

An anim decoder plays an animation when every call returns a frame, up to the
last one, as long as the codec decodes what it is given (`Plays`). It does when
its canvas fits and `WebPDecode` accepts the sizes of every frame
(`plays_iff`). Scaled, a frame that has lost its height is not accepted, and one
that has lost its width only with a guess that the canvas holds
(`scaled_plays_iff`).
-/
import WebPlugin.Replay
import WebPlugin.FileFrames

namespace WebPlugin

open Memory Ledger Words

/-- After any calls that have returned frames, fewer than `n`, the next call
returns one. -/
def Plays (codec : Codec) (dec₀ : WebPAnimDecoder) (n : ℕ) : Prop :=
  ∀ k < n, ∀ dec, Clean codec dec₀ k dec → ∀ env heap, env.run = Env.fine.run →
    (webPAnimDecoderGetNext codec env dec heap).timestamp ≠ none

/-- A frame of `w × h` keeps a size that is accepted when its canvas of `W × H`
is scaled to `sw × sh`: its height, and its width or one that can be guessed. -/
structure KeepsSize (w h W H sw sh : ℤ) : Prop where
  height : H ≤ h * sh % 4294967296
  width : w * sw % 4294967296 < W → Guessed w h W H sw sh

section

variable {codec : Codec} {dec₀ dec : WebPAnimDecoder} {iter : WebPIterator} {k : ℕ} {data : WebPData}
  {dmux : WebPDemuxer}

theorem Clean.since (hc : Clean codec dec₀ k dec) : Since codec dec₀ k dec := by
  induction hc with
  | start => exact .start
  | success run env heap ok ih => exact ih.success env heap ok

/-- A call with a frame left returns it when its canvas fits and its sizes are
accepted. -/
theorem Ready.next_iff (hd : Ready dec) (hframe : dec.Frame iter) {env : Env} (hfine : env.run = Env.fine.run)
    (heap : Heap ObjectKind) :
    (webPAnimDecoderGetNext codec env dec heap).timestamp ≠ none ↔ dec.Fits ∧ dec.Playable iter := by
  have hcases := hd.next_cases codec env heap
  have hi := (hd.iterFacts hframe).2
  have hok : dec.Fits → ((dec.decodeFrame codec env iter heap).status = .ok ↔ dec.Playable iter) := by
    intro hf
    rw [hd.decodeFrame_ok_iff codec env heap hf hi, hfine]
    exact ⟨fun h => h.1, fun h => ⟨h, rfl, rfl⟩⟩
  generalize webPAnimDecoderGetNext codec env dec heap = n at hcases
  cases hcases with
  | nothing why =>
    refine iff_of_false (fun h => h rfl) fun h => ?_
    rcases why with why | why
    · exact why iter hframe
    · exact why h.1
  | @failed iter' fits frame bad =>
    obtain rfl : iter' = iter := Option.some.inj (frame.2.symm.trans hframe.2)
    exact iff_of_false (fun h => h rfl) fun h => bad ((hok fits).mpr h.2)
  | @composed iter' fits frame good =>
    obtain rfl : iter' = iter := Option.some.inj (frame.2.symm.trans hframe.2)
    exact iff_of_true (Option.some_ne_none _) ⟨fits, (hok fits).mp good⟩

/-- Playing comes down to the frames one by one. -/
theorem plays_iff (hd : Ready dec₀) (hnew : dec₀ = webPAnimDecoderReset dec₀)
    (hinfo : dec₀.info = animInfo dec₀.demux) :
    Plays codec dec₀ dec₀.demux.numFrames.toNat ↔ ∀ i < dec₀.demux.numFrames.toNat, ∀ iter,
      webPDemuxGetFrame dec₀.demux (i + 1) = some iter → dec₀.Fits ∧ dec₀.Playable iter := by
  obtain ⟨data, ha⟩ := hd.accepted
  obtain ⟨h0, hlt⟩ := ha.count_lt
  have hcount : i32 dec₀.info.frameCount = dec₀.demux.numFrames := by
    rw [hinfo, animInfo, u32_of_range h0 (by omega)]
    exact i32_of_range (by omega) hlt
  -- A clean run of `k` calls has frame `k` to read, whatever its decoder.
  have hframe : ∀ {k dec iter}, Clean codec dec₀ k dec → k < dec₀.demux.numFrames.toNat →
      webPDemuxGetFrame dec₀.demux (k + 1) = some iter → Ready dec ∧ Twin dec dec₀ ∧ dec.Frame iter := by
    intro k dec iter hc hk hget
    obtain ⟨hd', ht⟩ := hc.since.ready hd
    have hnext := hc.since.nextFrame hd hnew
    refine ⟨hd', ht, ?_, ?_⟩
    · rw [WebPAnimDecoder.hasMoreFrames, hnext, ht.info, hcount]
      exact decide_eq_true (by omega)
    · rw [ht.demux, hnext]
      exact hget
  constructor
  · intro hplays i hi iter hget
    have hrun : ∀ k ≤ i, ∃ dec, Clean codec dec₀ k dec := by
      intro k
      induction k with
      | zero => exact fun _ => ⟨dec₀, .start⟩
      | succ k ih =>
        intro hk
        obtain ⟨dec, hc⟩ := ih (by omega)
        obtain ⟨t, ht⟩ := Option.ne_none_iff_exists'.mp (hplays k (by omega) dec hc .fine Heap.empty rfl)
        exact ⟨_, hc.success .fine Heap.empty ht⟩
    obtain ⟨dec, hc⟩ := hrun i le_rfl
    obtain ⟨hd', ht, hf⟩ := hframe hc hi hget
    obtain ⟨hfits, hplay⟩ := (hd'.next_iff hf rfl Heap.empty).mp (hplays i hi dec hc .fine Heap.empty rfl)
    exact ⟨ht.fits.mp hfits, ht.playable.mp hplay⟩
  · intro hall k hk dec hc env heap hfine
    obtain ⟨iter, hget⟩ := ha.getFrame_isSome (show (0 : ℤ) < k + 1 by omega) (by omega)
    obtain ⟨hd', ht, hf⟩ := hframe hc hk hget
    obtain ⟨hfits, hplay⟩ := hall k hk iter hget
    exact (hd'.next_iff hf hfine heap).mpr ⟨ht.fits.mpr hfits, ht.playable.mpr hplay⟩

/-- The sizes of a frame of a scaled animation, in numbers. -/
theorem Ready.playable_iff (hd : Ready dec) (hs : 0 < dec.outCanvasW) (hi : IterFacts dec.demux iter) :
    dec.Playable iter ↔
      KeepsSize iter.width iter.height dec.info.canvasWidth dec.info.canvasHeight dec.outW dec.outH := by
  obtain ⟨hx, hy, hr⟩ := hd.rect_within hi
  have hlost : iter.width * dec.outW % 4294967296 < dec.info.canvasWidth ↔ (dec.rect iter).frmW = 0 := by
    have hpos : 0 < (dec.rect iter).frmW ↔ _ := hx.side_pos_iff
    have h0 := hr.w
    omega
  have hkept : (dec.info.canvasHeight : ℤ) ≤ iter.height * dec.outH % 4294967296 ↔
      0 < (dec.rect iter).frmH := hy.side_pos_iff.symm
  have hblock : dec.blockWidth iter = if (dec.rect iter).frmW = 0 then
      guessSide iter.width iter.height (dec.rect iter).frmH else (dec.rect iter).frmW := by
    rw [WebPAnimDecoder.blockWidth, if_pos hs]
  have hw := hr.w
  have hx0 := hr.x
  have hright := hr.right
  constructor
  · intro hp
    refine ⟨hkept.mpr hp.height, fun hl => (hd.guessed_iff hi).mpr ⟨hlost.mp hl, hp.height, ?_, ?_⟩⟩
    · have := hp.width
      rwa [hblock, if_pos (hlost.mp hl)] at this
    · have := hp.fits
      rwa [hblock, if_pos (hlost.mp hl)] at this
  · intro hk
    by_cases h0 : (dec.rect iter).frmW = 0
    · obtain ⟨-, -, hpos, hfits⟩ := (hd.guessed_iff hi).mp (hk.width (hlost.mpr h0))
      exact ⟨hkept.mp hk.height, fun hz => absurd hz hs.ne', by rwa [hblock, if_pos h0], by rwa [hblock, if_pos h0]⟩
    · exact ⟨hkept.mp hk.height, fun hz => absurd hz hs.ne', by rw [hblock, if_neg h0]; omega,
        by rw [hblock, if_neg h0]; omega⟩

end

/-- An animation that plays at its own size plays at another just when the
canvas of that size fits and every frame keeps a size. -/
theorem scaled_plays_iff {codec : Codec} {grants grants' : Grants} {data : WebPData} {dmux : WebPDemuxer}
    {options : WebPAnimDecoderOptions} {heap heap' heap₀ heap₁ : Heap ObjectKind} {dec₀ dec₁ : WebPAnimDecoder}
    (ha : Accepted data dmux) (ho : IntOptions options) (hw : 1 ≤ options.scaledWidth)
    (hh : 1 ≤ options.scaledHeight)
    (_hnew : webPAnimDecoderNew grants data { options with scaledWidth := 0, scaledHeight := 0 } heap =
      (some dec₁, heap₁)) (_hplays : Plays codec dec₁ dmux.numFrames.toNat)
    (hnew : webPAnimDecoderNew grants' data options heap' = (some dec₀, heap₀)) :
    Plays codec dec₀ dmux.numFrames.toNat ↔ ∀ i < dmux.numFrames.toNat, ∀ iter,
      webPDemuxGetFrame dmux (i + 1) = some iter →
        4 * options.scaledWidth * options.scaledHeight < 4294967296 ∧
        KeepsSize iter.width iter.height dmux.canvasWidth dmux.canvasHeight options.scaledWidth
          options.scaledHeight := by
  have hr : Reach codec dec₀ dec₀ := .refl
  obtain ⟨hd, hdmux, hcw, hW, hH⟩ := hr.scaled ha ho hw hh hnew
  obtain ⟨-, hinfo, -, -, -, -, hreset⟩ := webPAnimDecoderNew_some hnew
  have h := @plays_iff codec _ hd hreset hinfo
  rw [hdmux] at h
  rw [h]
  refine forall_congr' fun i => forall_congr' fun hi => forall_congr' fun iter => forall_congr' fun hget => ?_
  have hfacts : IterFacts dec₀.demux iter := by
    rw [hdmux]
    exact (ha.of_getFrame (by omega) hget).2
  rw [hd.playable_iff (by omega) hfacts, WebPAnimDecoder.Fits, hd.width, hd.height, hW, hH, hdmux]

/-- All frames keep a size that is accepted, as far as it can be evaluated. -/
def playsAll (dec : WebPAnimDecoder) : Bool :=
  (List.range dec.demux.numFrames.toNat).all fun i =>
    (webPDemuxGetFrame dec.demux (i + 1)).all fun iter => decide (dec.Fits ∧ dec.Playable iter)

/-- A new decoder that plays, or not. -/
theorem plays_iff_playsAll {codec : Codec} {data : WebPData} {dmux : WebPDemuxer} {options : WebPAnimDecoderOptions}
    {heap heap' : Heap ObjectKind} {grants : Grants} {dec : WebPAnimDecoder} (ha : Accepted data dmux)
    (ho : IntOptions options) (hnew : webPAnimDecoderNew grants data options heap = (some dec, heap')) :
    Plays codec dec dmux.numFrames.toNat ↔ playsAll dec = true := by
  obtain ⟨hd, hdmux⟩ := ready_of_new ha ho hnew
  obtain ⟨-, hinfo, -, -, -, -, hreset⟩ := webPAnimDecoderNew_some hnew
  rw [← hdmux, plays_iff hd hreset hinfo, playsAll]
  simp only [List.all_eq_true, List.mem_range, Option.all_eq_true, decide_eq_true_eq]

/-- A frame one row high over a full one. -/
def ruler : WebPData :=
  Files.animation 16 16 [{ x := 0, y := 0, w := 16, h := 16 }, { x := 0, y := 8, w := 16, h := 1 }]

/-- It does not play at half its size. -/
theorem ruler_stops : ∃ dmux dec₀ dec₁ heap₀ heap₁, Accepted ruler dmux ∧
    webPAnimDecoderNew Env.fine.grants ruler {} Heap.empty = (some dec₁, heap₁) ∧
    webPAnimDecoderNew Env.fine.grants ruler { scaledWidth := 8, scaledHeight := 8 } Heap.empty =
      (some dec₀, heap₀) ∧
    Plays .black dec₁ dmux.numFrames.toNat ∧ ¬ Plays .black dec₀ dmux.numFrames.toNat := by
  have hdmux : (webPDemux ruler).any fun dmux => hasFlag dmux.featureFlags animationFlag := by decide +kernel
  have hfull : (webPAnimDecoderNew Env.fine.grants ruler {} Heap.empty).1.any playsAll := by decide +kernel
  have hhalf : (webPAnimDecoderNew Env.fine.grants ruler { scaledWidth := 8, scaledHeight := 8 } Heap.empty).1.any
      fun dec => !playsAll dec := by decide +kernel
  obtain ⟨dmux, hd, hflag⟩ := (Option.any_eq_true _ _).mp hdmux
  have ha : Accepted ruler dmux := ⟨hd, hflag⟩
  obtain ⟨dec₁, hnew₁, hall⟩ := webPAnimDecoderNew_any hfull
  obtain ⟨dec₀, hnew₀, hstop⟩ := webPAnimDecoderNew_any hhalf
  refine ⟨dmux, dec₀, dec₁, _, _, ha, hnew₁, hnew₀,
    (plays_iff_playsAll ha ⟨by decide, by decide⟩ hnew₁).mpr hall, ?_⟩
  rw [plays_iff_playsAll ha ⟨by decide, by decide⟩ hnew₀]
  simpa using hstop

/-- A size of 32 × 16. -/
def halfOptions : WebPAnimDecoderOptions := { scaledWidth := 32, scaledHeight := 16 }

/-- Both frames keep a size. -/
theorem badge_plays_scaled : ∃ dmux dec₀ heap₀, Accepted badge dmux ∧ dmux.numFrames = 2 ∧
    webPAnimDecoderNew Env.fine.grants badge halfOptions Heap.empty = (some dec₀, heap₀) ∧
    Plays .black dec₀ dmux.numFrames.toNat := by
  obtain ⟨dmux, ha⟩ := badge_accepted
  have hfull : (webPAnimDecoderNew Env.fine.grants badge { halfOptions with scaledWidth := 0, scaledHeight := 0 }
      Heap.empty).1.any playsAll := by decide +kernel
  have hhalf : (webPAnimDecoderNew Env.fine.grants badge halfOptions Heap.empty).1.any fun _ => true := by
    decide +kernel
  have hframes : (webPDemux badge).all fun dmux => decide (dmux.numFrames = 2) && (List.range 2).all fun i =>
      (webPDemuxGetFrame dmux (i + 1)).all fun iter =>
        decide (64 ≤ iter.width * 32 % 4294967296 ∧ 64 ≤ iter.height * 16 % 4294967296) := by decide +kernel
  rw [ha.demux, Option.all_some, Bool.and_eq_true, decide_eq_true_eq, List.all_eq_true] at hframes
  obtain ⟨hnum, hframes⟩ := hframes
  obtain ⟨dec₁, hnew₁, hall⟩ := webPAnimDecoderNew_any hfull
  obtain ⟨dec₀, hnew₀, -⟩ := webPAnimDecoderNew_any hhalf
  obtain ⟨hW, hH⟩ := badge_size ha
  have hplays : Plays .black dec₁ dmux.numFrames.toNat :=
    (plays_iff_playsAll ha ⟨by decide, by decide⟩ hnew₁).mpr hall
  refine ⟨dmux, dec₀, _, ha, hnum, hnew₀,
    (scaled_plays_iff ha ⟨by decide, by decide⟩ (by decide) (by decide) hnew₁ hplays
    hnew₀).mpr fun i hi iter hget => ⟨by decide, ?_⟩⟩
  rw [hnum] at hi
  have hkeeps := hframes i (List.mem_range.mpr hi)
  rw [hget, Option.all_some, decide_eq_true_eq] at hkeeps
  rw [hW, hH]
  exact ⟨hkeeps.2, fun hlost => absurd hlost (not_lt.mpr hkeeps.1)⟩

end WebPlugin
