/-
# Playback

A playback is a sequence of `getFrame` calls on one animation that asks for
frame 0 or for the frame after the one asked for last. `getFrame` reads the
next frame of the anim decoder it has, so a call shows the frame asked for just
when every call since the last one for frame 0 has succeeded and all of them
asked for one size (`playback_shows_iff`): another size makes a new anim
decoder, which starts over, and a call that fails reads nothing.
-/
import WebPlugin.Kept
import WebPlugin.Dib
import WebPlugin.Checkerboard

namespace WebPlugin

open Memory Ledger Words

/-! ### Calls -/

/-- A call of `getFrame`. -/
structure GetCall where
  env : Env
  index : ℤ
  mem : Buf
  dst : ℤ
  stride : ℤ
  outW : ℤ
  outH : ℤ
  heap : Heap ObjectKind

namespace GetCall

/-- The call on a decoder. -/
def get (c : GetCall) (codec : Codec) (d : WebPDecoder) : Got :=
  d.getFrame codec c.env c.index c.mem c.dst c.stride c.outW c.outH c.heap

/-- Its output size is one of `resolveOutputSize`. -/
def Resolved (c : GetCall) (d : WebPDecoder) : Prop :=
  ∃ reqW reqH : ℤ, (reqW < 2147483648 ∧ reqH < 2147483648) ∧ d.resolveOutputSize reqW reqH = (c.outW, c.outH)

/-- The frame asked for is the first, or the one after that of the last call. -/
def InOrder (c : GetCall) : List (GetCall × Bool) → Prop
  | [] => c.index = 0
  | (p, _) :: _ => c.index = 0 ∨ c.index = p.index + 1

/-- The calls since the last one for frame 0 have all succeeded, and asked for
the size of this one. The latest call comes first in the history. -/
def OnTrack : GetCall → List (GetCall × Bool) → Prop
  | c, [] => c.index = 0
  | c, (p, ok) :: h => c.index = 0 ∨ (ok = true ∧ (p.outW = c.outW ∧ p.outH = c.outH) ∧ OnTrack p h)

end GetCall

/-- The calls of a playback, with their results, and the decoder they leave. -/
inductive Playback (codec : Codec) (d₀ : WebPDecoder) : List (GetCall × Bool) → WebPDecoder → Prop
  | start : Playback codec d₀ [] d₀
  | call {h : List (GetCall × Bool)} {d : WebPDecoder} (run : Playback codec d₀ h d) (c : GetCall)
      (order : c.InOrder h) (size : c.Resolved d₀) :
      Playback codec d₀ ((c, (c.get codec d).ok) :: h) (c.get codec d).decoder

/-- The DIB holds the canvas of frame `j`, the one that the call `j + 1` on any
new anim decoder of that output size returns. -/
def ShowsFrame (codec : Codec) (d₀ : WebPDecoder) (c : GetCall) (got : Got) (j : ℕ) : Prop :=
  ∀ grants heap heap' dec₁, webPAnimDecoderNew grants d₀.srcBytes
      (WebPDecoder.animOptions (d₀.scaleW c.outW c.outH) (d₀.scaleH c.outW c.outH)) heap = (some dec₁, heap') →
    (∃ dec', Clean codec dec₁ (j + 1) dec') ∧ ∀ dec', Clean codec dec₁ (j + 1) dec' →
      got.dst = (compositeBGRAtoBGR dec'.currFrame c.mem c.dst c.stride c.outW c.outH).dst

section

variable {codec : Codec} {d₀ d d' : WebPDecoder} {c : GetCall} {h : List (GetCall × Bool)} {got : Got}
  {grants : Grants} {heap heap' : Heap ObjectKind} {dec : WebPAnimDecoder}

/-- What the last call says of the anim decoder kept: its size, and how many
frames have been read from it. -/
def LastCall (codec : Codec) (d : WebPDecoder) : List (GetCall × Bool) → Prop
  | [] => True
  | (p, ok) :: h => 0 ≤ p.index ∧ (0 < p.outW ∧ 0 < p.outH) ∧ (p.index < d.totalFrames →
      (ok = true → d.animDecoder ≠ none) ∧ ∀ dec, d.animDecoder = some dec →
        (d.animScaleW = d.scaleW p.outW p.outH ∧ d.animScaleH = d.scaleH p.outW p.outH) ∧
        ∃ k : ℕ, WebPDecoder.KeptAt codec d k dec ∧
          if ok then k ≤ p.index + 1 ∧ (k = p.index + 1 ↔ p.OnTrack h) else k ≤ p.index)

/-- A decoder in a playback. -/
structure Standing (codec : Codec) (d₀ : WebPDecoder) (h : List (GetCall × Bool)) (d : WebPDecoder) : Prop where
  bare : d.bare = d₀.bare
  kept : ∀ dec, d.animDecoder = some dec → ∃ k, WebPDecoder.KeptAt codec d k dec
  last : LastCall codec d h

/-- Different sizes make different scales. -/
theorem scale_inj {w h w' h' : ℤ} (hp : 0 < w ∧ 0 < h) (hp' : 0 < w' ∧ 0 < h')
    (he : d.scaleW w h = d.scaleW w' h' ∧ d.scaleH w h = d.scaleH w' h') : w = w' ∧ h = h' := by
  simp only [WebPDecoder.scaleW, WebPDecoder.scaleH] at he
  split_ifs at he <;> omega

/-- The anim decoder a call reads from has come no further than the frame asked
for, and as far as that just when the call is on track. -/
theorem Standing.cursor (hs : Standing codec d₀ h d) (horder : c.InOrder h) (hin : c.index < d.totalFrames)
    (hpos : 0 < c.outW ∧ 0 < c.outH)
    (he : WebPDecoder.Ensured grants d (d.scaleW c.outW c.outH) (d.scaleH c.outW c.outH) heap (some dec, d', heap')) :
    ∃ k : ℕ, WebPDecoder.KeptAt codec d' k (WebPDecoder.startAt dec c.index) ∧ k ≤ c.index ∧
      (k = c.index ↔ c.OnTrack h) := by
  by_cases h0 : c.index = 0
  · obtain ⟨k, hk⟩ := he.keptAt hs.kept
    rw [WebPDecoder.startAt, if_pos h0]
    refine ⟨0, hk.start, by omega, iff_of_true (by omega) ?_⟩
    cases h with
    | nil => exact h0
    | cons p h => exact .inl h0
  · rw [WebPDecoder.startAt, if_neg h0]
    cases h with
    | nil => exact absurd horder h0
    | cons p h =>
      obtain ⟨p, ok⟩ := p
      have hnext : c.index = p.index + 1 := horder.resolve_left h0
      obtain ⟨hp0, hppos, hlast⟩ := hs.last
      obtain ⟨hlive, hscale⟩ := hlast (by omega)
      cases he with
      | kept live size =>
        obtain ⟨hsize, k, hk, hcount⟩ := hscale dec live
        have hsame := scale_inj hppos hpos ⟨hsize.1.symm.trans size.1, hsize.2.symm.trans size.2⟩
        refine ⟨k, hk, ?_⟩
        cases ok with
        | true =>
          obtain ⟨hle, hiff⟩ := hcount
          refine ⟨by omega, ?_⟩
          rw [hnext, hiff]
          exact ⟨fun ht => .inr ⟨rfl, hsame, ht⟩, fun ht => (ht.resolve_left h0).2.2⟩
        | false =>
          have hle : (k : ℤ) ≤ p.index := hcount
          exact ⟨by omega, iff_of_false (by omega) fun ht => by
            cases (ht.resolve_left h0).1⟩
      | made stale new =>
        refine ⟨0, .new new, by omega, iff_of_false (by omega) fun ht => ?_⟩
        obtain ⟨hok, hsame, -⟩ := ht.resolve_left h0
        obtain ⟨dec', hdec'⟩ := Option.ne_none_iff_exists'.mp (hlive hok)
        rcases stale with stale | stale
        · rw [stale] at hdec'
          cases hdec'
        · obtain ⟨hsize, -⟩ := hscale dec' hdec'
          rw [hsame.1, hsame.2] at hsize
          exact stale hsize

variable (codec) in
/-- `getFrame` for a frame of the animation. -/
theorem get_animated (hanim : d.hasAnimation) (h0 : 0 ≤ c.index) (hin : c.index < d.totalFrames) :
    WebPDecoder.GotAnimated (webPAnimDecoderGetNext codec c.env) c.env.grants d c.index c.mem c.dst c.stride c.outW
      c.outH c.heap (c.get codec d) := by
  have hget : c.get codec d = d.getAnimated codec c.env c.index c.mem c.dst c.stride c.outW c.outH c.heap := by
    rw [GetCall.get, WebPDecoder.getFrame, if_neg (by omega), if_neg (by simp [hanim])]
  rw [hget]
  exact WebPDecoder.getAnimated_cases _ _ _ _ _ _ _ _ _ _

theorem Standing.index_nonneg (hs : Standing codec d₀ h d) (horder : c.InOrder h) : 0 ≤ c.index := by
  cases h with
  | nil => exact horder.ge
  | cons p h =>
    have hp := hs.last.1
    rcases horder with h0 | h0 <;> omega

/-- A call of a playback keeps the decoder standing. -/
theorem Standing.call (hs : Standing codec d₀ h d) (hanim : d.hasAnimation) (horder : c.InOrder h)
    (hpos : 0 < c.outW ∧ 0 < c.outH) :
    Standing codec d₀ ((c, (c.get codec d).ok) :: h) (c.get codec d).decoder := by
  have h0 := hs.index_nonneg horder
  by_cases hin : c.index < d.totalFrames
  · have hcases := get_animated codec hanim h0 hin
    generalize c.get codec d = got at hcases
    cases hcases with
    | @unmade d' heap' ensured =>
      cases ensured with
      | none stale refused =>
        exact ⟨hs.bare, fun dec hdec => (by cases hdec), h0, hpos, fun _ =>
          ⟨fun hok => (by cases hok), fun dec hdec => (by cases hdec)⟩⟩
    | @failed dec d' heap' next ensured call bad =>
      obtain ⟨k, hk, hle, -⟩ := hs.cursor horder hin hpos ensured
      have hsize := ensured.scale
      subst call
      have hk' := hk.failure bad
      exact ⟨ensured.bare.trans hs.bare, fun dec hdec => ⟨k, Option.some.inj hdec ▸ hk'⟩, h0, hpos, fun _ =>
        ⟨fun hok => (by cases hok), fun dec hdec => ⟨hsize, k, Option.some.inj hdec ▸ hk', hle⟩⟩⟩
    | @shown dec d' heap' next t ensured call good =>
      obtain ⟨k, hk, hle, hiff⟩ := hs.cursor horder hin hpos ensured
      have hsize := ensured.scale
      subst call
      have hk' := hk.success good
      refine ⟨ensured.bare.trans hs.bare, fun dec hdec => ⟨k + 1, Option.some.inj hdec ▸ hk'⟩, h0, hpos,
        fun _ => ⟨fun _ => Option.some_ne_none _,
          fun dec hdec => ⟨hsize, k + 1, Option.some.inj hdec ▸ hk', ?_⟩⟩⟩
      rw [if_pos rfl, ← hiff]
      push_cast
      exact ⟨by omega, by omega⟩
  · have hget : c.get codec d = ⟨false, d, c.mem, c.heap, {}⟩ := by
      rw [GetCall.get, WebPDecoder.getFrame, if_pos (.inr (not_lt.mp hin))]
    rw [hget]
    exact ⟨hs.bare, hs.kept, h0, hpos, fun hlt => absurd hlt hin⟩

theorem Playback.standing (hlive : d₀.animDecoder = none) (hanim : d₀.hasAnimation)
    (hsize : PictureSize d₀.width d₀.height) (hrun : Playback codec d₀ h d) : Standing codec d₀ h d := by
  induction hrun with
  | start => exact ⟨rfl, fun dec hdec => absurd (hlive.symm.trans hdec) (by simp), trivial⟩
  | call run c order size ih =>
    obtain ⟨reqW, reqH, ⟨hw, hh⟩, he⟩ := size
    obtain ⟨⟨hw0, -⟩, hh0, -⟩ := resolveOutputSize_range reqW reqH hsize hw hh
    rw [he] at hw0 hh0
    exact ih.call ((WebPDecoder.fields_of_bare ih.bare).1.trans hanim) order ⟨hw0, hh0⟩

end

/-- A call that returns true shows the frame the anim decoder has read last,
frame `j`. It is the one asked for just when the call is on track. -/
theorem playback_shows_iff {codec : Codec} {grants : Grants} {id : ℕ} {bytes : WebPData}
    {heap heap' : Heap ObjectKind} {d₀ d : WebPDecoder} {h : List (GetCall × Bool)} {c : GetCall}
    (hdecode : WebPDecoder.decode grants { id := id } bytes heap = (.returned true, d₀, heap'))
    (hanim : d₀.hasAnimation) (hrun : Playback codec d₀ h d) (horder : c.InOrder h)
    (hsize : c.Resolved d₀) (hok : (c.get codec d).ok) :
    ∃ j : ℕ, (c.get codec d).decoder.animDecoder.map (fun dec => dec.prevIter.frameNum) = some ((j : ℤ) + 1) ∧
      ShowsFrame codec d₀ c (c.get codec d) j ∧ j ≤ c.index ∧ (j = c.index ↔ c.OnTrack h) := by
  obtain ⟨hfacts, -, hlive, -, -⟩ := decode_facts hdecode
  obtain ⟨dmux, ha, -, -, hw, hh⟩ := decode_accepted hdecode hanim
  have hs := hrun.standing hlive hanim hfacts.size
  obtain ⟨reqW, reqH, ⟨hreqW, hreqH⟩, he⟩ := hsize
  obtain ⟨hW, hH⟩ := resolveOutputSize_range reqW reqH hfacts.size hreqW hreqH
  rw [he] at hW hH
  by_cases hin : c.index < d.totalFrames
  · have hcases := get_animated codec ((WebPDecoder.fields_of_bare hs.bare).1.trans hanim) (hs.index_nonneg horder) hin
    generalize c.get codec d = got at hok hcases ⊢
    cases hcases with
    | unmade ensured => cases hok
    | failed ensured call bad => cases hok
    | @shown dec d' heap' next t ensured call good =>
      obtain ⟨k, hk, hle, hiff⟩ := hs.cursor horder hin ⟨hW.1, hH.1⟩ ensured
      have hscale := ensured.scale
      have hbare' := ensured.bare.trans hs.bare
      obtain ⟨-, -, hsrc, hw', hh'⟩ := WebPDecoder.fields_of_bare hbare'
      have ha' : Accepted d'.srcBytes dmux := by rw [hsrc, hfacts.source]; exact ha
      have hi := WebPDecoder.intOptions_scale hW.2 hH.2 hscale
      obtain ⟨hd, -, houtW, houtH, -⟩ := hk.out ha' ⟨hw'.trans hw, hh'.trans hh⟩ hW hH hscale
      subst call
      have hfit := (hd.next_composed good).1
      have hnext := hd.next_same codec c.env heap'
      refine ⟨k, ?_, fun grants heap heap' dec₁ hnew => ?_, hle, hiff⟩
      · rw [Option.map_some, hk.frameNum ha' hi good]
      · have hscale₀ := WebPDecoder.scale_of_bare hbare' c.outW c.outH
        rw [← hsrc, ← hscale₀.1, ← hscale₀.2, ← hscale.1, ← hscale.2] at hnew
        obtain ⟨hclean, hsame⟩ := hk.shows ha' hi good hnew
        refine ⟨hclean, fun dec' hc => composite_same (hsame dec' hc) hW.1.le ?_⟩
        rw [(hd.next_dec codec c.env _).curr_size (hnext.fits.mpr hfit), hnext.outW, hnext.outH, houtW, houtH]
  · rw [GetCall.get, WebPDecoder.getFrame, if_pos (.inr (not_lt.mp hin))] at hok
    cases hok

/-! Two frames of different colours, and a host that asks for the second one at
the size of the first, or at half that size. -/

/-- A picture has the colour of its width. -/
def Codec.tinted : Codec := ⟨fun d _ mode _ i => if kModeBpp mode = 4 ∧ i % 4 = 3 then 255 else d.bytes 9⟩

def blinker : WebPData := Files.animation 16 16
  [{ x := 0, y := 0, w := 16, h := 16 }, { x := 4, y := 4, w := 8, h := 8 }]

/-- A call for a frame at a size of `w × w`. -/
def squareCall (index : ℤ) (w : ℕ) : GetCall :=
  ⟨.fine, index, newDib w w, bitmapInfoHeaderSize, dstStride w, w, w, Heap.empty⟩

/-- The first call succeeds, and the second one has the property. -/
def afterFirst (c : GetCall) (p : WebPDecoder → Got → Bool) (d : WebPDecoder) : Bool :=
  d.hasAnimation && decide (d.resolveOutputSize 0 0 = (16, 16)) &&
    decide (d.resolveOutputSize c.outW c.outH = (c.outW, c.outH)) && ((squareCall 0 16).get .tinted d).ok &&
    p d (c.get .tinted ((squareCall 0 16).get .tinted d).decoder)

theorem blinker_playback (c : GetCall) (p : WebPDecoder → Got → Bool) (hindex : c.index = 1)
    (hsize : c.outW < 2147483648 ∧ c.outH < 2147483648)
    (h : (WebPDecoder.decode .all { id := 0 } blinker Heap.empty).1 = .returned true)
    (hrun : afterFirst c p (WebPDecoder.decode .all { id := 0 } blinker Heap.empty).2.1) :
    ∃ d₀ d heap, WebPDecoder.decode .all { id := 0 } blinker Heap.empty = (.returned true, d₀, heap) ∧
      d₀.hasAnimation ∧ Playback .tinted d₀ [(squareCall 0 16, true)] d ∧
      c.InOrder [(squareCall 0 16, true)] ∧ c.Resolved d₀ ∧ p d₀ (c.get .tinted d) := by
  obtain ⟨d₀, heap, hdecode, hd⟩ := decode_any .all { id := 0 } blinker Heap.empty (afterFirst c p) h hrun
  simp only [afterFirst, Bool.and_eq_true, decide_eq_true_eq] at hd
  obtain ⟨⟨⟨⟨hanim, hfull⟩, hres⟩, hfirst⟩, hp⟩ := hd
  have hplay := (Playback.start : Playback .tinted d₀ [] d₀).call (squareCall 0 16)
    (show (squareCall 0 16).index = 0 from rfl) ⟨0, 0, ⟨by decide, by decide⟩, hfull⟩
  rw [hfirst] at hplay
  exact ⟨d₀, _, heap, hdecode, hanim, hplay, .inr hindex, ⟨c.outW, c.outH, hsize, hres⟩, hp⟩

theorem blinker_shows : ∃ d₀ d, Playback .tinted d₀ [(squareCall 0 16, true)] d ∧
    ShowsFrame .tinted d₀ (squareCall 1 16) ((squareCall 1 16).get .tinted d) 1 := by
  obtain ⟨d₀, d, heap, hdecode, hanim, hplay, horder, hres, hok⟩ := blinker_playback (squareCall 1 16)
    (fun _ got => got.ok) rfl ⟨by decide, by decide⟩ (by decide +kernel) (by decide +kernel)
  obtain ⟨j, -, hshow, -, hiff⟩ := playback_shows_iff hdecode hanim hplay horder hres hok
  have hj : (j : ℤ) = 1 := hiff.mpr (.inr ⟨rfl, ⟨rfl, rfl⟩, rfl⟩)
  obtain rfl : j = 1 := by omega
  exact ⟨d₀, d, hplay, hshow⟩

/-- The second call returns true at half the size, and shows the first frame. -/
theorem blinker_resized : ∃ d₀ d heap,
    WebPDecoder.decode .all { id := 0 } blinker Heap.empty = (.returned true, d₀, heap) ∧ d₀.hasAnimation ∧
      Playback .tinted d₀ [(squareCall 0 16, true)] d ∧
      (squareCall 1 8).InOrder [(squareCall 0 16, true)] ∧
      (squareCall 1 8).Resolved d₀ ∧ ((squareCall 1 8).get .tinted d).ok ∧
      ¬ ShowsFrame .tinted d₀ (squareCall 1 8) ((squareCall 1 8).get .tinted d) 1 := by
  obtain ⟨d₀, d, heap, hdecode, hanim, hplay, horder, hres, hp⟩ := blinker_playback (squareCall 1 8)
    (fun d got => decide (d.scaleW 8 8 = 8 ∧ d.scaleH 8 8 = 8) && got.ok && decide (got.dst.byte 145 = 15)) rfl
    ⟨by decide, by decide⟩ (by decide +kernel) (by decide +kernel)
  simp only [Bool.and_eq_true, decide_eq_true_eq] at hp
  obtain ⟨⟨⟨hw, hh⟩, hok⟩, hbyte⟩ := hp
  have hfresh : (webPAnimDecoderNew .all blinker (WebPDecoder.animOptions 8 8) Heap.empty).1.any fun dec =>
      cleanNext .tinted dec fun dec => cleanNext .tinted dec fun dec =>
        (compositeBGRAtoBGR dec.currFrame (squareCall 1 8).mem (squareCall 1 8).dst (squareCall 1 8).stride
          (squareCall 1 8).outW (squareCall 1 8).outH).dst.byte 145 = 7 := by
    decide +kernel
  obtain ⟨dec₁, hnew, hrun⟩ := webPAnimDecoderNew_any hfresh
  obtain ⟨dec₂, hc, hrun⟩ := Clean.start.next_any hrun
  obtain ⟨dec₃, hc, hrun⟩ := hc.next_any hrun
  refine ⟨d₀, d, heap, hdecode, hanim, hplay, horder, hres, hok, fun hshow => ?_⟩
  have hsrc := (decode_facts hdecode).1.source
  have heq := (hshow .all Heap.empty _ dec₁ (by
    rw [show (squareCall 1 8).outW = 8 from rfl, show (squareCall 1 8).outH = 8 from rfl, hw,
      hh, hsrc]
    exact hnew)).2 dec₃ hc
  rw [heq, of_decide_eq_true hrun] at hbyte
  cases hbyte

end WebPlugin
