/-
# Paging

A host pages through an animation: it decodes pages 0, 1, 2, … of a handle at
one size, each perhaps after some attempts, and meanwhile does what it likes
with other handles (`Turning`). Every page shows the canvas of its frame on the
checkerboard (`turning_shows`), the one that any anim decoder made for that file
and size returns; so neither failures nor other handles show in a page. These
canvases follow from the frames of the file alone (`assembled`): each is its
frame, put or blended on what the frames before it leave (`turning_assembles`).
-/
import WebPlugin.Bitmap
import WebPlugin.Assembly
import WebPlugin.Plays

namespace WebPlugin

open Memory Ledger Words

/-! ### One handle -/

/-- The anim decoder kept is of this size and has returned `k` frames. -/
def WebPDecoder.TurnedTo (codec : Codec) (w h : ℤ) (k : ℕ) (d : WebPDecoder) : Prop :=
  0 < k → ∃ dec, d.animDecoder = some dec ∧ (d.animScaleW = d.scaleW w h ∧ d.animScaleH = d.scaleH w h) ∧
    WebPDecoder.KeptAt codec d k dec

/-- The canvas of frame `k` at a size, on any new anim decoder. -/
def FrameCanvas (codec : Codec) (d : WebPDecoder) (w h : ℤ) (k : ℕ) (canvas : Buf) : Prop :=
  ∀ grants heap heap' dec₁, webPAnimDecoderNew grants d.srcBytes
      (WebPDecoder.animOptions (d.scaleW w h) (d.scaleH w h)) heap = (some dec₁, heap') →
    (∃ dec, Clean codec dec₁ (k + 1) dec) ∧ ∀ dec, Clean codec dec₁ (k + 1) dec → canvas.Same dec.currFrame

/-- The pixels of the DIB are those of the canvas on the checkerboard, the first
row last. -/
def ShowsCanvas (dib canvas : Buf) (w h : ℤ) : Prop :=
  ∀ x y c : ℕ, x < w → y < h → c < 3 →
    dib.get (dibAddr bitmapInfoHeaderSize (paddedRow w) h x y c) = compositeByte canvas w.toNat x y c

section

variable {codec : Codec} {env : Env} {d d' : WebPDecoder} {w h : ℤ} {k : ℕ}
  {heap heap' : Heap ObjectKind} {got : Got} {dec : WebPAnimDecoder}

/-- Page `k` is read from an anim decoder that has returned `k` frames. -/
theorem WebPDecoder.TurnedTo.start (ht : d.TurnedTo codec w h k) (hopen : d.Open codec)
    (he : WebPDecoder.Ensured env.grants d (d.scaleW w h) (d.scaleH w h) heap (some dec, d', heap')) :
    WebPDecoder.KeptAt codec d' k (WebPDecoder.startAt dec k) := by
  rcases Nat.eq_zero_or_pos k with rfl | hk
  · obtain ⟨j, hj⟩ := he.keptAt fun dec hdec => (hopen.kept dec hdec).2.2
    rw [WebPDecoder.startAt, if_pos (by norm_num)]
    exact hj.start
  · obtain ⟨dec₀, hlive, hscale, hkept⟩ := ht hk
    rw [WebPDecoder.startAt, if_neg (by omega)]
    cases he with
    | kept live size =>
      rw [hlive] at live
      obtain rfl := Option.some.inj live
      exact hkept
    | made stale new =>
      rcases stale with stale | stale
      · rw [hlive] at stale
        cases stale
      · exact absurd hscale stale

/-- An attempt at page `k` that fails leaves the handle where it was. -/
theorem WebPDecoder.TurnedTo.retry (ht : d.TurnedTo codec w h k) (hopen : d.Open codec) {mem : Buf} {dst stride : ℤ}
    (hg : WebPDecoder.GotAnimated (webPAnimDecoderGetNext codec env) env.grants d k mem dst stride w h heap got)
    (hbad : got.ok = false) : got.decoder.TurnedTo codec w h k := by
  intro hk
  obtain ⟨dec₀, hlive, hscale, -⟩ := ht hk
  cases hg with
  | unmade ensured =>
    cases ensured with
    | none stale refused =>
      rcases stale with stale | stale
      · rw [hlive] at stale
        cases stale
      · exact absurd hscale stale
  | @failed dec d' heap' next ensured call bad =>
    have hkept := ht.start hopen ensured
    have bad' : (webPAnimDecoderGetNext codec env (WebPDecoder.startAt dec k) heap').timestamp = none := by
      rw [call]
      exact bad
    have hnext := hkept.failure bad'
    rw [call] at hnext
    exact ⟨next.dec, rfl, ensured.scale, hnext⟩
  | shown ensured call good => cases hbad

/-- A page that is decoded. -/
structure Turned (codec : Codec) (d : WebPDecoder) (w h : ℤ) (k : ℕ) (got : Got) : Prop where
  turned : got.decoder.TurnedTo codec w h (k + 1)
  shows : ∃ canvas, ShowsCanvas got.dst canvas w h ∧ FrameCanvas codec d w h k canvas

theorem WebPDecoder.TurnedTo.page (ht : d.TurnedTo codec w h k) (hopen : d.Open codec) (hanim : d.hasAnimation)
    (hw : 0 < w ∧ w < 2147483648) (hh : 0 < h ∧ h < 2147483648)
    (hg : WebPDecoder.GotAnimated (webPAnimDecoderGetNext codec env) env.grants d k (fillHeader (newDib w h) w h)
      bitmapInfoHeaderSize (dstStride w) w h heap got) (hok : got.ok = true) : Turned codec d w h k got := by
  cases hg with
  | unmade ensured => cases hok
  | failed ensured call bad => cases hok
  | @shown dec d' heap' next t ensured call good =>
    obtain ⟨hn, hmax⟩ := canvas_exact hopen hanim hw hh ensured call good
    have hle : (maxAllocableMemory : ℤ) ≤ 2147483648 := by decide
    have hfits := small_fits hw.1 hh.1 (by omega)
    have hdib := dib_fits hw.1 hh.1 hw.2 hfits.1 hfits.2
    have hstride := (dstStride_iff hw.1 hw.2).mpr hfits.1
    have hkept := ht.start hopen ensured
    have hsize := ensured.scale
    obtain ⟨hscaleW, hscaleH⟩ := WebPDecoder.scale_of_bare ensured.bare w h
    obtain ⟨-, -, hsrc, -⟩ := WebPDecoder.fields_of_bare ensured.bare
    obtain ⟨dmux, ha, -⟩ := hopen.anim hanim
    have hi := WebPDecoder.intOptions_scale hw.2 hh.2 hsize
    have good' : (webPAnimDecoderGetNext codec env (WebPDecoder.startAt dec k) heap').timestamp = some t := by
      rw [call]
      exact good
    have hnext := hkept.success good'
    rw [call] at hnext
    refine ⟨fun _ => ⟨next.dec, rfl, hsize, hnext⟩, next.dec.currFrame, fun x y c hx hy hc => ?_,
      fun grants heap₁ heap₂ dec₁ hnew => ?_⟩
    · rw [← hstride]
      exact composite_byte hdib hn.ge hx hy hc
    · rw [← hsrc, ← hscaleW, ← hscaleH, ← hsize.1, ← hsize.2] at hnew
      have hshows := hkept.shows (hsrc ▸ ha) hi good' hnew
      rwa [call] at hshows

end

/-! ### Runs -/

/-- A call that neither decodes a page of this handle nor closes it. -/
def Process.HostCall.Apart (hs : ℕ) : Process.HostCall → Prop
  | .call (.pageDecode hs' _ _) => hs' ≠ some hs
  | .call (.closeImage hs') => hs' ≠ some hs
  | _ => True

/-- The request comes to this size. -/
def Process.Resolves (p : Process) (hs : ℕ) (req : IDDecodeParam) (w h : ℤ) : Prop :=
  ∀ d ∈ p.handles, d.id = hs → d.outW req = w ∧ d.outH req = h

/-- Sessions in which the host pages through a handle at one size, up to page
`k`, and does something else in between. -/
inductive Turning (codec : Codec) (hs : ℕ) (w h : ℤ) : ℕ → Book → Process → Prop
  | start {b : Book} {p : Process} (run : Session codec b p) : Turning codec hs w h 0 b p
  | page {k : ℕ} {b : Book} {p : Process} {req : IDDecodeParam} {out : IDImageOut} (run : Turning codec hs w h k b p)
      (env : Env) (valid : b.Valid (pageCall hs req out)) (index : req.nPage = k) (size : p.Resolves hs req w h)
      (ok : (p.answer codec env (pageCall hs req out)).code = .returned .ok) :
      Turning codec hs w h (k + 1) (b.after (pageCall hs req out) (p.answer codec env (pageCall hs req out)))
        (p.answer codec env (pageCall hs req out)).process
  | retry {k : ℕ} {b : Book} {p : Process} {req : IDDecodeParam} {out : IDImageOut} (run : Turning codec hs w h k b p)
      (env : Env) (valid : b.Valid (pageCall hs req out)) (index : req.nPage = k) (size : p.Resolves hs req w h)
      (failed : (p.answer codec env (pageCall hs req out)).code ≠ .returned .ok) :
      Turning codec hs w h k (b.after (pageCall hs req out) (p.answer codec env (pageCall hs req out)))
        (p.answer codec env (pageCall hs req out)).process
  | other {k : ℕ} {b : Book} {p : Process} (run : Turning codec hs w h k b p) (env : Env) (c : Process.HostCall)
      (valid : b.Valid c) (apart : c.Apart hs) :
      Turning codec hs w h k (b.after c (p.answer codec env c)) (p.answer codec env c).process

section

variable {codec : Codec} {env : Env} {hs : ℕ} {w h : ℤ} {k : ℕ} {b : Book} {p : Process} {req : IDDecodeParam}
  {out : IDImageOut}

theorem Turning.session (ht : Turning codec hs w h k b p) : Session codec b p := by
  induction ht with
  | start run => exact run
  | page run env valid index size ok ih => exact ih.step env _ valid
  | retry run env valid index size failed ih => exact ih.step env _ valid
  | other run env c valid apart ih => exact ih.step env c valid

theorem WebPDecoder.getFrame_animated {d : WebPDecoder} {index : ℤ} (hanim : d.hasAnimation = true)
    (hin : ¬ (index < 0 ∨ d.getFrameCount ≤ index)) (mem : Buf) (dst stride w h : ℤ) (heap : Heap ObjectKind) :
    d.getFrame codec env index mem dst stride w h heap = d.getAnimated codec env index mem dst stride w h heap := by
  rw [getFrameCount, if_pos hanim] at hin
  rw [getFrame, if_neg hin, if_neg (by simp [hanim])]

/-- What `PageDecode` does to an animation, when it asks `getFrame` for a page. -/
inductive PageTaken (codec : Codec) (env : Env) (d : WebPDecoder) (req : IDDecodeParam) (out : IDImageOut)
    (heap : Heap ObjectKind) (r : Paged) : Prop
  | early (same : r.decoder = some d) (bad : r.code ≠ .ok)
  | asked (heap' : Heap ObjectKind) (id : ℕ) (got : Got)
      (call : WebPDecoder.GotAnimated (webPAnimDecoderGetNext codec env) env.grants d req.nPage
        (fillHeader (newDib (d.outW req) (d.outH req)) (d.outW req) (d.outH req)) bitmapInfoHeaderSize
        (dstStride (d.outW req)) (d.outW req) (d.outH req) heap' got)
      (kept : r.decoder = some got.decoder) (code : r.code = .ok ↔ got.ok = true)
      (dib : r.code = .ok →
        r.pio = some { hdib := some ⟨id, got.dst⟩, right := d.outW req, bottom := d.outH req })

theorem pageTaken (codec : Codec) (env : Env) {d : WebPDecoder} (req : IDDecodeParam) (out : IDImageOut)
    (heap : Heap ObjectKind) (hanim : d.hasAnimation = true) :
    PageTaken codec env d req out heap (pageDecode codec env (some d) (some req) (some out) heap) := by
  unfold pageDecode
  dsimp only
  split_ifs with hrange
  · exact .early rfl fun hno => (by cases hno)
  · unfold pageDecodeInto
    rcases hsize : d.resolveOutputSize req.nWidth req.nHeight with ⟨w, h⟩
    have hw : d.outW req = w := by rw [WebPDecoder.outW, hsize]
    have hh : d.outH req = h := by rw [WebPDecoder.outH, hsize]
    dsimp only
    rcases ha : heap.alloc (env.grants .dib) .dib (dibSize w h) with ⟨_ | hDIB, heap'⟩
    · exact .early rfl fun hno => (by cases hno)
    · dsimp only
      have hcases := WebPDecoder.getAnimated_cases codec env d req.nPage (fillHeader (newDib w h) w h)
        bitmapInfoHeaderSize (dstStride w) w h heap'
      rw [← WebPDecoder.getFrame_animated hanim hrange] at hcases
      generalize d.getFrame codec env req.nPage (fillHeader (newDib w h) w h) bitmapInfoHeaderSize (dstStride w) w h
        heap' = got at hcases
      rw [← hw, ← hh] at hcases
      by_cases hok : got.ok = true
      · rw [if_pos hok]
        exact .asked heap' hDIB got hcases rfl (iff_of_true rfl hok) fun _ => by rw [hw, hh]
      · rw [if_neg hok]
        exact .asked heap' hDIB got hcases rfl (iff_of_false (fun hno => by cases hno) hok) fun hno => (by cases hno)

/-- The handle of a name in a list with one handle replaced. -/
theorem mem_setHandle {d' e : WebPDecoder} (he : e ∈ p.setHandle d') :
    e = d' ∨ (e ∈ p.handles ∧ e.id ≠ d'.id) := by
  obtain ⟨e₀, he₀, heq⟩ := List.mem_map.mp he
  split_ifs at heq with hid
  · exact .inl heq.symm
  · exact .inr ⟨heq ▸ he₀, heq ▸ hid⟩

/-- The request for a page reaches the decoder of the handle. -/
theorem Session.pageCall (hsess : Session codec b p) (hv : b.Valid (pageCall hs req out)) (env : Env) :
    ∃ d ∈ p.handles, d.id = hs ∧ d.Open codec ∧ ∃ r d',
      pageDecode codec env (some d) (some req) (some out) p.heap = r ∧ r.decoder = some d' ∧ d'.bare = d.bare ∧
      (p.answer codec env (WebPlugin.pageCall hs req out)).code = .returned r.code ∧
      (p.answer codec env (WebPlugin.pageCall hs req out)).pio = r.pio ∧
      (p.answer codec env (WebPlugin.pageCall hs req out)).process.handles = p.setHandle d' ∧
      (p.answer codec env (WebPlugin.pageCall hs req out)).strays = r.strays := by
  obtain ⟨hp, d, hd, hid, hsome, hopen⟩ := hsess.decoder (hv.1 hs rfl)
  obtain ⟨d', hd', hbare, -⟩ := (pageDecode_cases env (some req) (some out) p.heap hopen hv.2).decoder
  refine ⟨d, hd, hid, hopen, pageDecode codec env (some d) (some req) (some out) p.heap, d', rfl, hd', hbare, ?_, ?_,
    ?_, ?_⟩
  all_goals
    simp only [WebPlugin.pageCall, Process.answer, Process.call]
    rw [if_neg hp, hsome]
  dsimp only
  rw [hd', Option.elim_some]

/-- A call that is not about a handle leaves it as it is. -/
theorem Session.apart (hsess : Session codec b p) {c : Process.HostCall} (hv : b.Valid c) (hc : c.Apart hs)
     (hmem : hs ∈ b.handles) :
    hs ∈ (b.after c (p.answer codec env c)).handles ∧
      ∀ e ∈ (p.answer codec env c).process.handles, e.id = hs → e ∈ p.handles := by
  obtain ⟨hp, d, hd, hid, -, -⟩ := hsess.decoder hmem
  have hnext : CallSound codec env b p c (p.answer codec env c) := hsess.sound.step hv
  have hleft : c ≠ .call (.closeImage (some d.id)) := fun heq => by
    rw [heq] at hc
    exact hc (by rw [hid])
  constructor
  · obtain ⟨d', hd', hbare⟩ := @Sound.lasting codec env b p hsess.sound c hv d hd hleft
    have hbareId := congrArg WebPDecoder.id hbare
    rw [← hnext.sound.handles]
    exact List.mem_map.mpr ⟨d', hd', Eq.trans hbareId hid⟩
  · intro e he heid
    rcases c with _ | _ | _ | c | _ | _ | _
    case call =>
      rcases c with ⟨psi, phs⟩ | ⟨hs', pdp, pio⟩ | hs'
      · have hn := hnext.sound.handles_nodup
        simp only [Process.answer, Process.call] at he hn
        rw [if_neg hp] at he hn
        rcases List.mem_append.mp he with hnew | hold
        · -- A new handle has a name of its own.
          rw [List.map_append, List.nodup_append] at hn
          exact absurd (heid.trans hid.symm) (hn.2.2 e.id (List.mem_map_of_mem hnew) d.id (List.mem_map_of_mem hd))
        · exact hold
      · simp only [Process.answer, Process.call] at he
        rw [if_neg hp] at he
        rcases hsess.sound.decoderOf hv.1 with ⟨rfl, hnone⟩ | ⟨d₁, hd₁, rfl, hsome⟩
        · rw [hnone] at he
          exact he
        · rw [hsome] at he
          obtain ⟨d', hd', hbare, -⟩ :=
            (pageDecode_cases env pdp pio p.heap (hsess.sound.opened d₁ hd₁) hv.2).decoder
          dsimp only at he
          rw [hd', Option.elim_some] at he
          have hbareId := congrArg WebPDecoder.id hbare
          rcases mem_setHandle he with rfl | ⟨hold, -⟩
          · exact absurd (congrArg some (Eq.trans hbareId.symm heid)) hc
          · exact hold
      · simp only [Process.answer, Process.call] at he
        rw [if_neg hp] at he
        exact List.mem_of_mem_filter he
    case init =>
      simp only [Process.answer] at he
      rw [if_neg hp] at he
      exact he
    all_goals
      simp only [Process.answer] at he
      try split_ifs at he
      all_goals exact he

/-- What a request for page `k` leaves of a handle that has come to it. -/
structure PageCalled (codec : Codec) (p : Process) (hs : ℕ) (w h : ℤ) (k : ℕ) (a : Process.Answer) : Prop where
  handle : ∃ d ∈ p.handles, d.id = hs ∧ ∃ d', a.process.handles = p.setHandle d' ∧ d'.bare = d.bare ∧
    (d.hasAnimation = true → (a.code ≠ .returned .ok → d'.TurnedTo codec w h k) ∧
      (a.code = .returned .ok → d'.TurnedTo codec w h (k + 1) ∧ ∃ block canvas,
        a.pio = some { hdib := some block, right := w, bottom := h } ∧ ShowsCanvas block.buf canvas w h ∧
        FrameCanvas codec d w h k canvas))

theorem Session.pageCalled (hsess : Session codec b p) (hv : b.Valid (WebPlugin.pageCall hs req out))
    (hindex : req.nPage = k) (hsize : p.Resolves hs req w h)
    (hturned : ∀ d ∈ p.handles, d.id = hs → d.hasAnimation = true → d.TurnedTo codec w h k) (env : Env) :
    PageCalled codec p hs w h k (p.answer codec env (WebPlugin.pageCall hs req out)) := by
  obtain ⟨d, hd, hid, hopen, r, d', hr, hd', hbare, hcode, hpio, hhandles, -⟩ := hsess.pageCall hv env
  refine ⟨d, hd, hid, d', hhandles, hbare, fun hanim => ?_⟩
  obtain ⟨rfl, rfl⟩ := hsize d hd hid
  obtain ⟨hW, hH⟩ := WebPDecoder.out_range hopen.facts.size (hv.2 req rfl)
  have ht := hturned d hd hid hanim
  have hok : ∀ {code : IDECode}, (WebPDecoder.Ended.returned r.code = .returned code) ↔ r.code = code := by
    simp
  have htaken := pageTaken codec env req out p.heap hanim
  rw [hr] at htaken
  rw [hcode, hpio, Ne, hok]
  cases htaken with
  | early same bad =>
    obtain rfl : d = d' := Option.some.inj (same.symm.trans hd')
    exact ⟨fun _ => ht, fun hgood => absurd hgood bad⟩
  | asked heap' id got call kept code dib =>
    obtain rfl : got.decoder = d' := Option.some.inj (kept.symm.trans hd')
    rw [hindex] at call
    refine ⟨fun hbad => ht.retry hopen call (by simpa using fun hgot => hbad (code.mpr hgot)), fun hgood => ?_⟩
    obtain ⟨hnext, canvas, hshows, hcanvas⟩ := ht.page hopen hanim hW hH call (code.mp hgood)
    exact ⟨hnext, _, canvas, dib hgood, hshows, hcanvas⟩

theorem after_pageCall (a : Process.Answer) : (b.after (pageCall hs req out) a).handles = b.handles := by
  unfold Book.after
  split_ifs <;> rfl

/-- The handle that is paged through has come to page `k`. -/
theorem Turning.turned (ht : Turning codec hs w h k b p) :
    (0 < k → hs ∈ b.handles) ∧ ∀ d ∈ p.handles, d.id = hs → d.hasAnimation = true →
      d.TurnedTo codec w h k := by
  -- The handle after a request is the one the request leaves.
  have called : ∀ {p : Process} {j : ℕ} {a : Process.Answer} {i : ℕ}, PageCalled codec p hs w h j a →
      (∀ d' : WebPDecoder, (a.code ≠ .returned .ok → d'.TurnedTo codec w h j) ∧
        (a.code = .returned .ok → d'.TurnedTo codec w h (j + 1)) → d'.TurnedTo codec w h i) →
      ∀ d ∈ a.process.handles, d.id = hs → d.hasAnimation = true → d.TurnedTo codec w h i := by
    intro p j a i hcalled hstep e he heid hanim
    obtain ⟨d, hd, hid, d', hhandles, hbare, hturned⟩ := hcalled.handle
    rw [hhandles] at he
    have hbareId := congrArg WebPDecoder.id hbare
    rcases mem_setHandle he with rfl | ⟨-, hne⟩
    · obtain ⟨hbad, hgood⟩ := hturned ((WebPDecoder.fields_of_bare hbare).1 ▸ hanim)
      exact hstep e ⟨hbad, fun hok => (hgood hok).1⟩
    · exact absurd (heid.trans (Eq.trans hbareId hid).symm) hne
  induction ht with
  | start run => exact ⟨fun hk => absurd hk (lt_irrefl 0), fun d _ _ _ hk => absurd hk (lt_irrefl 0)⟩
  | page run env valid index size ok ih =>
    have hcalled := run.session.pageCalled valid index size ih.2 env
    refine ⟨fun _ => ?_, called hcalled fun d' hd' => hd'.2 ok⟩
    rw [after_pageCall]
    exact valid.1 hs rfl
  | retry run env valid index size failed ih =>
    have hcalled := run.session.pageCalled valid index size ih.2 env
    refine ⟨fun _ => ?_, called hcalled fun d' hd' => hd'.1 failed⟩
    rw [after_pageCall]
    exact valid.1 hs rfl
  | @other k b p run env c valid apart ih =>
    rcases Nat.eq_zero_or_pos k with rfl | hk
    · exact ⟨fun hk => absurd hk (lt_irrefl 0), fun d _ _ _ hk => absurd hk (lt_irrefl 0)⟩
    · obtain ⟨hmem, hturned⟩ := ih
      obtain ⟨hmem', hsame⟩ := run.session.apart valid apart (hmem hk)
      exact ⟨fun _ => hmem', fun d hd hid hanim => hturned d (hsame d hd hid) hid hanim⟩

/-- Page `k` of an animation, decoded in its turn, shows the canvas of frame `k`
on the checkerboard: the canvas that every anim decoder made for the file and
the size comes to. -/
theorem turning_shows (ht : Turning codec hs w h k b p) (hv : b.Valid (pageCall hs req out)) (hindex : req.nPage = k)
    (hsize : p.Resolves hs req w h) (hok : (p.answer codec env (pageCall hs req out)).code = .returned .ok) :
    ∃ d ∈ p.handles, d.id = hs ∧ (d.hasAnimation = true → ∃ block canvas,
      (p.answer codec env (pageCall hs req out)).pio = some { hdib := some block, right := w, bottom := h } ∧
      ShowsCanvas block.buf canvas w h ∧ FrameCanvas codec d w h k canvas) := by
  obtain ⟨d, hd, hid, d', -, -, hturned⟩ := (ht.session.pageCalled hv hindex hsize ht.turned.2 env).handle
  exact ⟨d, hd, hid, fun hanim => ((hturned hanim).2 hok).2⟩

end

/-! The second page of an animation, after the first one has been asked for in
vain and then shown, and another file could not be opened. -/

theorem Turning.cast {codec : Codec} {hs : ℕ} {w h : ℤ} {k : ℕ} {b b' : Book} {p : Process}
    (ht : Turning codec hs w h k b p) (hb : b = b') : Turning codec hs w h k b' p := hb ▸ ht

theorem resolves_of_all {p : Process} {req : IDDecodeParam} {w h : ℤ}
    (hall : p.handles.all fun d => decide (d.outW req = w ∧ d.outH req = h)) {hs : ℕ} : p.Resolves hs req w h :=
  fun d hd _ => of_decide_eq_true (List.all_eq_true.mp hall d hd)

def badgeRetried : Process := (badgeProcess.answer .black .broken (pageCall 1 ⟨0, 0, 0⟩ {})).process
def badgeFirst : Process := (badgeRetried.answer .black .fine (pageCall 1 ⟨0, 0, 0⟩ {})).process
def badgeTurned : Process := (badgeFirst.answer .black .thrifty (opening badge)).process

theorem badge_turned : Turning .black 1 64 64 1 ⟨[1], [9], 1⟩ badgeTurned := by
  have hstart : Turning .black 1 64 64 0 ⟨[1], [], 0⟩ badgeProcess := .start badge_session
  have hretried : Turning .black 1 64 64 0 ⟨[1], [], 0⟩ badgeRetried :=
    (hstart.retry .broken badge_request rfl (resolves_of_all (by decide +kernel)) (by decide +kernel)).cast
      (by decide +kernel)
  have hfirst : Turning .black 1 64 64 1 ⟨[1], [9], 0⟩ badgeFirst :=
    (hretried.page .fine badge_request rfl (resolves_of_all (by decide +kernel)) (by decide +kernel)).cast
      (by decide +kernel)
  exact (hfirst.other .thrifty (opening badge) trivial trivial).cast (by decide +kernel)

theorem badge_second : badgeTurned.Resolves 1 ⟨1, 0, 0⟩ 64 64 ∧
    (badgeTurned.answer .black .fine (pageCall 1 ⟨1, 0, 0⟩ {})).code = .returned .ok ∧
    ∀ d ∈ badgeTurned.handles, d.hasAnimation = true :=
  ⟨resolves_of_all (by decide +kernel), by decide +kernel,
    List.all_eq_true.mp (by decide +kernel : badgeTurned.handles.all WebPDecoder.hasAnimation)⟩

theorem badge_turning_shows : ∃ d ∈ badgeTurned.handles, d.id = 1 ∧ ∃ block canvas,
    (badgeTurned.answer .black .fine (pageCall 1 ⟨1, 0, 0⟩ {})).pio =
      some { hdib := some block, right := 64, bottom := 64 } ∧
    ShowsCanvas block.buf canvas 64 64 ∧ FrameCanvas .black d 64 64 1 canvas := by
  obtain ⟨hsize, hok, hanim⟩ := badge_second
  obtain ⟨d, hd, hid, h⟩ := turning_shows badge_turned badge_request rfl hsize hok
  exact ⟨d, hd, hid, h (hanim d hd)⟩

/-! ### The specification -/

/-- What frames leave to the next one: the canvas, disposed, and what decides
whether that one is a key frame. -/
structure Assembled where
  prev : WebPIterator
  wasKey : Bool
  left : Picture

namespace Assembled

variable (codec : Codec) (dec₁ : WebPAnimDecoder) (s : Assembled) (iter : WebPIterator)

/-- Before the first frame the canvas is empty. -/
def empty : Assembled := ⟨.zero, false, fun _ _ => 0⟩

/-- The next frame is a key frame. -/
def isKey : Bool :=
  isKeyFrame iter s.prev s.wasKey (i32 dec₁.info.canvasWidth) (i32 dec₁.info.canvasHeight)

/-- The canvas with the next frame. -/
def draw : Picture :=
  overPicture dec₁.blendFunc (dec₁.rect iter) (iter.blends (s.isKey dec₁ iter)) s.left
    (framePixel codec dec₁ iter)

/-- What the next frame leaves. -/
def next : Assembled := ⟨iter, s.isKey dec₁ iter, disposedPicture dec₁ iter (s.draw codec dec₁ iter)⟩

end Assembled

/-- What the first `k` frames of the file leave. -/
def assembled (codec : Codec) (dec₁ : WebPAnimDecoder) : ℕ → Option Assembled
  | 0 => some .empty
  | k + 1 => (assembled codec dec₁ k).bind fun s =>
    (webPDemuxGetFrame dec₁.demux (k + 1)).map (s.next codec dec₁)

section

variable {codec : Codec} {env : Env} {heap : Heap ObjectKind} {dec₁ dec : WebPAnimDecoder} {k : ℕ} {s : Assembled}
  {iter : WebPIterator} {C C' D D' : Picture}

/-- Only the pixels on the canvas are drawn. -/
theorem Drawn.congr {r : FrameRect} {W H : ℤ} {method : WebPMuxAnimBlend} {S : Picture}
    (h : Drawn r W H method D S C) (hC : ∀ i j, OnCanvas W H i j → C' i j = C i j) : Drawn r W H method D S C' where
  outside i j hc hout := by rw [hC i j hc, h.outside i j hc hout]
  replaced hm i j hc hin := by rw [hC i j hc, h.replaced hm i j hc hin]
  blended hm i j hc hin := by rw [hC i j hc]; exact h.blended hm i j hc hin
  source i j hc hin hs := by rw [hC i j hc, h.source i j hc hin hs]

theorem Tracks.congr (ht : Tracks dec D) (hD : ∀ i j, OnCanvas dec.outW dec.outH i j → D' i j = D i j) :
    Tracks dec D' where
  first h i j hc := by rw [hD i j hc, ht.first h i j hc]
  kept h i j hc := by rw [hD i j hc, ht.kept h i j hc]
  cleared h hdisp hwas i j hc := by rw [hD i j hc, ht.cleared h hdisp hwas i j hc]
  word i j hc := by rw [hD i j hc]; exact ht.word i j hc
  legal i j hc := by rw [hD i j hc]; exact ht.legal i j hc

/-- A decoder that has come to where the frames drawn so far lead. -/
structure Follows (dec : WebPAnimDecoder) (s : Assembled) : Prop where
  tracks : Tracks dec s.left
  prev : dec.prevIter = s.prev
  wasKey : dec.prevFrameWasKeyframe = s.wasKey

theorem Follows.isKey (hf : Follows dec s) (ht : Twin dec dec₁) : dec.isKey iter = s.isKey dec₁ iter := by
  rw [WebPAnimDecoder.isKey, Assembled.isKey, hf.prev, hf.wasKey, ht.info]

/-- What a call that returns a frame remembers of it. -/
theorem Ready.next_prev {t : ℤ} (hd : Ready dec) (hframe : dec.Frame iter)
    (hok : (webPAnimDecoderGetNext codec env dec heap).timestamp = some t) :
    (webPAnimDecoderGetNext codec env dec heap).dec.prevIter = iter ∧
      (webPAnimDecoderGetNext codec env dec heap).dec.prevFrameWasKeyframe = dec.isKey iter := by
  have hcases := hd.next_cases codec env heap
  generalize webPAnimDecoderGetNext codec env dec heap = n at hok hcases
  cases hcases with
  | nothing why => cases hok
  | failed fits frame bad => cases hok
  | @composed iter' fits frame good =>
    obtain rfl : iter' = iter := Option.some.inj (frame.2.symm.trans hframe.2)
    exact ⟨WebPAnimDecoder.compose_prevIter _ _, WebPAnimDecoder.compose_prevFrameWasKeyframe _ _⟩

/-- A call that returns a frame draws it, and comes to where it leads. -/
theorem Follows.next {t : ℤ} (hf : Follows dec s) (hd : Ready dec) (ht : Twin dec dec₁) (hframe : dec.Frame iter)
    (hp : Placeable dec₁ iter) (hr : Renders codec dec₁ iter)
    (hok : (webPAnimDecoderGetNext codec env dec heap).timestamp = some t) :
    Drawn (dec₁.rect iter) dec₁.outW dec₁.outH iter.blendMethod s.left (framePixel codec dec₁ iter)
        (pixel (webPAnimDecoderGetNext codec env dec heap).dec.currFrame dec₁.outW) ∧
      (∀ i j, OnCanvas dec₁.outW dec₁.outH i j →
        pixel (webPAnimDecoderGetNext codec env dec heap).dec.currFrame dec₁.outW i j =
          s.draw codec dec₁ iter i j) ∧
      Follows (webPAnimDecoderGetNext codec env dec heap).dec (s.next codec dec₁ iter) := by
  obtain ⟨hdrawn, htracks, hexact⟩ := hd.next_drawn hframe hf.tracks (ht.placeable hp) (ht.renders hr) hok
  obtain ⟨hprev, hkey⟩ := hd.next_prev hframe hok
  have hsame := hd.next_same codec env heap
  generalize webPAnimDecoderGetNext codec env dec heap = n at hdrawn htracks hexact hprev hkey hsame ⊢
  rw [ht.rect, ht.outW, ht.outH, ht.framePixel] at hdrawn
  rw [ht.rect, ht.outW, ht.outH, ht.framePixel, ht.blendFunc, hf.isKey ht] at hexact
  refine ⟨hdrawn, hexact, htracks.congr fun i j hc => ?_, hprev, hkey.trans (hf.isKey ht)⟩
  rw [hsame.outW, hsame.outH, ht.outW, ht.outH] at hc
  simp only [Assembled.next, Assembled.draw, disposedPicture]
  rw [ht.rect, ht.outW, hexact i j hc]

/-- A run without failures follows the frames of the file. -/
theorem Clean.follows (h₁ : Ready dec₁) (hnew : dec₁ = webPAnimDecoderReset dec₁)
    (hframes : ∀ n iter, 1 ≤ n → webPDemuxGetFrame dec₁.demux n = some iter →
      Placeable dec₁ iter ∧ Renders codec dec₁ iter) (hc : Clean codec dec₁ k dec) :
    ∃ s, assembled codec dec₁ k = some s ∧ Follows dec s := by
  induction hc with
  | start =>
    refine ⟨.empty, rfl, ?_, ?_, ?_⟩
    · exact .start (by rw [hnew]; rfl)
    · rw [hnew]
      rfl
    · rw [hnew]
      rfl
  | @success k dec t run env heap ok ih =>
    obtain ⟨s, hs, hf⟩ := ih
    obtain ⟨hd, ht⟩ := run.since.ready h₁
    obtain ⟨iter, hframe⟩ := hd.frame_of_next ok
    have hnum := run.since.nextFrame h₁ hnew
    have hget : webPDemuxGetFrame dec₁.demux (k + 1) = some iter := hnum ▸ ht.demux ▸ hframe.2
    obtain ⟨hp, hr⟩ := hframes _ _ (by omega) hget
    refine ⟨s.next codec dec₁ iter, ?_, (hf.next hd ht hframe hp hr ok).2.2⟩
    rw [assembled, hs, Option.bind_some, hget, Option.map_some]

/-- The canvas of a frame, pixel by pixel. -/
theorem Clean.drawn (h₁ : Ready dec₁) (hnew : dec₁ = webPAnimDecoderReset dec₁)
    (hframes : ∀ n iter, 1 ≤ n → webPDemuxGetFrame dec₁.demux n = some iter →
      Placeable dec₁ iter ∧ Renders codec dec₁ iter) (hc : Clean codec dec₁ (k + 1) dec) :
    ∃ s iter, assembled codec dec₁ k = some s ∧ webPDemuxGetFrame dec₁.demux (k + 1) = some iter ∧
      (∀ i j, OnCanvas dec₁.outW dec₁.outH i j →
        pixel dec.currFrame dec₁.outW i j = s.draw codec dec₁ iter i j) ∧
      Drawn (dec₁.rect iter) dec₁.outW dec₁.outH iter.blendMethod s.left (framePixel codec dec₁ iter)
        (pixel dec.currFrame dec₁.outW) := by
  cases hc with
  | @success k dec t run env heap ok =>
    obtain ⟨s, hs, hf⟩ := run.follows h₁ hnew hframes
    obtain ⟨hd, ht⟩ := run.since.ready h₁
    obtain ⟨iter, hframe⟩ := hd.frame_of_next ok
    have hget : webPDemuxGetFrame dec₁.demux (k + 1) = some iter :=
      run.since.nextFrame h₁ hnew ▸ ht.demux ▸ hframe.2
    obtain ⟨hp, hr⟩ := hframes _ _ (by omega) hget
    obtain ⟨hdrawn, hexact, -⟩ := hf.next hd ht hframe hp hr ok
    exact ⟨s, iter, hs, hget, hexact, hdrawn⟩

/-- The canvas of a frame has four bytes for each of its pixels. -/
theorem Clean.curr_size (h₁ : Ready dec₁) (hc : Clean codec dec₁ (k + 1) dec) :
    (dec.currFrame.size : ℤ) = 4 * dec₁.outW * dec₁.outH := by
  cases hc with
  | @success k dec t run env heap ok =>
    obtain ⟨hd, ht⟩ := run.since.ready h₁
    have hnext := hd.next_dec codec env heap
    have hsame := hd.next_same codec env heap
    have hfits := (hd.next_composed ok).1
    generalize webPAnimDecoderGetNext codec env dec heap = next at hnext hsame
    rw [hnext.curr_size (hsame.fits.mpr hfits), hsame.outW, hsame.outH, ht.outW, ht.outH]

end

/-- The pages of an animation are the canvases that its frames lead to: page `k`
shows frame `k`, put or blended on what the frames before it leave, pixel by
pixel; and its alpha is what drawing a frame over a canvas asks for. -/
theorem turning_assembles {codec : Codec} {env : Env} {hs : ℕ} {w h : ℤ} {k : ℕ} {b : Book} {p : Process}
    {req : IDDecodeParam} {out : IDImageOut} (ht : Turning codec hs w h k b p) (hv : b.Valid (pageCall hs req out))
    (hindex : req.nPage = k) (hsize : p.Resolves hs req w h)
    (hok : (p.answer codec env (pageCall hs req out)).code = .returned .ok) :
    ∃ d ∈ p.handles, d.id = hs ∧ (d.hasAnimation = true → ∃ block canvas,
      (p.answer codec env (pageCall hs req out)).pio = some { hdib := some block, right := w, bottom := h } ∧
      ShowsCanvas block.buf canvas w h ∧
      ∀ grants heap heap' dec₁, webPAnimDecoderNew grants d.srcBytes
          (WebPDecoder.animOptions (d.scaleW w h) (d.scaleH w h)) heap = (some dec₁, heap') →
        (∀ n iter, 1 ≤ n → webPDemuxGetFrame dec₁.demux n = some iter →
          Placeable dec₁ iter ∧ Renders codec dec₁ iter) →
        ∃ s iter, assembled codec dec₁ k = some s ∧ webPDemuxGetFrame dec₁.demux (k + 1) = some iter ∧
          (∀ i j, OnCanvas w h i j → pixel canvas w i j = s.draw codec dec₁ iter i j) ∧
          Drawn (dec₁.rect iter) w h iter.blendMethod s.left (framePixel codec dec₁ iter) (pixel canvas w)) := by
  obtain ⟨d, hd, hid, hopen, -⟩ := ht.session.pageCall hv env
  obtain ⟨d', hd', hid', d'', -, -, hturned⟩ := (ht.session.pageCalled hv hindex hsize ht.turned.2 env).handle
  obtain rfl : d' = d := List.inj_on_of_nodup_map ht.session.sound.handles_nodup hd' hd (hid'.trans hid.symm)
  refine ⟨d', hd, hid, fun hanim => ?_⟩
  obtain ⟨-, block, canvas, hpio, hshows, hcanvas⟩ := (hturned hanim).2 hok
  refine ⟨block, canvas, hpio, hshows, fun grants heap heap' dec₁ hnew hframes => ?_⟩
  obtain ⟨dmux, ha, -, hcw, hch⟩ := hopen.anim hanim
  obtain ⟨hW, hH⟩ := WebPDecoder.out_range hopen.facts.size (hv.2 req rfl)
  obtain ⟨rfl, rfl⟩ := hsize d' hd hid
  -- The anim decoder as one that the handle keeps.
  have hkept : WebPDecoder.KeptAt codec { d' with
      animScaleW := d'.scaleW (d'.outW req) (d'.outH req)
      animScaleH := d'.scaleH (d'.outW req) (d'.outH req) } 0 dec₁ := .new hnew
  obtain ⟨h₁, -, houtW, houtH, -⟩ := hkept.out ha ⟨hcw, hch⟩ hW hH ⟨rfl, rfl⟩
  obtain ⟨-, -, -, -, -, -, hreset⟩ := webPAnimDecoderNew_some hnew
  obtain ⟨⟨dec, hclean⟩, hall⟩ := hcanvas grants heap heap' dec₁ hnew
  obtain ⟨s, iter, hs, hget, hexact, hdrawn⟩ := hclean.drawn h₁ hreset hframes
  have hsame := hall dec hclean
  have hn := hclean.curr_size h₁
  rw [houtW, houtH] at hexact hdrawn hn
  have hpixel : ∀ i j, OnCanvas (d'.outW req) (d'.outH req) i j →
      pixel canvas (d'.outW req) i j = pixel dec.currFrame (d'.outW req) i j := fun i j hc =>
    pixel_same hsame (by rw [hsame.1, hn]) hc
  exact ⟨s, iter, hs, hget, fun i j hc => (hpixel i j hc).trans (hexact i j hc), hdrawn.congr hpixel⟩

/-- The first frame has been disposed: the second page is empty around the
second frame. -/
theorem badge_turning_assembles : ∃ block canvas,
    (badgeTurned.answer .black .fine (pageCall 1 ⟨1, 0, 0⟩ {})).pio =
      some { hdib := some block, right := 64, bottom := 64 } ∧
    ShowsCanvas block.buf canvas 64 64 ∧ pixel canvas 64 0 0 = 0 ∧ pixel canvas 64 20 20 = 4278190080 := by
  obtain ⟨hsize, hok, hanim⟩ := badge_second
  obtain ⟨d, hd, -, h⟩ := turning_assembles badge_turned badge_request rfl hsize hok
  obtain ⟨block, canvas, hpio, hshows, hspec⟩ := h (hanim d hd)
  refine ⟨block, canvas, hpio, hshows, ?_⟩
  have hrun : badgeTurned.handles.all fun d =>
      ((webPDemux d.srcBytes).any fun dmux => hasFlag dmux.featureFlags animationFlag) &&
      (webPAnimDecoderNew Env.fine.grants d.srcBytes (WebPDecoder.animOptions (d.scaleW 64 64) (d.scaleH 64 64))
        Heap.empty).1.any fun dec => decide (dec.outCanvasW = 0 ∧ dec.outW = 64 ∧ dec.outH = 64) &&
          (assembled .black dec 1).any fun s => (webPDemuxGetFrame dec.demux 2).any fun iter =>
            decide (s.draw .black dec iter 0 0 = 0 ∧ s.draw .black dec iter 20 20 = 4278190080) := by
    decide +kernel
  obtain ⟨hdemux, hmade⟩ := (Bool.and_eq_true _ _).mp (List.all_eq_true.mp hrun d hd)
  obtain ⟨dmux, hd', hflag⟩ := (Option.any_eq_true _ _).mp hdemux
  obtain ⟨dec₁, hnew, hp⟩ := webPAnimDecoderNew_any hmade
  obtain ⟨hsizes, hdraws⟩ := (Bool.and_eq_true _ _).mp hp
  obtain ⟨hcw, hW, hH⟩ := of_decide_eq_true hsizes
  have ha : Accepted d.srcBytes dmux := ⟨hd', hflag⟩
  obtain ⟨h₁, hdmux⟩ := ready_of_new ha (WebPDecoder.intOptions_animOptions d (by norm_num) (by norm_num)) hnew
  obtain ⟨s, iter, hs, hget, hexact, -⟩ := hspec _ _ _ _ hnew fun n iter hn hget =>
    ⟨placeable_unscaled h₁ hcw (by omega) (by omega) (hdmux ▸ (ha.of_getFrame hn (hdmux ▸ hget)).2),
      h₁.black_renders iter⟩
  rw [hs, Option.any_some] at hdraws
  have hget' : webPDemuxGetFrame dec₁.demux 2 = some iter := hget
  rw [hget', Option.any_some] at hdraws
  obtain ⟨h0, h20⟩ := of_decide_eq_true hdraws
  exact ⟨(hexact 0 0 ⟨by omega, by omega⟩).trans h0, (hexact 20 20 ⟨by omega, by omega⟩).trans h20⟩

end WebPlugin
