/-
# Handles between calls

A `WebPDecoder` between two calls (`Open`): what `decode` has read from the
file, and perhaps an anim decoder for the size asked for last. It owns itself,
the vector of delays and the anim decoder with its blocks (`objects`). Each
function changes the ledger by what it adds to these or takes from them,
whatever else is live.
-/
import WebPlugin.Kept
import WebPlugin.Still

namespace WebPlugin

open Memory Ledger Words

/-! ### What is owned -/

/-- The objects of an anim decoder. -/
def AnimBlocks.objects (b : AnimBlocks) : List (ℕ × ObjectKind) :=
  b.demux.toList.map (·, .demuxer) ++ (b.currFrame.toList.map (·, .canvas) ++
    (b.prevFrameDisposed.toList.map (·, .canvas) ++ [(b.self, .animDecoder)]))

/-- The objects of a decoder. -/
def WebPDecoder.objects (d : WebPDecoder) : List (ℕ × ObjectKind) :=
  d.animDecoder.elim [] (fun dec => dec.blocks.objects) ++
    (d.frameDelaysBlock.toList.map (·, .frameDelays) ++ [(d.id, .decoder)])

section

variable {grants : Grants} {data : WebPData} {options : WebPAnimDecoderOptions} {heap heap' : Heap ObjectKind}
  {O : List (ℕ × ObjectKind)}

theorem holds_animDelete {b : AnimBlocks} (hh : Holds heap (b.objects ++ O)) :
    Holds (webPAnimDecoderDelete b heap) O := by
  simp only [AnimBlocks.objects, List.append_assoc, List.singleton_append] at hh
  exact hh.release?.release?.release?.release

theorem holds_forget {d : WebPDecoder}
    (hh : Holds heap (d.animDecoder.elim [] (fun dec => dec.blocks.objects) ++ O)) : Holds (d.forget heap) O := by
  unfold WebPDecoder.forget
  cases hd : d.animDecoder with
  | none =>
    rw [hd] at hh
    exact hh
  | some dec =>
    rw [hd] at hh
    exact holds_animDelete hh

theorem holds_delete {d : WebPDecoder} (hh : Holds heap (d.objects ++ O)) : Holds (d.delete heap) O := by
  simp only [WebPDecoder.objects, List.append_assoc, List.singleton_append] at hh
  have hf := (holds_forget hh).release?.release
  unfold WebPDecoder.delete
  unfold WebPDecoder.forget at hf
  cases hd : d.animDecoder with
  | none =>
    rw [hd] at hf
    exact hf
  | some dec =>
    rw [hd] at hf
    exact hf

theorem holds_demuxNew_none (hh : Holds heap O) (hd : webPDemuxNew grants data heap = (none, heap')) :
    Holds heap' O := by
  unfold webPDemuxNew at hd
  split at hd
  · cases hd
    exact hh
  · rcases ha : heap.alloc (grants .demuxer) .demuxer 0 with ⟨_ | i, h⟩
    · rw [ha] at hd
      cases hd
      exact hh.alloc_none ha
    · rw [ha] at hd
      cases hd

theorem holds_demuxNew_some {id : ℕ} {demux : WebPDemuxer} (hh : Holds heap O)
    (hd : webPDemuxNew grants data heap = (some (id, demux), heap')) : Holds heap' ((id, .demuxer) :: O) := by
  unfold webPDemuxNew at hd
  split at hd
  · cases hd
  · rcases ha : heap.alloc (grants .demuxer) .demuxer 0 with ⟨_ | i, h⟩
    · rw [ha] at hd
      cases hd
    · rw [ha] at hd
      cases hd
      exact hh.alloc_some ha

theorem holds_calloc_some {k : ObjectKind} {n m : ℕ} {b : Block} (hh : Holds heap O)
    (hc : webPSafeCalloc grants k n m heap = (some b, heap')) : Holds heap' ((b.id, k) :: O) :=
  hh.alloc_some (webPSafeMalloc_some hc).2.2.2

/-- `WebPAnimDecoderNew` leaves the objects of the decoder it returns, or
nothing. -/
theorem holds_animNew (hh : Holds heap O) : ∀ {o}, webPAnimDecoderNew grants data options heap = (o, heap') →
    Holds heap' (o.elim [] (fun dec => dec.blocks.objects) ++ O) := by
  intro o hnew
  unfold webPAnimDecoderNew at hnew
  split_ifs at hnew
  · cases hnew
    exact hh
  split at hnew
  · rename_i heap₁ ha
    cases hnew
    exact hh.alloc_none ha
  · rename_i self heap₁ ha
    have h₁ := hh.alloc_some ha
    split at hnew
    · cases hnew
      exact holds_animDelete (b := { self := self }) h₁
    · split at hnew
      · rename_i heap₂ hd
        cases hnew
        exact holds_animDelete (b := { self := self }) (holds_demuxNew_none h₁ hd)
      · rename_i demuxId demux heap₂ hd
        have h₂ := holds_demuxNew_some h₁ hd
        dsimp only at hnew
        split at hnew
        · rename_i heap₃ hc
          cases hnew
          exact holds_animDelete (b := { self := self, demux := some demuxId }) (h₂.keeps (webPSafeMalloc_none hc))
        · rename_i curr heap₃ hc
          have h₃ := holds_calloc_some h₂ hc
          split at hnew
          · rename_i heap₄ hp
            cases hnew
            refine holds_animDelete (b := { self := self, demux := some demuxId, currFrame := some curr.id }) ?_
            exact (h₃.keeps (webPSafeMalloc_none hp)).perm (.swap _ _ _)
          · rename_i prev heap₄ hp
            cases hnew
            have h₄ := holds_calloc_some h₃ hp
            refine h₄.perm ?_
            -- The objects come in the order of their release.
            exact (List.Perm.swap _ _ _).trans ((List.Perm.cons _ (.swap _ _ _)).trans (.swap _ _ _))

theorem holds_ensured {d d' : WebPDecoder} {w h : ℤ} {o : Option WebPAnimDecoder} (hh : Holds heap (d.objects ++ O))
    (he : WebPDecoder.Ensured grants d w h heap (o, d', heap')) : Holds heap' (d'.objects ++ O) := by
  simp only [WebPDecoder.objects, List.append_assoc] at hh
  cases he with
  | kept live size =>
    simp only [WebPDecoder.objects, List.append_assoc]
    exact hh
  | none stale refused =>
    simp only [WebPDecoder.objects, List.append_assoc]
    exact holds_animNew (holds_forget hh) refused
  | made stale new =>
    simp only [WebPDecoder.objects, List.append_assoc]
    exact holds_animNew (holds_forget hh) new

end

/-! ### A handle between calls -/

/-- A decoder as `decode` has left it, with an anim decoder, if any, that was
made for the size remembered. -/
structure WebPDecoder.Open (codec : Codec) (d : WebPDecoder) : Prop where
  facts : DecoderFacts d d.srcBytes
  anim : d.hasAnimation → ∃ dmux, Accepted d.srcBytes dmux ∧ d.totalFrames = dmux.numFrames ∧
    d.width = dmux.canvasWidth ∧ d.height = dmux.canvasHeight
  kept : ∀ dec, d.animDecoder = some dec → d.hasAnimation ∧
    IntOptions (WebPDecoder.animOptions d.animScaleW d.animScaleH) ∧ ∃ k, WebPDecoder.KeptAt codec d k dec

section

variable {codec : Codec} {d d' : WebPDecoder} {dec : WebPAnimDecoder} {heap heap' : Heap ObjectKind} {grants : Grants}
  {outW outH : ℤ}

theorem open_of_decode {id : ℕ} {bytes : WebPData}
    (hdecode : WebPDecoder.decode grants { id := id } bytes heap = (.returned true, d, heap')) :
    d.Open codec ∧ d.srcBytes = bytes ∧ d.animDecoder = none := by
  obtain ⟨hfacts, -, hnone, -⟩ := decode_facts hdecode
  have hsrc := hfacts.source
  refine ⟨⟨hsrc.symm ▸ hfacts, fun hanim => ?_, fun dec hdec => ?_⟩, hsrc, hnone⟩
  · obtain ⟨dmux, ha, htotal, -, hw, hh⟩ := decode_accepted hdecode hanim
    exact ⟨dmux, hsrc.symm ▸ ha, htotal, hw, hh⟩
  · rw [hnone] at hdec
    cases hdec

/-- What a call of the anim decoder does not change. -/
theorem facts_of_bare (hb : d'.bare = d.bare) (h : DecoderFacts d d.srcBytes) : DecoderFacts d' d'.srcBytes := by
  simp only [WebPDecoder.bare, WebPDecoder.mk.injEq] at hb
  obtain ⟨-, hw, hh, halpha, hanim, htotal, hsrc, -, hdelays, -⟩ := hb
  refine ⟨?_, ?_, rfl, ?_, ?_⟩
  · rw [hw, hh]
    exact h.size
  · rw [hw, hh, halpha, hanim, hsrc]
    exact h.features
  · rw [hanim, htotal, hsrc, hdelays]
    exact h.anim
  · rw [hanim, htotal]
    exact h.still

/-- The anim decoder kept is ready. -/
theorem WebPDecoder.Open.ready (h : d.Open codec) (hdec : d.animDecoder = some dec) : Ready dec := by
  obtain ⟨hanim, ho, k, grants, heap, heap', dec₀, hnew, hrun⟩ := h.kept dec hdec
  obtain ⟨dmux, ha, -⟩ := h.anim hanim
  exact (hrun.ready (ready_of_new ha ho hnew).1).1

/-- A call keeps a handle open when it leaves the anim decoder of some size. -/
theorem WebPDecoder.Open.of_bare (h : d.Open codec) (hb : d'.bare = d.bare)
    (hkept : ∀ dec, d'.animDecoder = some dec → d'.hasAnimation ∧
      IntOptions (WebPDecoder.animOptions d'.animScaleW d'.animScaleH) ∧ ∃ k, WebPDecoder.KeptAt codec d' k dec) :
    d'.Open codec := by
  obtain ⟨hanim, htotal, hsrc, hw, hh⟩ := WebPDecoder.fields_of_bare hb
  refine ⟨facts_of_bare hb h.facts, ?_, hkept⟩
  rw [hanim, htotal, hsrc, hw, hh]
  exact h.anim

/-- What `ensureAnimDecoder` hands out is as good as what was kept. -/
theorem WebPDecoder.Open.ensured (h : d.Open codec) (hw : outW < 2147483648)
    (hh : outH < 2147483648)
    (he : WebPDecoder.Ensured grants d (d.scaleW outW outH) (d.scaleH outW outH) heap (some dec, d', heap')) :
    IntOptions (WebPDecoder.animOptions d'.animScaleW d'.animScaleH) ∧ ∃ k, WebPDecoder.KeptAt codec d' k dec :=
  ⟨WebPDecoder.intOptions_scale hw hh he.scale, he.keptAt fun dec hdec => (h.kept dec hdec).2.2⟩

/-- The anim decoder handed out is ready. -/
theorem WebPDecoder.Open.ensured_ready (h : d.Open codec) (hanim : d.hasAnimation) (hw : outW < 2147483648)
    (hh : outH < 2147483648)
    (he : WebPDecoder.Ensured grants d (d.scaleW outW outH) (d.scaleH outW outH) heap (some dec, d', heap')) :
    Ready dec := by
  obtain ⟨ho, k, grants₁, heap₁, heap₂, dec₀, hnew, hrun⟩ := h.ensured hw hh he
  obtain ⟨-, -, hsrc, -⟩ := WebPDecoder.fields_of_bare he.bare
  obtain ⟨dmux, ha, -⟩ := h.anim hanim
  exact (hrun.ready (ready_of_new (hsrc ▸ ha) ho hnew).1).1

end

/-! ### Calls -/

theorem Ready.next_heap {dec : WebPAnimDecoder} (hd : Ready dec) (codec : Codec) (env : Env)
    (heap : Heap ObjectKind) : (webPAnimDecoderGetNext codec env dec heap).heap = heap := by
  have hcases := hd.next_cases codec env heap
  generalize webPAnimDecoderGetNext codec env dec heap = n at hcases
  cases hcases <;> rfl

theorem Ready.startAt {dec : WebPAnimDecoder} (hd : Ready dec) (index : ℤ) :
    Ready (WebPDecoder.startAt dec index) ∧ (WebPDecoder.startAt dec index).blocks = dec.blocks := by
  unfold WebPDecoder.startAt
  split_ifs
  · exact ⟨hd.reset, rfl⟩
  · exact ⟨hd, rfl⟩

theorem WebPDecoder.KeptAt.startAt {codec : Codec} {d : WebPDecoder} {k : ℕ} {dec : WebPAnimDecoder}
    (hk : WebPDecoder.KeptAt codec d k dec) (index : ℤ) :
    ∃ k, WebPDecoder.KeptAt codec d k (WebPDecoder.startAt dec index) := by
  unfold WebPDecoder.startAt
  split_ifs
  · exact ⟨0, hk.start⟩
  · exact ⟨k, hk⟩

/-- A call on a handle: it stays open, and what it owns accounts for the change
of the ledger. -/
structure Handled (codec : Codec) (d : WebPDecoder) (heap : Heap ObjectKind) (got : Got) : Prop where
  bare : got.decoder.bare = d.bare
  delays : got.decoder.frameDelaysBlock = d.frameDelaysBlock
  isOpen : got.decoder.Open codec
  holds : ∀ {O}, Holds heap (d.objects ++ O) → Holds got.heap (got.decoder.objects ++ O)

section

variable {codec : Codec} {env : Env} {d : WebPDecoder} {index : ℤ} {mem : Buf} {dst stride outW outH : ℤ}
  {heap : Heap ObjectKind} {got : Got}

/-- What a call of `GetNext` on the anim decoder handed out leaves. -/
theorem next_facts {d' : WebPDecoder} {dec : WebPAnimDecoder} {heap' : Heap ObjectKind} {next : Next}
    (h : d.Open codec) (hanim : d.hasAnimation) (hw : outW < 2147483648) (hh : outH < 2147483648)
    (he : WebPDecoder.Ensured env.grants d (d.scaleW outW outH) (d.scaleH outW outH) heap (some dec, d', heap'))
    (hcall : webPAnimDecoderGetNext codec env (WebPDecoder.startAt dec index) heap' = next) :
    next.heap = heap' ∧ next.dec.blocks = dec.blocks ∧ ∃ k, WebPDecoder.KeptAt codec d' k next.dec := by
  obtain ⟨hready, hblocks⟩ := (h.ensured_ready hanim hw hh he).startAt index
  obtain ⟨-, k, hk⟩ := h.ensured hw hh he
  obtain ⟨k', hk'⟩ := hk.startAt index
  refine ⟨?_, ?_, ?_⟩
  · rw [← hcall]
    exact hready.next_heap codec env heap'
  · rw [← hcall]
    exact (hready.next_same codec env heap').blocks.trans hblocks
  · rw [← hcall]
    rcases ht : (webPAnimDecoderGetNext codec env (WebPDecoder.startAt dec index) heap').timestamp with _ | t
    · exact ⟨k', hk'.failure ht⟩
    · exact ⟨k' + 1, hk'.success ht⟩

/-- The decoder with another state of the anim decoder it keeps. -/
theorem handled_next {d' : WebPDecoder} {dec dec' : WebPAnimDecoder} {heap' : Heap ObjectKind} {ok : Bool} {buf : Buf}
    {strays : Strays} (h : d.Open codec) (hanim : d.hasAnimation) (hw : outW < 2147483648) (hh : outH < 2147483648)
    (he : WebPDecoder.Ensured env.grants d (d.scaleW outW outH) (d.scaleH outW outH) heap (some dec, d', heap'))
    (hblocks : dec'.blocks = dec.blocks) (hk : ∃ k, WebPDecoder.KeptAt codec d' k dec') :
    Handled codec d heap ⟨ok, { d' with animDecoder := some dec' }, buf, heap', strays⟩ := by
  have hbare := he.bare
  have hlive := he.size.1
  have hdelays : d'.frameDelaysBlock = d.frameDelaysBlock := by
    simp only [WebPDecoder.bare, WebPDecoder.mk.injEq] at hbare
    exact hbare.2.2.2.2.2.2.2.2.2.1
  refine ⟨hbare, hdelays, h.of_bare hbare fun dec₁ hdec₁ => ?_, fun ho => ?_⟩
  · obtain rfl := Option.some.inj hdec₁
    exact ⟨(WebPDecoder.fields_of_bare hbare).1.symm ▸ hanim, (h.ensured hw hh he).1, hk⟩
  · have hobj : WebPDecoder.objects { d' with animDecoder := some dec' } = d'.objects := by
      simp only [WebPDecoder.objects, hlive, Option.elim_some, hblocks]
    rw [hobj]
    exact holds_ensured ho he

theorem handled_animated (h : d.Open codec) (hanim : d.hasAnimation) (hw : outW < 2147483648) (hh : outH < 2147483648)
    (hg : WebPDecoder.GotAnimated (webPAnimDecoderGetNext codec env) env.grants d index mem dst stride outW outH heap
      got) : Handled codec d heap got := by
  cases hg with
  | @unmade d' heap' ensured =>
    have hholds : ∀ {O}, Holds heap (d.objects ++ O) → Holds heap' (d'.objects ++ O) :=
      fun ho => holds_ensured ho ensured
    cases ensured with
    | none stale refused => exact ⟨rfl, rfl, h.of_bare rfl fun dec hdec => (by cases hdec), hholds⟩
  | failed ensured call bad =>
    obtain ⟨hheap, hblocks, hk⟩ := next_facts h hanim hw hh ensured call
    rw [hheap]
    exact handled_next h hanim hw hh ensured hblocks hk
  | shown ensured call good =>
    obtain ⟨hheap, hblocks, hk⟩ := next_facts h hanim hw hh ensured call
    rw [hheap]
    exact handled_next h hanim hw hh ensured hblocks hk

/-- A still picture touches no object of the handle. -/
theorem handled_still (h : d.Open codec) (hdec : got.decoder = d) (hk : heap.Keeps got.heap) :
    Handled codec d heap got := by
  refine ⟨by rw [hdec], by rw [hdec], by rwa [hdec], fun ho => ?_⟩
  rw [hdec]
  exact ho.keeps hk

/-- Every call of `getFrame` keeps the handle. -/
theorem handled_getFrame (h : d.Open codec) (hw : 0 < outW ∧ outW < 2147483648)
    (hh : 0 < outH ∧ outH < 2147483648) :
    Handled codec d heap (d.getFrame codec env index mem dst stride outW outH heap) := by
  unfold WebPDecoder.getFrame
  split_ifs with hrange hstill
  · exact handled_still h rfl (.refl heap)
  · have hstill' : d.hasAnimation = false := by simpa using hstill
    have hfacts := h.facts.still_facts
    cases halpha : d.hasAlpha with
    | false =>
      obtain ⟨f, hf, -⟩ := h.facts.features
      have hg := getStatic_direct codec env mem dst stride heap hfacts (by rw [hf]) halpha hw.1 hh.1
      refine handled_still h hg.decoder ?_
      rw [hg.heap]
      exact .refl heap
    | true =>
      have hg := getStatic_composited codec env mem dst stride heap hfacts halpha hw.1 hh.1
      exact handled_still h hg.decoder hg.kept
  · have hanim : d.hasAnimation := by simpa using hstill
    exact handled_animated h hanim hw.2 hh.2 (WebPDecoder.getAnimated_cases _ _ _ _ _ _ _ _ _ _)

end

end WebPlugin
