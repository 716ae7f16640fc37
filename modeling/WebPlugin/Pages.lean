/-
# What the host is told

The four calls that look at a handle agree on its pages: there is at least one,
`GetImageInfo` gives their number, and `GetPageInfo` and `PageDecode` answer
`IDE_NoPage` for the others (`pages_agree`). Decoding pages and all that happens
to other handles changes none of the answers, until the handle is closed
(`infos_constant`).
-/
import WebPlugin.Ownership

namespace WebPlugin

open Memory Ledger Words

/-! ### The pages of a handle -/

section

variable {codec : Codec} {d : WebPDecoder}

/-- A handle has at least one page. -/
theorem WebPDecoder.Open.count_pos (h : d.Open codec) : 1 ≤ d.getFrameCount := by
  unfold WebPDecoder.getFrameCount
  split_ifs with hanim
  · obtain ⟨dmux, ha, htotal, -⟩ := h.anim hanim
    have hcount := ha.count_lt
    obtain ⟨dmux', -, -, hne, -⟩ := h.facts.anim hanim
    omega
  · exact le_rfl

theorem frameDelayOf_pos (demux : WebPDemuxer) (i : ℕ) : 0 < WebPDecoder.frameDelayOf demux i := by
  unfold WebPDecoder.frameDelayOf
  split
  · split_ifs with hpos
    · exact hpos
    · decide
  · decide

/-- An animation shows each of its pages for some time, a still picture has no
delay. -/
theorem WebPDecoder.Open.delay (h : d.Open codec) {i : ℤ} (hi : 0 ≤ i ∧ i < d.getFrameCount) :
    (0 < d.getFrameDelay i ↔ d.hasAnimation = true) ∧ 0 ≤ d.getFrameDelay i := by
  obtain ⟨h0, h1⟩ := hi
  unfold WebPDecoder.getFrameCount at h1
  unfold WebPDecoder.getFrameDelay
  by_cases hanim : d.hasAnimation = true
  · rw [if_pos hanim] at h1
    obtain ⟨dmux, -, -, -, hdelays⟩ := h.facts.anim hanim
    have hlt : i.toNat < d.totalFrames.toNat := by omega
    have hget : d.frameDelays.getD i.toNat 0 = WebPDecoder.frameDelayOf dmux i.toNat := by
      rw [hdelays, List.getD_eq_getElem?_getD, List.getElem?_map, List.getElem?_range hlt]
      rfl
    have hpos := frameDelayOf_pos dmux i.toNat
    rw [if_neg (by simp only [hanim, Bool.not_true, Bool.false_eq_true, false_or]; omega), hget]
    exact ⟨iff_of_true hpos hanim, hpos.le⟩
  · rw [if_pos (.inl (by simpa using hanim))]
    exact ⟨iff_of_false (lt_irrefl 0) hanim, le_rfl⟩

end

/-- Only the page range makes `PageDecode` answer `IDE_NoPage`. -/
theorem pageDecode_noPage {codec : Codec} {env : Env} {d : WebPDecoder} {pdp : IDDecodeParam} {pio : IDImageOut}
    {heap : Heap ObjectKind} :
    (pageDecode codec env (some d) (some pdp) (some pio) heap).code = .noPage ↔
      pdp.nPage < 0 ∨ d.getFrameCount ≤ pdp.nPage := by
  unfold pageDecode
  dsimp only
  split_ifs with hrange
  · exact iff_of_true rfl hrange
  · refine iff_of_false (fun hno => ?_) hrange
    unfold pageDecodeInto at hno
    dsimp only at hno
    split at hno
    · cases hno
    · split_ifs at hno

theorem getPageInfo_code (d : WebPDecoder) (iPage : ℤ) (ppi : IDPageInfo) :
    (getPageInfo (some d) iPage ppi).1 = if 0 ≤ iPage ∧ iPage < d.getFrameCount then .ok else .noPage := by
  unfold getPageInfo
  dsimp only
  by_cases hrange : iPage < 0 ∨ d.getFrameCount ≤ iPage
  · rw [if_pos hrange, if_neg (by omega)]
  · rw [if_neg hrange, if_pos (by omega)]

/-! ### The plug-in -/

/-- The plug-in stays once it is there. -/
theorem answer_plugin (codec : Codec) (env : Env) (p : Process) (c : Process.HostCall) (hp : p.plugin ≠ none) :
    (p.answer codec env c).process.plugin = p.plugin := by
  rcases c with _ | _ | _ | c | _ | _ | _
  case init => simp only [Process.answer, if_neg hp]
  case call =>
    cases c <;> simp only [Process.answer, Process.call, if_neg hp]
  all_goals
    simp only [Process.answer]
    try split_ifs
    all_goals rfl

/-- Without it no handle is made. -/
theorem after_unplugged (codec : Codec) (env : Env) (p : Process) (c : Process.HostCall) (b : Book)
    (hp : p.plugin = none) (hempty : b.handles = []) : (b.after c (p.answer codec env c)).handles = [] := by
  rcases c with _ | _ | _ | c | _ | _ | _
  case call =>
    have hcode : (p.answer codec env (.call c)).code = .returned .error := by
      cases c <;> simp only [Process.answer, Process.call, if_pos hp]
    rw [after_failed hcode (by decide)]
    exact hempty
  all_goals
    unfold Book.after
    split_ifs
    all_goals exact hempty

theorem Session.plugged {codec : Codec} {b : Book} {p : Process} (h : Session codec b p) :
    b.handles ≠ [] → p.plugin ≠ none := by
  induction h with
  | load => exact fun hne => absurd rfl hne
  | @step b p run env c valid ih =>
    intro hne
    by_cases hp : p.plugin = none
    · have hempty : b.handles = [] := by
        by_contra hb
        exact ih hb hp
      exact absurd (after_unplugged codec env p c b hp hempty) hne
    · rwa [answer_plugin codec env p c hp]

/-- The decoder behind a handle in the book. -/
theorem Session.decoder {codec : Codec} {b : Book} {p : Process} (h : Session codec b p) {hs : ℕ}
    (hmem : hs ∈ b.handles) :
    p.plugin ≠ none ∧ ∃ d ∈ p.handles, d.id = hs ∧ p.decoderOf (some hs) = some d ∧ d.Open codec := by
  refine ⟨h.plugged (List.ne_nil_of_mem hmem), ?_⟩
  rcases @Sound.decoderOf codec b p h.sound (some hs) fun i hi => by cases hi; exact hmem with
    ⟨hno, -⟩ | ⟨d, hd, hid, hsome⟩
  · cases hno
  · exact ⟨d, hd, (Option.some.inj hid).symm, hsome, h.sound.opened d hd⟩

/-! ### Agreement -/

/-- The calls on a handle agree that it has `n` pages. -/
structure PagesAgree (codec : Codec) (p : Process) (hs : ℕ) (n : ℤ) : Prop where
  pages : 1 ≤ n
  image : ∀ env pii, ∃ info, (p.answer codec env (.getImageInfo (some hs) pii)).code = .returned .ok ∧
    (p.answer codec env (.getImageInfo (some hs) pii)).pii = some info ∧ info.nPages = n ∧
    (info.dwFlags &&& IIF_ANIM = 0 → n = 1)
  page : ∀ env i ppi, (p.answer codec env (.getPageInfo (some hs) i ppi)).code =
    .returned (if 0 ≤ i ∧ i < n then .ok else .noPage)
  delay : ∀ env i ppi, 0 ≤ i → i < n →
    ∃ info, (p.answer codec env (.getPageInfo (some hs) i ppi)).ppi = some info ∧ 0 ≤ info.nDelay ∧
      (info.nDelay = 0 → n = 1)
  decode : ∀ env pdp pio, (p.answer codec env (.call (.pageDecode (some hs) (some pdp) (some pio)))).code =
    .returned .noPage ↔ ¬ (0 ≤ pdp.nPage ∧ pdp.nPage < n)

theorem pages_agree {codec : Codec} {b : Book} {p : Process} (h : Session codec b p) {hs : ℕ}
    (hmem : hs ∈ b.handles) : ∃ n, PagesAgree codec p hs n := by
  obtain ⟨hp, d, -, -, hsome, hopen⟩ := h.decoder hmem
  have hpos := hopen.count_pos
  have hstill : d.hasAnimation = false → d.getFrameCount = 1 := fun hno => by
    rw [WebPDecoder.getFrameCount, hno]
    rfl
  refine ⟨d.getFrameCount, hpos, fun env pii => ?_, fun env i ppi => ?_, fun env i ppi h0 h1 => ?_,
    fun env pdp pio => ?_⟩
  · have hcount : d.getFrameCount ≠ 0 := by omega
    refine ⟨d.imageInfo, ?_, ?_, rfl, fun hflag => ?_⟩
    · simp only [Process.answer]
      rw [if_neg hp, hsome, getImageInfo, if_neg hcount]
    · simp only [Process.answer]
      rw [if_neg hp, hsome, getImageInfo, if_neg hcount]
    · by_cases hanim : d.hasAnimation = true
      · rw [WebPDecoder.imageInfo, if_pos hanim] at hflag
        exact absurd (show (IIF_ANIM ||| IIF_MULTIPAGE) &&& IIF_ANIM = 0 from hflag) (by decide)
      · exact hstill (by simpa using hanim)
  · simp only [Process.answer]
    rw [if_neg hp, hsome]
    exact congrArg _ (getPageInfo_code d i ppi)
  · refine ⟨d.pageInfo i, ?_, (hopen.delay ⟨h0, h1⟩).2, fun hzero => hstill ?_⟩
    · simp only [Process.answer]
      rw [if_neg hp, hsome, getPageInfo]
      dsimp only
      rw [if_neg (by omega)]
    · have hno := (hopen.delay ⟨h0, h1⟩).1
      rw [show d.getFrameDelay i = 0 from hzero] at hno
      simpa using hno
  · simp only [Process.answer, Process.call]
    rw [if_neg hp, hsome, WebPDecoder.Ended.returned.injEq, pageDecode_noPage]
    omega

theorem badge_pages_agree : ∃ n, PagesAgree .black badgeProcess 1 n :=
  pages_agree badge_session List.mem_cons_self

/-! ### Constancy -/

/-- A run from one point of a session to another in which the handle `hs` is
not closed. -/
inductive Later (codec : Codec) (hs : ℕ) (b : Book) (p : Process) : Book → Process → Prop
  | here : Later codec hs b p b p
  | step {b' : Book} {p' : Process} (run : Later codec hs b p b' p') (env : Env) (c : Process.HostCall)
      (valid : b'.Valid c) (left : c ≠ .call (.closeImage (some hs))) :
      Later codec hs b p (b'.after c (p'.answer codec env c)) (p'.answer codec env c).process

theorem Later.session {codec : Codec} {hs : ℕ} {b b' : Book} {p p' : Process} (h : Session codec b p)
    (hl : Later codec hs b p b' p') : Session codec b' p' := by
  induction hl with
  | here => exact h
  | step run env c valid left ih => exact ih.step env c valid

/-- Unless it is closed, a handle stays, with all `decode` has read. -/
theorem Sound.lasting {codec : Codec} {env : Env} {b : Book} {p : Process} (h : Sound codec b p) {c : Process.HostCall}
    (hv : b.Valid c) {d : WebPDecoder} (hd : d ∈ p.handles) (hleft : c ≠ .call (.closeImage (some d.id))) :
    ∃ d' ∈ (p.answer codec env c).process.handles, d'.bare = d.bare := by
  rcases c with _ | _ | _ | c | _ | _ | _
  case init =>
    refine ⟨d, ?_, rfl⟩
    simp only [Process.answer]
    split_ifs
    · split <;> exact hd
    · exact hd
  case call =>
    rcases c with ⟨psi, phs⟩ | ⟨hs, pdp, pio⟩ | hs
    · refine ⟨d, ?_, rfl⟩
      simp only [Process.answer, Process.call]
      split_ifs
      · exact hd
      · exact List.mem_append_right _ hd
    · simp only [Process.answer, Process.call]
      by_cases hp : p.plugin = none
      · rw [if_pos hp]
        exact ⟨d, hd, rfl⟩
      · rw [if_neg hp]
        rcases h.decoderOf hv.1 with ⟨rfl, hnone⟩ | ⟨e, he, rfl, hsome⟩
        · rw [hnone]
          exact ⟨d, hd, rfl⟩
        · rw [hsome]
          obtain ⟨e', he', hbare, -⟩ := (pageDecode_cases env pdp pio p.heap (h.opened e he) hv.2).decoder
          dsimp only
          rw [he', Option.elim_some]
          have hid : e'.id = e.id := by
            have hbareId := congrArg WebPDecoder.id hbare
            exact hbareId
          by_cases hde : d.id = e'.id
          · obtain rfl : d = e := List.inj_on_of_nodup_map h.handles_nodup hd he (hde.trans hid)
            exact ⟨e', List.mem_map.mpr ⟨d, hd, if_pos hde⟩, hbare⟩
          · exact ⟨d, List.mem_map.mpr ⟨d, hd, if_neg hde⟩, rfl⟩
    · simp only [Process.answer, Process.call]
      split_ifs
      · exact ⟨d, hd, rfl⟩
      · refine ⟨d, List.mem_filter.mpr ⟨hd, ?_⟩, rfl⟩
        simp only [ne_eq, decide_not, Bool.not_eq_eq_eq_not, Bool.not_true, decide_eq_false_iff_not]
        exact fun heq => hleft (by rw [heq])
  all_goals
    refine ⟨d, ?_, rfl⟩
    simp only [Process.answer]
    try split_ifs
    all_goals exact hd

theorem Later.lasting {codec : Codec} {hs : ℕ} {b b' : Book} {p p' : Process} (h : Session codec b p)
    (hl : Later codec hs b p b' p') {d : WebPDecoder} (hd : d ∈ p.handles) (hid : d.id = hs) :
    ∃ d' ∈ p'.handles, d'.bare = d.bare := by
  induction hl with
  | here => exact ⟨d, hd, rfl⟩
  | step run env c valid left ih =>
    obtain ⟨d', hd', hbare⟩ := ih
    have hid' : d'.id = d.id := by
      have hbareId := congrArg WebPDecoder.id hbare
      exact hbareId
    obtain ⟨d'', hd'', hbare'⟩ := (run.session h).sound.lasting valid hd' (by rw [hid', hid]; exact left)
    exact ⟨d'', hd'', hbare'.trans hbare⟩

/-- What a process tells of a handle. -/
structure Told where
  image : Ended IDECode × Option IDImageInfo
  page : ℤ → Ended IDECode × Option IDPageInfo

/-- The answers to a host whose variables hold `pii` and `ppi`. -/
def Process.tells (codec : Codec) (env : Env) (p : Process) (hs : ℕ) (pii : IDImageInfo) (ppi : IDPageInfo) :
    Told where
  image :=
    ((p.answer codec env (.getImageInfo (some hs) pii)).code, (p.answer codec env (.getImageInfo (some hs) pii)).pii)
  page i :=
    ((p.answer codec env (.getPageInfo (some hs) i ppi)).code, (p.answer codec env (.getPageInfo (some hs) i ppi)).ppi)

theorem Session.tells {codec : Codec} {b : Book} {p : Process} (h : Session codec b p) (env : Env) {hs : ℕ}
    {d : WebPDecoder} (hd : d ∈ p.handles) (hid : d.id = hs) (hmem : hs ∈ b.handles) (pii : IDImageInfo)
    (ppi : IDPageInfo) : p.tells codec env hs pii ppi =
      ⟨(.returned (getImageInfo (some d.bare) pii).1, some (getImageInfo (some d.bare) pii).2), fun i =>
        (.returned (getPageInfo (some d.bare) i ppi).1, some (getPageInfo (some d.bare) i ppi).2)⟩ := by
  obtain ⟨hp, e, he, heid, hsome, -⟩ := h.decoder hmem
  obtain rfl : d = e := List.inj_on_of_nodup_map h.sound.handles_nodup hd he (hid.trans heid.symm)
  simp only [Process.tells, Process.answer, if_neg hp, hsome]
  rfl

/-- As long as a handle is not closed the host is told the same of it. -/
theorem infos_constant {codec : Codec} {hs : ℕ} {b b' : Book} {p p' : Process} (h : Session codec b p)
    (hmem : hs ∈ b.handles) (hl : Later codec hs b p b' p') (env env' : Env) (pii : IDImageInfo) (ppi : IDPageInfo) :
    hs ∈ b'.handles ∧ p'.tells codec env' hs pii ppi = p.tells codec env hs pii ppi := by
  obtain ⟨-, d, hd, hid, -⟩ := h.decoder hmem
  obtain ⟨d', hd', hbare⟩ := hl.lasting h hd hid
  have hid' : d'.id = d.id := by
    have hbareId := congrArg WebPDecoder.id hbare
    exact hbareId
  have hlater := hl.session h
  have hmem' : hs ∈ b'.handles := by
    rw [← hlater.sound.handles]
    exact List.mem_map.mpr ⟨d', hd', hid'.trans hid⟩
  exact ⟨hmem', by rw [h.tells env hd hid hmem, hlater.tells env' hd' (hid'.trans hid) hmem', hbare]⟩

/-- The answers before and after the first page is decoded. -/
theorem badge_infos_constant :
    badgeShown.tells .black .fine 1 {} {} = badgeProcess.tells .black .fine 1 {} {} :=
  (infos_constant badge_session List.mem_cons_self
    (.step .here .fine (pageCall 1 ⟨0, 0, 0⟩ {}) badge_request (by simp [pageCall])) .fine .fine {} {}).2

end WebPlugin
