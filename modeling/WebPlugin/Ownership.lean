/-
# Ownership over a session

At every point of a session the live objects are the plug-in, the decoders of the
open handles, each with what it owns, the DIBs the host has not released, and
two for each `OpenImage` that did not return (`session_balanced`). A call that
does not return `IDE_OK` changes nothing the host can see; it fails to return at
all when the plug-in object or the vector of frame delays is refused
(`session_errors_quiet`). The vector leaves the decoder and the demuxer behind
(`session_leak`); a run that is never refused it leaks nothing
(`calls_balanced_iff`).
-/
import WebPlugin.Handles
import WebPlugin.Session

namespace WebPlugin

open Memory Ledger Words

/-! ### OpenImage -/

section

variable {grants : Grants} {bytes : WebPData} {heap heap' : Heap ObjectKind} {O : List (ℕ × ObjectKind)} {id : ℕ}
  {d : WebPDecoder}

/-- How `decode` goes on a fresh decoder. -/
inductive DecodedFile (grants : Grants) (bytes : WebPData) (id : ℕ) (heap : Heap ObjectKind) :
    WebPDecoder.Ended Bool × WebPDecoder × Heap ObjectKind → Prop
  | rejected {d : WebPDecoder} {heap' : Heap ObjectKind} (quiet : delaysRequest grants bytes heap = none)
      (live : d.animDecoder = none) (name : d.id = id) (delays : d.frameDelaysBlock = none)
      (holds : ∀ {O}, Holds heap O → Holds heap' O) :
      DecodedFile grants bytes id heap (.returned false, d, heap')
  | still {d : WebPDecoder} (quiet : delaysRequest grants bytes heap = none) (live : d.animDecoder = none)
      (name : d.id = id) (delays : d.frameDelaysBlock = none) :
      DecodedFile grants bytes id heap (.returned true, d, heap)
  | animation {d : WebPDecoder} {heap' heap'' : Heap ObjectKind} {n i : ℕ}
      (request : delaysRequest grants bytes heap = some (heap', n)) (granted : grants .frameDelays heap' n = true)
      (live : d.animDecoder = none) (name : d.id = id) (delays : d.frameDelaysBlock = some i)
      (holds : ∀ {O}, Holds heap O → Holds heap'' ((i, .frameDelays) :: O)) :
      DecodedFile grants bytes id heap (.returned true, d, heap'')
  | thrown {d : WebPDecoder} {heap' heap'' : Heap ObjectKind} {n i : ℕ}
      (request : delaysRequest grants bytes heap = some (heap', n)) (refused : grants .frameDelays heap' n = false)
      (holds : ∀ {O}, Holds heap O → Holds heap'' ((i, .demuxer) :: O)) :
      DecodedFile grants bytes id heap (.badAlloc, d, heap'')

theorem decode_file (grants : Grants) (bytes : WebPData) (id : ℕ) (heap : Heap ObjectKind) :
    DecodedFile grants bytes id heap (WebPDecoder.decode grants { id := id } bytes heap) := by
  unfold WebPDecoder.decode
  rcases hf : webPGetFeatures bytes with ⟨status, features⟩
  have hquiet : status ≠ .ok → delaysRequest grants bytes heap = none := fun hbad => by
    rw [delaysRequest, hf]
    cases status
    case ok => exact absurd rfl hbad
    all_goals rfl
  cases status
  case ok =>
    dsimp only
    split_ifs with hanim
    · rcases hd : webPDemuxNew grants bytes heap with ⟨_ | ⟨demuxId, demux⟩, heap₁⟩
      · refine .rejected ?_ rfl rfl rfl fun ho => holds_demuxNew_none ho hd
        simp only [delaysRequest, hf, hanim, if_true, hd]
      · dsimp only
        split_ifs with hzero
        · refine .rejected ?_ rfl rfl rfl fun ho => (holds_demuxNew_some ho hd).release
          simp only [delaysRequest, hf, hanim, if_true, hd, hzero]
        · have hrequest : delaysRequest grants bytes heap = some (heap₁, u32 (4 * i32 (u32 demux.numFrames))) := by
            simp only [delaysRequest, hf, hanim, if_true, hd, if_neg hzero]
          split
          · rename_i heap₂ ha
            exact .thrown hrequest (Heap.of_alloc_none ha) fun ho => (holds_demuxNew_some ho hd).alloc_none ha
          · rename_i delaysId heap₂ ha
            refine .animation hrequest (Heap.of_alloc_some ha).1 rfl rfl rfl fun ho => ?_
            exact (((holds_demuxNew_some ho hd).alloc_some ha).perm (.swap _ _ _)).release
    · refine .still ?_ rfl rfl rfl
      simp only [delaysRequest, hf, hanim, if_false, Bool.false_eq_true]
  all_goals exact .rejected (hquiet (by decide)) rfl rfl rfl fun ho => ho

/-- How `OpenImage` goes. -/
inductive OpenedAs (codec : Codec) (env : Env) (p : Process) (psi : Option IDSourceInfo) (phs : Option (Option ℕ))
    (r : Opened) : Prop
  | refused (code : IDECode) (bad : code ≠ .ok) (returned : r.code = .returned code) (kept : r.phs = phs)
      (nothing : r.decoder = none) (holds : ∀ {O}, Holds p.heap O → Holds r.heap O)
      (granted : Process.HostCall.DelaysGranted env p (.call (.openImage psi phs)))
  | opened (d : WebPDecoder) (returned : r.code = .returned .ok) (handle : r.phs = some (some d.id))
      (made : r.decoder = some d) (fresh : d.animDecoder = none) (isOpen : d.Open codec)
      (holds : ∀ {O}, Holds p.heap O → Holds r.heap (d.objects ++ O))
      (granted : Process.HostCall.DelaysGranted env p (.call (.openImage psi phs)))
  | thrown (i j : ℕ) (left : r.code = .badAlloc) (kept : r.phs = phs) (nothing : r.decoder = none)
      (holds : ∀ {O}, Holds p.heap O → Holds r.heap ((j, .demuxer) :: (i, .decoder) :: O))
      (refused : ¬ Process.HostCall.DelaysGranted env p (.call (.openImage psi phs)))

theorem objects_fresh {d : WebPDecoder} (h : d.animDecoder = none) :
    d.objects = d.frameDelaysBlock.toList.map (·, .frameDelays) ++ [(d.id, .decoder)] := by
  rw [WebPDecoder.objects, h]
  rfl

variable (codec : Codec) (env : Env) (p : Process) in
theorem openImage_cases (hp : p.plugin ≠ none) (psi : Option IDSourceInfo) (phs : Option (Option ℕ)) :
    OpenedAs codec env p psi phs (openImage env.grants psi phs p.heap) := by
  have hno : ∀ c : Process.HostCall, c.delays env p = none → c.DelaysGranted env p := fun c hc r hr => by
    rw [hc] at hr
    cases hr
  cases psi with
  | none => exact .refused .invalidParam (by decide) rfl rfl rfl (fun ho => ho) (hno _ rfl)
  | some psi =>
    cases phs with
    | none => exact .refused .invalidParam (by decide) rfl rfl rfl (fun ho => ho) (hno _ rfl)
    | some hs =>
      unfold openImage
      dsimp only
      split_ifs with hfill
      · refine .refused .corruptData (by decide) rfl rfl rfl (fun ho => ho) (hno _ ?_)
        simp only [Process.HostCall.delays, hp, hfill, false_or, if_true]
      · rcases ha : p.heap.alloc (env.grants .decoder) .decoder 0 with ⟨_ | id, heap⟩
        · refine .refused .fatalError (by decide) rfl rfl rfl (fun ho => ho.alloc_none ha) (hno _ ?_)
          simp only [Process.HostCall.delays, hp, hfill, Bool.false_eq_true, or_self, if_false, ha]
        · have hrequest : Process.HostCall.delays env p (.call (.openImage (some psi) (some hs))) =
              delaysRequest env.grants psi.buf heap := by
            simp only [Process.HostCall.delays, hp, hfill, Bool.false_eq_true, or_self, if_false, ha]
          have hfile := decode_file env.grants psi.buf id heap
          dsimp only
          rcases hdecode : WebPDecoder.decode env.grants { id := id } psi.buf heap with ⟨ended, d, heap'⟩
          rw [hdecode] at hfile
          cases hfile with
          | rejected quiet live name delays holds =>
            refine .refused .unknownFormat (by decide) rfl rfl rfl (fun ho => ?_) (hno _ (hrequest.trans quiet))
            refine holds_delete ?_
            rw [objects_fresh live, delays, name]
            exact holds (ho.alloc_some ha)
          | still quiet live name delays =>
            refine .opened d rfl rfl rfl live (open_of_decode hdecode).1 (fun ho => ?_) (hno _ (hrequest.trans quiet))
            rw [objects_fresh live, delays, name]
            exact ho.alloc_some ha
          | animation request granted live name delays holds =>
            refine .opened d rfl rfl rfl live (open_of_decode hdecode).1 (fun ho => ?_) fun r hr => ?_
            · rw [objects_fresh live, delays, name]
              exact holds (ho.alloc_some ha)
            · rw [hrequest, request] at hr
              obtain rfl := Option.some.inj hr
              exact granted
          | thrown request refused holds =>
            refine .thrown id _ rfl rfl rfl (fun ho => holds (ho.alloc_some ha)) fun hg => ?_
            have := hg _ (hrequest.trans request)
            rw [refused] at this
            cases this

/-- The `OpenImage` that does not return. -/
theorem answer_of_refused (codec : Codec) {env : Env} {p : Process} {c : Process.HostCall}
    (hg : ¬ c.DelaysGranted env p) :
    ∃ psi phs i j heap, c = .call (.openImage psi phs) ∧
      p.answer codec env c = { process := { p with heap := heap }, code := .badAlloc, phs := phs } ∧
      ∀ {O}, Holds p.heap O → Holds heap ((j, .demuxer) :: (i, .decoder) :: O) := by
  have hcalled : ∃ psi phs, c = .call (.openImage psi phs) ∧ p.plugin ≠ none := by
    have hquiet : c.delays env p ≠ none := fun hnone => hg fun r hr => by
      rw [hnone] at hr
      cases hr
    rcases c with _ | _ | _ | c | _ | _ | _
    case call =>
      rcases c with ⟨psi, phs⟩ | _ | _
      · refine ⟨psi, phs, rfl, fun hno => hquiet ?_⟩
        rcases psi with _ | psi <;> rcases phs with _ | hs
        · rfl
        · rfl
        · rfl
        · exact if_pos (.inl hno)
      · exact absurd rfl hquiet
      · exact absurd rfl hquiet
    all_goals exact absurd rfl hquiet
  obtain ⟨psi, phs, rfl, hp⟩ := hcalled
  have hcases := openImage_cases codec env p hp psi phs
  have hanswer : p.answer codec env (.call (.openImage psi phs)) =
      let r := openImage env.grants psi phs p.heap
      { process := { p with heap := r.heap, handles := r.decoder.toList ++ p.handles }
        code := r.code
        phs := r.phs } := by
    simp only [Process.answer, Process.call]
    rw [if_neg hp]
  cases hcases with
  | refused code bad returned kept nothing holds granted => exact absurd granted hg
  | opened d returned handle made fresh isOpen holds granted => exact absurd granted hg
  | thrown i j left kept nothing holds refused =>
    refine ⟨psi, phs, i, j, _, rfl, ?_, holds⟩
    rw [hanswer]
    dsimp only
    rw [left, kept, nothing]
    rfl

end

/-! ### PageDecode -/

/-- `PageDecode` on an open handle. -/
structure PagedAs (codec : Codec) (d : WebPDecoder) (pio : Option IDImageOut) (heap : Heap ObjectKind) (r : Paged) :
    Prop where
  decoder : ∃ d', r.decoder = some d' ∧ d'.bare = d.bare ∧ d'.Open codec ∧
    (r.code ≠ .ok → r.pio = pio ∧ ∀ {O}, Holds heap (d.objects ++ O) → Holds r.heap (d'.objects ++ O)) ∧
    (r.code = .ok → ∃ block, r.pio.bind IDImageOut.hdib = some block ∧
      ∀ {O}, Holds heap (d.objects ++ O) → Holds r.heap (d'.objects ++ ((block.id, .dib) :: O)))

/-- A call that leaves everything alone. -/
theorem pagedAs_quiet {codec : Codec} {d : WebPDecoder} {pio : Option IDImageOut} {heap heap' : Heap ObjectKind}
    {code : IDECode} {strays : Strays} (h : d.Open codec) (hbad : code ≠ .ok)
    (hk : ∀ {O}, Holds heap O → Holds heap' O) :
    PagedAs codec d pio heap ⟨code, pio, some d, heap', strays⟩ :=
  ⟨d, rfl, rfl, h, fun _ => ⟨rfl, fun ho => hk ho⟩, fun hok => absurd hok hbad⟩

theorem pageDecode_cases {codec : Codec} (env : Env) {d : WebPDecoder} (pdp : Option IDDecodeParam)
    (pio : Option IDImageOut) (heap : Heap ObjectKind) (h : d.Open codec)
    (hint : ∀ p ∈ pdp, p.nWidth < 2147483648 ∧ p.nHeight < 2147483648) :
    PagedAs codec d pio heap (pageDecode codec env (some d) pdp pio heap) := by
  unfold pageDecode
  rcases pdp with _ | pdp
  · exact pagedAs_quiet h (by decide) fun ho => ho
  rcases pio with _ | pio
  · exact pagedAs_quiet h (by decide) fun ho => ho
  dsimp only
  split_ifs with hrange
  · exact pagedAs_quiet h (by decide) fun ho => ho
  · unfold pageDecodeInto
    obtain ⟨hreqW, hreqH⟩ := hint pdp rfl
    obtain ⟨hW, hH⟩ := resolveOutputSize_range pdp.nWidth pdp.nHeight h.facts.size hreqW hreqH
    rcases hsize : d.resolveOutputSize pdp.nWidth pdp.nHeight with ⟨w, hgt⟩
    rw [hsize] at hW hH
    dsimp only at hW hH ⊢
    rcases ha : heap.alloc (env.grants .dib) .dib (dibSize w hgt) with ⟨_ | hDIB, heap'⟩
    · exact pagedAs_quiet h (by decide) fun ho => ho.alloc_none ha
    · dsimp only
      have hgot := @handled_getFrame codec env d pdp.nPage (fillHeader (newDib w hgt) w hgt) bitmapInfoHeaderSize
        (dstStride w) _ _ heap' h hW hH
      generalize d.getFrame codec env pdp.nPage (fillHeader (newDib w hgt) w hgt) bitmapInfoHeaderSize (dstStride w)
        w hgt heap' = got at hgot
      obtain ⟨hbare, -, hopen, hholds⟩ := hgot
      -- The DIB goes behind what the handle owns.
      have hmid : ∀ {O : List (ℕ × ObjectKind)}, ((hDIB, ObjectKind.dib) :: (d.objects ++ O)).Perm
          (d.objects ++ ((hDIB, .dib) :: O)) := List.perm_middle.symm
      split_ifs with hok
      · exact ⟨got.decoder, rfl, hbare, hopen, fun hbad => absurd rfl hbad, fun _ => ⟨_, rfl, fun ho =>
          hholds ((ho.alloc_some ha).perm hmid)⟩⟩
      · exact ⟨got.decoder, rfl, hbare, hopen, fun _ => ⟨rfl, fun ho =>
          ((hholds ((ho.alloc_some ha).perm hmid)).perm List.perm_middle).release⟩, fun hno => (by cases hno)⟩

/-! ### The objects of the open handles -/

/-- Every handle owns the object of its name. -/
theorem ids_sublist : ∀ L : List WebPDecoder,
    (L.map WebPDecoder.id).Sublist ((L.flatMap WebPDecoder.objects).map Prod.fst)
  | [] => List.Sublist.slnil
  | d :: L => by
    have hd : [d.id].Sublist (d.objects.map Prod.fst) := by
      simp [WebPDecoder.objects]
    rw [List.flatMap_cons, List.map_append, List.map_cons]
    exact hd.append (ids_sublist L)

/-- Of distinct handles, one can be replaced or left out. -/
theorem split_handle {d : WebPDecoder} : ∀ {L : List WebPDecoder}, (L.map WebPDecoder.id).Nodup → d ∈ L →
    ∃ L₁ L₂, L = L₁ ++ d :: L₂ ∧
      (∀ d' : WebPDecoder, d'.id = d.id → (L.map fun e => if e.id = d'.id then d' else e) = L₁ ++ d' :: L₂) ∧
      L.filter (fun e => some e.id ≠ some d.id) = L₁ ++ L₂
  | e :: L, hn, hd => by
    rw [List.map_cons, List.nodup_cons] at hn
    obtain ⟨he, hn⟩ := hn
    rcases List.mem_cons.mp hd with rfl | hd
    · have hne : ∀ e ∈ L, e.id ≠ d.id := fun e hmem heq => he (heq ▸ List.mem_map_of_mem hmem)
      refine ⟨[], L, rfl, fun d' hid => ?_, ?_⟩
      · rw [List.map_cons, if_pos hid.symm, List.nil_append]
        have hrest : (L.map fun e => if e.id = d'.id then d' else e) = L.map id :=
          List.map_congr_left fun e hmem => if_neg (by rw [hid]; exact hne e hmem)
        rw [hrest, List.map_id]
      · rw [List.filter_cons_of_neg (by simp), List.nil_append]
        exact List.filter_eq_self.mpr fun e hmem => by simpa using hne e hmem
    · have hne : e.id ≠ d.id := fun heq => he (heq ▸ List.mem_map_of_mem hd)
      obtain ⟨L₁, L₂, rfl, hmap, hfilter⟩ := split_handle hn hd
      refine ⟨e :: L₁, L₂, rfl, fun d' hid => ?_, ?_⟩
      · rw [List.map_cons, if_neg (by rw [hid]; exact hne), hmap d' hid]
        rfl
      · rw [List.filter_cons_of_pos (by simpa using hne), hfilter]
        rfl

/-- The objects of a handle among the others. -/
theorem objects_split (L₁ L₂ : List WebPDecoder) (d : WebPDecoder) (O : List (ℕ × ObjectKind)) :
    ((L₁ ++ d :: L₂).flatMap WebPDecoder.objects ++ O).Perm
      (d.objects ++ ((L₁ ++ L₂).flatMap WebPDecoder.objects ++ O)) := by
  simp only [List.flatMap_append, List.flatMap_cons, List.append_assoc]
  exact (List.perm_append_comm_assoc _ _ _)

/-! ### The info calls -/

theorem getImageInfo_quiet {hs : Option WebPDecoder} {pii : IDImageInfo} (hbad : (getImageInfo hs pii).1 ≠ .ok) :
    (getImageInfo hs pii).2 = pii := by
  unfold getImageInfo at hbad ⊢
  rcases hs with _ | d
  · rfl
  · by_cases hcount : d.getFrameCount = 0
    · simp only [hcount, if_true]
    · simp only [hcount, if_false] at hbad
      exact absurd rfl hbad

theorem getPageInfo_quiet {hs : Option WebPDecoder} {iPage : ℤ} {ppi : IDPageInfo}
    (hbad : (getPageInfo hs iPage ppi).1 ≠ .ok) : (getPageInfo hs iPage ppi).2 = ppi := by
  unfold getPageInfo at hbad ⊢
  rcases hs with _ | d
  · rfl
  · by_cases hrange : iPage < 0 ∨ d.getFrameCount ≤ iPage
    · simp only [hrange, if_true]
    · simp only [hrange, if_false] at hbad
      exact absurd rfl hbad

/-! ### Sessions -/

/-- What a process owns: the plug-in object, what the open handles own, the DIBs. -/
def Process.owned (p : Process) : List (ℕ × ObjectKind) :=
  p.plugin.toList.map (·, .plugin) ++ (p.handles.flatMap WebPDecoder.objects ++ p.dibs.map (·, .dib))

/-- The demuxer and the decoder that each `OpenImage` that threw has left. -/
def leftBehind (lost : List (ℕ × ℕ)) : List (ℕ × ObjectKind) :=
  lost.flatMap fun (j, i) => [(j, .demuxer), (i, .decoder)]

/-- The objects of one handle among all that are owned. -/
theorem Process.owned_split {p : Process} {L₁ L₂ : List WebPDecoder} {d : WebPDecoder}
    (hL : p.handles = L₁ ++ d :: L₂) (O : List (ℕ × ObjectKind)) :
    (p.owned ++ O).Perm (d.objects ++ ({ p with handles := L₁ ++ L₂ }.owned ++ O)) := by
  have hfirst : p.owned.Perm (d.objects ++ { p with handles := L₁ ++ L₂ }.owned) := by
    rw [Process.owned, hL]
    exact ((objects_split L₁ L₂ d _).append_left _).trans (List.perm_append_comm_assoc _ _ _)
  have := hfirst.append_right O
  rwa [List.append_assoc] at this

/-- A process in a session: the host's book is right, the live objects are what
the process owns and what was left behind, every handle is open. -/
structure Sound (codec : Codec) (b : Book) (p : Process) : Prop where
  handles : p.handles.map WebPDecoder.id = b.handles
  dibs : p.dibs = b.dibs
  ledger : ∃ lost, lost.length = b.thrown ∧ Holds p.heap (p.owned ++ leftBehind lost)
  opened : ∀ d ∈ p.handles, d.Open codec

namespace Sound

variable {codec : Codec} {b : Book} {p : Process}

theorem load : Sound codec ⟨[], [], 0⟩ Process.loaded :=
  ⟨rfl, rfl, ⟨[], rfl, .empty⟩, fun _ hd => (by cases hd)⟩

theorem owned_nodup (h : Sound codec b p) :
    ((p.handles.flatMap WebPDecoder.objects ++ p.dibs.map (·, ObjectKind.dib)).map Prod.fst).Nodup := by
  obtain ⟨lost, -, hl⟩ := h.ledger
  have hn := hl.nodup
  rw [List.map_append, Process.owned, List.map_append] at hn
  exact (List.Nodup.of_append_left hn).of_append_right

theorem handles_nodup (h : Sound codec b p) : (p.handles.map WebPDecoder.id).Nodup := by
  have hn := h.owned_nodup
  rw [List.map_append] at hn
  exact (ids_sublist p.handles).nodup (List.Nodup.of_append_left hn)

theorem dibs_nodup (h : Sound codec b p) : p.dibs.Nodup := by
  have hn := h.owned_nodup
  rw [List.map_append, List.map_map] at hn
  have := List.Nodup.of_append_right hn
  rwa [show (Prod.fst ∘ fun x : ℕ => (x, ObjectKind.dib)) = id from rfl, List.map_id] at this

/-- A handle the host may pass is NULL or the name of an open one. -/
theorem decoderOf (h : Sound codec b p) {hs : Option ℕ} (hv : b.Has hs) :
    (hs = none ∧ p.decoderOf hs = none) ∨ ∃ d ∈ p.handles, hs = some d.id ∧ p.decoderOf hs = some d := by
  cases hs with
  | none => exact .inl ⟨rfl, rfl⟩
  | some i =>
    right
    have hi : i ∈ p.handles.map WebPDecoder.id := h.handles ▸ hv i rfl
    obtain ⟨d, hd, rfl⟩ := List.mem_map.mp hi
    rcases hf : p.handles.find? (·.id = d.id) with _ | e
    · have := List.find?_eq_none.mp hf d hd
      simp at this
    · have he := List.mem_of_find?_eq_some hf
      have hid : e.id = d.id := by simpa using List.find?_some hf
      exact ⟨e, he, by rw [hid], by rw [Process.decoderOf, Option.bind_some, hf]⟩

end Sound

/-- The variables of the host are as it passed them. -/
structure VarsKept (c : Process.HostCall) (a : Process.Answer) : Prop where
  pi : a.pi = c.pi
  phs : a.phs = c.phs
  pio : a.pio = c.pio
  pii : a.pii = c.pii
  ppi : a.ppi = c.ppi

/-- A call after which the host's book is right. It returns unless an allocation
throws, and unless it returns `IDE_OK` nothing the host can see has changed. -/
structure CallSound (codec : Codec) (env : Env) (b : Book) (p : Process) (c : Process.HostCall) (a : Process.Answer) :
    Prop where
  returns : (∃ code, a.code = .returned code) ↔ c.Granted env p
  quiet : a.code ≠ .returned .ok →
    VarsKept c a ∧ (b.after c a).handles = b.handles ∧ (b.after c a).dibs = b.dibs
  sound : Sound codec (b.after c a) a.process

section

variable {env : Env} {b : Book} {p : Process} {c : Process.HostCall} {a : Process.Answer}

/-- A call that asks for nothing that throws. -/
theorem granted_of_quiet (hinit : c ≠ .init) (hdelays : c.delays env p = none) : c.Granted env p :=
  ⟨fun h => absurd h hinit, fun r hr => by rw [hdelays] at hr; cases hr⟩

theorem after_failed {code : IDECode} (hcode : a.code = .returned code) (hbad : code ≠ .ok) : b.after c a = b := by
  have hne : ¬ a.code = .returned .ok := fun h => hbad (by rw [hcode] at h; cases h; rfl)
  have hthrown : ¬ a.code = .badAlloc := fun h => by rw [hcode] at h; cases h
  unfold Book.after
  rw [if_neg hne, if_neg hthrown]

end

namespace Sound

variable {codec : Codec} {env : Env} {b : Book} {p : Process}

/-- A call that fails and leaves the process sound. -/
theorem quiet {c : Process.HostCall} {a : Process.Answer} {code : IDECode} (hcode : a.code = .returned code)
    (hbad : code ≠ .ok) (hvars : VarsKept c a) (hg : c.Granted env p) (hs : Sound codec b a.process) :
    CallSound codec env b p c a := by
  have hafter : b.after c a = b := after_failed hcode hbad
  refine ⟨⟨fun _ => hg, fun _ => ⟨code, hcode⟩⟩, fun _ => ⟨hvars, ?_⟩, ?_⟩
  · rw [hafter]
    exact ⟨rfl, rfl⟩
  · rwa [hafter]

/-- The heap of a process moves on, its objects stay. -/
theorem heap {h' : Heap ObjectKind} (h : Sound codec b p) (hk : ∀ {O}, Holds p.heap O → Holds h' O) :
    Sound codec b { p with heap := h' } := by
  obtain ⟨lost, hlost, hl⟩ := h.ledger
  exact ⟨h.handles, h.dibs, ⟨lost, hlost, hk hl⟩, h.opened⟩

theorem init (h : Sound codec b p) : CallSound codec env b p .init (p.answer codec env .init) := by
  have hdelays : Process.HostCall.DelaysGranted env p .init := fun r hr => by cases hr
  simp only [Process.answer]
  by_cases hp : p.plugin = none
  · rw [if_pos hp]
    rcases ha : p.heap.alloc (env.grants .plugin) .plugin 0 with ⟨_ | id, heap⟩
    · -- `new` throws: the object is not there, and nothing else has happened.
      have hno : ¬ Process.HostCall.Granted env p .init := fun hg => by
        have := hg.1 rfl hp
        rw [Heap.of_alloc_none ha] at this
        cases this
      refine ⟨⟨fun ⟨code, hcode⟩ => (by cases hcode), fun hg => absurd hg hno⟩,
        fun _ => ⟨⟨rfl, rfl, rfl, rfl, rfl⟩, ?_⟩, ?_⟩
      · exact ⟨rfl, rfl⟩
      · exact h.heap fun ho => ho.alloc_none ha
    · refine ⟨⟨fun _ => ⟨fun _ _ => (Heap.of_alloc_some ha).1, hdelays⟩, fun _ => ⟨.ok, rfl⟩⟩,
        fun hbad => absurd rfl hbad, ?_⟩
      obtain ⟨lost, hlost, hl⟩ := h.ledger
      refine ⟨h.handles, h.dibs, ⟨lost, hlost, ?_⟩, h.opened⟩
      have hmade := hl.alloc_some ha
      rw [Process.owned, hp] at hmade
      exact hmade
  · rw [if_neg hp]
    exact ⟨⟨fun _ => ⟨fun _ hno => absurd hno hp, hdelays⟩, fun _ => ⟨.ok, rfl⟩⟩,
      fun hbad => absurd rfl hbad, h⟩

theorem openImage (h : Sound codec b p) (psi : Option IDSourceInfo) (phs : Option (Option ℕ)) :
    CallSound codec env b p (.call (.openImage psi phs)) (p.answer codec env (.call (.openImage psi phs))) := by
  have hmade : Process.HostCall.PlugInGranted env p (.call (.openImage psi phs)) := fun hno => by cases hno
  simp only [Process.answer, Process.call]
  by_cases hp : p.plugin = none
  · rw [if_pos hp]
    refine quiet rfl (by decide) ⟨rfl, rfl, rfl, rfl, rfl⟩ ⟨hmade, fun r hr => ?_⟩ h
    have hnone : Process.HostCall.delays env p (.call (.openImage psi phs)) = none := by
      rcases psi with _ | psi <;> rcases phs with _ | hs <;> try rfl
      exact if_pos (.inl hp)
    rw [hnone] at hr
    cases hr
  · rw [if_neg hp]
    have hcases := openImage_cases codec env p hp psi phs
    generalize WebPlugin.openImage env.grants psi phs p.heap = r at hcases
    obtain ⟨lost, hlost, hl⟩ := h.ledger
    cases hcases with
    | refused code bad returned kept nothing holds granted =>
      refine quiet returned bad ⟨rfl, kept, rfl, rfl, rfl⟩ ⟨hmade, granted⟩ ?_
      rw [nothing]
      exact h.heap holds
    | opened d returned handle made fresh isOpen holds granted =>
      refine ⟨⟨fun _ => ⟨hmade, granted⟩, fun _ => ⟨.ok, returned⟩⟩,
        fun hbad => absurd returned hbad, ?_⟩
      have hafter : ∀ proc, b.after (.call (.openImage psi phs))
          { process := proc, code := r.code, phs := r.phs } = { b with handles := d.id :: b.handles } := fun proc => by
        rw [Book.after, if_pos returned, handle]
        rfl
      rw [hafter, made]
      refine ⟨?_, h.dibs, ⟨lost, hlost, ?_⟩, fun e he => ?_⟩
      · exact congrArg (d.id :: ·) h.handles
      · have hsplit := @Process.owned_split { p with heap := r.heap, handles := d :: p.handles } [] p.handles d rfl
          (leftBehind lost)
        exact (holds hl).perm hsplit.symm
      · rcases List.mem_cons.mp (show e ∈ d :: p.handles from he) with rfl | he
        · exact isOpen
        · exact h.opened e he
    | thrown i j left kept nothing holds refused =>
      -- The decoder and the demuxer stay, and the book counts them.
      have hafter : ∀ proc, b.after (.call (.openImage psi phs))
          { process := proc, code := r.code, phs := r.phs } = { b with thrown := b.thrown + 1 } := fun proc => by
        have hne : ¬ r.code = .returned .ok := fun hok => by rw [left] at hok; cases hok
        rw [Book.after, if_neg hne, if_pos left]
      refine ⟨⟨fun ⟨code, hcode⟩ => ?_, fun hg => absurd hg.2 refused⟩,
        fun _ => ⟨⟨rfl, kept, rfl, rfl, rfl⟩, ?_⟩, ?_⟩
      · rw [left] at hcode
        cases hcode
      · rw [hafter]
        exact ⟨rfl, rfl⟩
      · rw [hafter, nothing]
        refine ⟨h.handles, h.dibs, ⟨(j, i) :: lost, congrArg Nat.succ hlost, ?_⟩, h.opened⟩
        have hmoved : ((j, ObjectKind.demuxer) :: (i, .decoder) :: (p.owned ++ leftBehind lost)).Perm
            (p.owned ++ ([(j, .demuxer), (i, .decoder)] ++ leftBehind lost)) :=
          List.perm_append_comm_assoc [(j, ObjectKind.demuxer), (i, .decoder)] _ _
        exact (holds hl).perm hmoved

theorem closeImage (h : Sound codec b p) {hs : Option ℕ} (hv : b.Has hs) :
    CallSound codec env b p (.call (.closeImage hs)) (p.answer codec env (.call (.closeImage hs))) := by
  have hg : Process.HostCall.Granted env p (.call (.closeImage hs)) := granted_of_quiet (by simp) rfl
  simp only [Process.answer, Process.call]
  by_cases hp : p.plugin = none
  · rw [if_pos hp]
    exact quiet rfl (by decide) ⟨rfl, rfl, rfl, rfl, rfl⟩ hg h
  · rw [if_neg hp]
    refine ⟨⟨fun _ => hg, fun _ => ⟨.ok, rfl⟩⟩, fun hbad => absurd rfl hbad, ?_⟩
    have hhandles : (p.handles.filter fun d => some d.id ≠ hs).map WebPDecoder.id =
        b.handles.filter fun i => some i ≠ hs := by
      rw [← h.handles, List.filter_map]
      rfl
    obtain ⟨lost, hlost, hl⟩ := h.ledger
    refine ⟨hhandles, h.dibs, ⟨lost, hlost, ?_⟩, fun e he => h.opened e (List.mem_of_mem_filter he)⟩
    rcases h.decoderOf hv with ⟨rfl, hnone⟩ | ⟨d, hd, rfl, hsome⟩
    · rw [hnone]
      have hall : (p.handles.filter fun d => some d.id ≠ none) = p.handles := by simp
      rw [hall]
      exact hl
    · rw [hsome]
      obtain ⟨L₁, L₂, hL, -, hfilter⟩ := split_handle h.handles_nodup hd
      rw [hfilter]
      exact holds_delete (hl.perm (Process.owned_split hL _))

/-- A handle after a call on it, in the place of the one before. -/
theorem setHandle (h : Sound codec b p) {d d' : WebPDecoder} (hd : d ∈ p.handles) (hid : d'.id = d.id)
    (hopen : d'.Open codec) {h' : Heap ObjectKind} {D : List ℕ}
    (hk : ∀ {O}, Holds p.heap (d.objects ++ O) → Holds h' (d'.objects ++ (D.map (·, .dib) ++ O))) :
    Sound codec { b with dibs := D ++ b.dibs } { p with
      heap := h'
      handles := p.setHandle d'
      dibs := D ++ p.dibs } := by
  obtain ⟨L₁, L₂, hL, hmap, -⟩ := split_handle h.handles_nodup hd
  have hset : p.setHandle d' = L₁ ++ d' :: L₂ := hmap d' hid
  obtain ⟨lost, hlost, hl⟩ := h.ledger
  refine ⟨?_, ?_, ⟨lost, hlost, ?_⟩, fun e he => ?_⟩
  · rw [hset, ← h.handles, hL, List.map_append, List.map_append, List.map_cons, List.map_cons, hid]
  · rw [h.dibs]
  · have hto := hk (hl.perm (Process.owned_split hL _))
    refine hto.perm (List.Perm.trans ?_ (Process.owned_split (d := d') hset _).symm)
    -- The new DIBs go in front of the others.
    have hdibs : (D.map (·, ObjectKind.dib) ++ { p with handles := L₁ ++ L₂ }.owned).Perm
        ({ p with handles := L₁ ++ L₂, dibs := D ++ p.dibs }.owned) := by
      simp only [Process.owned, List.map_append]
      refine (List.perm_append_comm_assoc _ _ _).trans (List.Perm.append_left _ ?_)
      exact List.perm_append_comm_assoc _ _ _
    have := hdibs.append_right (leftBehind lost)
    rw [List.append_assoc] at this
    exact this.append_left _
  · rw [hset] at he
    have hmem : ∀ e, e ∈ L₁ ∨ e ∈ L₂ → e ∈ p.handles := fun e he => by
      rw [hL]
      exact he.elim (List.mem_append_left _) fun he => List.mem_append_right _ (List.mem_cons_of_mem _ he)
    rcases List.mem_append.mp he with he | he
    · exact h.opened e (hmem e (.inl he))
    · rcases List.mem_cons.mp he with rfl | he
      · exact hopen
      · exact h.opened e (hmem e (.inr he))

theorem pageDecode (h : Sound codec b p) {hs : Option ℕ} {pdp : Option IDDecodeParam} (pio : Option IDImageOut)
    (hv : b.Has hs) (hint : ∀ p ∈ pdp, p.nWidth < 2147483648 ∧ p.nHeight < 2147483648) :
    CallSound codec env b p (.call (.pageDecode hs pdp pio)) (p.answer codec env (.call (.pageDecode hs pdp pio))) := by
  have hg : Process.HostCall.Granted env p (.call (.pageDecode hs pdp pio)) := granted_of_quiet (by simp) rfl
  simp only [Process.answer, Process.call]
  by_cases hp : p.plugin = none
  · rw [if_pos hp]
    exact quiet rfl (by decide) ⟨rfl, rfl, rfl, rfl, rfl⟩ hg h
  · rw [if_neg hp]
    rcases h.decoderOf hv with ⟨rfl, hnone⟩ | ⟨d, hd, rfl, hsome⟩
    · rw [hnone]
      have hnull : WebPlugin.pageDecode codec env none pdp pio p.heap = ⟨.invalidParam, pio, none, p.heap, {}⟩ :=
        rfl
      rw [hnull]
      exact @quiet codec env b p _ _ .invalidParam rfl (by decide) ⟨rfl, rfl, rfl, rfl, rfl⟩ hg h
    · rw [hsome]
      have hcases := pageDecode_cases env pdp pio p.heap (h.opened d hd) hint
      generalize WebPlugin.pageDecode codec env (some d) pdp pio p.heap = r at hcases
      obtain ⟨d', hd', hbare, hopen, hbad, hgood⟩ := hcases.decoder
      have hid : d'.id = d.id := by
        have hbareId := congrArg WebPDecoder.id hbare
        exact hbareId
      by_cases hok : r.code = .ok
      · obtain ⟨block, hblock, hholds⟩ := hgood hok
        refine ⟨⟨fun _ => hg, fun _ => ⟨r.code, rfl⟩⟩, fun hno => absurd (congrArg _ hok) hno, ?_⟩
        have hset := h.setHandle (D := [block.id]) hd hid hopen hholds
        unfold Book.after
        simp only [hok, if_true, hblock, hd', Option.elim_some, Option.map_some]
        exact hset
      · obtain ⟨hpio, hholds⟩ := hbad hok
        refine quiet rfl hok ⟨rfl, rfl, hpio, rfl, rfl⟩ hg ?_
        have hset := h.setHandle (D := []) hd hid hopen hholds
        simp only [hok, if_false, hd', Option.elim_some]
        exact hset

theorem globalFree (h : Sound codec b p) {hdib : ℕ} (hv : hdib ∈ b.dibs) :
    CallSound codec env b p (.globalFree hdib) (p.answer codec env (.globalFree hdib)) := by
  have hg : Process.HostCall.Granted env p (.globalFree hdib) := granted_of_quiet (by simp) rfl
  refine ⟨⟨fun _ => hg, fun _ => ⟨.ok, rfl⟩⟩, fun hbad => absurd rfl hbad, ?_⟩
  obtain ⟨L₁, L₂, hL⟩ := List.mem_iff_append.mp (h.dibs ▸ hv)
  have hn := h.dibs_nodup
  rw [hL] at hn
  have hne : ∀ i ∈ L₁ ++ L₂, i ≠ hdib := by
    intro i hi heq
    rw [heq] at hi
    exact (List.nodup_cons.mp (List.perm_middle.nodup_iff.mp hn)).1 hi
  have hrest : p.dibs.filter (· ≠ hdib) = L₁ ++ L₂ := by
    have hkeep : ∀ L : List ℕ, (∀ i ∈ L, i ≠ hdib) → L.filter (· ≠ hdib) = L := fun L hL =>
      List.filter_eq_self.mpr fun i hi => by simpa using hL i hi
    rw [hL, List.filter_append, List.filter_cons_of_neg (by simp),
      hkeep L₁ fun i hi => hne i (List.mem_append_left _ hi),
      hkeep L₂ fun i hi => hne i (List.mem_append_right _ hi)]
  obtain ⟨lost, hlost, hl⟩ := h.ledger
  refine ⟨h.handles, ?_, ⟨lost, hlost, ?_⟩, h.opened⟩
  · simp only [Book.after, Process.answer, if_true, h.dibs]
  · simp only [Process.answer, hrest]
    refine Holds.release (k := .dib) (hl.perm ?_)
    have hdibs : (p.dibs.map (·, ObjectKind.dib)).Perm ((hdib, .dib) :: (L₁ ++ L₂).map (·, .dib)) := by
      rw [hL, List.map_append, List.map_append, List.map_cons]
      exact List.perm_middle
    have howned : p.owned.Perm ((hdib, .dib) :: { p with dibs := L₁ ++ L₂ }.owned) := by
      unfold Process.owned
      refine ((hdibs.append_left _).append_left _).trans ?_
      exact (List.perm_middle.append_left _).trans List.perm_middle
    exact howned.append_right _

/-- A call that leaves the process alone, and its variables too unless it returns
`IDE_OK`. -/
theorem info {c : Process.HostCall} {a : Process.Answer} (h : Sound codec b p) (hproc : a.process = p)
    (hreturned : ∃ code, a.code = .returned code) (hg : c.Granted env p)
    (hvars : a.code ≠ .returned .ok → VarsKept c a) (hafter : b.after c a = b) : CallSound codec env b p c a := by
  refine ⟨⟨fun _ => hg, fun _ => hreturned⟩, fun hbad => ⟨hvars hbad, ?_⟩, ?_⟩
  · rw [hafter]
    exact ⟨rfl, rfl⟩
  · rwa [hafter, hproc]

theorem getPlugInInfo (h : Sound codec b p) (pi : Option ℕ) :
    CallSound codec env b p (.getPlugInInfo pi) (p.answer codec env (.getPlugInInfo pi)) := by
  have hafter : ∀ a, b.after (.getPlugInInfo pi) a = b := fun a => by simp [Book.after]
  simp only [Process.answer]
  split_ifs
  · exact h.info rfl ⟨_, rfl⟩ (granted_of_quiet (by simp) rfl) (fun _ => ⟨rfl, rfl, rfl, rfl, rfl⟩) (hafter _)
  · exact h.info rfl ⟨_, rfl⟩ (granted_of_quiet (by simp) rfl) (fun hbad => absurd rfl hbad) (hafter _)

theorem showPlugInDialog (h : Sound codec b p) :
    CallSound codec env b p .showPlugInDialog (p.answer codec env .showPlugInDialog) := by
  have hafter : ∀ a, b.after .showPlugInDialog a = b := fun a => by simp [Book.after]
  simp only [Process.answer]
  split_ifs
  all_goals
    exact h.info rfl ⟨_, rfl⟩ (granted_of_quiet (by simp) rfl) (fun _ => ⟨rfl, rfl, rfl, rfl, rfl⟩) (hafter _)

theorem getImageInfo (h : Sound codec b p) (hs : Option ℕ) (pii : IDImageInfo) :
    CallSound codec env b p (.getImageInfo hs pii) (p.answer codec env (.getImageInfo hs pii)) := by
  have hafter : ∀ a, b.after (.getImageInfo hs pii) a = b := fun a => by simp [Book.after]
  have hg : Process.HostCall.Granted env p (.getImageInfo hs pii) := granted_of_quiet (by simp) rfl
  simp only [Process.answer]
  split_ifs
  · exact h.info rfl ⟨_, rfl⟩ hg (fun _ => ⟨rfl, rfl, rfl, rfl, rfl⟩) (hafter _)
  · refine h.info rfl ⟨_, rfl⟩ hg (fun hbad => ⟨rfl, rfl, rfl, ?_, rfl⟩) (hafter _)
    exact congrArg some (getImageInfo_quiet fun hok => hbad (congrArg _ hok))

theorem getPageInfo (h : Sound codec b p) (hs : Option ℕ) (iPage : ℤ) (ppi : IDPageInfo) :
    CallSound codec env b p (.getPageInfo hs iPage ppi) (p.answer codec env (.getPageInfo hs iPage ppi)) := by
  have hafter : ∀ a, b.after (.getPageInfo hs iPage ppi) a = b := fun a => by simp [Book.after]
  have hg : Process.HostCall.Granted env p (.getPageInfo hs iPage ppi) := granted_of_quiet (by simp) rfl
  simp only [Process.answer]
  split_ifs
  · exact h.info rfl ⟨_, rfl⟩ hg (fun _ => ⟨rfl, rfl, rfl, rfl, rfl⟩) (hafter _)
  · refine h.info rfl ⟨_, rfl⟩ hg (fun hbad => ⟨rfl, rfl, rfl, rfl, ?_⟩) (hafter _)
    exact congrArg some (getPageInfo_quiet fun hok => hbad (congrArg _ hok))

/-- What one call of the host preserves. -/
theorem step (h : Sound codec b p) {c : Process.HostCall} (hv : b.Valid c) :
    CallSound codec env b p c (p.answer codec env c) := by
  cases c with
  | init => exact h.init
  | getPlugInInfo pi => exact h.getPlugInInfo pi
  | showPlugInDialog => exact h.showPlugInDialog
  | call c =>
    cases c with
    | openImage psi phs => exact h.openImage psi phs
    | pageDecode hs pdp pio => exact h.pageDecode pio hv.1 hv.2
    | closeImage hs => exact h.closeImage hv
  | getImageInfo hs pii => exact h.getImageInfo hs pii
  | getPageInfo hs iPage ppi => exact h.getPageInfo hs iPage ppi
  | globalFree hdib => exact h.globalFree hv

end Sound

/-- What every session preserves. -/
theorem Session.sound {codec : Codec} {b : Book} {p : Process} (h : Session codec b p) : Sound codec b p := by
  induction h with
  | load => exact .load
  | step run env c valid ih => exact (ih.step valid).sound

section

variable {codec : Codec} {b : Book} {p : Process}

/-- The live objects are the plug-in, those of the open handles, the DIBs not
released and two for each file whose `OpenImage` threw. When the host has given
everything back and nothing threw, unloading the library leaves nothing. -/
theorem session_balanced (h : Session codec b p) :
    (p.handles.map WebPDecoder.id = b.handles ∧ p.dibs = b.dibs) ∧
      (∃ lost, lost.length = b.thrown ∧ Holds p.heap (p.owned ++ leftBehind lost)) ∧
      (b.handles = [] → b.dibs = [] → b.thrown = 0 → p.detach.heap.live = []) := by
  have hs := h.sound
  refine ⟨⟨hs.handles, hs.dibs⟩, hs.ledger, fun hhandles hdibs hthrown => ?_⟩
  have hnone : p.handles = [] := List.map_eq_nil_iff.mp (hs.handles.trans hhandles)
  obtain ⟨lost, hlost, hl⟩ := hs.ledger
  obtain rfl : lost = [] := List.length_eq_zero_iff.mp (hlost.trans hthrown)
  rw [Process.owned, hnone, hs.dibs, hdibs, List.append_assoc] at hl
  obtain ⟨L, howns, hL⟩ := hl.release?
  obtain rfl : L = [] := List.map_eq_nil_iff.mp hL.eq_nil
  exact howns.live.eq_nil

theorem Session.ready : Session codec ⟨[], [], 0⟩ Process.init := .step .load .fine .init trivial

/-- A call, with the book it leads to. -/
theorem Session.next {b' : Book} (h : Session codec b p) {env : Env} {c : Process.HostCall} (valid : b.Valid c)
    (hbook : b.after c (p.answer codec env c) = b') : Session codec b' (p.answer codec env c).process :=
  hbook ▸ h.step env c valid

/-- No memory where `new` throws. -/
def Env.thrifty : Env := { Env.fine with grants := fun k _ _ => k ≠ .plugin ∧ k ≠ .frameDelays }

/-- A host has opened an animation. -/
def badgeProcess : Process := (Process.init.answer .black .fine (opening badge)).process

theorem badge_session : Session .black ⟨[1], [], 0⟩ badgeProcess :=
  Session.ready.next trivial (by decide +kernel)

/-- A request for a page, at its own size. -/
theorem badge_request {D : List ℕ} {n : ℕ} {k : ℤ} : Book.Valid ⟨[1], D, n⟩ (pageCall 1 ⟨k, 0, 0⟩ {}) :=
  Book.valid_page List.mem_cons_self ⟨by norm_num, by norm_num⟩

/-- It has been given the first page. -/
def badgeShown : Process := (badgeProcess.answer .black .fine (pageCall 1 ⟨0, 0, 0⟩ {})).process

theorem badge_shown : Session .black ⟨[1], [4], 0⟩ badgeShown :=
  badge_session.next badge_request (by decide +kernel)

/-- With a handle and a DIB out, and one more file that could not be opened; and
after both are given back. -/
theorem badge_balanced :
    (∃ p : Process, (p.handles.map WebPDecoder.id = [1] ∧ p.dibs = [4]) ∧
      ∃ lost, lost.length = 1 ∧ Holds p.heap (p.owned ++ leftBehind lost)) ∧
    ((badgeShown.answer .black .fine (.call (.closeImage (some 1)))).process.answer .black .fine
      (.globalFree 4)).process.detach.heap.live = [] := by
  have hthrown : Session .black ⟨[1], [4], 1⟩ (badgeShown.answer .black .thrifty (opening badge)).process :=
    badge_shown.next trivial (by decide +kernel)
  have hclosed : Session .black ⟨[], [4], 0⟩
      (badgeShown.answer .black .fine (.call (.closeImage (some 1)))).process :=
    badge_shown.next (fun i hi => Option.some.inj hi ▸ List.mem_cons_self) (by decide +kernel)
  have hfreed : Session .black ⟨[], [], 0⟩ ((badgeShown.answer .black .fine
      (.call (.closeImage (some 1)))).process.answer .black .fine (.globalFree 4)).process :=
    hclosed.next List.mem_cons_self (by decide +kernel)
  refine ⟨⟨_, (session_balanced hthrown).1, (session_balanced hthrown).2.1⟩, ?_⟩
  exact (session_balanced hfreed).2.2 rfl rfl rfl

/-- A call returns unless the plug-in object or the delays are refused, and one
that does not return `IDE_OK` leaves the host's variables, the handles and the
DIBs alone. -/
theorem session_errors_quiet (h : Session codec b p) {env : Env} {c : Process.HostCall} (hv : b.Valid c) :
    ((∃ code, (p.answer codec env c).code = .returned code) ↔ c.Granted env p) ∧
      ((p.answer codec env c).code ≠ .returned .ok → VarsKept c (p.answer codec env c) ∧
        (p.answer codec env c).process.handles.map WebPDecoder.id = p.handles.map WebPDecoder.id ∧
        (p.answer codec env c).process.dibs = p.dibs) := by
  have hs := h.sound
  have hstep : CallSound codec env b p c (p.answer codec env c) := hs.step hv
  refine ⟨hstep.returns, fun hbad => ?_⟩
  obtain ⟨hvars, hhandles, hdibs⟩ := hstep.quiet hbad
  refine ⟨hvars, ?_, ?_⟩
  · rw [hstep.sound.handles, hhandles, hs.handles]
  · rw [hstep.sound.dibs, hdibs, hs.dibs]

theorem badge_refused : ¬ (opening badge).DelaysGranted .thrifty badgeShown := by
  have hrequest : ((opening badge).delays .thrifty badgeShown).isSome := by decide +kernel
  obtain ⟨r, hr⟩ := Option.isSome_iff_exists.mp hrequest
  exact fun hg => absurd (hg r hr) (by simp [Env.thrifty])

/-- A second file opens, or throws and leaves all as it was; `IDP_Init` throws. -/
theorem badge_returns :
    (∃ code, (badgeShown.answer .black .fine (opening badge)).code = .returned code) ∧
    (¬ ∃ code, (badgeShown.answer .black .thrifty (opening badge)).code = .returned code) ∧
    ((badgeShown.answer .black .thrifty (opening badge)).phs = some none ∧
      (badgeShown.answer .black .thrifty (opening badge)).process.handles.map WebPDecoder.id =
        badgeShown.handles.map WebPDecoder.id ∧
      (badgeShown.answer .black .thrifty (opening badge)).process.dibs = badgeShown.dibs) ∧
    ¬ ∃ code, (Process.loaded.answer .black .thrifty .init).code = .returned code := by
  have hfine := @session_errors_quiet .black _ _ badge_shown .fine (opening badge) trivial
  have hthrown := @session_errors_quiet .black _ _ badge_shown .thrifty (opening badge) trivial
  have hinit := @session_errors_quiet .black _ _ .load .thrifty .init trivial
  have hno := fun hreturned => badge_refused (hthrown.1.mp hreturned).2
  obtain ⟨hvars, hhandles, hdibs⟩ := hthrown.2 fun hok => hno ⟨_, hok⟩
  refine ⟨hfine.1.mpr ⟨fun hc => (by cases hc), fun _ _ => rfl⟩, hno, ⟨hvars.phs, hhandles, hdibs⟩,
    fun hreturned => ?_⟩
  exact absurd ((hinit.1.mp hreturned).1 rfl rfl) (by decide)

/-- When the delays are refused, the exception leaves the decoder and the
demuxer behind: live, and owned by nobody. -/
theorem session_leak (h : Session codec b p) {env : Env} {c : Process.HostCall} (hg : ¬ c.DelaysGranted env p) :
    ((p.answer codec env c).process.handles = p.handles ∧ (p.answer codec env c).process.dibs = p.dibs) ∧
      ∃ i j lost, lost.length = b.thrown ∧ Holds (p.answer codec env c).process.heap
        ((j, .demuxer) :: (i, .decoder) :: (p.owned ++ leftBehind lost)) := by
  obtain ⟨psi, phs, i, j, heap, rfl, hanswer, hholds⟩ := answer_of_refused codec hg
  obtain ⟨lost, hlost, hl⟩ := h.sound.ledger
  rw [hanswer]
  exact ⟨⟨rfl, rfl⟩, i, j, lost, hlost, hholds hl⟩

/-- With a handle and a DIB out. -/
theorem badge_leaks : badgeShown.handles.map WebPDecoder.id = [1] ∧ badgeShown.dibs = [4] ∧
    (badgeShown.answer .black .thrifty (opening badge)).process.handles = badgeShown.handles ∧
    (badgeShown.answer .black .thrifty (opening badge)).process.dibs = badgeShown.dibs ∧
    ∃ i j, Holds (badgeShown.answer .black .thrifty (opening badge)).process.heap
      ((j, .demuxer) :: (i, .decoder) :: badgeShown.owned) := by
  obtain ⟨⟨hhandles, hdibs⟩, i, j, lost, hlost, hl⟩ := session_leak badge_shown badge_refused
  obtain rfl : lost = [] := List.length_eq_zero_iff.mp hlost
  refine ⟨badge_shown.sound.handles, badge_shown.sound.dibs, hhandles, hdibs, i, j, ?_⟩
  simpa [leftBehind] using hl

end

/-! ### Runs that are never refused the delays -/

/-- A session in which every vector of frame delays asked for is granted. Any
other request may be refused. -/
inductive Spared (codec : Codec) : Book → Process → Prop
  | load : Spared codec ⟨[], [], 0⟩ Process.loaded
  | step {b : Book} {p : Process} (run : Spared codec b p) (env : Env) (c : Process.HostCall) (valid : b.Valid c)
      (granted : c.DelaysGranted env p) :
      Spared codec (b.after c (p.answer codec env c)) (p.answer codec env c).process

/-- What one of the three calls that make and release objects keeps to: it
returns, it changes `*phs` and `*pio` only with `IDE_OK`, and it leaves live what
belongs to the plug-in, to the handles not closed and to the host. -/
structure Balanced (b : Book) (c : Process.Call) (a : Process.Answer) : Prop where
  returns : ∃ code, a.code = .returned code
  quiet : a.code ≠ .returned .ok → a.phs = Process.HostCall.phs (.call c) ∧ a.pio = Process.HostCall.pio (.call c)
  handles : a.process.handles.map WebPDecoder.id = (b.after (.call c) a).handles
  dibs : a.process.dibs = (b.after (.call c) a).dibs
  live : Holds a.process.heap a.process.owned

section

variable {codec : Codec} {env : Env} {b : Book} {p : Process}

/-- Only an `OpenImage` that throws is noted. -/
theorem Book.after_thrown {c : Process.HostCall} {a : Process.Answer}
    (h : ∀ psi phs, c = .call (.openImage psi phs) → a.code ≠ .badAlloc) : (b.after c a).thrown = b.thrown := by
  unfold Book.after
  split_ifs with hok hbad
  · split <;> rfl
  · split
    · exact absurd hbad (h _ _ rfl)
    · rfl
  · rfl

theorem Spared.session (h : Spared codec b p) : Session codec b p := by
  induction h with
  | load => exact .load
  | step run env c valid granted ih => exact ih.step env c valid

theorem Spared.next {b' : Book} (h : Spared codec b p) {c : Process.HostCall} (valid : b.Valid c)
    (granted : c.DelaysGranted env p) (hbook : b.after c (p.answer codec env c) = b') :
    Spared codec b' (p.answer codec env c).process :=
  hbook ▸ h.step env c valid granted

theorem Spared.ready : Spared codec ⟨[], [], 0⟩ Process.init :=
  .step .load .fine .init trivial fun _ _ => rfl

/-- Such a call returns. -/
theorem Spared.returns (h : Spared codec b p) {c : Process.Call} (hv : b.Valid (.call c)) :
    (∃ code, (p.answer codec env (.call c)).code = .returned code) ↔
      Process.HostCall.DelaysGranted env p (.call c) := by
  refine (h.session.sound.step hv).returns.trans ⟨fun hg => hg.2, fun hd => ⟨fun hno => ?_, hd⟩⟩
  cases hno

theorem Spared.thrown (h : Spared codec b p) : b.thrown = 0 := by
  induction h with
  | load => rfl
  | @step b p run env c valid granted ih =>
    rw [Book.after_thrown fun psi phs hc hbad => ?_, ih]
    subst hc
    obtain ⟨code, hcode⟩ := (run.returns valid).mpr granted
    rw [hbad] at hcode
    cases hcode

/-- **Nothing leaks** along a run that is never refused the delays, and the next
call keeps to that exactly when it is not refused them either. -/
theorem calls_balanced_iff (h : Spared codec b p) {c : Process.Call} (hv : b.Valid (.call c)) :
    Balanced b c (p.answer codec env (.call c)) ↔ Process.HostCall.DelaysGranted env p (.call c) := by
  refine ⟨fun hb => (h.returns hv).mp hb.returns, fun hg => ?_⟩
  have hcall : CallSound codec env b p (.call c) (p.answer codec env (.call c)) := h.session.sound.step hv
  obtain ⟨lost, hlost, hl⟩ := hcall.sound.ledger
  have hnone : lost = [] := by
    rw [(h.step env (.call c) hv hg).thrown] at hlost
    exact List.length_eq_zero_iff.mp hlost
  refine ⟨(h.returns hv).mpr hg, fun hbad => ?_, hcall.sound.handles, hcall.sound.dibs, ?_⟩
  · exact ⟨(hcall.quiet hbad).1.phs, (hcall.quiet hbad).1.pio⟩
  · rw [hnone] at hl
    simpa [leftBehind] using hl

end

/-- With a handle and a DIB out, a page that cannot be decoded and a file that
cannot be opened. -/
theorem badge_calls_balanced :
    Balanced ⟨[1], [4], 0⟩ (.pageDecode (some 1) (some ⟨1, 0, 0⟩) (some {}))
      (badgeShown.answer .black .broken (pageCall 1 ⟨1, 0, 0⟩ {})) ∧
    ¬ Balanced ⟨[1], [4], 0⟩ (.openImage (some { buf := badge }) (some none))
      (badgeShown.answer .black .thrifty (opening badge)) := by
  have hopened : Spared .black ⟨[1], [], 0⟩ badgeProcess :=
    Spared.ready.next trivial (fun _ _ => rfl) (by decide +kernel)
  have hshown : Spared .black ⟨[1], [4], 0⟩ badgeShown :=
    hopened.next badge_request (fun _ _ => rfl) (by decide +kernel)
  have hthrows :=
    @calls_balanced_iff .black .thrifty _ _ hshown (.openImage (some { buf := badge }) (some none)) trivial
  exact ⟨(calls_balanced_iff hshown badge_request).mpr fun _ hr => (by cases hr),
    fun hb => badge_refused (hthrows.mp hb)⟩

/-- The first file a host opens: the call does not return, and the decoder and
the demuxer stay behind. -/
theorem badge_open_throws : Spared .black ⟨[], [], 0⟩ Process.init ∧
    ¬ Balanced ⟨[], [], 0⟩ (.openImage (some { buf := badge }) (some none))
      (Process.init.answer .black .thrifty (opening badge)) ∧
    (Process.init.answer .black .thrifty (opening badge)).process.heap.live.map Block.kind =
      [.demuxer, .decoder, .plugin] := by
  have hcode : (Process.init.answer .black .thrifty (opening badge)).code = .badAlloc := by decide +kernel
  refine ⟨.ready, fun hb => ?_, by decide +kernel⟩
  obtain ⟨code, hreturned⟩ := hb.returns
  cases hcode.symm.trans hreturned

end WebPlugin
