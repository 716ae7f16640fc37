/-
# What the demuxer accepts

The facts about an accepted animation that the decoder behind it rests on:
the canvas (`Accepted.canvas`), the frames, each complete and inside the canvas
(`Accepted.frame`), and their numbers `1, …, n` (`Accepted.numbered`). They are
read off the final checks, or kept by the two parsing loops: `FrameStore.Inv`
is the invariant of the chunks of one frame, `AnimInv` that of the chunks of
the file.
-/
import WebPlugin.Demux

namespace WebPlugin

/-! ### The chunks of one frame -/

/-- A chunk of this tag lies at `c`, header and padded payload. -/
structure ChunkAt (buf : ℕ → UInt8) (tag : ℕ) (c : ChunkData) : Prop where
  tag : getLE32 buf c.offset = tag
  small : getLE32 buf (c.offset + 4) ≤ maxChunkPayload
  size : c.size =
    chunkHeaderSize + (getLE32 buf (c.offset + 4) + (getLE32 buf (c.offset + 4) &&& 1))

theorem ChunkAt.size_pos {buf : ℕ → UInt8} {tag : ℕ} {c : ChunkData} (h : ChunkAt buf tag c) :
    8 ≤ c.size := by
  rw [h.size]
  exact Nat.le_add_right _ _

/-- The image chunk of a frame, whose size is the frame's. -/
structure ImageStored (buf : ℕ → UInt8) (f : Frame) : Prop where
  chunk : ChunkAt buf tagVP8 f.image ∨ ChunkAt buf tagVP8L f.image
  features : ∃ g, webPGetFeatures ⟨fun i => buf (f.image.offset + i), f.image.size⟩ = (.ok, g) ∧
    f.width = g.width ∧ f.height = g.height

/-- A frame as the loop of `StoreFrame` has built it from the chunks before
`start`. -/
structure FrameInv (n : ℤ) (buf : ℕ → UInt8) (start : ℕ) (f : Frame) (alphaChunks imageChunks : ℕ) :
    Prop where
  image : 0 < imageChunks → ImageStored buf f ∧ f.image.offset + f.image.size ≤ start
  noImage : imageChunks = 0 → f.image = {} ∧ f.complete = false
  alpha : 0 < alphaChunks → ChunkAt buf tagALPH f.alpha
  noAlpha : alphaChunks = 0 → f.alpha = {}
  next : 0 < alphaChunks → imageChunks = 0 → start = f.alpha.offset + f.alpha.size
  both : 0 < alphaChunks → 0 < imageChunks → f.image.offset = f.alpha.offset + f.alpha.size ∨
    f.image.offset < f.alpha.offset
  num : (f.frameNum = 0 ∧ alphaChunks = 0 ∧ imageChunks = 0) ∨ f.frameNum = n

/-- The invariant of the loop of `StoreFrame`. -/
def FrameStore.Inv (n : ℤ) (s : FrameStore) : Prop :=
  FrameInv n s.mem.buf s.mem.start s.frame s.alphaChunks s.imageChunks

theorem FrameInv.storeAlpha {n : ℤ} {buf : ℕ → UInt8} {start size i : ℕ} {f : Frame}
    (h : FrameInv n buf start f 0 i) (hc : ChunkAt buf tagALPH ⟨start, size⟩) :
    FrameInv n buf (start + size)
      { f with alpha := ⟨start, size⟩, hasAlpha := true, frameNum := n } 1 i where
  image hi := ⟨⟨(h.image hi).1.chunk, (h.image hi).1.features⟩, (h.image hi).2.trans (by omega)⟩
  noImage := h.noImage
  alpha _ := hc
  noAlpha h1 := absurd h1 one_ne_zero
  next _ _ := rfl
  both _ hi := by
    have h8 : 8 ≤ f.image.size := (h.image hi).1.chunk.elim ChunkAt.size_pos ChunkAt.size_pos
    have := (h.image hi).2
    exact .inr (by dsimp only; omega)
  num := .inr rfl

theorem FrameInv.storeImage {n : ℤ} {buf : ℕ → UInt8} {start size a : ℕ} {f : Frame}
    {g : WebPBitstreamFeatures} (h : FrameInv n buf start f a 0)
    (hc : ChunkAt buf tagVP8 ⟨start, size⟩ ∨ ChunkAt buf tagVP8L ⟨start, size⟩)
    (hg : webPGetFeatures ⟨fun i => buf (start + i), size⟩ = (.ok, g)) :
    FrameInv n buf (start + size) (setFrameInfo start size n true g f) a 1 where
  image _ := ⟨⟨hc, g, hg, rfl, rfl⟩, le_rfl⟩
  noImage h1 := absurd h1 one_ne_zero
  alpha := h.alpha
  noAlpha := h.noAlpha
  next _ h1 := absurd h1 one_ne_zero
  both ha _ := .inl (h.next ha rfl)
  num := .inr rfl

/-- The fields of a frame that come from its ANMF header. -/
def Frame.SameHeader (f g : Frame) : Prop :=
  f.xOffset = g.xOffset ∧ f.yOffset = g.yOffset ∧ f.duration = g.duration ∧
    f.disposeMethod = g.disposeMethod ∧ f.blendMethod = g.blendMethod

/-- Only the frame, the counts and the read position change. -/
def FrameStore.Kept (s t : FrameStore) : Prop :=
  t.mem.buf = s.mem.buf ∧ t.mem.endPos = s.mem.endPos ∧ t.mem.riffEnd = s.mem.riffEnd ∧
    t.frame.SameHeader s.frame

theorem FrameStore.Kept.refl (s : FrameStore) : s.Kept s := ⟨rfl, rfl, rfl, rfl, rfl, rfl, rfl, rfl⟩

theorem FrameStore.Kept.trans {s t u : FrameStore} (h : s.Kept t) (h' : t.Kept u) : s.Kept u := by
  obtain ⟨a1, a2, a3, a4, a5, a6, a7, a8⟩ := h
  obtain ⟨b1, b2, b3, b4, b5, b6, b7, b8⟩ := h'
  exact ⟨b1.trans a1, b2.trans a2, b3.trans a3, b4.trans a4, b5.trans a5, b6.trans a6,
    b7.trans a7, b8.trans a8⟩

section

variable {n : ℤ} {s t : FrameStore}

/-- The padded payload of the chunk at the read position. -/
def padded (buf : ℕ → UInt8) (start : ℕ) : ℕ :=
  getLE32 buf (start + 4) + (getLE32 buf (start + 4) &&& 1)

/-- What the switch does with a whole chunk at the read position. -/
def storeWhole (n : ℤ) (s : FrameStore) : Stored :=
  storeChunk n .ok (getLE32 s.mem.buf s.mem.start) s.mem.start (padded s.mem.buf s.mem.start)
    { s with mem := s.mem.skip chunkHeaderSize }

theorem storeWhole_next (hi : s.Inv n)
    (hsmall : getLE32 s.mem.buf (s.mem.start + 4) ≤ maxChunkPayload)
    (h : storeWhole n s = .next t) : t.Inv n ∧ s.Kept t ∧ s.mem.start + 8 ≤ t.mem.start := by
  unfold storeWhole storeChunk at h
  have hadd : s.mem.start + chunkHeaderSize + padded s.mem.buf s.mem.start =
      s.mem.start + (chunkHeaderSize + padded s.mem.buf s.mem.start) := Nat.add_assoc _ _ _
  have hpast : s.mem.start + 8 ≤ s.mem.start + chunkHeaderSize + padded s.mem.buf s.mem.start :=
    Nat.le_add_right _ _
  rcases hv : webPGetFeatures ((s.mem.skip chunkHeaderSize).sub s.mem.start
    (chunkHeaderSize + padded s.mem.buf s.mem.start)) with ⟨vp8Status, g⟩
  simp only [hv] at h
  split_ifs at h with halph h0 hl himg h1 hm hok
  · cases h
    have ha : FrameInv n s.mem.buf s.mem.start s.frame 0 s.imageChunks := by
      rw [← h0]
      exact hi
    refine ⟨?_, ⟨rfl, rfl, rfl, rfl, rfl, rfl, rfl, rfl⟩, hpast⟩
    have hc : ChunkAt s.mem.buf tagALPH
        ⟨s.mem.start, chunkHeaderSize + padded s.mem.buf s.mem.start⟩ := ⟨halph, hsmall, rfl⟩
    have := ha.storeAlpha hc
    simpa only [FrameStore.Inv, MemBuffer.skip, hadd] using this
  · cases h
    have ha : FrameInv n s.mem.buf s.mem.start s.frame s.alphaChunks 0 := by
      rw [← h1]
      exact hi
    have hc : ∀ tag, getLE32 s.mem.buf s.mem.start = tag → ChunkAt s.mem.buf tag
        ⟨s.mem.start, chunkHeaderSize + padded s.mem.buf s.mem.start⟩ :=
      fun tag htag => ⟨htag, hsmall, rfl⟩
    rw [not_not.mp hok] at hv
    refine ⟨?_, ⟨rfl, rfl, rfl, rfl, rfl, rfl, rfl, rfl⟩, hpast⟩
    have := ha.storeImage (himg.symm.imp (hc _) (hc _)) hv
    simpa only [FrameStore.Inv, MemBuffer.skip, hadd, decide_true] using this

/-- A chunk the frame does not take is left where it is. -/
theorem storeWhole_done (h : storeWhole n s = .done t) : t = s := by
  unfold storeWhole storeChunk at h
  dsimp only at h
  split_ifs at h <;> cases h <;> simp [MemBuffer.skip, MemBuffer.rewind]

theorem storeChunk_ret {st status : ParseStatus} {fourcc start size : ℕ}
    (h : storeChunk n st fourcc start size s = .ret status) : status ≠ .ok := by
  unfold storeChunk at h
  dsimp only at h
  split_ifs at h <;> cases h <;> decide

/-- A turn of the loop that comes to a good end: the chunk is whole, and it was
left, or stored as the last one, or stored with more to come. -/
theorem storeFrameLoop_turn {fuel : ℕ} (h : storeFrameLoop n (fuel + 1) s = (.ok, t)) :
    getLE32 s.mem.buf (s.mem.start + 4) ≤ maxChunkPayload ∧
      (storeWhole n s = .done t ∨ storeWhole n s = .next t ∨
        ∃ u, storeWhole n s = .next u ∧ storeFrameLoop n fuel u = (.ok, t)) := by
  rw [storeFrameLoop] at h
  dsimp only at h
  split_ifs at h with hsmall hinv hmore
  · cases h
  · cases h
  · -- The chunk is cut short: whatever is stored, more data is needed.
    simp only [ite_self] at h
    split at h
    · rename_i hs
      exact absurd (Prod.mk.inj h).1 (storeChunk_ret hs)
    all_goals simp at h
  · rw [min_eq_left (not_lt.mp hmore)] at h
    refine ⟨not_lt.mp hsmall, ?_⟩
    split at h <;> rename_i hs
    · exact absurd (Prod.mk.inj h).1 (storeChunk_ret hs)
    · split_ifs at h <;> first
        | exact .inr (.inr ⟨_, hs, h⟩)
        | exact .inr (.inl (hs.trans (congrArg _ (Prod.mk.inj h).2)))
    · simp only [true_or, if_true] at h
      exact .inl (hs.trans (congrArg _ (Prod.mk.inj h).2))

/-- The loop of `StoreFrame` keeps its invariant. -/
theorem storeFrameLoop_ok : ∀ {fuel : ℕ} {s : FrameStore}, s.Inv n →
    storeFrameLoop n fuel s = (.ok, t) → t.Inv n ∧ s.Kept t ∧ s.mem.start ≤ t.mem.start
  | 0, _, _, h => by cases h
  | fuel + 1, s, hi, h => by
    obtain ⟨hsmall, hd | hn | ⟨u, hn, hl⟩⟩ := storeFrameLoop_turn h
    · rw [storeWhole_done hd]
      exact ⟨hi, .refl s, le_rfl⟩
    · obtain ⟨h1, h2, h3⟩ := storeWhole_next hi hsmall hn
      exact ⟨h1, h2, by omega⟩
    · obtain ⟨h1, h2, h3⟩ := storeWhole_next hi hsmall hn
      obtain ⟨k1, k2, k3⟩ := storeFrameLoop_ok h1 hl
      exact ⟨k1, h2.trans k2, by omega⟩

theorem storeFrame_ok {minSize : ℕ} {mem mem' : MemBuffer} {f g : Frame}
    (hi : FrameInv n mem.buf mem.start f 0 0) (h : storeFrame n minSize mem f = (.ok, mem', g)) :
    (∃ a i, FrameInv n mem'.buf mem'.start g a i) ∧ mem'.buf = mem.buf ∧ g.SameHeader f := by
  unfold storeFrame at h
  split_ifs at h
  · cases h
  · rcases hl : storeFrameLoop n (mem.dataSize + 1) { mem := mem, frame := f } with ⟨status, t⟩
    simp only [hl, Prod.mk.injEq] at h
    obtain ⟨rfl, rfl, rfl⟩ := h
    have hi : FrameStore.Inv n { mem := mem, frame := f } := hi
    obtain ⟨h1, h2, -⟩ := storeFrameLoop_ok hi hl
    exact ⟨⟨_, _, h1⟩, h2.1, h2.2.2.2⟩

end

/-! ### The chunks of the file -/

/-- A frame as `ParseAnimationFrame` adds it. -/
structure FrameFacts (buf : ℕ → UInt8) (n : ℤ) (f : Frame) : Prop where
  x : 0 ≤ f.xOffset
  y : 0 ≤ f.yOffset
  duration : 0 ≤ f.duration ∧ f.duration < 2 ^ 24
  num : f.frameNum = n
  stored : ∃ start a i, FrameInv n buf start f a i

/-- The frames of an animation read so far. -/
structure FramesFacts (d : WebPDemuxer) : Prop where
  count : d.numFrames = d.frames.length
  frames : ∀ i (hi : i < d.frames.length), FrameFacts d.mem.buf (i + 1) d.frames[i]

/-- What stays the same while the chunks of a VP8X file are read, and, for an
animation, what the frames read so far are. -/
structure AnimInv (d₀ d : WebPDemuxer) : Prop where
  flags : d.featureFlags = d₀.featureFlags
  width : d.canvasWidth = d₀.canvasWidth
  height : d.canvasHeight = d₀.canvasHeight
  ext : d.isExtFormat = true
  buf : d.mem.buf = d₀.mem.buf
  frames : hasFlag d.featureFlags animationFlag → FramesFacts d

section

variable {d₀ d d' : WebPDemuxer}

theorem AnimInv.withMem (h : AnimInv d₀ d) {mem : MemBuffer} (hb : mem.buf = d.mem.buf) :
    AnimInv d₀ { d with mem := mem } where
  flags := h.flags
  width := h.width
  height := h.height
  ext := h.ext
  buf := hb.trans h.buf
  frames ha := ⟨(h.frames ha).count, fun i hi => hb ▸ (h.frames ha).frames i hi⟩

/-- No frame has been read yet. -/
theorem AnimInv.refl (hext : d.isExtFormat = true) (hn : d.numFrames = 0) (hf : d.frames = []) :
    AnimInv d d :=
  ⟨rfl, rfl, rfl, hext, rfl, fun _ => ⟨by simp [hn, hf], fun i hi => by simp [hf] at hi⟩⟩

theorem FramesFacts.addFrame (h : FramesFacts d) {f : Frame}
    (hf : FrameFacts d.mem.buf (d.numFrames + 1) f) :
    FramesFacts { d.addFrame f with numFrames := d.numFrames + 1 } where
  count := by simp [WebPDemuxer.addFrame, h.count]
  frames i hi := by
    simp only [WebPDemuxer.addFrame, List.length_append, List.length_singleton] at hi ⊢
    by_cases hlt : i < d.frames.length
    · rw [List.getElem_append_left hlt]
      exact h.frames i hlt
    · have he : i = d.frames.length := by omega
      subst he
      rw [List.getElem_append_right le_rfl]
      simpa [h.count] using hf

theorem AnimInv.addFrame (h : AnimInv d₀ d) {f : Frame}
    (hf : FrameFacts d.mem.buf (d.numFrames + 1) f) :
    AnimInv d₀ { d.addFrame f with numFrames := d.numFrames + 1 } :=
  ⟨h.flags, h.width, h.height, h.ext, h.buf, fun ha => (h.frames ha).addFrame hf⟩

/-- The zeroed frame, with or without an ANMF header, before its first chunk. -/
theorem FrameInv.init (n : ℤ) (buf : ℕ → UInt8) (start : ℕ) {f : Frame} (hf : f.frameNum = 0)
    (hc : f.complete = false) (hi : f.image = {}) (ha : f.alpha = {}) :
    FrameInv n buf start f 0 0 :=
  ⟨fun h => absurd h (lt_irrefl 0), fun _ => ⟨hi, hc⟩, fun h => absurd h (lt_irrefl 0), fun _ => ha,
    fun h => absurd h (lt_irrefl 0), fun h => absurd h (lt_irrefl 0), .inl ⟨hf, rfl, rfl⟩⟩

theorem readAnmf_facts (mem : MemBuffer) {f : Frame} (h : f.SameHeader (readAnmf mem)) :
    0 ≤ f.xOffset ∧ 0 ≤ f.yOffset ∧ 0 ≤ f.duration ∧ f.duration < 2 ^ 24 := by
  obtain ⟨h1, h2, h3, -⟩ := h
  rw [h1, h2, h3]
  have := getLE24_lt mem.buf (mem.start + 12)
  simp only [readAnmf]
  omega

theorem parseAnimationFrame_ok {size : ℕ} (hi : AnimInv d₀ d)
    (h : parseAnimationFrame d size = (.ok, d')) : AnimInv d₀ d' := by
  rcases hs : storeFrame (d.numFrames + 1) (Words.u32 (size - anmfChunkSize))
    (d.mem.skip anmfChunkSize) (readAnmf d.mem) with ⟨status, mem', f⟩
  unfold parseAnimationFrame at h
  cases hn : newFrame d.mem anmfChunkSize size <;> simp only [hn, hs] at h
  case needMoreData => cases h
  case error => cases h
  case ok =>
    split_ifs at h with harea hpast hstore hstore
    · cases h
    · exact absurd rfl hstore.1
    · cases h
    all_goals
      obtain ⟨rfl, rfl⟩ := Prod.mk.inj h
      obtain ⟨⟨a, i, hinv⟩, hbuf, hsame⟩ := storeFrame_ok (.init _ _ _ rfl rfl rfl rfl) hs
    · obtain ⟨hx, hy, hd⟩ := readAnmf_facts d.mem hsame
      have hnum : f.frameNum = d.numFrames + 1 := by
        rcases hinv.num with h | h
        · omega
        · exact h
      exact (hi.withMem hbuf).addFrame ⟨hx, hy, hd, hnum, _, a, i, hinv⟩
    · exact hi.withMem hbuf

theorem parseSingleImage_ok (hi : AnimInv d₀ d) (hanim : ¬ hasFlag d.featureFlags animationFlag)
    (h : parseSingleImage d = (.ok, d')) : AnimInv d₀ d' := by
  rcases hs : storeFrame 1 0 d.mem {} with ⟨status, mem', f⟩
  unfold parseSingleImage at h
  simp only [hs, hi.ext, Bool.not_true, Bool.false_eq_true, false_and, if_false] at h
  split_ifs at h
  any_goals cases h
  all_goals
    cases status <;> cases h
    have hbuf := (storeFrame_ok (.init _ _ _ rfl rfl rfl rfl) hs).2.1
    exact ⟨hi.flags, hi.width, hi.height, rfl, hbuf.trans hi.buf, fun ha => absurd ha hanim⟩

theorem parseVP8XChunk_ok {anim anim' fourcc size : ℕ} (hi : AnimInv d₀ d)
    (h : parseVP8XChunk d anim fourcc size = some (.ok, d', anim')) : AnimInv d₀ d' := by
  unfold parseVP8XChunk at h
  dsimp only at h
  have hskip : AnimInv d₀ { d with mem := d.mem.skip size } := hi.withMem rfl
  have hback : AnimInv d₀ { d with mem := d.mem.rewind chunkHeaderSize } := hi.withMem rfl
  split_ifs at h with _ _ himg _ _ _ _ _ _ hanmf
  · rcases hp : parseSingleImage { d with mem := d.mem.rewind chunkHeaderSize } with ⟨status, e⟩
    simp only [hp, Option.some.injEq, Prod.mk.injEq] at h
    obtain ⟨rfl, rfl, rfl⟩ := h
    exact parseSingleImage_ok hback (fun ha => himg (.inr ha)) hp
  · cases h
  · cases h
    exact ⟨hi.flags, hi.width, hi.height, hi.ext, hi.buf,
      fun ha => ⟨(hi.frames ha).count, (hi.frames ha).frames⟩⟩
  · cases h
    exact hskip
  · cases h
  · rcases hp : parseAnimationFrame d size with ⟨status, e⟩
    simp only [hp, Option.some.injEq, Prod.mk.injEq] at h
    obtain ⟨rfl, rfl, rfl⟩ := h
    exact parseAnimationFrame_ok hi hp
  · cases h
    exact hskip
  · cases h

theorem parseVP8XChunksLoop_ok : ∀ {fuel anim : ℕ} {d : WebPDemuxer}, AnimInv d₀ d →
    parseVP8XChunksLoop fuel d anim = (.ok, d') → AnimInv d₀ d'
  | 0, _, _, _, h => by cases h
  | fuel + 1, anim, d, hi, h => by
    have hmem : AnimInv d₀ { d with mem := d.mem.skip chunkHeaderSize } := hi.withMem rfl
    rw [parseVP8XChunksLoop] at h
    split_ifs at h
    · cases h
    · cases h
    · split at h
      · cases h
      · rename_i status e anim' hc
        split_ifs at h with h1 h2 h3
        · obtain ⟨rfl, rfl⟩ := Prod.mk.inj h
          exact parseVP8XChunk_ok hmem hc
        · cases h
        · subst h3
          exact parseVP8XChunksLoop_ok (parseVP8XChunk_ok hmem hc) h
        · exact absurd (Prod.mk.inj h).1 h3

end

/-! ### Accepted animations -/

/-- The demuxer accepts the file, and it is an animation. -/
structure Accepted (data : WebPData) (dmux : WebPDemuxer) : Prop where
  demux : webPDemux data = some dmux
  animation : hasFlag dmux.featureFlags animationFlag

/-- The canvas in numbers. -/
structure CanvasFacts (dmux : WebPDemuxer) : Prop where
  width : 0 < dmux.canvasWidth ∧ dmux.canvasWidth ≤ 2 ^ 24
  height : 0 < dmux.canvasHeight ∧ dmux.canvasHeight ≤ 2 ^ 24
  area : dmux.canvasWidth * dmux.canvasHeight < 2 ^ 32

/-- `ParseVP8X` of a file with the animation flag. -/
theorem parseVP8XFile_ok {mem : MemBuffer} {dmux : WebPDemuxer}
    (h : parseVP8XFile (.init mem) = (.ok, dmux)) (hanim : hasFlag dmux.featureFlags animationFlag) :
    CanvasFacts dmux ∧ FramesFacts dmux := by
  unfold parseVP8XFile at h
  dsimp only at h
  split_ifs at h with _ _ _ _ harea
  any_goals cases h
  have hi := parseVP8XChunksLoop_ok (AnimInv.refl rfl rfl rfl) h
  have hw := getLE24_lt mem.buf (mem.start + chunkHeaderSize + 4)
  have hh := getLE24_lt mem.buf (mem.start + chunkHeaderSize + 7)
  refine ⟨⟨?_, ?_, ?_⟩, hi.frames hanim⟩
  · rw [hi.width]
    simp only [WebPDemuxer.init, MemBuffer.skip]
    omega
  · rw [hi.height]
    simp only [WebPDemuxer.init, MemBuffer.skip]
    omega
  · rw [hi.width, hi.height]
    exact lt_of_not_ge harea

/-- The state of the demuxer does not enter the facts. -/
theorem checkParsed_ok {valid : WebPDemuxer → Bool} {r : ParseStatus × WebPDemuxer}
    {dmux : WebPDemuxer} (h : checkParsed valid r = some dmux) :
    ∃ d, r = (.ok, d) ∧ dmux = { d with state := .done } ∧ valid dmux := by
  obtain ⟨status, d⟩ := r
  cases status <;> simp only [checkParsed] at h
  · split_ifs at h with hv
    cases h
    exact ⟨d, rfl, rfl, hv⟩
  · cases h
  · cases h

/-- A file without a VP8X chunk is no animation. -/
theorem no_animation {d : WebPDemuxer} (h : d.featureFlags = 0 ∨ d.featureFlags = alphaFlag) :
    ¬ hasFlag d.featureFlags animationFlag := by
  rcases h with h | h <;> rw [h] <;> decide

theorem parseSingleImage_flags {mem : MemBuffer} {d : WebPDemuxer}
    (h : parseSingleImage (.init mem) = (.ok, d)) :
    d.featureFlags = 0 ∨ d.featureFlags = alphaFlag := by
  rcases hs : storeFrame 1 0 mem {} with ⟨status, mem', f⟩
  unfold parseSingleImage at h
  simp only [WebPDemuxer.init, hs] at h
  split_ifs at h <;> cases status <;> simp only [Prod.mk.injEq, reduceCtorEq, false_and] at h
  obtain ⟨-, rfl⟩ := h
  have hite : ∀ (p q : Prop) [Decidable p] [Decidable q], (if p then if q then alphaFlag else 0
      else 0) = 0 ∨ (if p then if q then alphaFlag else 0 else 0) = alphaFlag := by
    intro p q _ _
    split_ifs <;> simp
  simp only [WebPDemuxer.addFrame, apply_ite WebPDemuxer.featureFlags, Nat.zero_or]
  exact hite _ _

theorem createRawImageDemuxer_flags {mem : MemBuffer} {d : WebPDemuxer}
    (h : createRawImageDemuxer mem = some d) : d.featureFlags = 0 ∨ d.featureFlags = alphaFlag := by
  unfold createRawImageDemuxer at h
  split at h
  · cases h
    dsimp only
    split_ifs <;> simp
  · cases h

/-- An accepted animation went through `ParseVP8X` and its checks. -/
theorem Accepted.parsed {data : WebPData} {dmux : WebPDemuxer} (h : Accepted data dmux) :
    ∃ mem d, (readHeader (.init data) = (.ok, mem) ∧ isTag mem.buf mem.start tagVP8X) ∧
      parseVP8XFile (.init mem) = (.ok, d) ∧ dmux = { d with state := .done } ∧
      isValidExtendedFormat dmux := by
  obtain ⟨hd, ha⟩ := h
  unfold webPDemux at hd
  split_ifs at hd
  split at hd
  · exact absurd ha (no_animation (createRawImageDemuxer_flags hd))
  · cases hd
  · rename_i mem hr
    split_ifs at hd with hfit hsimple hvp8x
    · obtain ⟨d, hp, hs, -⟩ := checkParsed_ok hd
      have hflags : dmux.featureFlags = d.featureFlags := by rw [hs]
      exact absurd ha (no_animation (hflags ▸ parseSingleImage_flags hp))
    · obtain ⟨d, hp, rfl, hv⟩ := checkParsed_ok hd
      exact ⟨mem, d, ⟨hr, hvp8x⟩, hp, rfl, hv⟩

section

variable {data : WebPData} {dmux : WebPDemuxer}

/-- The canvas of an accepted animation. -/
theorem Accepted.canvas (h : Accepted data dmux) : CanvasFacts dmux := by
  obtain ⟨mem, d, -, hp, rfl, -⟩ := h.parsed
  have := (parseVP8XFile_ok hp h.animation).1
  exact ⟨this.width, this.height, this.area⟩

/-- The frames are numbered from 1 on, in their order. -/
theorem Accepted.numbered (h : Accepted data dmux) : FramesFacts dmux := by
  obtain ⟨mem, d, -, hp, rfl, -⟩ := h.parsed
  have := (parseVP8XFile_ok hp h.animation).2
  exact ⟨this.count, this.frames⟩

theorem areValidFrames_mem {f : Frame} : ∀ {l : List Frame}, areValidFrames dmux l → f ∈ l →
    ∃ last, isValidFrame dmux f last
  | g :: l, h, hf => by
    simp only [areValidFrames, Bool.and_eq_true] at h
    rcases List.mem_cons.mp hf with rfl | hf
    · exact ⟨_, h.1⟩
    · exact areValidFrames_mem h.2 hf

/-- A frame in the canvas, with all its data there. -/
structure FrameInCanvas (dmux : WebPDemuxer) (f : Frame) : Prop where
  complete : f.complete
  width : 0 < f.width
  height : 0 < f.height
  right : f.xOffset + f.width ≤ dmux.canvasWidth
  bottom : f.yOffset + f.height ≤ dmux.canvasHeight
  order : f.alpha.size = 0 ∨ f.alpha.offset ≤ f.image.offset

/-- Every frame of an accepted animation passed the checks. -/
theorem Accepted.frame (h : Accepted data dmux) {f : Frame} (hf : f ∈ dmux.frames) :
    FrameInCanvas dmux f := by
  obtain ⟨mem, d, -, -, hs, hv⟩ := h.parsed
  have hstate : dmux.state = .done := by rw [hs]
  have hvalid : areValidFrames dmux dmux.frames := by
    simp only [isValidExtendedFormat, hstate, reduceCtorEq, if_false] at hv
    split_ifs at hv
    exact hv
  obtain ⟨last, hf⟩ := areValidFrames_mem hvalid hf
  simp only [isValidFrame, checkFrameBounds, hstate, h.animation, Bool.not_true,
    Bool.false_eq_true, false_and, if_false, true_or, and_true] at hf
  split_ifs at hf with hdata hcomplete hbounds
  simp only [hcomplete, true_and, not_or, not_and, not_lt, not_le] at hdata
  obtain ⟨-, horder, hw, hh⟩ := hdata
  simp only [hw, hh, true_and, Bool.not_eq_true', decide_eq_false_iff_not, not_not] at hbounds
  exact ⟨hcomplete, hw, hh, by omega, by omega, by omega⟩

end

end WebPlugin
