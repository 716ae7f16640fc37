/-
# The headers of a frame

The data of a complete frame, its ALPH chunk and its image chunk, parses as a
picture of the frame's own size (`Accepted.headers`), so `WebPDecode` sees the
width and height the demuxer recorded. `IterFacts` collects what is known of
every iterator an accepted animation yields.
-/
import WebPlugin.DemuxFacts

namespace WebPlugin

/-! ### Picture data without a container -/

section

variable {d : WebPData} {headers : Option Bool}

/-- A tag is one tag only. -/
theorem isTag_of {b : ℕ → UInt8} {i tag : ℕ} (h : getLE32 b i = tag) (t : ℕ) :
    isTag b i t = decide (tag = t) := by
  simp [isTag, h, beq_eq_decide]

/-- Data that starts with an image chunk. -/
theorem parseHeaders_image (hsize : 12 ≤ d.size)
    (htag : getLE32 d.bytes 0 = tagVP8 ∨ getLE32 d.bytes 0 = tagVP8L) :
    parseHeadersInternal d headers =
      parseImageHeader d (headers.getD false) 0 none headers {} false := by
  have h12 : ¬ d.size < riffHeaderSize := by simp [riffHeaderSize]; omega
  have h8 : ¬ d.size < chunkHeaderSize := by simp [chunkHeaderSize]; omega
  have h4 : ¬ d.size < tagSize := by simp [tagSize]; omega
  have htags : isTag d.bytes 0 tagRIFF = false ∧ isTag d.bytes 0 tagVP8X = false ∧
      isTag d.bytes 0 tagALPH = false := by
    rcases htag with h | h <;> simp only [isTag_of h] <;> decide
  obtain ⟨h1, h2, h3⟩ := htags
  have hf : hasFlag 0 alphaFlag = false ∧ hasFlag 0 animationFlag = false := by decide
  simp [parseHeadersInternal, parseRIFF, parseVP8X, h12, h8, h4, h1, h2, h3, hf.1, hf.2]

/-- Data that starts with an ALPH chunk, followed by an image chunk. -/
theorem parseHeaders_alpha {n : ℕ} (htag : getLE32 d.bytes 0 = tagALPH)
    (hsmall : getLE32 d.bytes 4 ≤ maxChunkPayload)
    (hn : n = chunkHeaderSize + (getLE32 d.bytes 4 + (getLE32 d.bytes 4 &&& 1)))
    (hsize : n + 8 ≤ d.size)
    (htag' : getLE32 d.bytes n = tagVP8 ∨ getLE32 d.bytes n = tagVP8L)
    (hsmall' : getLE32 d.bytes (n + 4) ≤ maxChunkPayload) :
    parseHeadersInternal d headers =
      parseImageHeader (d.skip n) (headers.getD false) 0 none headers {} true := by
  have hn8 : 8 ≤ n := hn ▸ Nat.le_add_right _ _
  have h12 : ¬ d.size < riffHeaderSize := by simp [riffHeaderSize]; omega
  have h8 : ¬ d.size < chunkHeaderSize := by simp [chunkHeaderSize]; omega
  have h4 : ¬ d.size < tagSize := by simp [tagSize]; omega
  have htags : isTag d.bytes 0 tagRIFF = false ∧ isTag d.bytes 0 tagVP8X = false ∧
      isTag d.bytes 0 tagALPH = true := by
    simp only [isTag_of htag]
    decide
  obtain ⟨h1, h2, h3⟩ := htags
  have hf : hasFlag 0 alphaFlag = false ∧ hasFlag 0 animationFlag = false := by decide
  have hdisk : (chunkHeaderSize + getLE32 d.bytes 4 + 1) / 2 * 2 = n := by
    rw [hn, Nat.and_one_is_mod]
    simp only [chunkHeaderSize]
    omega
  have hopt : parseOptionalChunks d 0 = (.ok, d.skip n, true) := by
    have hv : isTag d.bytes 0 tagVP8 = false ∧ isTag d.bytes 0 tagVP8L = false := by
      simp only [isTag_of htag]
      decide
    have hv' : isTag (d.skip n).bytes 0 tagVP8 ∨ isTag (d.skip n).bytes 0 tagVP8L := by
      simpa [isTag, getLE32, getLE16] using htag'
    have hsmall₂ : getLE32 (d.skip n).bytes 4 ≤ maxChunkPayload := hsmall'
    obtain ⟨m, hm⟩ : ∃ m, d.size + 1 = m + 1 + 1 := ⟨d.size - 1, by omega⟩
    rw [parseOptionalChunks, hm, skipOptionalChunks]
    simp only [tagSize, hdisk, h8, hv.1, hv.2, h3, not_lt.mpr hsmall, if_false, lt_irrefl, false_and,
      Bool.false_eq_true, or_self, Bool.false_or, show ¬ d.size < n by omega]
    rw [skipOptionalChunks]
    simp only [tagSize, hv', not_lt.mpr hsmall₂, if_true, if_false, lt_irrefl, false_and,
      WebPData.skip_size, chunkHeaderSize, show ¬ d.size - n < 8 by omega]
  simp [parseHeadersInternal, parseRIFF, parseVP8X, h12, h8, h4, h1, h2, h3, hf.1, hf.2, hopt]

/-- The header of an image chunk that is all there. -/
theorem parseVP8Header_complete (h8 : 8 ≤ d.size)
    (htag : getLE32 d.bytes 0 = tagVP8 ∨ getLE32 d.bytes 0 = tagVP8L)
    (hall : getLE32 d.bytes 4 ≤ d.size - 8) (all : Bool) :
    parseVP8Header d all 0 =
      .ok (d.skip chunkHeaderSize, getLE32 d.bytes 4, isTag d.bytes 0 tagVP8L) := by
  have htags : isTag d.bytes 0 tagVP8 = true ∨ isTag d.bytes 0 tagVP8L = true := by
    simpa [isTag] using htag
  have hsize : ¬ d.size < chunkHeaderSize := not_lt.mpr h8
  have hpay : ¬ (all ∧ d.size - chunkHeaderSize < getLE32 d.bytes 4) :=
    fun h => absurd h.2 (not_lt.mpr hall)
  simp only [parseVP8Header, hsize, htags, if_true, if_false, tagSize, hpay]
  rw [if_neg fun h => absurd h.1 (by decide)]

/-- A picture whose frame header was read without asking for all the data reads
the same when all the data are there. -/
theorem parseImageHeader_complete {alphaData : Bool} {g : WebPBitstreamFeatures} (h8 : 8 ≤ d.size)
    (htag : getLE32 d.bytes 0 = tagVP8 ∨ getLE32 d.bytes 0 = tagVP8L)
    (hall : getLE32 d.bytes 4 ≤ d.size - 8)
    (h : parseImageHeader d false 0 none none {} false = (.ok, g)) (all : Bool) :
    parseImageHeader d all 0 none headers {} alphaData =
      (.ok, { g with hasAlpha := g.hasAlpha || alphaData }) ∧ g.hasAnimation = false := by
  unfold parseImageHeader at h ⊢
  rw [parseVP8Header_complete h8 htag hall] at h ⊢
  simp only [returnWidthHeight, Option.isSome_none, Bool.false_eq_true, false_and, and_false, or_false,
    if_true, if_false, reduceCtorEq] at h ⊢
  generalize (if isTag d.bytes 0 tagVP8L = true then vp8lGetInfo (d.skip chunkHeaderSize) else _) =
    image at h ⊢
  split_ifs at h ⊢
  · cases h
  · cases h
  all_goals
    rcases image with _ | ⟨width, height, alpha⟩ <;> cases h <;>
      simp only [Bool.or_false, and_self]

end

/-! ### The data of a frame -/

/-- The headers of the picture `d` say it is `w × h`, no animation. -/
structure HeadersSay (d : WebPData) (w h : ℤ) : Prop where
  features : (webPGetFeatures d).1 = .ok
  headers : ∃ g, webPParseHeaders d = (.ok, g) ∧ g.width = w ∧ g.height = h

theorem HeadersSay.of_image {d e : WebPData} {g : WebPBitstreamFeatures} {alpha : Bool}
    (h : ∀ headers, parseHeadersInternal d headers =
      parseImageHeader e (headers.getD false) 0 none headers {} alpha) (h8 : 8 ≤ e.size)
    (htag : getLE32 e.bytes 0 = tagVP8 ∨ getLE32 e.bytes 0 = tagVP8L)
    (hall : getLE32 e.bytes 4 ≤ e.size - 8)
    (hg : parseImageHeader e false 0 none none {} false = (.ok, g)) :
    HeadersSay d g.width g.height := by
  have hc : ∀ headers all, parseImageHeader e all 0 none headers {} alpha =
      (.ok, { g with hasAlpha := g.hasAlpha || alpha }) ∧ g.hasAnimation = false :=
    fun _ all => parseImageHeader_complete h8 htag hall hg all
  refine ⟨?_, { g with hasAlpha := g.hasAlpha || alpha }, ?_, rfl, rfl⟩
  · rw [webPGetFeatures, h, (hc _ _).1]
  · rw [webPParseHeaders, h, (hc _ _).1]
    simp [(hc none true).2]

/-- The image chunk of a frame, as picture data of its own. -/
theorem ImageStored.parsed {buf : ℕ → UInt8} {f : Frame} (h : ImageStored buf f) :
    (getLE32 buf f.image.offset = tagVP8 ∨ getLE32 buf f.image.offset = tagVP8L) ∧
      getLE32 buf (f.image.offset + 4) ≤ maxChunkPayload ∧ 12 ≤ f.image.size ∧
      getLE32 buf (f.image.offset + 4) ≤ f.image.size - 8 ∧
      ∃ g, f.width = g.width ∧ f.height = g.height ∧
        parseImageHeader ⟨fun i => buf (f.image.offset + i), f.image.size⟩ false 0 none none {} false =
          (.ok, g) := by
  obtain ⟨hc, g, hg, hw, hh⟩ := h
  have htag := hc.imp ChunkAt.tag ChunkAt.tag
  have h12 : 12 ≤ f.image.size := by
    by_contra hlt
    rw [webPGetFeatures, parseHeadersInternal, if_pos (by simpa [riffHeaderSize] using hlt)] at hg
    cases hg
  rw [webPGetFeatures, parseHeaders_image h12 htag] at hg
  refine ⟨htag, hc.elim ChunkAt.small ChunkAt.small, h12, ?_, g, hw, hh, hg⟩
  have hs := hc.elim ChunkAt.size ChunkAt.size
  simp only [chunkHeaderSize] at hs
  omega

/-- The data of a stored frame parse as a picture of its size. -/
theorem FrameInv.headersSay {n : ℤ} {mem : MemBuffer} {start a i : ℕ} {f : Frame}
    (h : FrameInv n mem.buf start f a i) (hc : f.complete)
    (ho : f.alpha.size = 0 ∨ f.alpha.offset ≤ f.image.offset) :
    HeadersSay (getFramePayload mem f) f.width f.height := by
  have hi : 0 < i := Nat.pos_of_ne_zero fun h0 => by simp [(h.noImage h0).2] at hc
  obtain ⟨htag, hsmall, h12, hall, g, hw, hh, hg⟩ := (h.image hi).1.parsed
  rw [hw, hh]
  rcases Nat.eq_zero_or_pos a with ha | ha
  · -- The image chunk alone.
    have hz : ¬ 0 < f.alpha.size := by simp [h.noAlpha ha]
    rw [getFramePayload, if_neg hz]
    exact .of_image (fun _ => parseHeaders_image h12 htag) (h12.trans' (by norm_num)) htag hall hg
  · -- The ALPH chunk, then the image chunk.
    have halph := h.alpha ha
    have h8 := halph.size_pos
    have hnext : f.image.offset = f.alpha.offset + f.alpha.size := by
      rcases h.both ha hi with h | h <;> omega
    have hskip : (mem.sub f.alpha.offset (f.image.size + f.alpha.size)).skip f.alpha.size =
        ⟨fun i => mem.buf (f.image.offset + i), f.image.size⟩ := by
      simp only [MemBuffer.sub, WebPData.skip, hnext, Nat.add_assoc, Nat.add_sub_cancel]
    have hpay : getFramePayload mem f = mem.sub f.alpha.offset (f.image.size + f.alpha.size) := by
      simp [getFramePayload, hnext, h8.trans_lt' (by norm_num : 0 < 8)]
    rw [hpay]
    have hparse : ∀ headers, parseHeadersInternal
        (mem.sub f.alpha.offset (f.image.size + f.alpha.size)) headers =
          parseImageHeader ⟨fun i => mem.buf (f.image.offset + i), f.image.size⟩
            (headers.getD false) 0 none headers {} true := fun headers => by
      rw [← hskip]
      rw [hnext] at htag hsmall
      exact parseHeaders_alpha halph.tag halph.small halph.size
        (by simp only [MemBuffer.sub]; omega) htag hsmall
    exact .of_image hparse (h12.trans' (by norm_num)) htag hall hg

/-! ### Iterators -/

/-- What is known of an iterator over an accepted animation. -/
structure IterFacts (dmux : WebPDemuxer) (iter : WebPIterator) : Prop where
  x : 0 ≤ iter.xOffset
  y : 0 ≤ iter.yOffset
  width : 0 < iter.width
  height : 0 < iter.height
  right : iter.xOffset + iter.width ≤ dmux.canvasWidth
  bottom : iter.yOffset + iter.height ≤ dmux.canvasHeight
  duration : 0 ≤ iter.duration ∧ iter.duration < 2 ^ 24
  headers : HeadersSay iter.fragment iter.width iter.height

section

variable {data : WebPData} {dmux : WebPDemuxer} {iter : WebPIterator} {n : ℤ}

theorem Accepted.iterFacts (h : Accepted data dmux) {f : Frame} (hf : f ∈ dmux.frames) :
    IterFacts dmux (synthesizeFrame dmux f) := by
  have hc := h.frame hf
  obtain ⟨i, hi, rfl⟩ := List.mem_iff_getElem.mp hf
  obtain ⟨hx, hy, hd, -, start, a, k, hinv⟩ := h.numbered.frames i hi
  exact ⟨hx, hy, hc.width, hc.height, hc.right, hc.bottom, hd,
    hinv.headersSay hc.complete hc.order⟩

/-- What `WebPDemuxGetFrame` yields for a frame number. -/
theorem Accepted.of_getFrame (h : Accepted data dmux) (hn : 0 < n)
    (hg : webPDemuxGetFrame dmux n = some iter) : iter.frameNum = n ∧ IterFacts dmux iter := by
  unfold webPDemuxGetFrame at hg
  split_ifs at hg with h1 h2
  · omega
  · obtain ⟨f, hf, rfl⟩ := Option.map_eq_some_iff.mp hg
    have hnum := List.find?_some hf
    exact ⟨by simpa [synthesizeFrame] using hnum, h.iterFacts (List.mem_of_find?_eq_some hf)⟩

/-- Every frame number up to the frame count has its frame. -/
theorem Accepted.getFrame_isSome (h : Accepted data dmux) (hn : 0 < n) (hle : n ≤ dmux.numFrames) :
    ∃ iter, webPDemuxGetFrame dmux n = some iter := by
  have hcount := h.numbered.count
  have hi : n.toNat - 1 < dmux.frames.length := by omega
  have hnum := (h.numbered.frames _ hi).num
  have hfind : (dmux.frames.find? (·.frameNum = n)).isSome := by
    rw [List.find?_isSome]
    exact ⟨_, List.getElem_mem hi, by simp only [hnum, decide_eq_true_eq]; omega⟩
  obtain ⟨f, hf⟩ := Option.isSome_iff_exists.mp hfind
  refine ⟨synthesizeFrame dmux f, ?_⟩
  rw [webPDemuxGetFrame, if_neg (by omega), if_neg (by omega)]
  exact congrArg (Option.map _) hf

end

end WebPlugin
